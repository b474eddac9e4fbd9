import IntScript.Command.FileTree
import IntScript.Command.Listing
import IntScript.Command.Options

/-!
The command line: what is to be done for given arguments, and what comes of it.
-/

namespace IntScript

inductive Command where
  | run
  | lex
  | parse
deriving DecidableEq

namespace Command

def word : Command → String
  | run => "run"
  | lex => "lex"
  | parse => "parse"

def ofWord? : String → Option Command
  | "run" => some run
  | "lex" => some lex
  | "parse" => some parse
  | _ => none

/-- What came of a listing, and what is written of it: the whole text or nothing. -/
def written : Except Diagnostic String → Except Diagnostic Unit × String
  | .ok text => (.ok (), text)
  | .error diagnostic => (.error diagnostic, "")

/-- What a command makes of a source text: what it writes, also before an error. There is nothing if
a run takes more steps than a run may. -/
def apply (command : Command) (source : String) (limit : Option Nat) :
    Option (Except Diagnostic Unit × String) :=
  match command with
  | run => Interpreter.runSource source limit
  | lex => some (written (Listing.tokens source))
  | parse => some (written (Listing.canonical source))

end Command

structure Outcome where
  stdout : String
  stderr : String
  exitCode : UInt32

namespace Outcome

def success (text : String) : Outcome := ⟨text, "", 0⟩

def failure (report : String) : Outcome := ⟨"", report, 1⟩

end Outcome

namespace CommandLine

def version : String := "0.1.0"

def usage : String :=
  "Exp interpreter " ++ version ++ "

Usage: exp <command> [options]

Commands:
  run <file.exp>       Run a program
  lex <file.exp>       Print the token stream
  parse <file.exp>     Print the parsed program as canonical source
  <file.exp>           Shorthand for `run`
  help                 Show this help message
  version              Show version information

Options:
  --max-depth=<n>      Limit nested function calls (default " ++ toString CallStack.defaultLimit ++
    ", or `unlimited`)
  --color=<mode>       Diagnostic colors: auto, always, never

Set EXP_LOG=<filter> (e.g. EXP_LOG=exp_eval=trace) to enable tracing on stderr.
"

/-- The part of a file name after its last dot, unless the dot is its first character. -/
def extension? (fileName : String) : Option (List Char) :=
  let reversed := fileName.toList.reverse
  match reversed.dropWhile (· != '.') with
  | [] | [_] => none
  | _ => some (reversed.takeWhile (· != '.')).reverse

/-- The last component of a path that names something. -/
def fileName? (path : String) : Option String :=
  match ((pathComponents path).filter (fun part => part ≠ "" ∧ part ≠ ".")).getLast? with
  | some ".." => none
  | name? => name?

/-- Whether a word in the place of a command is the path of a program. -/
def isProgramPath (word : String) : Bool :=
  match (fileName? word).bind extension? with
  | some letters => letters.map Char.toLower == "exp".toList
  | none => false

inductive Request where
  /-- An answer that needs no file. -/
  | answer (outcome : Outcome)
  /-- A command on a file. -/
  | file (command : Command) (options : Options)

namespace Request

def ofOptions (command : Command) (arguments : List String) : Request :=
  match Options.ofArguments arguments with
  | .ok options => .file command options
  | .error error =>
      .answer (.failure
        s!"error: {error.message}\nUsage: exp {command.word} <file.exp> [options]\n")

/-- What arguments ask for. A path in the place of the command stands for running it. -/
def ofArguments : List String → Request
  | [] => .answer (.success usage)
  | word :: arguments =>
      match Command.ofWord? word with
      | some command => ofOptions command arguments
      | none =>
          if word ∈ ["help", "--help", "-h"] then
            .answer (.success usage)
          else if word ∈ ["version", "--version", "-V"] then
            .answer (.success s!"exp {version}\n")
          else if isProgramPath word then
            ofOptions .run (word :: arguments)
          else
            .answer (.failure s!"Unknown command: {word}\n\n{usage}")

end Request

/-- Do a command on a file, given what came of reading it. The report of an error goes to a pipe, so
it is in colour only on demand. -/
def process (command : Command) (options : Options) (content : Except ReadError String) :
    Option Outcome :=
  match content with
  | .error error => some (.failure s!"error: cannot read '{options.path}': {error.message}\n")
  | .ok source =>
      (command.apply source options.maxDepth).map fun (result, text) =>
        match result with
        | .ok () => .success text
        | .error diagnostic =>
            ⟨text, diagnostic.render source options.path options.color false, 1⟩

def execute (tree : FileTree) (arguments : List String) : Option Outcome :=
  match Request.ofArguments arguments with
  | .answer outcome => some outcome
  | .file command options => process command options (tree.read options.path)

end CommandLine

end IntScript
