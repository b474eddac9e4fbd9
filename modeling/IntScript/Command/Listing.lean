import IntScript.Diagnostic.LineTable
import IntScript.Interpreter
import IntScript.Program.Printer

/-!
What the commands make of a source text.
-/

namespace IntScript

namespace Listing

/-- A token as it is listed, with the text of an identifier or an integer. -/
def describe (names : Interner) : TokenKind Name → String
  | .identifier name => s!"identifier `{names.lookup name}`"
  | .integer value => s!"integer `{value}`"
  | kind => kind.describe

def tokenLine (names : Interner) (table : LineTable) (token : Token Name) : String :=
  let (line, column) := table.position token.span.first.toNat
  s!"{line}:{column} {describe names token.kind}\n"

/-- The tokens of a source text, one a line. -/
def tokens (source : String) : Except Diagnostic String :=
  match lex source Interner.initial with
  | (.error error, _) => .error error.diagnostic
  | (.ok tokens, names) =>
      .ok (String.join (tokens.map (tokenLine names (LineTable.ofSource source))))

def canonical (source : String) : Except Diagnostic String :=
  match parseSource source Interner.initial with
  | (.error error, names) => .error (error.diagnostic names)
  | (.ok block, names) => .ok (printBlock names block)

end Listing

namespace Interpreter

/-- How many steps a run may take: more than any machine gets to. -/
def stepLimit : Nat := 4611686018427387904

/-- Run a program with all the steps it needs. -/
def run (interpreter : Interpreter) (program : Block) (names : Interner) :
    Option (RunResult × Interpreter) × Interner :=
  interpreter.runWithin stepLimit program names

/-- Run a source text with the standard builtins. The output is kept if a fault ends the run, and
there is none if the text is no program. -/
def runSource (source : String) (limit : Option Nat) : Option (Except Diagnostic Unit × String) :=
  match parseSource source Interner.initial with
  | (.error error, names) => some (.error (error.diagnostic names), "")
  | (.ok block, names) =>
      match (Interpreter.new Builtins.standard limit).run block names with
      | (none, _) => none
      | (some (result, _), _) =>
          some (result.outcome.mapError Failure.diagnostic, result.history.output)

end Interpreter

end IntScript
