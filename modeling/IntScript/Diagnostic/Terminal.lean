import IntScript.Diagnostic
import IntScript.Diagnostic.LineTable

/-!
Diagnostics as text for a terminal.

A report is first laid out as segments, each with a style or without one. Writing them in plain text
drops the styles; writing them in colour puts an escape sequence before a styled segment and the
reset sequence after it. So colour never changes what the report says.

Several reports go through one emitter, which writes them piece by piece.
-/

namespace IntScript

inductive ColorMode where
  /-- If the text goes to a terminal. -/
  | auto
  | always
  | never
deriving DecidableEq

namespace ColorMode

def applies (mode : ColorMode) (isTerminal : Bool) : Bool :=
  match mode with
  | auto => isTerminal
  | always => true
  | never => false

def ofText? : String → Option ColorMode
  | "auto" => some auto
  | "always" => some always
  | "never" => some never
  | _ => none

end ColorMode

/-- How a part of a report stands out. -/
inductive Style where
  | error
  | note
  | help
  | strong
  | secondary
deriving DecidableEq

namespace Style

def escape : Style → String
  | error => "\x1b[1;31m"
  | note => "\x1b[1;36m"
  | help => "\x1b[1;32m"
  | strong => "\x1b[1m"
  | secondary => "\x1b[1;34m"

def reset : String := "\x1b[0m"

end Style

structure Segment where
  style : Option Style
  text : String
deriving DecidableEq

namespace Segment

def plain (text : String) : Segment := ⟨none, text⟩

def styled (style : Style) (text : String) : Segment := ⟨some style, text⟩

def write (colors : Bool) (segment : Segment) : String :=
  match segment.style, colors with
  | some style, true => style.escape ++ segment.text ++ Style.reset
  | _, _ => segment.text

end Segment

/-- A source text to show labels in, with the name to call it by. -/
structure Terminal where
  colors : Bool
  source : Option LineTable
  path : Option String

namespace Terminal

def row (c : Char) (count : Nat) : String :=
  String.ofList (List.replicate count c)

/-- A label without a source: its span in bytes, and the message. -/
def bareLabel (label : Label) : List Segment :=
  let (marker, style) := if label.isPrimary then ("-->", Style.error) else (":::", Style.secondary)
  [.plain s!"  {marker} {label.span.text}: ", .styled style label.message, .plain "\n"]

/-- A label in its source: where it is, the line, and the message under a row of marks. The marks
cover the part of the span that lies on the line, and at least one column. -/
def sourceLabel (table : LineTable) (path : Option String) (label : Label) : List Segment :=
  let (line, column) := table.position label.span.first.toNat
  let name := path.getD "<input>"
  let gutter := row ' ' (toString line).length
  let text := table.text line
  let width := max 1 (min label.span.length (text.length - (column - 1)))
  let (marker, style, mark) :=
    if label.isPrimary then ("-->", Style.error, '^') else (":::", Style.secondary, '-')
  [ .plain s!"{gutter}{marker} ",
    .styled .strong s!"{name}:{line}:{column}",
    .plain ("\n" ++ gutter ++ " |\n" ++ toString line ++ " | " ++ String.ofList text ++ "\n" ++
      gutter ++ " | " ++ row ' ' (column - 1)),
    .styled style (row mark width ++ " " ++ label.message),
    .plain "\n" ]

def remark (style : Style) (title message : String) : List Segment :=
  [.plain "  = ", .styled style title, .plain s!": {message}\n"]

def layout (terminal : Terminal) (diagnostic : Diagnostic) : List Segment :=
  let header :=
    [ .styled .error "error",
      .styled .strong s!"[{diagnostic.code.text}]",
      .plain s!": {diagnostic.message}\n" ]
  let label :=
    match terminal.source with
    | none => bareLabel
    | some table => sourceLabel table terminal.path
  header ++ diagnostic.labels.flatMap label ++
    diagnostic.notes.flatMap (remark .note "note") ++
    diagnostic.help.flatMap (remark .help "help")

def render (terminal : Terminal) (diagnostic : Diagnostic) : String :=
  String.join ((terminal.layout diagnostic).map (Segment.write terminal.colors))

end Terminal

/-- A terminal with what was written to it so far. The source is taken out while a label is written. -/
structure Emitter extends Terminal where
  written : String

namespace Emitter

def fresh (terminal : Terminal) : Emitter :=
  { terminal with written := "" }

def write (emitter : Emitter) (text : String) : Emitter :=
  { emitter with written := emitter.written ++ text }

def writeStyled (emitter : Emitter) (style : Style) (text : String) : Emitter :=
  if emitter.colors then
    emitter.write (style.escape ++ text ++ Style.reset)
  else
    emitter.write text

/-- The number one below another. Nothing is below zero. -/
def below? : Nat → Option Nat
  | 0 => none
  | number + 1 => some number

def writeHeader (emitter : Emitter) (diagnostic : Diagnostic) : Emitter :=
  let emitter := emitter.writeStyled .error "error"
  let emitter := emitter.writeStyled .strong s!"[{diagnostic.code.text}]"
  emitter.write s!": {diagnostic.message}\n"

/-- Write a label, in its source if there is one. Lines and columns are counted from one, so both are
counted down before something is looked up or indented; there is no result if that is impossible. -/
def writeLabel (emitter : Emitter) (label : Label) : Option Emitter :=
  let style := if label.isPrimary then Style.error else Style.secondary
  let marker := if label.isPrimary then "-->" else ":::"
  match emitter.source with
  | none =>
      let emitter := emitter.write s!"  {marker} {label.span.text}: "
      let emitter := emitter.writeStyled style label.message
      some (emitter.write "\n")
  | some table => do
      let emitter := { emitter with source := none }
      let (line, column) := table.position label.span.first.toNat
      let _ ← below? line
      let indent ← below? column
      let name := emitter.path.getD "<input>"
      let gutter := Terminal.row ' ' (toString line).length
      let emitter := emitter.write s!"{gutter}{marker} "
      let emitter := emitter.writeStyled .strong s!"{name}:{line}:{column}"
      let emitter := emitter.write "\n"
      let emitter := emitter.write s!"{gutter} |\n"
      let emitter := emitter.write s!"{line} | {String.ofList (table.text line)}\n"
      let width := max 1 (min label.span.length ((table.text line).length - indent))
      let marks := Terminal.row (if label.isPrimary then '^' else '-') width
      let emitter := emitter.write (gutter ++ " | " ++ Terminal.row ' ' indent)
      let emitter := emitter.writeStyled style s!"{marks} {label.message}"
      let emitter := emitter.write "\n"
      some { emitter with source := some table }

def writeLabels (emitter : Emitter) (labels : List Label) : Option Emitter :=
  labels.foldlM writeLabel emitter

def writeRemark (style : Style) (title : String) (emitter : Emitter) (message : String) : Emitter :=
  let emitter := emitter.write "  = "
  let emitter := emitter.writeStyled style title
  emitter.write s!": {message}\n"

def emit (emitter : Emitter) (diagnostic : Diagnostic) : Option Emitter := do
  let emitter ← (emitter.writeHeader diagnostic).writeLabels diagnostic.labels
  let emitter := diagnostic.notes.foldl (writeRemark .note "note") emitter
  return diagnostic.help.foldl (writeRemark .help "help") emitter

def emitAll (emitter : Emitter) (diagnostics : List Diagnostic) : Option Emitter :=
  diagnostics.foldlM emit emitter

end Emitter

/-- What one emitter writes of diagnostics. There is no text if it cannot write them all. -/
def Terminal.renderAll (terminal : Terminal) (diagnostics : List Diagnostic) : String :=
  match (Emitter.fresh terminal).emitAll diagnostics with
  | some emitter => emitter.written
  | none => ""

/-- The report of a diagnostic about a source text that has a path. -/
def Diagnostic.render (diagnostic : Diagnostic) (source path : String) (mode : ColorMode)
    (isTerminal : Bool) : String :=
  let terminal : Terminal :=
    { colors := mode.applies isTerminal
      source := some (LineTable.ofSource source)
      path := some path }
  terminal.render diagnostic

end IntScript
