import IntScript.Diagnostic
import IntScript.Token

/-!
Why a row of tokens is no program.
-/

namespace IntScript

inductive IdentifierRole where
  | functionName
  | parameterName
  | variableName
deriving DecidableEq

namespace IdentifierRole

def text : IdentifierRole → String
  | functionName => "function name"
  | parameterName => "parameter name"
  | variableName => "variable name"

end IdentifierRole

/-- The first thing that keeps a row of tokens from being a program. Each error knows the token it
was found at; the end of the row counts as one. -/
inductive ParseError where
  /-- A delimiter had to stand here. -/
  | expectedDelimiter (expected : Delimiter) (found : Token Name)
  /-- An expression had to start here. -/
  | expectedExpression (found : Token Name)
  /-- The tokens end before the delimiter at `opened` is closed. -/
  | unclosedDelimiter (opener : Delimiter) (opened : Span) (limit : Span)
  /-- An identifier had to stand here. -/
  | expectedIdentifier (role : IdentifierRole) (found : Token Name)
deriving DecidableEq

namespace ParseError

/-- A token as an error message names it, with the text of an identifier or an integer. -/
def describe (names : Interner) (token : Token Name) : String :=
  match token.kind with
  | .identifier name => s!"identifier `{names.lookup name}`"
  | .integer value => s!"integer literal `{value}`"
  | kind => kind.describe

def code : ParseError → ErrorCode
  | expectedDelimiter _ _ => .unexpectedToken
  | expectedExpression _ => .expectedExpression
  | unclosedDelimiter _ _ _ => .unclosedDelimiter
  | expectedIdentifier _ _ => .expectedIdentifier

def span : ParseError → Span
  | expectedDelimiter _ found => found.span
  | expectedExpression found => found.span
  | unclosedDelimiter _ _ limit => limit
  | expectedIdentifier _ found => found.span

def message (names : Interner) : ParseError → String
  | expectedDelimiter expected found =>
      s!"expected `{expected.spelling}`, found {describe names found}"
  | expectedExpression found => s!"expected expression, found {describe names found}"
  | unclosedDelimiter opener _ _ => s!"unclosed delimiter `{opener.spelling}`"
  | expectedIdentifier role found => s!"expected {role.text}, found {describe names found}"

def label : ParseError → String
  | expectedDelimiter expected _ => s!"expected `{expected.spelling}`"
  | expectedExpression _ => "expected expression"
  | unclosedDelimiter _ _ _ => "input ends here"
  | expectedIdentifier role _ => s!"expected {role.text}"

/-- The place of the delimiter that is not closed, with a remark on it. -/
def related? : ParseError → Option (Span × String)
  | unclosedDelimiter opener opened _ => some (opened, s!"`{opener.spelling}` opened here")
  | _ => none

def diagnostic (names : Interner) (error : ParseError) : Diagnostic :=
  let secondary :=
    match error.related? with
    | some (span, message) => [⟨false, span, message⟩]
    | none => []
  { code := error.code
    message := error.message names
    labels := ⟨true, error.span, error.label⟩ :: secondary
    notes := []
    help := [] }

end ParseError

end IntScript
