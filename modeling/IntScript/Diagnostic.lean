import IntScript.Span
import IntScript.Diagnostic.Code

/-!
Diagnostics: what every phase reports when it gives up.

A diagnostic has an error code and a message, labels that point into the source, and notes and hints
that follow them. Every error is fatal, so there is no lesser severity.
-/

namespace IntScript

/-- A remark on a part of the source. The primary label is where the error is; a secondary one is
related to it. -/
structure Label where
  isPrimary : Bool
  span : Span
  message : String
deriving DecidableEq

/-- The report of an error. -/
structure Diagnostic where
  code : ErrorCode
  message : String
  labels : List Label
  notes : List String
  help : List String
deriving DecidableEq

namespace Diagnostic

def plain (code : ErrorCode) (message : String) : Diagnostic :=
  { code, message, labels := [], notes := [], help := [] }

def primarySpan? (diagnostic : Diagnostic) : Option Span :=
  (diagnostic.labels.find? (·.isPrimary)).map (·.span)

/-- The report as one text that needs no source: a header, and a line for each label, note and hint.
There is no line break at the end. -/
def summary (diagnostic : Diagnostic) : String :=
  let header := s!"error[{diagnostic.code.text}]: {diagnostic.message}"
  let labels := diagnostic.labels.map (fun label => s!"  --> {label.span.text}: {label.message}")
  let notes := diagnostic.notes.map ("  = note: " ++ ·)
  let help := diagnostic.help.map ("  = help: " ++ ·)
  "\n".intercalate (header :: (labels ++ notes ++ help))

end Diagnostic

end IntScript
