import IntScript.Diagnostic.Terminal
import IntScript.Proofs.Diagnostic.Lines
import IntScript.Proofs.Locations

/-! How a report underlines what it marks of a text. A column of a report is a character, and the length of
a span is in bytes. So a row of marks is as long as what it stands under, unless that is a character of
several bytes that is not the last of its line. -/
namespace IntScript

open Lexer

namespace Label

def marker (label : Label) : String :=
  if label.isPrimary then "-->" else ":::"

/-- The mark that underlines the part of a text that a label is about. -/
def mark (label : Label) : Char :=
  if label.isPrimary then '^' else '-'

/-- The margin before a line without a number, as wide as the number of the line above it. -/
def gutter (line : Nat) : String :=
  Terminal.row ' ' (toString line).length

/-- Marks under a part of a line, and the message. -/
def underline (label : Label) (line spaces count : Nat) : String :=
  gutter line ++ " | " ++ Terminal.row ' ' spaces ++ Terminal.row label.mark count ++ " " ++
    label.message

def heading (label : Label) (name : String) (line column : Nat) : String :=
  gutter line ++ label.marker ++ " " ++ name ++ ":" ++ toString line ++ ":" ++ toString column

/-- The place of a label, the line it is on, and marks under a part of that line. -/
def shown (label : Label) (name : String) (line : Nat) (text : List Char) (spaces count : Nat) : String :=
  label.heading name line (spaces + 1) ++ "\n" ++ gutter line ++ " |\n" ++
    toString line ++ " | " ++ String.ofList text ++ "\n" ++ label.underline line spaces count ++ "\n"

end Label

def underlineWidth (part after : List Char) : Nat :=
  max 1 (min (byteLength part) (part.length + (withoutReturns after).length))

/-- Bytes and characters are the same number only where every character takes one byte. -/
theorem byteLength_eq_length {part : List Char} (h : ∀ c ∈ part, c.utf8Size = 1) :
    byteLength part = part.length := by
  induction part with
  | nil => rfl
  | cons c part ih =>
      have hFirst := h c List.mem_cons_self
      have hOthers := ih (fun d hMem => h d (List.mem_cons_of_mem c hMem))
      have hSize : byteLength (c :: part) = c.utf8Size + byteLength part := rfl
      rw [hSize, hFirst, hOthers, List.length_cons, Nat.add_comm]

/-- Only a character of several bytes can have too many marks, and it has them as soon as another
character follows that the report shows. -/
theorem underlineWidth_eq_iff {part : List Char} (h : Solid part) (after : List Char) :
    underlineWidth part after = max 1 part.length ↔
      ¬ ∃ c, part = [c] ∧ 1 < c.utf8Size ∧ ∃ d ∈ after, d ≠ '\r' := by
  rcases h.2 with hNarrow | ⟨c, rfl⟩
  · have hWidth : underlineWidth part after = max 1 part.length := by
      rw [underlineWidth, byteLength_eq_length hNarrow, Nat.min_eq_left (Nat.le_add_right _ _)]
    refine iff_of_true hWidth ?_
    rintro ⟨c, rfl, hWide, -⟩
    have hOne := hNarrow c (List.mem_singleton_self c)
    omega
  · have hBehind : (∃ d ∈ after, d ≠ '\r') ↔ 0 < (withoutReturns after).length := by
      rw [List.length_pos_iff, Ne, withoutReturns_eq_nil_iff]
      simp only [not_forall, exists_prop]
    have hSize : byteLength [c] = c.utf8Size := rfl
    have hPositive := c.utf8Size_pos
    simp only [List.cons.injEq, and_true, exists_eq_left', hBehind, underlineWidth, hSize,
      List.length_singleton]
    omega

namespace Terminal

/-- What the report says of a label that marks a part of a line. -/
theorem write_sourceLabel {source : String} {label : Label} {passed before part after rest : List Char}
    (path : Option String) (hCut : LineTable.Cut source.toList passed (before ++ part ++ after) rest)
    (hPlaced : label.span.Places (passed ++ before) part) (hSolid : ∀ c ∈ part, isBlank c = false) :
    String.join ((sourceLabel (.ofSource source) path label).map (Segment.write false)) =
      label.shown (path.getD "<input>") (passed.count '\n' + 1)
        (withoutReturns (before ++ part ++ after)) before.length (underlineWidth part after) := by
  have hPosition : (LineTable.ofSource source).position label.span.first.toNat =
      (passed.count '\n' + 1, before.length + 1) := by
    rw [List.append_assoc] at hCut
    rw [hPlaced.first, LineTable.position_of_cut hCut]
  have hText := LineTable.text_of_cut hCut
  have hWidth : max 1 (min label.span.length ((withoutReturns (before ++ part ++ after)).length -
      before.length)) = underlineWidth part after := by
    have hLength : label.span.length = byteLength part := by
      rw [Span.length, hPlaced.first, hPlaced.limit, byteLength_append _ part, Nat.add_sub_cancel_left]
    rw [hLength, underlineWidth]
    by_cases hEmpty : part = []
    · rw [hEmpty]
      simp [byteLength]
    · have hLast : ∀ c ∈ (before ++ part).getLast?, c ≠ '\r' := by
        intro c hLast hReturn
        rw [List.getLast?_append_of_ne_nil before hEmpty] at hLast
        have hBlank := hSolid c (List.mem_of_getLast? hLast)
        rw [hReturn] at hBlank
        exact absurd hBlank (by decide)
      rw [withoutReturns_append hLast]
      simp only [List.length_append, Nat.add_assoc, Nat.add_sub_cancel_left]
  have hKind : (if label.isPrimary then ("-->", Style.error, '^') else (":::", Style.secondary, '-')) =
      (label.marker, if label.isPrimary then Style.error else Style.secondary, label.mark) := by
    rw [Label.marker, Label.mark]
    split <;> rfl
  simp only [sourceLabel, hPosition, hText, hKind, Nat.add_sub_cancel, hWidth, List.map_cons,
    List.map_nil, String.join_cons, String.join_nil, Segment.write, Segment.plain, Segment.styled,
    Label.shown, Label.heading, Label.underline, Label.gutter, toString, String.append_assoc, String.append_empty]

/-- The report of a diagnostic has what it says of each label. -/
theorem render_of_mem_labels (table : LineTable) (path : Option String) {diagnostic : Diagnostic}
    {label : Label} (h : label ∈ diagnostic.labels) :
    ∃ above below, render ⟨false, some table, path⟩ diagnostic =
      above ++ String.join ((sourceLabel table path label).map (Segment.write false)) ++ below := by
  obtain ⟨earlier, later, hMem⟩ := List.append_of_mem h
  have hLabel : sourceLabel table path label <:+:
      diagnostic.labels.flatMap (sourceLabel table path) := by
    rw [hMem, List.flatMap_append, List.flatMap_cons]
    exact List.infix_append' _ _ _
  have hLabels : diagnostic.labels.flatMap (sourceLabel table path) <:+:
      layout ⟨false, some table, path⟩ diagnostic := by
    rw [layout, List.append_assoc]
    exact List.infix_append _ _ _
  obtain ⟨front, back, hLayout⟩ := hLabel.trans hLabels
  refine ⟨String.join (front.map (Segment.write false)), String.join (back.map (Segment.write false)), ?_⟩
  rw [render, ← hLayout, List.map_append, List.map_append, String.join_append, String.join_append]

end Terminal

/-- The report about a text that is no program shows each of its labels: the line that it is on, and marks
under the part of that line. There are as many as the part has characters, and at least one, unless the part
is a character of several bytes and more is shown behind it. -/
theorem render_underlines {source : String} {table later : Interner} {error : SourceError} {label : Label}
    (path : Option String) (hSize : source.utf8ByteSize ≤ 4294967295)
    (h : parseSource source table = (.error error, later))
    (hLabel : label ∈ (error.diagnostic later).labels) :
    ∃ passed before part after rest above below,
      LineTable.Cut source.toList passed (before ++ part ++ after) rest ∧
        label.span.Places (passed ++ before) part ∧
        Terminal.render ⟨false, some (.ofSource source), path⟩ (error.diagnostic later) =
          above ++ label.shown (path.getD "<input>") (passed.count '\n' + 1)
            (withoutReturns (before ++ part ++ after)) before.length (underlineWidth part after) ++
            below ∧
        (underlineWidth part after = max 1 part.length ↔
          ¬ ∃ c, part = [c] ∧ 1 < c.utf8Size ∧ ∃ d ∈ after, d ≠ '\r') := by
  obtain ⟨front, part, back, hText, hPlaced, hSolid⟩ :=
    (parseSource_error_labelled hSize h).1.exists_part hSize hLabel
  have hPart : '\n' ∉ part := fun hMem => absurd (hSolid.1 _ hMem) (by decide)
  obtain ⟨passed, before, after, rest, rfl, rfl, hCut⟩ := LineTable.exists_cut front back hPart
  rw [← hText] at hCut
  obtain ⟨above, below, hReport⟩ := Terminal.render_of_mem_labels (.ofSource source) path hLabel
  rw [Terminal.write_sourceLabel path hCut hPlaced hSolid.1] at hReport
  exact ⟨passed, before, part, after, rest, above, below, hCut, hPlaced, hReport,
    underlineWidth_eq_iff hSolid after⟩

/-- A character of three bytes at the end of a line that ends with a carriage return. -/
theorem render_underlines_lastCharacter :
    let source := "x = \u20ac\r\n"
    let error : SourceError := .lexical (.invalidCharacter '\u20ac' ⟨4, 7⟩)
    let later : Interner := (Interner.initial.internAll ["x"]).2
    let label : Label := ⟨true, ⟨4, 7⟩, "not valid here"⟩
    source.utf8ByteSize ≤ 4294967295 ∧ parseSource source .initial = (.error error, later) ∧
      label ∈ (error.diagnostic later).labels ∧
      ∃ passed before part after rest above below,
        LineTable.Cut source.toList passed (before ++ part ++ after) rest ∧
          label.span.Places (passed ++ before) part ∧
          Terminal.render ⟨false, some (.ofSource source), none⟩ (error.diagnostic later) =
            above ++ label.shown "<input>" (passed.count '\n' + 1)
              (withoutReturns (before ++ part ++ after)) before.length (underlineWidth part after) ++
              below ∧
          (underlineWidth part after = max 1 part.length ↔
            ¬ ∃ c, part = [c] ∧ 1 < c.utf8Size ∧ ∃ d ∈ after, d ≠ '\r') := by
  have hError : parseSource "x = \u20ac\r\n" .initial =
      (.error (.lexical (.invalidCharacter '\u20ac' ⟨4, 7⟩)), (Interner.initial.internAll ["x"]).2) := by
    have hLex : lex "x = \u20ac\r\n" .initial =
        (.error (.invalidCharacter '\u20ac' ⟨4, 7⟩), (Interner.initial.internAll ["x"]).2) :=
      lex_eq_of_identifiers (by decide +kernel) (by decide +kernel)
    rw [parseSource, hLex]
  have hLabel : (⟨true, ⟨4, 7⟩, "not valid here"⟩ : Label) ∈
      ((SourceError.lexical (.invalidCharacter '\u20ac' ⟨4, 7⟩)).diagnostic
        (Interner.initial.internAll ["x"]).2).labels := List.mem_cons_self
  exact ⟨by decide, hError, hLabel, render_underlines none (by decide) hError hLabel⟩

/-- A character of two bytes with more of its line behind it has two marks. -/
theorem render_two_marks :
    let source := "\u00e9 = 1\n"
    let error : SourceError := .lexical (.invalidCharacter '\u00e9' ⟨0, 2⟩)
    let label : Label := ⟨true, ⟨0, 2⟩, "not valid here"⟩
    let report := Terminal.render ⟨false, some (.ofSource source), some "p"⟩ (error.diagnostic .initial)
    parseSource source .initial = (.error error, .initial) ∧
      (error.diagnostic .initial).labels = [label] ∧ label.span.Places [] ['\u00e9'] ∧
      report = "error[E0002]: invalid character `\u00e9`\n" ++
        " --> p:1:1\n  |\n1 | \u00e9 = 1\n  | ^^ not valid here\n" ∧
      label.underline 1 0 (max 1 ['\u00e9'].length) = "  | ^ not valid here" ∧
      ¬ "  | ^ not valid here".toList <:+: report.toList := by
  have hError : parseSource "\u00e9 = 1\n" .initial =
      (.error (.lexical (.invalidCharacter '\u00e9' ⟨0, 2⟩)), .initial) := by
    have hLex : lex "\u00e9 = 1\n" .initial =
        (.error (.invalidCharacter '\u00e9' ⟨0, 2⟩), (Interner.initial.internAll []).2) :=
      lex_eq_of_identifiers (by decide +kernel) (by decide +kernel)
    rw [parseSource, hLex]
    rfl
  have hReport : Terminal.render ⟨false, some (.ofSource "\u00e9 = 1\n"), some "p"⟩
      ((SourceError.lexical (.invalidCharacter '\u00e9' ⟨0, 2⟩)).diagnostic .initial) =
        "error[E0002]: invalid character `\u00e9`\n" ++
          " --> p:1:1\n  |\n1 | \u00e9 = 1\n  | ^^ not valid here\n" := by
    decide +kernel
  refine ⟨hError, rfl, ⟨rfl, rfl⟩, hReport, by decide +kernel, ?_⟩
  show ¬ _ <:+: (Terminal.render _ _).toList
  rw [hReport]
  decide +kernel

end IntScript
