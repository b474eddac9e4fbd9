import IntScript.Proofs.Diagnostic.Emitting

/-! Colour in reports. A control sequence is the escape character, a bracket, and what follows up to an `m`.
Where no escape character is in what is reported, the control sequences of a report in colour are one for
each segment that stands out, and a reset after it; without them the text is the report in plain text. -/
namespace IntScript

def Escapeless (text : String) : Prop :=
  '\x1b' ∉ text.toList

instance (text : String) : Decidable (Escapeless text) :=
  inferInstanceAs (Decidable ('\x1b' ∉ text.toList))

inductive Piece where
  | sequence (text : List Char)
  | character (c : Char)

namespace Piece

/-- The control sequence that the text begins with, if it does, and what stands behind it. -/
def sequence? : List Char → Option (List Char × List Char)
  | '\x1b' :: '[' :: text =>
      match text.dropWhile (· != 'm') with
      | [] => none
      | last :: rest => some ('\x1b' :: '[' :: text.takeWhile (· != 'm') ++ [last], rest)
  | _ => none

/-- The rest of the text is shorter, and this is why cutting ends. -/
theorem length_sequence? {text taken rest : List Char} (h : sequence? text = some (taken, rest)) :
    rest.length < text.length := by
  unfold sequence? at h
  split at h
  next text =>
    split at h
    next => cases h
    next last behind hDrop =>
      cases h
      have hLength := (List.dropWhile_sublist (p := (· != 'm')) (l := text)).length_le
      rw [hDrop] at hLength
      simp only [List.length_cons] at hLength ⊢
      omega
  next => cases h

/-- Cut a text into control sequences and the characters between them. -/
def split (text : List Char) : List Piece :=
  match _h : sequence? text with
  | some (taken, rest) => .sequence taken :: split rest
  | none =>
      match text with
      | [] => []
      | c :: text => .character c :: split text
termination_by text.length
decreasing_by
  · exact length_sequence? _h
  · exact Nat.lt_succ_self _

def character? : Piece → Option Char
  | sequence _ => none
  | character c => some c

def control? : Piece → Option (List Char)
  | sequence text => some text
  | character _ => none

end Piece

def withoutSequences (text : String) : List Char :=
  (Piece.split text.toList).filterMap Piece.character?

def sequences (text : String) : List (List Char) :=
  (Piece.split text.toList).filterMap Piece.control?

namespace Piece

theorem split_nil : split [] = [] := by
  rw [split]
  rfl

/-- A character that does not begin a sequence is a piece of its own. -/
theorem split_cons {c : Char} (h : c ≠ '\x1b') (text : List Char) :
    split (c :: text) = .character c :: split text := by
  have hNone : sequence? (c :: text) = none := by
    unfold sequence?
    split
    next hText => exact absurd (List.cons.inj hText).1 h
    next => rfl
  rw [split]
  split
  next hSome => rw [hNone] at hSome; cases hSome
  next => rfl

/-- Text without an escape character is cut into its characters. -/
theorem split_append {front : List Char} (h : '\x1b' ∉ front) (text : List Char) :
    split (front ++ text) = front.map .character ++ split text := by
  induction front with
  | nil => rfl
  | cons c front ih =>
      rw [List.mem_cons, not_or] at h
      rw [List.cons_append, split_cons (Ne.symm h.1), ih h.2, List.map_cons, List.cons_append]

/-- A control sequence in front is cut off. -/
theorem split_sequence {body : List Char} (h : 'm' ∉ body) (text : List Char) :
    split ('\x1b' :: '[' :: body ++ 'm' :: text) =
      .sequence ('\x1b' :: '[' :: body ++ ['m']) :: split text := by
  have hBody : ∀ c ∈ body, (c != 'm') = true := fun c hMem =>
    bne_iff_ne.mpr (fun hSame => h (hSame ▸ hMem))
  have hSome : sequence? ('\x1b' :: '[' :: body ++ 'm' :: text) =
      some ('\x1b' :: '[' :: body ++ ['m'], text) := by
    simp [sequence?, List.dropWhile_append_of_pos hBody, List.takeWhile_append_of_pos hBody]
  rw [split]
  split
  next taken rest hTaken =>
    rw [hSome] at hTaken
    cases hTaken
    rfl
  next hNone =>
    rw [hSome] at hNone
    cases hNone

end Piece

namespace Segment

def pieces (segment : Segment) : List Piece :=
  let characters := segment.text.toList.map .character
  match segment.style with
  | none => characters
  | some style => .sequence style.escape.toList :: characters ++ [.sequence Style.reset.toList]

end Segment

/-- Every style is written as one well-formed sequence, which ends with its only final character. -/
theorem Style.escape_eq (style : Style) :
    ∃ body, style.escape.toList = '\x1b' :: '[' :: body ++ ['m'] ∧ 'm' ∉ body := by
  cases style with
  | error => exact ⟨"1;31".toList, by decide, by decide⟩
  | note => exact ⟨"1;36".toList, by decide, by decide⟩
  | help => exact ⟨"1;32".toList, by decide, by decide⟩
  | strong => exact ⟨"1".toList, by decide, by decide⟩
  | secondary => exact ⟨"1;34".toList, by decide, by decide⟩

/-- A terminal takes the sequence of a style as a whole, whatever is written behind it. -/
theorem Style.split_escape (style : Style) (text : List Char) :
    Piece.split (style.escape.toList ++ text) = .sequence style.escape.toList :: Piece.split text := by
  obtain ⟨body, hEscape, hBody⟩ := style.escape_eq
  rw [hEscape, List.append_assoc]
  exact Piece.split_sequence hBody text

theorem Style.split_reset (text : List Char) :
    Piece.split (Style.reset.toList ++ text) = .sequence Style.reset.toList :: Piece.split text := by
  have hBody : 'm' ∉ ['0'] := by decide
  exact Piece.split_sequence hBody text

namespace Segment

/-- A segment in colour is its text with a control sequence on either side if it stands out. -/
theorem split_write {segment : Segment} (h : Escapeless segment.text) (text : List Char) :
    Piece.split ((segment.write true).toList ++ text) = segment.pieces ++ Piece.split text := by
  obtain ⟨style, content⟩ := segment
  cases style with
  | none => exact Piece.split_append h text
  | some style =>
      simp only [write, pieces, String.toList_append, List.append_assoc, List.cons_append,
        List.nil_append, Style.split_escape, Piece.split_append h, Style.split_reset]

/-- Without its sequences a segment in colour is the text that it has without colour. -/
theorem filterMap_character?_pieces (segment : Segment) :
    segment.pieces.filterMap Piece.character? = segment.text.toList := by
  have hCharacters (text : List Char) :
      (text.map Piece.character).filterMap Piece.character? = text := by
    rw [List.filterMap_map]
    exact List.filterMap_some
  obtain ⟨style, text⟩ := segment
  cases style with
  | none => exact hCharacters text.toList
  | some style =>
      rw [pieces, List.filterMap_append, List.filterMap_cons_none rfl, hCharacters]
      exact List.append_nil _

theorem filterMap_control?_characters (text : List Char) :
    (text.map Piece.character).filterMap Piece.control? = [] := by
  rw [List.filterMap_map, List.filterMap_eq_nil_iff]
  exact fun _ _ => rfl

/-- The control sequences of a style and of the reset after it. -/
theorem filterMap_control?_pieces (segment : Segment) :
    segment.pieces.filterMap Piece.control? =
      segment.style.toList.flatMap (fun style => [style.escape.toList, Style.reset.toList]) := by
  obtain ⟨style, text⟩ := segment
  cases style with
  | none => exact filterMap_control?_characters text.toList
  | some style =>
      simp only [pieces, List.filterMap_append, List.filterMap_cons, Piece.control?,
        filterMap_control?_characters]
      rfl

/-- Segments do not run into each other. This is where the texts must hold no escape character, for
such a one could swallow what comes next. -/
theorem split_join {segments : List Segment} (h : ∀ segment ∈ segments, Escapeless segment.text) :
    Piece.split (String.join (segments.map (write true))).toList = segments.flatMap pieces := by
  induction segments with
  | nil => exact Piece.split_nil
  | cons segment segments ih =>
      rw [List.forall_mem_cons] at h
      rw [List.map_cons, String.join_cons, String.toList_append, split_write h.1, ih h.2,
        List.flatMap_cons]

end Segment

theorem escapeless_append {first second : String} :
    Escapeless (first ++ second) ↔ Escapeless first ∧ Escapeless second := by
  rw [Escapeless, String.toList_append, List.mem_append, not_or]
  rfl

theorem escapeless_toString_string (text : String) : Escapeless (toString text) ↔ Escapeless text :=
  Iff.rfl

theorem escapeless_toString (number : Nat) : Escapeless (toString number) := by
  intro hMem
  rw [Nat.toString_eq_repr, Nat.toList_repr] at hMem
  exact absurd (Nat.isDigit_of_mem_toDigits (by decide) (by decide) hMem) (by decide)

theorem Terminal.escapeless_row {c : Char} (h : c ≠ '\x1b') (count : Nat) : Escapeless (row c count) := by
  rw [Escapeless, row, String.toList_ofList, List.mem_replicate]
  exact fun hMem => h hMem.2.symm

/-- A line is a part of the source, so it holds no character that the source does not hold. -/
theorem LineTable.escapeless_text {source : String} (h : Escapeless source) (line : Nat) :
    Escapeless (String.ofList ((ofSource source).text line)) := by
  rw [Escapeless, String.toList_ofList]
  intro hMem
  cases line with
  | zero => cases hMem
  | succ index =>
      rw [text] at hMem
      split at hMem
      next => cases hMem
      next start hStart =>
        have hSlice := (List.dropWhile_sublist _).mem (List.mem_reverse.mp hMem)
        rw [List.mem_reverse] at hSlice
        generalize hPart : slice? _ _ _ = part at hSlice
        cases part with
        | none => cases hSlice
        | some part => exact h (mem_of_mem_slice? hPart hSlice)

theorem ErrorCode.escapeless_text (code : ErrorCode) : Escapeless code.text := by
  cases code <;> exact fun hMem => absurd hMem (by decide)

theorem Span.escapeless_text (span : Span) : Escapeless span.text := by
  simp only [text, escapeless_append]
  exact ⟨⟨escapeless_toString _, by decide⟩, escapeless_toString _⟩

namespace Terminal

theorem escapeless_bareLabel {label : Label} (h : Escapeless label.message) :
    ∀ segment ∈ bareLabel label, Escapeless segment.text := by
  cases hPrimary : label.isPrimary <;>
    simp only [bareLabel, hPrimary, List.forall_mem_cons, Segment.plain, Segment.styled,
      escapeless_append, escapeless_toString_string, label.span.escapeless_text, h, if_true,
      Bool.false_eq_true, if_false, true_and, and_true] <;>
    exact ⟨by decide, by decide, List.forall_mem_nil _⟩

/-- Besides the source, its path and the message, a label puts only numbers and frame characters
into the report. -/
theorem escapeless_sourceLabel {source : String} {path : Option String} {label : Label}
    (hSource : Escapeless source) (hPath : ∀ name ∈ path, Escapeless name)
    (hMessage : Escapeless label.message) :
    ∀ segment ∈ sourceLabel (.ofSource source) path label, Escapeless segment.text := by
  have hName : Escapeless (path.getD "<input>") := by
    cases path with
    | none => decide
    | some name => exact hPath name rfl
  have hSpaces (count : Nat) : Escapeless (row ' ' count) := escapeless_row (by decide) count
  have hCarets (count : Nat) : Escapeless (row '^' count) := escapeless_row (by decide) count
  have hDashes (count : Nat) : Escapeless (row '-' count) := escapeless_row (by decide) count
  have hText (line : Nat) := LineTable.escapeless_text hSource line
  cases hPrimary : label.isPrimary <;>
    simp only [sourceLabel, hPrimary, List.forall_mem_cons, Segment.plain, Segment.styled,
      escapeless_append, escapeless_toString_string, escapeless_toString, hName, hSpaces, hCarets,
      hDashes, hText, hMessage, if_true, Bool.false_eq_true, if_false, true_and, and_true] <;>
    exact ⟨by decide, by decide, by decide, by decide, by decide, List.forall_mem_nil _⟩

theorem escapeless_remark {style : Style} {title message : String} (hTitle : Escapeless title)
    (hMessage : Escapeless message) :
    ∀ segment ∈ remark style title message, Escapeless segment.text := by
  simp only [remark, List.forall_mem_cons, Segment.plain, Segment.styled, escapeless_append,
    escapeless_toString_string, hTitle, hMessage, true_and, and_true]
  exact ⟨by decide, by decide, List.forall_mem_nil _⟩

end Terminal

/-- The texts that a diagnostic brings into its report. -/
def Diagnostic.texts (diagnostic : Diagnostic) : List String :=
  diagnostic.message :: diagnostic.labels.map (·.message) ++ diagnostic.notes ++ diagnostic.help

/-- Whatever in a report is not from outside is without escape characters. -/
theorem Terminal.escapeless_layout {colors : Bool} {source path : Option String} {diagnostic : Diagnostic}
    (hSource : ∀ text ∈ source, Escapeless text) (hPath : ∀ name ∈ path, Escapeless name)
    (hTexts : ∀ text ∈ diagnostic.texts, Escapeless text) :
    ∀ segment ∈ layout ⟨colors, source.map LineTable.ofSource, path⟩ diagnostic,
      Escapeless segment.text := by
  simp only [Diagnostic.texts, List.forall_mem_append, List.forall_mem_cons, List.forall_mem_map] at hTexts
  obtain ⟨⟨⟨hMessage, hLabels⟩, hNotes⟩, hHelp⟩ := hTexts
  have hHeader : ∀ segment ∈ headerLayout diagnostic, Escapeless segment.text := by
    simp only [headerLayout, List.forall_mem_cons, Segment.plain, Segment.styled, escapeless_append,
      escapeless_toString_string, diagnostic.code.escapeless_text, hMessage, and_true]
    exact ⟨by decide, by decide, by decide, List.forall_mem_nil _⟩
  have hLabel : ∀ label ∈ diagnostic.labels, ∀ segment ∈
      labelLayout ⟨colors, source.map LineTable.ofSource, path⟩ label, Escapeless segment.text := by
    intro label hMem
    cases source with
    | none => exact escapeless_bareLabel (hLabels label hMem)
    | some text => exact escapeless_sourceLabel (hSource text rfl) hPath (hLabels label hMem)
  rw [layout_eq]
  intro segment hSegment
  simp only [List.mem_append, List.mem_flatMap] at hSegment
  rcases hSegment with ((hFirst | ⟨label, hMem, hIn⟩) | ⟨note, hMem, hIn⟩) | ⟨help, hMem, hIn⟩
  · exact hHeader segment hFirst
  · exact hLabel label hMem segment hIn
  · exact escapeless_remark (by decide) (hNotes note hMem) segment hIn
  · exact escapeless_remark (by decide) (hHelp help hMem) segment hIn

theorem Segment.write_false : Segment.write false = Segment.text := by
  funext segment
  obtain ⟨style, text⟩ := segment
  cases style <;> rfl

/-- Where no escape character is in what is reported, a report in colour is the one in plain text with each
segment that stands out between a control sequence for its style and a reset. These are its only control
sequences, so each style ends before the next one begins, and deleting them gives the plain text. -/
theorem renderAll_colored {source path : Option String} {diagnostics : List Diagnostic}
    (hSource : ∀ text ∈ source, Escapeless text) (hPath : ∀ name ∈ path, Escapeless name)
    (hTexts : ∀ diagnostic ∈ diagnostics, ∀ text ∈ diagnostic.texts, Escapeless text) :
    let plain : Terminal := ⟨false, source.map LineTable.ofSource, path⟩
    let colored : Terminal := ⟨true, source.map LineTable.ofSource, path⟩
    let segments := diagnostics.flatMap plain.layout
    withoutSequences (colored.renderAll diagnostics) = (plain.renderAll diagnostics).toList ∧
    (∀ segment ∈ segments, Escapeless segment.text) ∧
    plain.renderAll diagnostics = String.join (segments.map (·.text)) ∧
    colored.renderAll diagnostics = String.join (segments.map (fun segment =>
      match segment.style with
      | none => segment.text
      | some style => style.escape ++ segment.text ++ Style.reset)) ∧
    sequences (plain.renderAll diagnostics) = [] ∧
    sequences (colored.renderAll diagnostics) = (segments.filterMap (·.style)).flatMap
      (fun style => [style.escape.toList, Style.reset.toList]) := by
  intro plain colored segments
  have hSegments : ∀ segment ∈ segments, Escapeless segment.text := by
    intro segment hSegment
    obtain ⟨diagnostic, hMem, hIn⟩ := List.mem_flatMap.mp hSegment
    exact Terminal.escapeless_layout hSource hPath (hTexts diagnostic hMem) segment hIn
  have hPlain : plain.renderAll diagnostics = String.join (segments.map (·.text)) := by
    rw [Emitter.renderAll_eq, Segment.write_false]
  have hColored : colored.renderAll diagnostics = String.join (segments.map (Segment.write true)) :=
    Emitter.renderAll_eq colored diagnostics
  have hEscapeless : Escapeless (plain.renderAll diagnostics) := by
    rw [hPlain, Escapeless, String.toList_join, List.flatMap_map, List.mem_flatMap]
    rintro ⟨segment, hMem, hIn⟩
    exact hSegments segment hMem hIn
  have hPieces : Piece.split (plain.renderAll diagnostics).toList =
      (plain.renderAll diagnostics).toList.map .character := by
    have hSplit := Piece.split_append hEscapeless []
    rwa [Piece.split_nil, List.append_nil, List.append_nil] at hSplit
  refine ⟨?_, hSegments, hPlain, ?_, ?_, ?_⟩
  · rw [withoutSequences, hColored, Segment.split_join hSegments, List.filterMap_flatMap, hPlain,
      String.toList_join, List.flatMap_map]
    simp only [Segment.filterMap_character?_pieces]
  · rw [hColored]
    refine congrArg String.join (List.map_congr_left (fun segment _ => ?_))
    obtain ⟨style, text⟩ := segment
    cases style <;> rfl
  · rw [sequences, hPieces, Segment.filterMap_control?_characters]
  · rw [sequences, hColored, Segment.split_join hSegments, List.filterMap_flatMap]
    simp only [Segment.filterMap_control?_pieces]
    rw [List.filterMap_eq_flatMap_toList]
    exact List.flatMap_assoc.symm

/-- Two labels in a text with a character of two bytes: one ends before it begins, inside that character,
and the other begins behind the text. -/
theorem renderAll_colored_strangeLabels :
    let diagnostic : Diagnostic :=
      ⟨.invalidCharacter, "no", [⟨true, ⟨1, 0⟩, "here"⟩, ⟨false, ⟨90, 95⟩, "there"⟩], ["seen"], ["drop"]⟩
    let plain : Terminal := ⟨false, some (.ofSource "\u00e9 = 1\n"), some "p"⟩
    let colored : Terminal := ⟨true, some (.ofSource "\u00e9 = 1\n"), some "p"⟩
    let segments := [diagnostic].flatMap plain.layout
    Escapeless "\u00e9 = 1\n" ∧ Escapeless "p" ∧ (∀ text ∈ diagnostic.texts, Escapeless text) ∧
    withoutSequences (colored.renderAll [diagnostic]) = (plain.renderAll [diagnostic]).toList ∧
    (∀ segment ∈ segments, Escapeless segment.text) ∧
    plain.renderAll [diagnostic] = String.join (segments.map (·.text)) ∧
    colored.renderAll [diagnostic] = String.join (segments.map (fun segment =>
      match segment.style with
      | none => segment.text
      | some style => style.escape ++ segment.text ++ Style.reset)) ∧
    sequences (plain.renderAll [diagnostic]) = [] ∧
    sequences (colored.renderAll [diagnostic]) = (segments.filterMap (·.style)).flatMap
      (fun style => [style.escape.toList, Style.reset.toList]) := by
  intro diagnostic
  have hSource : ∀ text ∈ some "\u00e9 = 1\n", Escapeless text := by decide
  have hPath : ∀ name ∈ some "p", Escapeless name := by decide
  have hTexts : ∀ text ∈ diagnostic.texts, Escapeless text := by decide
  have hRow : ∀ other ∈ [diagnostic], ∀ text ∈ other.texts, Escapeless text := by
    rintro _ (_ | ⟨_, ⟨⟩⟩)
    exact hTexts
  have hReport := renderAll_colored hSource hPath hRow
  exact ⟨hSource _ rfl, hPath _ rfl, hTexts, hReport⟩

end IntScript
