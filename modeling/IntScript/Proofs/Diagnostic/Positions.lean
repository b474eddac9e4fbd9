import IntScript.Proofs.Diagnostic.Lines

/-! Every offset has a line and a column. The line counts the line feeds among the bytes before the offset,
whatever the offset is; between two characters of the text the column counts the characters on the line
before it, so the pair tells the offset, and pairs are ordered as offsets are. -/
namespace IntScript

open Lexer

namespace LineTable

variable {text : List Char}

/-- There is one line more than there are line feeds. -/
theorem length_splitOn (text : List Char) : (text.splitOn '\n').length = text.count '\n' + 1 := by
  induction text with
  | nil => rfl
  | cons c text ih =>
      rw [List.splitOn_cons_eq_if_modifyHead, List.count_cons]
      split
      next => rw [List.length_cons, ih]
      next => rw [List.length_modifyHead, ih, Nat.add_zero]

/-- The table has as many lines as the text has pieces between line feeds, an empty last one
included. -/
theorem size_offsets (source : String) :
    (ofSource source).offsets.size = (source.toList.splitOn '\n').length := by
  rw [← Array.length_toList, offsets_ofSource, List.length_cons, length_startsAfter, count_feed_bytes,
    length_splitOn]

/-- A character in front of a text stands before the same lines, unless it is the first of one. -/
theorem Cut.cons {passed line rest : List Char} {c : Char} (h : Cut text passed line rest)
    (hFirst : passed = [] → c = '\n') : Cut (c :: text) (c :: passed) line rest where
  whole := by rw [h.whole, List.cons_append, List.cons_append]
  begins d hLast := by
    cases passed with
    | nil =>
        cases hLast
        exact hFirst rfl
    | cons e passed => exact h.begins d hLast
  solid := h.solid
  ends := h.ends

/-- Nothing stands before a line that no line feed stands before. -/
theorem Cut.eq_nil_of_count {passed line rest : List Char} (h : Cut text passed line rest)
    (hCount : passed.count '\n' = 0) : passed = [] := by
  refine List.getLast?_eq_none_iff.mp (Option.eq_none_iff_forall_ne_some.mpr (fun last hLast => ?_))
  exact List.count_eq_zero.mp hCount (h.begins last hLast ▸ List.mem_of_getLast? hLast)

/-- The pieces between line feeds are lines, each behind as many line feeds as there are pieces before it. -/
theorem exists_cut_of_piece {index : Nat} {piece : List Char}
    (h : (text.splitOn '\n')[index]? = some piece) :
    ∃ passed rest, Cut text passed piece rest ∧ passed.count '\n' = index := by
  induction text generalizing index piece with
  | nil =>
      cases index with
      | zero =>
          cases h
          exact ⟨[], [], ⟨rfl, nofun, List.not_mem_nil, nofun⟩, rfl⟩
      | succ index => cases h
  | cons c text ih =>
      rw [List.splitOn_cons_eq_if_modifyHead] at h
      split at h
      next hFeed =>
        obtain rfl := beq_iff_eq.mp hFeed
        cases index with
        | zero =>
            cases h
            exact ⟨[], '\n' :: text, ⟨rfl, nofun, List.not_mem_nil, by simp⟩, rfl⟩
        | succ index =>
            obtain ⟨passed, rest, hCut, rfl⟩ := ih h
            exact ⟨'\n' :: passed, rest, hCut.cons (fun _ => rfl), List.count_cons_self⟩
      next hOther =>
        have hOther : c ≠ '\n' := fun hSame => hOther (beq_iff_eq.mpr hSame)
        rw [List.getElem?_modifyHead] at h
        cases index with
        | zero =>
            obtain ⟨first, hPiece, rfl⟩ := Option.map_eq_some_iff.mp h
            obtain ⟨passed, rest, hCut, hCount⟩ := ih hPiece
            obtain rfl := hCut.eq_nil_of_count hCount
            exact ⟨[], rest, ⟨by rw [hCut.whole]; rfl, nofun,
              List.not_mem_cons_of_ne_of_not_mem (Ne.symm hOther) hCut.solid, hCut.ends⟩, rfl⟩
        | succ index =>
            obtain ⟨passed, rest, hCut, hCount⟩ := ih h
            refine ⟨c :: passed, rest, hCut.cons (fun hNil => ?_), ?_⟩
            · rw [hNil] at hCount
              cases hCount
            · rw [List.count_cons_of_ne hOther, hCount]

end LineTable

/-- A line is what is left of it, and the carriage returns that it ends with. -/
theorem withoutReturns_spec (line : List Char) :
    ∃ returns, line = withoutReturns line ++ List.replicate returns '\r' ∧
      ∀ c ∈ (withoutReturns line).getLast?, c ≠ '\r' := by
  have hSplit : line = withoutReturns line ++ (line.reverse.takeWhile (· == '\r')).reverse := by
    rw [withoutReturns, ← List.reverse_append, List.takeWhile_append_dropWhile, List.reverse_reverse]
  have hReturns : ∀ c ∈ line.reverse.takeWhile (· == '\r'), c = '\r' :=
    fun c hMem => by simpa using List.mem_takeWhile_imp hMem
  refine ⟨(line.reverse.takeWhile (· == '\r')).length, ?_, fun c hLast => ?_⟩
  · rwa [List.eq_replicate_iff.mpr ⟨rfl, hReturns⟩, List.reverse_replicate] at hSplit
  · rw [withoutReturns, List.getLast?_reverse] at hLast
    have hKept := List.head?_dropWhile_not (· == '\r') line.reverse
    rw [hLast] at hKept
    simpa using hKept

def unfinished (text : List Char) : List Char :=
  (text.reverse.takeWhile (· != '\n')).reverse

/-- One position is on an earlier line than another, or before it on the same line. -/
def Precedes (place other : Nat × Nat) : Prop :=
  place.1 < other.1 ∨ place.1 = other.1 ∧ place.2 < other.2

theorem Precedes.irrefl (place : Nat × Nat) : ¬ Precedes place place := by
  rintro (hLess | ⟨-, hLess⟩) <;> exact Nat.lt_irrefl _ hLess

namespace LineTable

theorem unfinished_append {front : List Char} (hSolid : '\n' ∉ front) (passed : List Char) :
    unfinished (passed ++ front) = unfinished passed ++ front := by
  have hFront : ∀ c ∈ front.reverse, (c != '\n') = true := by
    intro c hMem
    rw [bne_iff_ne]
    rintro rfl
    exact hSolid (List.mem_reverse.mp hMem)
  rw [unfinished, List.reverse_append, List.takeWhile_append_of_pos hFront, List.reverse_append,
    List.reverse_reverse, unfinished]

theorem unfinished_of_begins {passed : List Char} (h : ∀ c ∈ passed.getLast?, c = '\n') :
    unfinished passed = [] := by
  rw [unfinished]
  cases hReverse : passed.reverse with
  | nil => rfl
  | cons c others =>
      have hLast : c = '\n' := h c (by simp [← List.head?_reverse, hReverse])
      simp [hLast]

/-- Between two characters, the line counts the line feeds before, and the column the characters behind the
last of them. -/
theorem position_between {source : String} {before : List Char} (h : before <+: source.toList) :
    (ofSource source).position (byteLength before) =
      (before.count '\n' + 1, (unfinished before).length + 1) := by
  obtain ⟨after, hText⟩ := h
  obtain ⟨passed, front, back, rest, rfl, rfl, hCut⟩ :=
    exists_cut before after (List.not_mem_nil : '\n' ∉ ([] : List Char))
  rw [List.append_nil, hText, List.append_nil] at hCut
  have hSolid : '\n' ∉ front := fun hMem => hCut.solid (List.mem_append_left back hMem)
  rw [position_of_cut hCut, unfinished_append hSolid, unfinished_of_begins hCut.begins, List.nil_append,
    List.count_append, List.count_eq_zero.mpr hSolid, Nat.add_zero]

/-- Later places have later lines, or later columns on the same line. -/
theorem position_precedes {source : String} {before other : List Char}
    (hBefore : before <+: source.toList) (hOther : other <+: source.toList)
    (hLess : byteLength before < byteLength other) :
    Precedes ((ofSource source).position (byteLength before))
      ((ofSource source).position (byteLength other)) := by
  have hPrefix : before <+: other := by
    rcases List.prefix_or_prefix_of_prefix hBefore hOther with hFront | ⟨more, rfl⟩
    · exact hFront
    · rw [byteLength_append] at hLess
      exact absurd hLess (Nat.not_lt_of_le (Nat.le_add_right _ _))
  obtain ⟨more, rfl⟩ := hPrefix
  rw [position_between hBefore, position_between hOther, List.count_append]
  by_cases hFeed : '\n' ∈ more
  · have hMore := List.count_pos_iff.mpr hFeed
    exact Or.inl (Nat.succ_lt_succ (Nat.lt_add_of_pos_right hMore))
  · have hSome : more ≠ [] := by
      rintro rfl
      rw [List.append_nil] at hLess
      exact Nat.lt_irrefl _ hLess
    rw [List.count_eq_zero.mpr hFeed, unfinished_append hFeed, List.length_append]
    exact Or.inr ⟨rfl, Nat.succ_lt_succ (Nat.lt_add_of_pos_right (List.length_pos_of_ne_nil hSome))⟩

/-- Two different offsets of characters are never reported as the same place. -/
theorem position_injective {source : String} {before other : List Char}
    (hBefore : before <+: source.toList) (hOther : other <+: source.toList)
    (hSame : (ofSource source).position (byteLength before) =
      (ofSource source).position (byteLength other)) : byteLength before = byteLength other := by
  rcases Nat.lt_trichotomy (byteLength before) (byteLength other) with hLess | hEqual | hMore
  · exact absurd (hSame ▸ position_precedes hBefore hOther hLess) (Precedes.irrefl _)
  · exact hEqual
  · exact absurd (hSame ▸ position_precedes hOther hBefore hMore) (Precedes.irrefl _)

/-- No line has a number that is too large. -/
theorem lineAt_le (source : String) (offset : Nat) :
    (ofSource source).lineAt offset ≤ (source.toList.splitOn '\n').length := by
  rw [lineAt_eq, length_splitOn, ← count_feed_bytes]
  exact Nat.succ_le_succ ((List.take_sublist _ _).count_le _)

/-- The text of a line is its piece, without the carriage returns at the end. -/
theorem text_of_piece {source : String} {index : Nat} {piece : List Char}
    (h : (source.toList.splitOn '\n')[index]? = some piece) :
    (ofSource source).text (index + 1) = withoutReturns piece := by
  obtain ⟨passed, rest, hCut, rfl⟩ := exists_cut_of_piece h
  exact text_of_cut hCut

/-- A line that does not exist is empty. Line zero is one of these, for lines are counted from one. -/
theorem text_of_none {source : String} {line : Nat}
    (h : line = 0 ∨ (source.toList.splitOn '\n').length < line) : (ofSource source).text line = [] := by
  cases line with
  | zero => rfl
  | succ index =>
      have hNone : (ofSource source).offsets[index]? = none :=
        Array.getElem?_eq_none (by rw [size_offsets]; omega)
      rw [text, hNone]

/-- The line of an offset is one more than the number of line feeds among the bytes before it, for every
offset, and there is a line with this number. Between two characters, the column is one more than the number
of characters behind the last line feed; such places have different positions, in the same order. The text
of a line is its piece of the source, cut at the line feeds, up to the carriage returns it ends with, and no
other number has a text. -/
theorem position_exact (source : String) :
    (∀ offset, (ofSource source).lineAt offset =
      1 + (source.toByteArray.data.toList.take offset).count feed) ∧
    (∀ before, before <+: source.toList → (ofSource source).position (byteLength before) =
      ((ofSource source).lineAt (byteLength before), (unfinished before).length + 1)) ∧
    (∀ before other, before <+: source.toList → other <+: source.toList →
      ((ofSource source).position (byteLength before) = (ofSource source).position (byteLength other) →
        byteLength before = byteLength other) ∧
      (byteLength before < byteLength other →
        Precedes ((ofSource source).position (byteLength before))
          ((ofSource source).position (byteLength other)))) ∧
    (ofSource source).offsets.size = (source.toList.splitOn '\n').length ∧
    (∀ offset, ((ofSource source).position offset).1 = (ofSource source).lineAt offset ∧
      1 ≤ ((ofSource source).position offset).1 ∧
      ((ofSource source).position offset).1 ≤ (ofSource source).offsets.size ∧
      1 ≤ ((ofSource source).position offset).2) ∧
    (∀ index piece, (source.toList.splitOn '\n')[index]? = some piece →
      ∃ returns, piece = (ofSource source).text (index + 1) ++ List.replicate returns '\r' ∧
        ∀ c ∈ ((ofSource source).text (index + 1)).getLast?, c ≠ '\r') ∧
    ∀ line, line = 0 ∨ (ofSource source).offsets.size < line → (ofSource source).text line = [] := by
  have hSize := size_offsets source
  refine ⟨fun offset => ?_, fun before hBefore => ?_, fun before other hBefore hOther => ?_, hSize,
    fun offset => ⟨rfl, ?_, hSize ▸ lineAt_le source offset, Nat.succ_pos _⟩, fun index piece hPiece => ?_,
    fun line hLine => text_of_none (hSize ▸ hLine)⟩
  · rw [lineAt_eq, bytes_toList, Nat.add_comm]
  · have hPosition := position_between hBefore
    exact Prod.ext rfl (by rw [hPosition])
  · exact ⟨position_injective hBefore hOther, position_precedes hBefore hOther⟩
  · exact Nat.le_max_left _ _
  · rw [text_of_piece hPiece]
    exact withoutReturns_spec piece

end LineTable

end IntScript
