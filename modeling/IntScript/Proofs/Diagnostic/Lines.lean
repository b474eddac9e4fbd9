import IntScript.Diagnostic.LineTable
import IntScript.Proofs.Lexing.Partition

/-! The table of the lines of a text. A line starts behind each line feed, so an offset lies on the line that
the line feeds before it count; what is sliced between the start of a line and an offset on it, or the next
start, is the text there. -/
namespace IntScript

open Lexer

/-- A line of a text: what stands before it ends with a line feed, and what stands behind it begins with
one. -/
structure LineTable.Cut (text passed line rest : List Char) : Prop where
  whole : text = passed ++ line ++ rest
  begins : ∀ c ∈ passed.getLast?, c = '\n'
  solid : '\n' ∉ line
  ends : ∀ c ∈ rest.head?, c = '\n'

namespace Lexer

open LineTable (feed)

def bytes (cs : List Char) : List UInt8 :=
  cs.flatMap String.utf8EncodeChar

/-- The bytes counted here are those that the table is made from. -/
theorem bytes_toList (source : String) : bytes source.toList = source.toByteArray.data.toList := by
  rw [← String.utf8Encode_toList, List.utf8Encode, List.data_toByteArray, bytes]

/-- A byte of a character is the whole character, or too large to be one. -/
theorem toNat_of_mem_utf8EncodeChar {c : Char} {byte : UInt8} (h : byte ∈ String.utf8EncodeChar c) :
    byte.toNat = c.val.toNat ∨ 128 ≤ byte.toNat := by
  simp only [String.utf8EncodeChar] at h
  split at h
  next =>
    rw [List.mem_singleton] at h
    rw [h, UInt8.toNat_ofNat']
    omega
  next =>
    have hLarge : ∃ value, byte = UInt8.ofNat (value % 64 + 128) ∨ byte = UInt8.ofNat (value % 32 + 192) ∨
        byte = UInt8.ofNat (value % 16 + 224) ∨ byte = UInt8.ofNat (value % 8 + 240) := by
      split at h
      · simp only [List.mem_cons, List.not_mem_nil, or_false] at h
        rcases h with rfl | rfl
        · exact ⟨_, Or.inr (Or.inl rfl)⟩
        · exact ⟨_, Or.inl rfl⟩
      · split at h <;> simp only [List.mem_cons, List.not_mem_nil, or_false] at h
        · rcases h with rfl | rfl | rfl
          · exact ⟨_, Or.inr (Or.inr (Or.inl rfl))⟩
          · exact ⟨_, Or.inl rfl⟩
          · exact ⟨_, Or.inl rfl⟩
        · rcases h with rfl | rfl | rfl | rfl
          · exact ⟨_, Or.inr (Or.inr (Or.inr rfl))⟩
          · exact ⟨_, Or.inl rfl⟩
          · exact ⟨_, Or.inl rfl⟩
          · exact ⟨_, Or.inl rfl⟩
    right
    obtain ⟨value, rfl | rfl | rfl | rfl⟩ := hLarge <;> rw [UInt8.toNat_ofNat'] <;> omega

/-- In the encoding of a character beyond the first 128 every byte is above the line feed, so none
can be taken for one. -/
theorem count_feed_of_ne {c : Char} (h : c ≠ '\n') : (String.utf8EncodeChar c).count feed = 0 := by
  rw [List.count_eq_zero]
  intro hMem
  rcases toNat_of_mem_utf8EncodeChar hMem with hSame | hLarge
  · exact h (Char.ext (UInt32.toNat_inj.mp hSame.symm))
  · exact absurd hLarge (by decide)

/-- Looking for the byte finds exactly the line feeds of the text. -/
theorem count_feed_bytes (cs : List Char) : (bytes cs).count feed = cs.count '\n' := by
  induction cs with
  | nil => rfl
  | cons c cs ih =>
      have hBytes : bytes (c :: cs) = String.utf8EncodeChar c ++ bytes cs := List.flatMap_cons
      rw [hBytes, List.count_append, ih, List.count_cons, Nat.add_comm]
      split
      next hFeed =>
        rw [beq_iff_eq.mp hFeed]
        rfl
      next hOther => rw [count_feed_of_ne (fun hFeed => hOther (beq_iff_eq.mpr hFeed))]

theorem bytes_append (front after : List Char) : bytes (front ++ after) = bytes front ++ bytes after :=
  List.flatMap_append

theorem length_bytes (cs : List Char) : (bytes cs).length = byteLength cs := by
  induction cs with
  | nil => rfl
  | cons c cs ih =>
      have hBytes : bytes (c :: cs) = String.utf8EncodeChar c ++ bytes cs := List.flatMap_cons
      rw [hBytes, List.length_append, String.length_utf8EncodeChar, ih]
      rfl

end Lexer

/-- A line without the carriage returns at its end. -/
def withoutReturns (line : List Char) : List Char :=
  (line.reverse.dropWhile (· == '\r')).reverse

/-- Only a line of carriage returns loses everything. -/
theorem withoutReturns_eq_nil_iff (line : List Char) :
    withoutReturns line = [] ↔ ∀ c ∈ line, c = '\r' := by
  simp [withoutReturns, List.dropWhile_eq_nil_iff]

/-- Carriage returns inside a line stay. -/
theorem withoutReturns_append {front : List Char} (h : ∀ c ∈ front.getLast?, c ≠ '\r')
    (after : List Char) : withoutReturns (front ++ after) = front ++ withoutReturns after := by
  have hFront : front.reverse.dropWhile (· == '\r') = front.reverse := by
    cases hReverse : front.reverse with
    | nil => rfl
    | cons c others =>
        have hLast : c ≠ '\r' := h c (by simp [← List.head?_reverse, hReverse])
        simp [hLast]
  simp only [withoutReturns, List.reverse_append, List.dropWhile_append, hFront]
  split
  next hEmpty => simp [List.isEmpty_iff.mp hEmpty]
  next => simp

namespace LineTable

variable {text passed line rest : List Char}

section

variable {offset : Nat} {bytes : List UInt8}

/-- Starts of lines are added up over an append, with the offset moved on. -/
theorem startsAfter_append (offset : Nat) (front back : List UInt8) :
    startsAfter offset (front ++ back) =
      startsAfter offset front ++ startsAfter (offset + front.length) back := by
  induction front generalizing offset with
  | nil => rfl
  | cons byte front ih =>
      rw [List.cons_append, startsAfter, startsAfter, ih, List.length_cons, Nat.add_assoc,
        Nat.add_comm 1 front.length]
      split <;> rfl

/-- There are as many further lines as line feeds. -/
theorem length_startsAfter (offset : Nat) (bytes : List UInt8) :
    (startsAfter offset bytes).length = bytes.count feed := by
  induction bytes generalizing offset with
  | nil => rfl
  | cons byte bytes ih =>
      rw [startsAfter]
      split
      next hFeed => rw [hFeed, List.length_cons, ih, List.count_cons_self]
      next hOther => rw [ih, List.count_cons_of_ne hOther]

/-- A start lies behind its line feed, so it may be the end of the text but is never in front of it. -/
theorem mem_startsAfter {start : Nat} (h : start ∈ startsAfter offset bytes) :
    offset < start ∧ start ≤ offset + bytes.length := by
  induction bytes generalizing offset with
  | nil => cases h
  | cons byte bytes ih =>
      have hLater (hMem : start ∈ startsAfter (offset + 1) bytes) :
          offset < start ∧ start ≤ offset + (byte :: bytes).length := by
        have hBounds := ih hMem
        rw [List.length_cons]
        omega
      rw [startsAfter] at h
      split at h
      · rcases List.mem_cons.mp h with rfl | hMem
        · rw [List.length_cons]
          omega
        · exact hLater hMem
      · exact hLater h

end

theorem startsAfter_of_solid (h : '\n' ∉ line) (offset : Nat) : startsAfter offset (bytes line) = [] := by
  rw [← List.length_eq_zero_iff, length_startsAfter, count_feed_bytes, List.count_eq_zero]
  exact h

/-- The first line needs no line feed in front of it. -/
theorem offsets_ofSource (source : String) :
    (ofSource source).offsets.toList = 0 :: startsAfter 0 (bytes source.toList) := by
  rw [ofSource, List.toList_toArray, bytes_toList]

/-- The starts up to a line end with its own, and the line feeds before it count them. -/
theorem Cut.starts_passed (h : Cut text passed line rest) :
    ∃ earlier, 0 :: startsAfter 0 (bytes passed) = earlier ++ [byteLength passed] ∧
      earlier.length = passed.count '\n' := by
  rcases List.eq_nil_or_concat passed with rfl | ⟨front, last, rfl⟩
  · exact ⟨[], rfl, rfl⟩
  · obtain rfl : last = '\n' := h.begins last (by simp)
    have hLast : startsAfter (byteLength front) (bytes ['\n']) = [byteLength front + 1] := rfl
    refine ⟨0 :: startsAfter 0 (bytes front), ?_, ?_⟩
    · rw [List.concat_eq_append, bytes_append, startsAfter_append, Nat.zero_add, length_bytes, hLast,
        byteLength_append]
      rfl
    · rw [List.length_cons, length_startsAfter, count_feed_bytes, List.concat_eq_append,
        List.count_append]
      rfl

/-- The starts in a text around the start of one of its lines. -/
theorem Cut.starts (h : Cut text passed line rest) :
    ∃ earlier, 0 :: startsAfter 0 (bytes text) = earlier ++
        byteLength passed :: startsAfter (byteLength passed + byteLength line) (bytes rest) ∧
      earlier.length = passed.count '\n' := by
  obtain ⟨earlier, hPassed, hCount⟩ := h.starts_passed
  refine ⟨earlier, ?_, hCount⟩
  rw [h.whole, bytes_append, bytes_append, startsAfter_append, startsAfter_append, Nat.zero_add,
    startsAfter_of_solid h.solid, List.append_nil, List.length_append, length_bytes, length_bytes,
    ← List.cons_append, hPassed, List.append_assoc, List.singleton_append, Nat.zero_add]

/-- The table has the start of each line under the number of line feeds before it. -/
theorem start_of_cut {source : String} (h : Cut source.toList passed line rest) :
    (ofSource source).offsets[passed.count '\n']? = some (byteLength passed) := by
  obtain ⟨earlier, hStarts, hCount⟩ := h.starts
  rw [← Array.getElem?_toList, offsets_ofSource, hStarts, ← hCount,
    List.getElem?_append_right (Nat.le_refl _), Nat.sub_self]
  rfl

/-- The next start is one byte behind the line, if a line feed is there. -/
theorem next_of_cut {source : String} (h : Cut source.toList passed line rest) :
    (ofSource source).offsets[passed.count '\n' + 1]? =
      rest.head?.map (fun _ => byteLength (passed ++ line) + 1) := by
  obtain ⟨earlier, hStarts, hCount⟩ := h.starts
  rw [← Array.getElem?_toList, offsets_ofSource, hStarts, ← hCount,
    List.getElem?_append_right (Nat.le_add_right _ 1), Nat.add_sub_cancel_left, List.getElem?_cons_succ,
    byteLength_append]
  cases rest with
  | nil => rfl
  | cons c rest =>
      obtain rfl : c = '\n' := h.ends c rfl
      rfl

/-- A text is cut between two of its parts. -/
theorem splitAt?_append (front back : List Char) :
    splitAt? (front ++ back) (byteLength front) = some (front, back) := by
  induction front with
  | nil => cases back <;> rfl
  | cons c front ih =>
      have hSize : byteLength (c :: front) = c.utf8Size + byteLength front := rfl
      obtain ⟨bytes, hBytes⟩ := Nat.exists_eq_add_one.mpr c.utf8Size_pos
      have hSome : byteLength (c :: front) = bytes + byteLength front + 1 := by omega
      rw [hSome, List.cons_append, splitAt?, ← hSome, hSize, if_pos (Nat.le_add_right _ _),
        Nat.add_sub_cancel_left, ih]
      rfl

theorem append_of_splitAt? {count : Nat} {front back : List Char}
    (h : splitAt? text count = some (front, back)) : text = front ++ back := by
  induction text, count using splitAt?.induct generalizing front with
  | case1 cs =>
      rw [splitAt?] at h
      cases h
      rfl
  | case2 count =>
      rw [splitAt?] at h
      cases h
  | case3 c cs count hInside ih =>
      rw [splitAt?, if_pos hInside] at h
      obtain ⟨⟨more, last⟩, hLater, hParts⟩ := Option.map_eq_some_iff.mp h
      cases hParts
      rw [List.cons_append, ← ih hLater]
  | case4 c cs count hAcross =>
      rw [splitAt?, if_neg hAcross] at h
      cases h

/-- What stands between two parts of a text is sliced out of it. -/
theorem slice?_of_parts {table : LineTable} {before part after : List Char}
    (h : table.source.toList = before ++ part ++ after) :
    table.slice? (byteLength before) (byteLength (before ++ part)) = some part := by
  simp only [slice?, h, splitAt?_append, Option.bind_eq_bind, Option.bind_some, Option.pure_def]

/-- A slice brings no character that is not in the source. -/
theorem mem_of_mem_slice? {table : LineTable} {start stop : Nat} {part : List Char}
    (h : table.slice? start stop = some part) {c : Char} (hMem : c ∈ part) : c ∈ table.source.toList := by
  obtain ⟨⟨front, back⟩, hFront, hSlice⟩ := Option.bind_eq_some_iff.mp h
  obtain ⟨⟨before, between⟩, hBetween, hSame⟩ := Option.bind_eq_some_iff.mp hSlice
  cases hSame
  rw [append_of_splitAt? hFront, append_of_splitAt? hBetween]
  exact List.mem_append_left back (List.mem_append_right before hMem)

/-- Halving finds how many lines start at or before an offset. -/
theorem startsUpTo_eq {table : LineTable} {offset count low high : Nat}
    (hStarts : ∀ index < high,
      table.offsets[index]?.any (· ≤ offset) = true ↔ index < count)
    (hLow : low ≤ count) (hHigh : count ≤ high) : table.startsUpTo offset low high = count := by
  induction low, high using startsUpTo.induct table offset with
  | case1 low high hBetween middle hBefore ih =>
      have hMiddle : middle < high := by omega
      rw [startsUpTo, if_pos hBetween, if_pos hBefore]
      exact ih hStarts ((hStarts middle hMiddle).mp hBefore) hHigh
  | case2 low high hBetween middle hBehind ih =>
      have hMiddle : middle < high := by omega
      rw [startsUpTo, if_pos hBetween, if_neg hBehind]
      refine ih (fun index hIndex => hStarts index (Nat.lt_trans hIndex hMiddle)) hLow ?_
      exact Nat.le_of_not_lt (fun hCount => hBehind ((hStarts middle hMiddle).mpr hCount))
  | case3 low high hNone =>
      rw [startsUpTo, if_neg hNone]
      omega

/-- The places in front are those that hold something with a property, if nothing behind has it. -/
theorem any_getElem?_append_iff {α : Type} {holds : α → Bool} {front back : List α}
    (hFront : ∀ found ∈ front, holds found) (hBack : ∀ found ∈ back, holds found = false)
    (index : Nat) : (front ++ back)[index]?.any holds = true ↔ index < front.length := by
  rcases Nat.lt_or_ge index front.length with hLess | hMore
  · have hHolds := hFront _ (List.getElem_mem hLess)
    rw [List.getElem?_append_left hLess, List.getElem?_eq_getElem hLess]
    exact iff_of_true hHolds hLess
  · rw [List.getElem?_append_right hMore, Option.any_eq_true]
    refine iff_of_false ?_ (Nat.not_lt_of_le hMore)
    rintro ⟨found, hFound, hHolds⟩
    rw [hBack found (List.mem_of_getElem? hFound)] at hHolds
    cases hHolds

/-- The line of any offset counts the line feeds in front of it. -/
theorem lineAt_eq (source : String) (offset : Nat) :
    (ofSource source).lineAt offset = ((bytes source.toList).take offset).count feed + 1 := by
  have hParts := startsAfter_append 0 ((bytes source.toList).take offset)
    ((bytes source.toList).drop offset)
  rw [List.take_append_drop, Nat.zero_add] at hParts
  have hOffsets : (ofSource source).offsets =
      ((0 :: startsAfter 0 ((bytes source.toList).take offset)) ++
        startsAfter ((bytes source.toList).take offset).length ((bytes source.toList).drop offset)).toArray := by
    rw [List.cons_append, ← hParts, ← offsets_ofSource, Array.toArray_toList]
  have hFront : ∀ start ∈ 0 :: startsAfter 0 ((bytes source.toList).take offset),
      decide (start ≤ offset) = true := by
    intro start hMem
    rw [decide_eq_true_iff]
    rcases List.mem_cons.mp hMem with rfl | hMem
    · exact Nat.zero_le offset
    · have hBounds := mem_startsAfter hMem
      rw [List.length_take] at hBounds
      omega
  have hBack : ∀ start ∈ startsAfter ((bytes source.toList).take offset).length
      ((bytes source.toList).drop offset), decide (start ≤ offset) = false := by
    intro start hMem
    have hBounds := mem_startsAfter hMem
    rw [List.length_take, List.length_drop] at hBounds
    rw [decide_eq_false_iff_not]
    omega
  have hStarts := any_getElem?_append_iff hFront hBack
  have hFound : (ofSource source).startsUpTo offset 0 (ofSource source).offsets.size =
      (0 :: startsAfter 0 ((bytes source.toList).take offset)).length := by
    refine startsUpTo_eq (fun index _ => ?_) (Nat.zero_le _) ?_
    · rw [hOffsets, List.getElem?_toArray]
      exact hStarts index
    · rw [hOffsets, List.size_toArray, List.length_append]
      exact Nat.le_add_right _ _
  rw [lineAt, hFound, List.length_cons, length_startsAfter]
  exact Nat.max_eq_right (Nat.le_add_left 1 _)

/-- Between two characters, the line counts the line feeds before. -/
theorem lineAt_byteLength {source : String} {before : List Char} (h : before <+: source.toList) :
    (ofSource source).lineAt (byteLength before) = before.count '\n' + 1 := by
  obtain ⟨after, hText⟩ := h
  rw [lineAt_eq, ← hText, bytes_append, ← length_bytes, List.take_left, count_feed_bytes]

/-- A place on a line is told by the number of the line and by the characters before it there. -/
theorem position_of_cut {source : String} {before after : List Char}
    (h : Cut source.toList passed (before ++ after) rest) :
    (ofSource source).position (byteLength (passed ++ before)) =
      (passed.count '\n' + 1, before.length + 1) := by
  have hParts : source.toList = passed ++ before ++ (after ++ rest) := by
    rw [h.whole, List.append_assoc, List.append_assoc, List.append_assoc]
  have hSolid : '\n' ∉ before := fun hMem => h.solid (List.mem_append_left after hMem)
  have hLine : (ofSource source).lineAt (byteLength (passed ++ before)) = passed.count '\n' + 1 := by
    rw [lineAt_byteLength ⟨_, hParts.symm⟩, List.count_append, List.count_eq_zero.mpr hSolid, Nat.add_zero]
  have hInside : byteLength (passed ++ before) ≤ source.utf8ByteSize := by
    rw [← byteLength_toList, hParts, byteLength_append (passed ++ before)]
    exact Nat.le_add_right _ _
  have hSlice : (ofSource source).slice? (byteLength passed) (byteLength (passed ++ before)) = some before :=
    slice?_of_parts hParts
  simp only [position, hLine, Nat.add_sub_cancel, start_of_cut h, Option.getD_some]
  rw [show (ofSource source).source = source from rfl, Nat.min_eq_left hInside, hSlice, Option.map_some,
    Option.getD_some]

/-- The text of a line goes up to the line feed in front of the next start, or to the end. -/
theorem text_of_cut {source : String} (h : Cut source.toList passed line rest) :
    (ofSource source).text (passed.count '\n' + 1) = withoutReturns line := by
  have hStop : ((rest.head?.map (fun _ => byteLength (passed ++ line) + 1)).map (· - 1)).getD
      source.utf8ByteSize = byteLength (passed ++ line) := by
    cases hRest : rest with
    | nil =>
        rw [← byteLength_toList, h.whole, hRest, List.append_nil]
        rfl
    | cons c others => rfl
  have hStart : byteLength passed ≤ byteLength (passed ++ line) := by
    rw [byteLength_append]
    exact Nat.le_add_right _ _
  have hSlice : (ofSource source).slice? (byteLength passed) (byteLength (passed ++ line)) = some line :=
    slice?_of_parts h.whole
  simp only [text, start_of_cut h, next_of_cut h]
  rw [show (ofSource source).source = source from rfl, hStop, Nat.max_eq_left hStart, hSlice,
    Option.getD_some, withoutReturns]

/-- Going back from any place one comes to the start of its line. -/
theorem exists_line_front (text : List Char) :
    ∃ passed front, text = passed ++ front ∧ (∀ c ∈ passed.getLast?, c = '\n') ∧ '\n' ∉ front := by
  induction text with
  | nil => exact ⟨[], [], rfl, nofun, List.not_mem_nil⟩
  | cons c text ih =>
      obtain ⟨passed, front, rfl, hBegins, hSolid⟩ := ih
      cases passed with
      | cons d passed => exact ⟨c :: d :: passed, front, rfl, hBegins, hSolid⟩
      | nil =>
          by_cases hFeed : c = '\n'
          · exact ⟨[c], front, rfl, by simpa using hFeed, hSolid⟩
          · have hLonger := List.not_mem_cons_of_ne_of_not_mem (Ne.symm hFeed) hSolid
            exact ⟨[], c :: front, rfl, nofun, hLonger⟩

theorem exists_line_back (text : List Char) :
    ∃ back rest, text = back ++ rest ∧ '\n' ∉ back ∧ ∀ c ∈ rest.head?, c = '\n' := by
  induction text with
  | nil => exact ⟨[], [], rfl, List.not_mem_nil, nofun⟩
  | cons c text ih =>
      by_cases hFeed : c = '\n'
      · exact ⟨[], c :: text, rfl, List.not_mem_nil, by simpa using hFeed⟩
      · obtain ⟨back, rest, rfl, hSolid, hEnds⟩ := ih
        have hLonger := List.not_mem_cons_of_ne_of_not_mem (Ne.symm hFeed) hSolid
        exact ⟨c :: back, rest, rfl, hLonger, hEnds⟩

/-- Every part of a text without line feeds stands on a line. -/
theorem exists_cut {part : List Char} (before after : List Char) (hPart : '\n' ∉ part) :
    ∃ passed front back rest, before = passed ++ front ∧ after = back ++ rest ∧
      Cut (before ++ part ++ after) passed (front ++ part ++ back) rest := by
  obtain ⟨passed, front, rfl, hBegins, hFront⟩ := exists_line_front before
  obtain ⟨back, rest, rfl, hBack, hEnds⟩ := exists_line_back after
  refine ⟨passed, front, back, rest, rfl, rfl, ?_, hBegins, ?_, hEnds⟩
  · simp only [List.append_assoc]
  · simp only [List.mem_append, not_or]
    exact ⟨⟨hFront, hPart⟩, hBack⟩

end LineTable

end IntScript
