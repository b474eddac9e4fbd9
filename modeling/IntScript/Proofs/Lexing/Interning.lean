import IntScript.Proofs.Lexing

/-! Interning told by the row of texts alone. A text of the row has its place as its number, and any other
text comes to the end of the row. So identifiers that are all known get their names back, and the table stays
as it is. -/
namespace IntScript

namespace Interner

/-- A new table has been filled by interning as well, and this is what came of it. -/
theorem strings_initial : initial.strings = reservedTexts := rfl

section

variable {table seen : Interner} {text : String}

theorem internAfter_of_some {number : UInt32} (h : seen.number? text = some number) :
    table.internAfter seen text = (⟨number⟩, table) := by
  rw [internAfter, h]

/-- Without a number at the first look, everything is left to the slow path. -/
theorem internAfter_of_none (h : seen.number? text = none) :
    table.internAfter seen text = table.enter text := by
  rw [internAfter, h]

/-- The map knows exactly the texts of the row. -/
theorem number?_eq_none_iff : table.number? text = none ↔ text ∉ table.strings :=
  table.mirrored.lookup_eq_none_iff

/-- The map gives the place in the row. -/
theorem number?_of_mem (h : text ∈ table.strings) :
    table.number? text = some (table.strings.idxOf text).toUInt32 := by
  refine (table.mirrored.number text _).mpr ⟨table.strings.idxOf text, ?_, rfl⟩
  rw [List.getElem?_eq_getElem (List.idxOf_lt_length_of_mem h), List.getElem_idxOf]

/-- A known text is found on the fast path. -/
theorem intern_of_mem (h : text ∈ table.strings) :
    table.intern text = (⟨(table.strings.idxOf text).toUInt32⟩, table) := by
  rw [intern, internAfter_of_some (number?_of_mem h)]

/-- The second look finds what others have put in meanwhile, and nothing is put in twice. -/
theorem enter_of_mem (h : text ∈ table.strings) :
    table.enter text = (⟨(table.strings.idxOf text).toUInt32⟩, table) := by
  rw [enter]
  split
  next number hKnown =>
    rw [number?_of_mem h] at hKnown
    cases hKnown
    rfl
  next hNew => exact absurd h (number?_eq_none_iff.mp hNew)

/-- If the text is still not there, it gets the next number. -/
theorem enter_of_not_mem (h : text ∉ table.strings) :
    table.enter text =
      (⟨table.strings.length.toUInt32⟩, table.push text (number?_eq_none_iff.mpr h)) := by
  rw [enter]
  split
  next hKnown =>
    rw [number?_eq_none_iff.mpr h] at hKnown
    cases hKnown
  next => rfl

/-- A new text is not found a second time either, and gets the next number. -/
theorem intern_of_not_mem (h : text ∉ table.strings) :
    table.intern text =
      (⟨table.strings.length.toUInt32⟩, table.push text (number?_eq_none_iff.mpr h)) := by
  rw [intern, internAfter_of_none (number?_eq_none_iff.mpr h), enter_of_not_mem h]

/-- In the row, interning is to append what is new. -/
theorem strings_intern (table : Interner) (text : String) : (table.intern text).2.strings =
    if text ∈ table.strings then table.strings else table.strings ++ [text] := by
  split
  next hKnown => rw [intern_of_mem hKnown]
  next hNew => rw [intern_of_not_mem hNew, push]

/-- The number of a text is its place in the row, be the text known or new. -/
theorem intern_name (table : Interner) (text : String) :
    (table.intern text).1 = ⟨(table.strings.idxOf text).toUInt32⟩ := by
  by_cases hKnown : text ∈ table.strings
  · rw [intern_of_mem hKnown]
  · rw [intern_of_not_mem hKnown, List.idxOf_eq_length hKnown]

/-- Interning the text of a known name gives the name and changes nothing. -/
theorem intern_text {name : Name} (hText : table.text? name = some text) :
    table.intern text = (name, table) := by
  obtain ⟨hBound, rfl⟩ := List.getElem?_eq_some_iff.mp hText
  rw [intern_of_mem (List.getElem_mem hBound), table.mirrored.distinct.idxOf_getElem _ hBound]
  simp

end

/-- The placeholder is used for unknown numbers only. -/
theorem lookup_of_text {table : Interner} {name : Name} {text : String}
    (hText : table.text? name = some text) : table.lookup name = text := by
  rw [lookup, hText, Option.getD_some]

end Interner

namespace Lexer

/-- Identifiers that are all known get their names back. -/
theorem internTokens_known {table : Interner}
    {tokens : List (Token String)} {kinds : List (TokenKind Name)}
    (hKinds : tokens.map (·.kind) = kinds.map (TokenKind.map table.lookup))
    (hKnown : ∀ name, .identifier name ∈ kinds → ∃ text, table.text? name = some text) :
    ∃ named, internTokens tokens table = (named, table) ∧ named.map (·.kind) = kinds := by
  induction tokens generalizing kinds with
  | nil =>
      rw [List.map_nil, eq_comm, List.map_eq_nil_iff] at hKinds
      exact ⟨[], rfl, hKinds.symm⟩
  | cons token tokens ih =>
      obtain ⟨kind, others, rfl, hKind, hOthers⟩ := List.map_eq_cons_iff.mp hKinds.symm
      obtain ⟨named, hNamed, hSame⟩ :=
        ih hOthers.symm (fun name hName => hKnown name (List.mem_cons_of_mem kind hName))
      have hToken : internToken token table = (⟨kind, token.span⟩, table) := by
        have hKind : token.kind = kind.map table.lookup := hKind.symm
        rw [internToken, hKind]
        cases kind with
        | identifier name =>
            obtain ⟨text, hText⟩ := hKnown name List.mem_cons_self
            simp only [TokenKind.map, Interner.lookup_of_text hText, Interner.intern_text hText]
        | _ => rfl
      refine ⟨⟨kind, token.span⟩ :: named, ?_, ?_⟩
      · rw [internTokens, hToken]
        simp only [hNamed]
      · rw [List.map_cons, hSame]

/-- A text of known identifiers is read back as the kinds that spell it. -/
theorem Lexes.lex {table : Interner} {text : String}
    {kinds : List (TokenKind Name)} (h : Lexes text.toList (kinds.map (TokenKind.map table.lookup)))
    (hKnown : ∀ name, .identifier name ∈ kinds → ∃ text, table.text? name = some text) :
    ∃ tokens, IntScript.lex text table = (.ok tokens, table) ∧
      tokens.map (·.kind) = kinds ++ [.endOfFile] := by
  obtain ⟨hError, hKinds⟩ := h 0
  have hKinds : (scan 0 text.toList).tokens.map (·.kind) =
      (kinds ++ [TokenKind.endOfFile]).map (TokenKind.map table.lookup) := by
    rw [hKinds, List.map_append]
    rfl
  obtain ⟨tokens, hTokens, hSame⟩ :=
    internTokens_known hKinds (fun name hName => hKnown name (by simpa using hName))
  refine ⟨tokens, ?_, hSame⟩
  rw [IntScript.lex]
  simp only [hTokens, hError]

end Lexer

end IntScript
