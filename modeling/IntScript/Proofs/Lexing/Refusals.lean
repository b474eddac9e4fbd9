import IntScript.Proofs.Locations

/-! Reading stops at the first character that nothing may begin with, or at the first row of digits that is
too large for a literal. What is read in front of it is what is read if the text ends there. -/
namespace IntScript

open Lexer

namespace Lexer

/-- What is read does not hang on what stands behind it. -/
theorem Passes.alone {offset : Nat} {before rest : List Char} {words : List (Token String)}
    (h : Passes rest offset before words) : Passes [] offset before words := by
  induction h with
  | start offset => exact .start offset
  | gap begins further ih =>
      refine .gap ?_ ih
      rw [List.append_nil]
      exact begins.alone nofun
  | token begins further ih =>
      refine .token ?_ ih
      rw [List.append_nil]
      exact begins.alone nofun

/-- Up to where reading stops it is the same as for any text, and short enough for the offsets. -/
theorem Stops.passes {text before : List Char} {words : List (Token String)} {error : LexError}
    (h : Stops text before words error) :
    Passes [] 0 before words ∧ byteLength before ≤ 4294967295 := by
  have hFits {span : Span} {part : List Char} (placed : span.Places before part) :
      byteLength before ≤ 4294967295 := by
    rw [← placed.first]
    exact Nat.le_of_lt_succ span.first.toNat_lt
  cases h with
  | character split passed solid nothing placed => exact ⟨passed.alone, hFits placed⟩
  | digits split passed some all begun ended large placed => exact ⟨passed.alone, hFits placed⟩

/-- The part that is passed is a text of its own. -/
theorem Passes.scan_alone {before : List Char} {words : List (Token String)} (h : Passes [] 0 before words) :
    scan 0 before =
      ⟨words ++ [⟨.endOfFile, Span.ofRange (byteLength before) (byteLength before)⟩], none⟩ := by
  have hScan := (h.scans (.ended _)).scan_eq
  rwa [List.append_nil, Nat.zero_add] at hScan

theorem identifiers_endOfFile (words : List (Token String)) (place : Span) :
    identifiers (words ++ [⟨.endOfFile, place⟩]) = identifiers words := by
  induction words with
  | nil => rfl
  | cons token words ih =>
      obtain ⟨kind, span⟩ := token
      cases kind with
      | identifier text => exact congrArg (List.cons text) ih
      | keyword | delimiter | operator | integer | endOfFile => exact ih

end Lexer

/-- A text that ends where reading stops is read to its end. -/
theorem Lexer.Stops.lex_before {text before : List Char} {words : List (Token String)} {error : LexError}
    (h : Stops text before words error) (table : Interner) :
    ∃ place : Span, place.Places before [] ∧
      lex (String.ofList before) table =
        (.ok (internTokens (words ++ [⟨.endOfFile, place⟩]) table).1,
          (table.internAll (identifiers words)).2) := by
  obtain ⟨hPassed, hFits⟩ := h.passes
  have hText : scan 0 (String.ofList before).toList = scan 0 before := by
    rw [String.toList_ofList]
  refine ⟨Span.ofRange (byteLength before) (byteLength before), @places_ofRange before [] ?_, ?_⟩
  · rwa [List.append_nil]
  · rw [lex_of_scan (hText.trans hPassed.scan_alone), internTokens_table, identifiers_endOfFile]

/-- An integer is what the digits in its span denote, and no digit follows them. -/
def Token.Exact (source : List Char) (token : Token Name) : Prop :=
  ∀ value, token.kind = .integer value →
    ∃ before digits after, source = before ++ digits ++ after ∧ token.span.Places before digits ∧
      digits ≠ [] ∧ (∀ c ∈ digits, c.isDigit) ∧ (∀ c ∈ after.head?, c.isDigit = false) ∧
      value.toInt = decimal digits

/-- Each integer token has the value of its digits, leading zeros included. -/
theorem Token.exact_of_lex {source : String} {table : Interner} {tokens : List (Token Name)}
    {token : Token Name} (hSize : source.utf8ByteSize ≤ 4294967295)
    (h : (lex source table).1 = .ok tokens) (hMem : token ∈ tokens) : token.Exact source.toList := by
  intro value hKind
  have hNotLast : token.kind ≠ .endOfFile := by
    rw [hKind]
    exact nofun
  obtain ⟨⟨kind, span⟩, ⟨before, digits, after, hText, hPlaces, hSpells, hEnds⟩, hSame⟩ :=
    exists_word_of_lex hSize h hMem hNotLast
  obtain ⟨hSameKind, rfl⟩ := Token.mk.inj hSame
  rw [hKind] at hSameKind
  cases hSpells with
  | integer some all small =>
      cases hSameKind
      have hRange : decimal digits < 2 ^ 31 := Nat.lt_succ_of_le small
      exact ⟨before, digits, after, hText, hPlaces, some, all, hEnds, Int32.toInt_ofNat_of_lt hRange⟩
  | keyword | delimiter | operator | identifier => cases hSameKind

/-- Lexing fails if and only if reading stops before the end of the text, with an error for what it stops
at. The table has then gained the identifiers in front of that, and a text that ends there can be read.
Integers are never changed to make them fit. -/
theorem lex_error_iff_stops {source : String} (hSize : source.utf8ByteSize ≤ 4294967295)
    (table : Interner) :
    (∀ error later, lex source table = (.error error, later) ↔
      ∃ before words, Stops source.toList before words error ∧
        later = (table.internAll (identifiers words)).2) ∧
    (∀ error before words, Stops source.toList before words error →
      ∃ place : Span, place.Places before [] ∧
        lex (String.ofList before) table =
          (.ok (internTokens (words ++ [⟨.endOfFile, place⟩]) table).1,
            (table.internAll (identifiers words)).2)) ∧
    ∀ tokens later, lex source table = (.ok tokens, later) →
      ∀ token ∈ tokens, token.Exact source.toList := by
  have hBytes : byteLength source.toList ≤ 4294967295 := by rwa [byteLength_toList]
  refine ⟨fun error later => ⟨fun hLex => ?_, ?_⟩, fun error before words hStops => ?_,
    fun tokens later hLex token hMem => Token.exact_of_lex hSize (congrArg Prod.fst hLex) hMem⟩
  · have hScan : scan 0 source.toList = ⟨(scan 0 source.toList).tokens, some error⟩ := by
      rw [← lex_eq_error hLex]
    obtain ⟨before, hStops⟩ := (scan_eq_error_iff hBytes _ error).mp hScan
    refine ⟨before, _, hStops, ?_⟩
    rw [← lex_table, hLex]
  · rintro ⟨before, words, hStops, rfl⟩
    exact lex_of_scan_error ((scan_eq_error_iff hBytes words error).mpr ⟨before, hStops⟩) table
  · exact hStops.lex_before table

/-- A character that no token begins with is passed in a comment. The row of digits has zeros in front, and
the character behind it, of two bytes, is not reached. -/
theorem lex_error_iff_stops_atDigits :
    let source := "//|\nx1=0002147483648\u00e9"
    let error : LexError := .integerOutOfRange "0002147483648" ⟨7, 20⟩
    let later : Interner := (Interner.initial.internAll ["x1"]).2
    source.utf8ByteSize ≤ 4294967295 ∧ lex source .initial = (.error error, later) ∧
      ∃ before words, Stops source.toList before words error ∧
        later = (Interner.initial.internAll (identifiers words)).2 ∧
        ∃ place : Span, place.Places before [] ∧
          lex (String.ofList before) .initial =
            (.ok (internTokens (words ++ [⟨.endOfFile, place⟩]) .initial).1, later) := by
  intro source error later
  have hSize : source.utf8ByteSize ≤ 4294967295 := by decide
  have hLex : lex source .initial = (.error error, later) :=
    lex_eq_of_identifiers (by decide +kernel) (by decide +kernel)
  obtain ⟨hFails, hBefore, -⟩ := lex_error_iff_stops hSize .initial
  obtain ⟨before, words, hStops, hLater⟩ := (hFails error later).mp hLex
  refine ⟨hSize, hLex, before, words, hStops, hLater, ?_⟩
  rw [hLater]
  exact hBefore error before words hStops

end IntScript
