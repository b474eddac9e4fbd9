import IntScript.Proofs.Lexing.Partition

/-! What a text begins with is settled by the rules alone, and so is how it is read: the relations that say
what reading may find, and where it may stop, admit one finding, and `scan` computes it. -/
namespace IntScript

open Lexer

namespace Lexer

/-- A comment is taken up to the line feed and leaves that for the next piece. -/
theorem piece_comment {body after : List Char} (hInside : ∀ c ∈ body, c ≠ '\n')
    (hEnded : ∀ c ∈ after.head?, c = '\n') :
    piece '/' ('/' :: body ++ after) = (.gap, ('/' :: body).length) := by
  have hSolid : isBlank '/' = false := by decide
  have hBody : ('/' :: body ++ after).takeWhile (· != '\n') = '/' :: body := by
    refine takeWhile_append_of_ends (fun c hMem => ?_) (fun c hFront => ?_)
    · rcases List.mem_cons.mp hMem with rfl | hMem
      · decide
      · exact bne_iff_ne.mpr (hInside c hMem)
    · rw [hEnded c hFront]
      decide
  rw [piece, hSolid, hBody]
  rfl

/-- Digits are taken as far as they go, even if the number has long become too large. -/
theorem piece_large {c : Char} {cs after : List Char} (hDigits : ∀ d ∈ c :: cs, d.isDigit)
    (hLarge : largestLiteral < decimal (c :: cs)) (hAfter : ∀ d ∈ after.head?, d.isDigit = false) :
    piece c (cs ++ after) =
      (.refused (.integerOutOfRange (String.ofList (c :: cs))), cs.length) := by
  have hFirst := hDigits c List.mem_cons_self
  have hOthers (d : Char) (hMem : d ∈ cs) := hDigits d (List.mem_cons_of_mem c hMem)
  have hNotBlank : isBlank c = false :=
    isBlank_eq_false_of_continuesWord (continuesWord_of_isDigit hFirst)
  have hNotSlash : (c == '/') = false := by
    rw [beq_eq_false_iff_ne]
    rintro rfl
    exact absurd hFirst (by decide)
  simp [piece, hNotBlank, hNotSlash, startsWord_eq_false_of_isDigit hFirst, hFirst,
    takeWhile_append_of_ends hOthers hAfter, Nat.not_le_of_lt hLarge]

/-- A single digit is never too large, so a text that is refused for its size has two of them at
least. -/
theorem decimal_le_of_isDigit {c : Char} (h : c.isDigit) : decimal [c] ≤ largestLiteral := by
  have hRange : c.toNat ≤ 57 := (by simpa [Char.isDigit, UInt32.le_iff_toNat_le] using h :
    48 ≤ c.val.toNat ∧ c.val.toNat ≤ 57).2
  have hValue : decimal [c] = 0 * 10 + (c.toNat - '0'.toNat) := rfl
  rw [hValue, largestLiteral]
  omega

/-- The piece that is a token carries all that the grammar of tokens asks of it. -/
theorem Begins.spells {after word : List Char} {kind : TokenKind String}
    (h : Begins after word (.token kind)) : Spells kind word ∧ Ends kind after := by
  cases h with
  | token spelled ended => exact ⟨spelled, ended⟩

/-- A character is refused if nothing that spells a token stands there. -/
theorem piece_character {c : Char} {after : List Char} (hSolid : isBlank c = false)
    (hNothing : ∀ kind word rest, Spells kind word → c :: after ≠ word ++ rest) :
    piece c after = (.refused (.invalidCharacter c), 0) := by
  have hNotSlash : (c == '/') = false := by
    rw [beq_eq_false_iff_ne]
    rintro rfl
    exact hNothing _ _ after (.operator .div) rfl
  have hNotWord : startsWord c = false := by
    rw [Bool.eq_false_iff]
    intro hStart
    have hWord : isWord [c] := by simp [isWord, hStart]
    exact hNothing _ _ after (spells_wordKind hWord) rfl
  have hNotDigit : c.isDigit = false := by
    rw [Bool.eq_false_iff]
    intro hDigit
    have hDigits : ∀ d ∈ [c], d.isDigit := by simpa using hDigit
    exact hNothing _ _ after (.integer (List.cons_ne_nil c []) hDigits (decimal_le_of_isDigit hDigit)) rfl
  have hNoSymbol : symbol? c after = none := by
    cases hSymbol : symbol? c after with
    | none => rfl
    | some found =>
        obtain ⟨kind, length⟩ := found
        have hBegins : Begins (after.drop length) (c :: after.take length) (.token kind) :=
          begins_symbol (fun hSlash => absurd hNotSlash (by simp [hSlash])) hSymbol
        refine absurd ?_ (hNothing _ _ (after.drop length) hBegins.spells.1)
        rw [List.cons_append, List.take_append_drop]
  simp [piece, hSolid, hNotSlash, hNotWord, hNotDigit, hNoSymbol]

/-- What a text is said to begin with is the piece that is cut off. -/
theorem Begins.piece_eq {after front : List Char} {found : Piece} (h : Begins after front found) :
    ∃ c cs, front = c :: cs ∧ piece c (cs ++ after) = (found, cs.length) := by
  cases h with
  | @blank c blank => exact ⟨c, [], rfl, by simp [piece, blank]⟩
  | @comment body inside ended => exact ⟨'/', '/' :: body, rfl, piece_comment inside ended⟩
  | token spelled ended => exact spelled.piece ended
  | @character c solid nothing => exact ⟨c, [], rfl, piece_character solid nothing⟩
  | digits some all ended large =>
      obtain ⟨c, cs, rfl⟩ := List.exists_cons_of_ne_nil some
      exact ⟨c, cs, rfl, piece_large all large ended⟩

/-- What is passed does not hang on what stands behind it. -/
theorem Begins.alone {front others rest : List Char} {found : Piece}
    (h : Begins (others ++ rest) front found) (hPassed : ∀ refusal, found ≠ .refused refusal) :
    Begins others front found := by
  have hNext {c : Char} (hMem : c ∈ others.head?) : c ∈ (others ++ rest).head? :=
    List.mem_head?_append_of_mem_head? hMem
  cases h with
  | blank blank => exact .blank blank
  | comment inside ended => exact .comment inside (fun c hMem => ended c (hNext hMem))
  | token spelled ended => exact .token spelled (fun c hMem => ended c (hNext hMem))
  | character | digits => exact (hPassed _ rfl).elim

/-- There is one way to read a text, and it is the computed one. -/
theorem Scans.scan_eq {offset : Nat} {text : List Char} {tokens : List (Token String)}
    {error : Option LexError} (h : Scans offset text tokens error) :
    scan offset text = ⟨tokens, error⟩ := by
  induction h with
  | ended offset => rw [scan]
  | gap begins others ih =>
      obtain ⟨c, cs, rfl, hPiece⟩ := begins.piece_eq
      rw [List.cons_append, scan, hPiece]
      simp [ih]
  | token begins others ih =>
      obtain ⟨c, cs, rfl, hPiece⟩ := begins.piece_eq
      rw [List.cons_append, scan, hPiece]
      simp [ih]
  | refused begins =>
      obtain ⟨c, cs, rfl, hPiece⟩ := begins.piece_eq
      rw [List.cons_append, scan, hPiece]
      simp

/-- Reading from left to right, from a byte offset on, comes past `before` while `rest` is still to be read.
Each piece on the way is the longest that stands there, and these are the tokens among them. -/
inductive Passes (rest : List Char) : Nat → List Char → List (Token String) → Prop where
  | start (offset : Nat) : Passes rest offset [] []
  | gap {offset : Nat} {front others : List Char} {tokens : List (Token String)}
      (begins : Begins (others ++ rest) front .gap)
      (further : Passes rest (offset + byteLength front) others tokens) :
      Passes rest offset (front ++ others) tokens
  | token {offset : Nat} {kind : TokenKind String} {word others : List Char} {tokens : List (Token String)}
      (begins : Begins (others ++ rest) word (.token kind))
      (further : Passes rest (offset + byteLength word) others tokens) :
      Passes rest offset (word ++ others) (⟨kind, Span.ofRange offset (offset + byteLength word)⟩ :: tokens)

/-- What is left is read as if it stood alone. -/
theorem Passes.scans {offset : Nat} {before rest : List Char} {tokens others : List (Token String)}
    {error : Option LexError} (h : Passes rest offset before tokens)
    (hRest : Scans (offset + byteLength before) rest others error) :
    Scans offset (before ++ rest) (tokens ++ others) error := by
  induction h with
  | start offset => exact hRest
  | gap begins further ih =>
      rw [byteLength_append, ← Nat.add_assoc] at hRest
      rw [List.append_assoc]
      exact .gap begins (ih hRest)
  | token begins further ih =>
      rw [byteLength_append, ← Nat.add_assoc] at hRest
      rw [List.append_assoc]
      exact .token begins (ih hRest)

/-- No row of digits goes on from one text to the next. -/
def Parted (before after : List Char) : Prop :=
  ∀ c ∈ before.getLast?, c.isDigit → ∀ d ∈ after.head?, d.isDigit = false

/-- Where a word has ended, a row of digits has as well. -/
theorem isDigit_eq_false_of_continuesWord {c : Char} (h : continuesWord c = false) :
    c.isDigit = false := by
  rw [Bool.eq_false_iff] at h ⊢
  exact fun hDigit => h (continuesWord_of_isDigit hDigit)

/-- A token takes up the digits that it ends with. -/
theorem Spells.parted {kind : TokenKind String} {word after : List Char} (h : Spells kind word)
    (hAfter : Ends kind after) : Parted word after := by
  cases h with
  | keyword keyword =>
      exact fun _ _ _ d hFront => isDigit_eq_false_of_continuesWord (hAfter d hFront)
  | identifier valid =>
      exact fun _ _ _ d hFront => isDigit_eq_false_of_continuesWord (hAfter d hFront)
  | integer some all small => exact fun _ _ _ d hFront => hAfter d hFront
  | delimiter delimiter =>
      intro c hLast hDigit
      cases delimiter <;> cases hLast <;> cases hDigit
  | operator op =>
      intro c hLast hDigit
      cases op <;> cases hLast <;> cases hDigit

/-- What is passed over or read takes up the digits that it ends with. -/
theorem Begins.parted {after front : List Char} {piece : Piece} (h : Begins after front piece)
    (hPassed : ∀ refusal, piece ≠ .refused refusal) : Parted front after := by
  cases h with
  | @blank c blank =>
      intro last hLast hDigit
      have hSame : c = last := by simpa using hLast
      subst hSame
      have hSolid := isBlank_eq_false_of_continuesWord (continuesWord_of_isDigit hDigit)
      exact absurd blank (by rw [hSolid]; decide)
  | comment inside ended =>
      intro _ _ _ d hFront
      rw [ended d hFront]
      decide
  | token spelled ended => exact spelled.parted ended
  | character | digits => exact (hPassed _ rfl).elim

/-- Only the last character in front counts. -/
theorem Parted.append {before front after : List Char} (h : Parted front after) (hFront : front ≠ []) :
    Parted (before ++ front) after := by
  intro c hLast
  rw [List.getLast?_append_of_ne_nil before hFront] at hLast
  exact h c hLast

/-- Reading does not come to a stop between two digits. -/
theorem Passes.parted {offset : Nat} {before rest : List Char} {words : List (Token String)}
    (h : Passes rest offset before words) : Parted before rest := by
  have hPiece {front others : List Char} {found : Piece} (hBegins : Begins (others ++ rest) front found)
      (hPassed : ∀ refusal, found ≠ .refused refusal) (hOthers : Parted others rest) :
      Parted (front ++ others) rest := by
    cases others with
    | nil =>
        rw [List.append_nil]
        exact hBegins.parted hPassed
    | cons c others => exact hOthers.append (List.cons_ne_nil c others)
  induction h with
  | start offset => exact nofun
  | gap begins further ih => exact hPiece begins nofun ih
  | token begins further ih => exact hPiece begins nofun ih

/-- So the digits that are found are the whole row, and not the end of a longer one. -/
theorem Parted.isDigit_eq_false {before digits after : List Char} (h : Parted before (digits ++ after))
    (some : digits ≠ []) (all : ∀ c ∈ digits, c.isDigit) :
    ∀ c ∈ before.getLast?, c.isDigit = false := by
  obtain ⟨digit, digits, rfl⟩ := List.exists_cons_of_ne_nil some
  intro c hLast
  rw [Bool.eq_false_iff]
  intro hDigit
  have hNext := h c hLast hDigit digit rfl
  exact absurd (all digit List.mem_cons_self) (by rw [hNext]; decide)

/-- Reading that ends with an error has come up to what is refused. -/
theorem Scans.passes {offset : Nat} {text : List Char} {tokens : List (Token String)} {error : LexError}
    (h : Scans offset text tokens (some error)) :
    ∃ before front after refusal, text = before ++ (front ++ after) ∧
      Passes (front ++ after) offset before tokens ∧ Begins after front (.refused refusal) ∧
      error = refusal (Span.ofRange (offset + byteLength before)
        (offset + byteLength before + byteLength front)) := by
  generalize hSome : some error = found at h
  induction h with
  | ended offset => cases hSome
  | @gap offset passed others tokens found begins further ih =>
      obtain ⟨before, front, after, refusal, rfl, hPassed, hBegins, rfl⟩ := ih hSome
      refine ⟨passed ++ before, front, after, refusal, (List.append_assoc _ _ _).symm,
        .gap begins hPassed, hBegins, ?_⟩
      rw [byteLength_append, Nat.add_assoc offset]
  | @token offset kind word others tokens found begins further ih =>
      obtain ⟨before, front, after, refusal, rfl, hPassed, hBegins, rfl⟩ := ih hSome
      refine ⟨word ++ before, front, after, refusal, (List.append_assoc _ _ _).symm,
        .token begins hPassed, hBegins, ?_⟩
      rw [byteLength_append, Nat.add_assoc offset]
  | @refused offset front after refusal begins =>
      cases hSome
      exact ⟨[], front, after, refusal, rfl, .start offset, begins, rfl⟩

/-- Where a piece is refused the scan ends, with the tokens up to there and the place of that piece. -/
theorem Passes.scan_refused {before front after : List Char} {words : List (Token String)}
    {refusal : Span → LexError} (h : Passes (front ++ after) 0 before words)
    (hBegins : Begins after front (.refused refusal)) :
    scan 0 (before ++ (front ++ after)) =
      ⟨words, some (refusal (Span.ofRange (byteLength before) (byteLength before + byteLength front)))⟩ := by
  have hScan := (h.scans (.refused hBegins)).scan_eq
  rwa [List.append_nil, Nat.zero_add] at hScan

end Lexer

/-- A part of a text has one span only, if offsets do not saturate. -/
theorem Span.Places.eq_ofRange {span : Span} {before part : List Char} (h : span.Places before part)
    (hSize : byteLength (before ++ part) ≤ 4294967295) :
    span = Span.ofRange (byteLength before) (byteLength before + byteLength part) := by
  have hSame := places_ofRange hSize
  have hFirst := UInt32.toNat_inj.mp (h.first.trans hSame.first.symm)
  have hLimit := UInt32.toNat_inj.mp (h.limit.trans hSame.limit.symm)
  obtain ⟨first, limit⟩ := span
  exact congrArg₂ Span.mk hFirst hLimit

namespace Lexer

theorem byteLength_le_of_split {text before front after : List Char} (h : byteLength text ≤ 4294967295)
    (hText : text = before ++ (front ++ after)) : byteLength (before ++ front) ≤ 4294967295 := by
  rw [hText, ← List.append_assoc, byteLength_append] at h
  exact Nat.le_trans (Nat.le_add_right _ _) h

/-- Reading comes past `before`, where it finds the words, and stops there: at a character that is no blank
and with which no token begins, or at a row of digits, the longest that stands there, that is too large. -/
inductive Stops (text before : List Char) (words : List (Token String)) : LexError → Prop where
  | character {c : Char} {after : List Char} {span : Span} (split : text = before ++ c :: after)
      (passed : Passes (c :: after) 0 before words) (solid : isBlank c = false)
      (nothing : ∀ kind word rest, Spells kind word → c :: after ≠ word ++ rest)
      (placed : span.Places before [c]) :
      Stops text before words (.invalidCharacter c span)
  | digits {digits after : List Char} {span : Span} (split : text = before ++ (digits ++ after))
      (passed : Passes (digits ++ after) 0 before words) (some : digits ≠ [])
      (all : ∀ c ∈ digits, c.isDigit) (begun : ∀ c ∈ before.getLast?, c.isDigit = false)
      (ended : ∀ c ∈ after.head?, c.isDigit = false) (large : 2147483647 < decimal digits)
      (placed : span.Places before digits) :
      Stops text before words (.integerOutOfRange (String.ofList digits) span)

/-- What reading stops at is what is computed. -/
theorem scan_eq_error_iff {text : List Char} (hSize : byteLength text ≤ 4294967295)
    (words : List (Token String)) (error : LexError) :
    scan 0 text = ⟨words, some error⟩ ↔ ∃ before, Stops text before words error := by
  constructor
  · intro hScan
    have hScans := scans_scan 0 text
    rw [hScan] at hScans
    obtain ⟨before, front, after, refusal, hText, hPassed, hBegins, rfl⟩ := hScans.passes
    rw [Nat.zero_add]
    have hPlaced := places_ofRange (byteLength_le_of_split hSize hText)
    cases hBegins with
    | character solid nothing => exact ⟨before, .character hText hPassed solid nothing hPlaced⟩
    | digits some all ended large =>
        have hBegun := hPassed.parted.isDigit_eq_false some all
        exact ⟨before, .digits hText hPassed some all hBegun ended large hPlaced⟩
  · rintro ⟨before, hStops⟩
    cases hStops with
    | @character c after span split passed solid nothing placed =>
        rw [placed.eq_ofRange (byteLength_le_of_split hSize split), split]
        exact passed.scan_refused (.character solid nothing)
    | digits split passed some all begun ended large placed =>
        rw [placed.eq_ofRange (byteLength_le_of_split hSize split), split]
        exact passed.scan_refused (.digits some all ended large)

end Lexer

theorem lex_of_scan {source : String} {tokens : List (Token String)}
    (h : scan 0 source.toList = ⟨tokens, none⟩) (table : Interner) :
    lex source table = (.ok (internTokens tokens table).1, (internTokens tokens table).2) := by
  rw [lex, h]

/-- Identifiers in front of an error are numbered all the same. -/
theorem lex_of_scan_error {source : String} {tokens : List (Token String)} {error : LexError}
    (h : scan 0 source.toList = ⟨tokens, some error⟩) (table : Interner) :
    lex source table = (.error error, (table.internAll (identifiers tokens)).2) := by
  rw [lex, h, ← internTokens_table]

end IntScript
