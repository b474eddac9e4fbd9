import IntScript.Token.Lexer

/-! How tokens are spelled, and that a spelling which nothing extends is cut off as the token it
spells. -/
namespace IntScript

/-- The same kind of token with another value for its identifier. -/
def TokenKind.map {ν μ : Type} (f : ν → μ) : TokenKind ν → TokenKind μ
  | .keyword k => .keyword k
  | .delimiter d => .delimiter d
  | .operator op => .operator op
  | .integer value => .integer value
  | .identifier name => .identifier (f name)
  | .endOfFile => .endOfFile

namespace Lexer

/-- Letters, digits and underscores that do not begin with a digit. -/
def isWord : List Char → Bool
  | c :: cs => startsWord c && cs.all continuesWord
  | [] => false

def isIdentifier (text : String) : Bool :=
  isWord text.toList && (Keyword.ofSpelling? text).isNone

/-- The texts that are read as a token of a kind. An integer may have zeros in front. -/
inductive Spells : TokenKind String → List Char → Prop where
  | keyword (keyword : Keyword) :
      Spells (.keyword keyword) keyword.spelling.toList
  | delimiter (delimiter : Delimiter) :
      Spells (.delimiter delimiter) delimiter.spelling.toList
  | operator (op : BinaryOp) :
      Spells (.operator op) op.symbol.toList
  | integer {digits : List Char} (some : digits ≠ []) (all : ∀ c ∈ digits, c.isDigit)
      (small : decimal digits ≤ largestLiteral) :
      Spells (.integer (Int32.ofNat (decimal digits))) digits
  | identifier {text : String} (valid : isIdentifier text) :
      Spells (.identifier text) text.toList

/-- Whether a token of the kind, or a comment, goes on with a character. -/
def goesOn : TokenKind String → Char → Bool
  | .keyword _, c | .identifier _, c => continuesWord c
  | .integer _, c => c.isDigit
  | .operator .lt, c | .operator .gt, c | .delimiter .assign, c => c == '='
  | .operator .div, c => c == '/'
  | _, _ => false

/-- A token of the kind ends before a text. -/
def Ends (kind : TokenKind String) (after : List Char) : Prop :=
  ∀ c ∈ after.head?, goesOn kind c = false

theorem startsWord_eq_false_of_isDigit {c : Char} (h : c.isDigit) : startsWord c = false := by
  have hRange : 48 ≤ c.val.toNat ∧ c.val.toNat ≤ 57 := by
    simpa [Char.isDigit, UInt32.le_iff_toNat_le] using h
  have hNotUnderscore : c ≠ '_' := by
    rintro rfl
    exact absurd h (by decide)
  have hUpper : c.isUpper = decide (65 ≤ c.val ∧ c.val ≤ 90) := rfl
  have hLower : c.isLower = (decide (97 ≤ c.val) && decide (c.val ≤ 122)) := rfl
  have hWord : startsWord c = ((c.isUpper || c.isLower) || c == '_') := rfl
  have hSame : c.toNat = c.val.toNat := rfl
  rw [hWord, hUpper, hLower]
  simp only [UInt32.le_iff_toNat_le, Bool.or_eq_false_iff, Bool.and_eq_false_iff,
    decide_eq_false_iff_not, beq_eq_false_iff_ne]
  refine ⟨?_, hNotUnderscore⟩
  simp
  omega

theorem continuesWord_of_isDigit {c : Char} (h : c.isDigit) : continuesWord c := by
  simp [continuesWord, Char.isAlphanum, h]

theorem continuesWord_of_startsWord {c : Char} (h : startsWord c) : continuesWord c := by
  simp only [startsWord, Bool.or_eq_true] at h
  rcases h with hLetter | hUnderscore
  · simp [continuesWord, Char.isAlphanum, hLetter]
  · simp [continuesWord, hUnderscore]

theorem isBlank_eq_false_of_continuesWord {c : Char} (h : continuesWord c) : isBlank c = false := by
  rw [Bool.eq_false_iff]
  intro hBlank
  simp only [isBlank, Bool.or_eq_true, beq_iff_eq] at hBlank
  rcases hBlank with (((rfl | rfl) | rfl) | rfl) | rfl <;> exact absurd h (by decide)

/-- Exactly the characters with a property are taken from a text if they stand in front of one that
lacks it. -/
theorem takeWhile_append_of_ends {p : Char → Bool} {front after : List Char}
    (hFront : ∀ c ∈ front, p c) (hAfter : ∀ c ∈ after.head?, p c = false) :
    (front ++ after).takeWhile p = front := by
  rw [List.takeWhile_append_of_pos hFront]
  cases after with
  | nil => simp
  | cons c after => simp [hAfter c rfl]

/-- A word is taken whole, whatever stands behind it, as long as that does not go on with it. -/
theorem piece_word {c : Char} {cs after : List Char} (hWord : isWord (c :: cs))
    (hAfter : ∀ d ∈ after.head?, continuesWord d = false) :
    piece c (cs ++ after) = (.token (wordKind (String.ofList (c :: cs))), cs.length) := by
  simp only [isWord, Bool.and_eq_true, List.all_eq_true] at hWord
  have hNotBlank : isBlank c = false :=
    isBlank_eq_false_of_continuesWord (continuesWord_of_startsWord hWord.1)
  have hNotSlash : (c == '/') = false := by
    rw [beq_eq_false_iff_ne]
    rintro rfl
    exact absurd hWord.1 (by decide)
  simp [piece, hNotBlank, hNotSlash, hWord.1, takeWhile_append_of_ends hWord.2 hAfter]

/-- Digits are taken as far as they go, and then the number is small enough or not. -/
theorem piece_integer {c : Char} {cs after : List Char} (hDigits : ∀ d ∈ c :: cs, d.isDigit)
    (hSmall : decimal (c :: cs) ≤ largestLiteral)
    (hAfter : ∀ d ∈ after.head?, d.isDigit = false) :
    piece c (cs ++ after) = (.token (.integer (Int32.ofNat (decimal (c :: cs)))), cs.length) := by
  have hFirst := hDigits c List.mem_cons_self
  have hOthers (d : Char) (hMem : d ∈ cs) := hDigits d (List.mem_cons_of_mem c hMem)
  have hNotBlank : isBlank c = false :=
    isBlank_eq_false_of_continuesWord (continuesWord_of_isDigit hFirst)
  have hNotSlash : (c == '/') = false := by
    rw [beq_eq_false_iff_ne]
    rintro rfl
    exact absurd hFirst (by decide)
  simp [piece, hNotBlank, hNotSlash, startsWord_eq_false_of_isDigit hFirst, hFirst,
    takeWhile_append_of_ends hOthers hAfter, hSmall]

theorem isWord_spelling (keyword : Keyword) : isWord keyword.spelling.toList := by
  cases keyword <;> decide

/-- Every keyword is read as itself and not as an identifier. -/
theorem wordKind_spelling (keyword : Keyword) : wordKind keyword.spelling = .keyword keyword := by
  cases keyword <;> rfl

/-- Only a slash needs a look at the next character, for two of them begin a comment. -/
theorem piece_symbol {c : Char} {cs : List Char} {kind : TokenKind String} {length : Nat}
    (hSymbol : (isBlank c || startsWord c || c.isDigit) = false)
    (hComment : c = '/' → cs.head? ≠ some '/') (hKind : symbol? c cs = some (kind, length)) :
    piece c cs = (.token kind, length) := by
  simp only [Bool.or_eq_false_iff] at hSymbol
  have hNoComment : (c == '/' && cs.head? == some '/') = false := by
    simpa using hComment
  simp [piece, hSymbol.1.1, hSymbol.1.2, hSymbol.2, hNoComment, hKind]

/-- Three signs are shorter forms of others, so that it matters which character comes next. -/
theorem piece_before_assign {c : Char} {kind : TokenKind String} {after : List Char}
    (hKind : (c, kind) ∈ [('=', .delimiter .assign), ('<', .operator .lt), ('>', .operator .gt)])
    (hAfter : ∀ d ∈ after.head?, (d == '=') = false) : piece c after = (.token kind, 0) := by
  simp only [List.mem_cons, Prod.mk.injEq, List.not_mem_nil, or_false] at hKind
  rcases hKind with ⟨rfl, rfl⟩ | ⟨rfl, rfl⟩ | ⟨rfl, rfl⟩ <;>
    refine piece_symbol (by decide) (fun hSlash => absurd hSlash (by decide)) ?_ <;>
    cases after with
    | nil => rfl
    | cons next further =>
        have hNext : next ≠ '=' := by simpa using hAfter next rfl
        simp [symbol?, hNext]

/-- Of the delimiters only the sign of assignment could be a part of something longer. -/
theorem piece_delimiter {delimiter : Delimiter} {c : Char} {cs after : List Char}
    (hText : delimiter.spelling.toList = c :: cs) (hAfter : Ends (.delimiter delimiter) after) :
    piece c (cs ++ after) = (.token (.delimiter delimiter), cs.length) := by
  cases delimiter with
  | assign =>
      obtain ⟨rfl, rfl⟩ : '=' = c ∧ [] = cs := List.cons.inj hText
      exact piece_before_assign (by simp) hAfter
  | _ =>
      obtain ⟨rfl, rfl⟩ := List.cons.inj hText
      rfl

/-- An operator of two characters is taken as one, and one of one character if nothing makes it
longer. -/
theorem piece_operator {op : BinaryOp} {c : Char} {cs after : List Char}
    (hText : op.symbol.toList = c :: cs) (hAfter : Ends (.operator op) after) :
    piece c (cs ++ after) = (.token (.operator op), cs.length) := by
  cases op with
  | lt =>
      obtain ⟨rfl, rfl⟩ : '<' = c ∧ [] = cs := List.cons.inj hText
      exact piece_before_assign (by simp) hAfter
  | gt =>
      obtain ⟨rfl, rfl⟩ : '>' = c ∧ [] = cs := List.cons.inj hText
      exact piece_before_assign (by simp) hAfter
  | div =>
      obtain ⟨rfl, rfl⟩ : '/' = c ∧ [] = cs := List.cons.inj hText
      refine piece_symbol (by decide) (fun _ hSlash => ?_) rfl
      exact absurd (hAfter '/' hSlash) (by decide)
  | _ =>
      obtain ⟨rfl, rfl⟩ := List.cons.inj hText
      rfl

/-- A spelling that nothing extends is the longest piece at the front. -/
theorem Spells.piece {kind : TokenKind String} {text after : List Char} (h : Spells kind text)
    (hAfter : Ends kind after) :
    ∃ c cs, text = c :: cs ∧ Lexer.piece c (cs ++ after) = (.token kind, cs.length) := by
  cases h with
  | keyword keyword =>
      obtain ⟨c, cs, hText⟩ : ∃ c cs, keyword.spelling.toList = c :: cs := by
        cases keyword <;> exact ⟨_, _, rfl⟩
      refine ⟨c, cs, hText, ?_⟩
      rw [piece_word (hText ▸ isWord_spelling keyword) hAfter, ← hText, String.ofList_toList,
        wordKind_spelling]
  | delimiter delimiter =>
      obtain ⟨c, cs, hText⟩ : ∃ c cs, delimiter.spelling.toList = c :: cs := by
        cases delimiter <;> exact ⟨_, _, rfl⟩
      exact ⟨c, cs, hText, piece_delimiter hText hAfter⟩
  | operator op =>
      obtain ⟨c, cs, hText⟩ : ∃ c cs, op.symbol.toList = c :: cs := by
        cases op <;> exact ⟨_, _, rfl⟩
      exact ⟨c, cs, hText, piece_operator hText hAfter⟩
  | integer some all small =>
      obtain ⟨c, cs, rfl⟩ := List.exists_cons_of_ne_nil some
      exact ⟨c, cs, rfl, piece_integer all small hAfter⟩
  | @identifier text valid =>
      simp only [isIdentifier, Bool.and_eq_true, Option.isNone_iff_eq_none] at valid
      obtain ⟨hWord, hNotKeyword⟩ := valid
      cases hText : text.toList with
      | nil => rw [hText] at hWord; cases hWord
      | cons c cs =>
          refine ⟨c, cs, rfl, ?_⟩
          rw [piece_word (hText ▸ hWord) hAfter, ← hText, String.ofList_toList, wordKind, hNotKeyword]

/-- A spelling that nothing extends is cut off as one token, with its place. -/
theorem scan_spelling {kind : TokenKind String} {text after : List Char} (h : Spells kind text)
    (hAfter : Ends kind after) (offset : Nat) :
    scan offset (text ++ after) =
      ⟨⟨kind, Span.ofRange offset (offset + byteLength text)⟩ ::
          (scan (offset + byteLength text) after).tokens,
        (scan (offset + byteLength text) after).error⟩ := by
  obtain ⟨c, cs, rfl, hPiece⟩ := h.piece hAfter
  rw [List.cons_append, scan, hPiece]
  simp

theorem scan_blank {c : Char} (h : isBlank c) (after : List Char) (offset : Nat) :
    scan offset (c :: after) = scan (offset + c.utf8Size) after := by
  rw [scan]
  simp [piece, h, byteLength]

/-- The text is cut up to its end, into tokens of these kinds and the token for the end. -/
def Lexes (text : List Char) (kinds : List (TokenKind String)) : Prop :=
  ∀ offset, (scan offset text).error = none ∧
    (scan offset text).tokens.map (·.kind) = kinds ++ [.endOfFile]

theorem lexes_nil : Lexes [] [] := by
  intro offset
  rw [scan]
  exact ⟨rfl, rfl⟩

theorem Lexes.blank {c : Char} {after : List Char} {kinds : List (TokenKind String)}
    (h : Lexes after kinds) (hBlank : isBlank c) : Lexes (c :: after) kinds := by
  intro offset
  rw [scan_blank hBlank]
  exact h _

/-- A spelling in front of a text that ends it is cut off as one token. -/
theorem Lexes.spelling {kind : TokenKind String} {text after : List Char}
    {kinds : List (TokenKind String)} (h : Lexes after kinds) (hSpells : Spells kind text)
    (hAfter : Ends kind after) : Lexes (text ++ after) (kind :: kinds) := by
  intro offset
  obtain ⟨hError, hKinds⟩ := h (offset + byteLength text)
  rw [scan_spelling hSpells hAfter]
  exact ⟨hError, by rw [List.map_cons, hKinds, List.cons_append]⟩

end Lexer

end IntScript
