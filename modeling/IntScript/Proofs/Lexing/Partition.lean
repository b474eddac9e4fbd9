import IntScript.Proofs.Renaming.Sources
import Mathlib.Data.List.TakeWhile

/-! Lexing divides a text: gaps of blanks and comments stand around the tokens, every token is spelled by
the text in its span, and none could be longer. -/
namespace IntScript

namespace Lexer

/-- What a text begins with: its first piece, by the characters of that and by those behind. A character
is refused if it is no blank and nothing that spells a token starts with it. -/
inductive Begins (after : List Char) : List Char → Piece → Prop where
  | blank {c : Char} (blank : isBlank c) :
      Begins after [c] .gap
  | comment {body : List Char} (inside : ∀ c ∈ body, c ≠ '\n') (ended : ∀ c ∈ after.head?, c = '\n') :
      Begins after ('/' :: '/' :: body) .gap
  | token {kind : TokenKind String} {word : List Char} (spelled : Spells kind word)
      (ended : Ends kind after) :
      Begins after word (.token kind)
  | character {c : Char} (solid : isBlank c = false)
      (nothing : ∀ kind word rest, Spells kind word → c :: after ≠ word ++ rest) :
      Begins after [c] (.refused (.invalidCharacter c))
  | digits {digits : List Char} (some : digits ≠ []) (all : ∀ c ∈ digits, c.isDigit)
      (ended : ∀ c ∈ after.head?, c.isDigit = false) (large : largestLiteral < decimal digits) :
      Begins after digits (.refused (.integerOutOfRange (String.ofList digits)))

/-- The scanner counts characters and cuts them off by their number; this is the run that it
counted. -/
theorem take_takeWhile (p : Char → Bool) (cs : List Char) :
    cs.take (cs.takeWhile p).length = cs.takeWhile p :=
  (List.prefix_iff_eq_take.mp (List.takeWhile_prefix p)).symm

/-- What remains after the cut is what remains after the run. -/
theorem drop_takeWhile (p : Char → Bool) (cs : List Char) :
    cs.drop (cs.takeWhile p).length = cs.dropWhile p := by
  have hSplit := List.take_append_drop (cs.takeWhile p).length cs
  rw [take_takeWhile] at hSplit
  exact List.append_cancel_left (hSplit.trans List.takeWhile_append_dropWhile.symm)

/-- A run ends in front of a character that does not belong to it. -/
theorem head?_dropWhile {p : Char → Bool} {cs : List Char} {c : Char}
    (h : c ∈ (cs.dropWhile p).head?) : p c = false := by
  have hHead := List.head?_dropWhile_not p cs
  rw [Option.mem_def.mp h] at hHead
  simpa using hHead

/-- A word is a keyword or an identifier, and spells what it is taken for. -/
theorem spells_wordKind {word : List Char} (h : isWord word) :
    Spells (wordKind (String.ofList word)) word := by
  rw [wordKind]
  cases hKeyword : Keyword.ofSpelling? (String.ofList word) with
  | some keyword =>
      have hSpelling : keyword.spelling = String.ofList word := by
        simpa using List.find?_some hKeyword
      have hSpells := Spells.keyword keyword
      rw [hSpelling, String.toList_ofList] at hSpells
      exact hSpells
  | none =>
      have hValid : isIdentifier (String.ofList word) := by
        simp [isIdentifier, h, hKeyword]
      have hSpells := Spells.identifier hValid
      rw [String.toList_ofList] at hSpells
      exact hSpells

/-- Keywords go on like identifiers, so `iffy` is no keyword with something behind it. -/
theorem goesOn_wordKind (word : String) : goesOn (wordKind word) = continuesWord := by
  funext c
  rw [wordKind]
  split <;> rfl

/-- The symbol that is found is the longest one: two characters are tried before one. -/
theorem begins_symbol {c : Char} {cs : List Char} {kind : TokenKind String} {length : Nat}
    (hComment : c = '/' → cs.head? ≠ some '/') (h : symbol? c cs = some (kind, length)) :
    Begins (cs.drop length) (c :: cs.take length) (.token kind) := by
  have hSign {kind : TokenKind String} (hOther : ∀ rest, cs = '=' :: rest → False)
      (hGoes : ∀ d, goesOn kind d = (d == '=')) : Ends kind cs := by
    intro d hFront
    rw [hGoes, beq_eq_false_iff_ne]
    rintro rfl
    obtain ⟨rest, hRest⟩ := List.head?_eq_some_iff.mp hFront
    exact hOther rest hRest
  have hSlash (hFirst : c = '/') : Ends (.operator .div) cs := by
    intro d hFront
    refine beq_eq_false_iff_ne.mpr ?_
    rintro rfl
    exact hComment hFirst hFront
  unfold symbol? at h
  split at h <;> cases h
  next => exact .token (.operator .eq) (fun _ _ => rfl)
  next => exact .token (.operator .ne) (fun _ _ => rfl)
  next => exact .token (.operator .le) (fun _ _ => rfl)
  next => exact .token (.operator .ge) (fun _ _ => rfl)
  next => exact .token (.operator .or) (fun _ _ => rfl)
  next => exact .token (.operator .and) (fun _ _ => rfl)
  next => exact .token (.operator .add) (fun _ _ => rfl)
  next => exact .token (.operator .sub) (fun _ _ => rfl)
  next => exact .token (.operator .mul) (fun _ _ => rfl)
  next => exact .token (.operator .div) (hSlash rfl)
  next => exact .token (.operator .mod) (fun _ _ => rfl)
  next hOther => exact .token (.operator .lt) (hSign hOther (fun _ => rfl))
  next hOther => exact .token (.operator .gt) (hSign hOther (fun _ => rfl))
  next hOther => exact .token (.delimiter .assign) (hSign hOther (fun _ => rfl))
  next => exact .token (.delimiter .openParen) (fun _ _ => rfl)
  next => exact .token (.delimiter .closeParen) (fun _ _ => rfl)
  next => exact .token (.delimiter .openBrace) (fun _ _ => rfl)
  next => exact .token (.delimiter .closeBrace) (fun _ _ => rfl)
  next => exact .token (.delimiter .comma) (fun _ _ => rfl)
  next => exact .token (.delimiter .semicolon) (fun _ _ => rfl)

/-- Signs that could begin longer symbols are symbols by themselves. -/
theorem exists_symbol_of_sign {c : Char} (h : c ∈ ['=', '<', '>']) (cs : List Char) :
    ∃ found, symbol? c cs = some found := by
  simp only [List.mem_cons, List.not_mem_nil, or_false] at h
  rcases h with rfl | rfl | rfl <;>
    cases cs with
    | nil => exact ⟨_, rfl⟩
    | cons next others =>
        by_cases hNext : next = '='
        · subst hNext
          exact ⟨_, rfl⟩
        · simp [symbol?, hNext]

/-- What spells a token begins with a letter or a digit, or a symbol is in front. -/
theorem Spells.begins {kind : TokenKind String} {word rest cs : List Char} {c : Char}
    (h : Spells kind word) (hText : c :: cs = word ++ rest) :
    startsWord c ∨ c.isDigit ∨ ∃ found, symbol? c cs = some found := by
  cases h with
  | keyword keyword =>
      cases keyword <;> obtain ⟨rfl, -⟩ := List.cons.inj hText <;> exact Or.inl rfl
  | delimiter delimiter =>
      refine Or.inr (Or.inr ?_)
      cases delimiter with
      | assign =>
          have hFirst : c = '=' := (List.cons.inj hText).1
          exact exists_symbol_of_sign (by simp [hFirst]) cs
      | openParen | closeParen | openBrace | closeBrace | comma | semicolon =>
          obtain ⟨rfl, -⟩ := List.cons.inj hText
          exact ⟨_, rfl⟩
  | operator op =>
      refine Or.inr (Or.inr ?_)
      cases op with
      | lt =>
          have hFirst : c = '<' := (List.cons.inj hText).1
          exact exists_symbol_of_sign (by simp [hFirst]) cs
      | gt =>
          have hFirst : c = '>' := (List.cons.inj hText).1
          exact exists_symbol_of_sign (by simp [hFirst]) cs
      | add | sub | mul | div | mod | eq | ne | le | ge | and | or =>
          obtain ⟨rfl, rfl⟩ := List.cons.inj hText
          exact ⟨_, rfl⟩
  | integer some all small =>
      obtain ⟨digit, digits, rfl⟩ := List.exists_cons_of_ne_nil some
      obtain ⟨rfl, -⟩ := List.cons.inj hText
      exact Or.inr (Or.inl (all c List.mem_cons_self))
  | @identifier text valid =>
      simp only [isIdentifier, Bool.and_eq_true] at valid
      cases hWord : text.toList with
      | nil =>
          rw [hWord] at valid
          cases valid.1
      | cons first others =>
          rw [hWord] at hText valid
          obtain ⟨rfl, -⟩ := List.cons.inj hText
          exact Or.inl (Bool.and_eq_true_iff.mp valid.1).1

/-- The piece that is computed is one that the text begins with. That there is no other is shown
later. -/
theorem begins_piece (c : Char) (cs : List Char) :
    Begins (cs.drop (piece c cs).2) (c :: cs.take (piece c cs).2) (piece c cs).1 := by
  rw [piece]
  split
  next hBlank => exact .blank hBlank
  next hSolid =>
    split
    next hComment =>
      simp only [Bool.and_eq_true, beq_iff_eq] at hComment
      obtain ⟨rfl, hNext⟩ := hComment
      obtain ⟨rest, rfl⟩ := List.head?_eq_some_iff.mp hNext
      rw [take_takeWhile, drop_takeWhile]
      refine .comment (fun c hMem => ?_) (fun c hFront => ?_)
      · simpa using List.mem_takeWhile_imp hMem
      · simpa using head?_dropWhile hFront
    next hComment =>
      split
      next hWord =>
        rw [take_takeWhile, drop_takeWhile]
        have hTail : (cs.takeWhile continuesWord).all continuesWord := by simp
        have hIsWord : isWord (c :: cs.takeWhile continuesWord) :=
          Bool.and_eq_true_iff.mpr ⟨hWord, hTail⟩
        refine .token (spells_wordKind hIsWord) (fun d hFront => ?_)
        rw [goesOn_wordKind]
        exact head?_dropWhile hFront
      next hWord =>
        split
        next hDigit =>
          have hDigits : ∀ d ∈ c :: cs.takeWhile Char.isDigit, d.isDigit := by
            intro d hMem
            rcases List.mem_cons.mp hMem with rfl | hMem
            · exact hDigit
            · exact List.mem_takeWhile_imp hMem
          have hEnded : ∀ d ∈ (cs.dropWhile Char.isDigit).head?, d.isDigit = false :=
            fun d hFront => head?_dropWhile hFront
          dsimp only
          split
          next hSmall =>
            rw [take_takeWhile, drop_takeWhile]
            exact .token (.integer (List.cons_ne_nil _ _) hDigits hSmall) hEnded
          next hLarge =>
            rw [take_takeWhile, drop_takeWhile]
            exact .digits (List.cons_ne_nil _ _) hDigits hEnded (Nat.lt_of_not_le hLarge)
        next hDigit =>
          split
          next kind length hSymbol =>
            exact begins_symbol (by simpa using hComment) hSymbol
          next hNone =>
            refine .character (by simpa using hSolid) (fun kind word rest hSpells hText => ?_)
            rcases hSpells.begins hText with hStart | hStart | ⟨found, hFound⟩
            · exact hWord hStart
            · exact hDigit hStart
            · rw [List.drop_zero] at hFound
              rw [hNone] at hFound
              cases hFound

/-- Reading a text from left to right, from a byte offset on: the tokens up to its end, or up to the
piece that is refused. -/
inductive Scans : Nat → List Char → List (Token String) → Option LexError → Prop where
  | ended (offset : Nat) :
      Scans offset [] [⟨.endOfFile, Span.ofRange offset offset⟩] none
  | gap {offset : Nat} {front after : List Char} {tokens : List (Token String)} {error : Option LexError}
      (begins : Begins after front .gap) (others : Scans (offset + byteLength front) after tokens error) :
      Scans offset (front ++ after) tokens error
  | token {offset : Nat} {kind : TokenKind String} {word after : List Char}
      {tokens : List (Token String)} {error : Option LexError} (begins : Begins after word (.token kind))
      (others : Scans (offset + byteLength word) after tokens error) :
      Scans offset (word ++ after)
        (⟨kind, Span.ofRange offset (offset + byteLength word)⟩ :: tokens) error
  | refused {offset : Nat} {front after : List Char} {error : Span → LexError}
      (begins : Begins after front (.refused error)) :
      Scans offset (front ++ after) [] (some (error (Span.ofRange offset (offset + byteLength front))))

/-- The scan that is computed is one by the rules, with an error or without. -/
theorem scans_scan (offset : Nat) (text : List Char) :
    Scans offset text (scan offset text).tokens (scan offset text).error := by
  match text with
  | [] =>
      rw [scan]
      exact .ended offset
  | c :: cs =>
      have hBegins := begins_piece c cs
      rw [scan]
      generalize piece c cs = found at hBegins ⊢
      obtain ⟨front, length⟩ := found
      have hText : (c :: cs.take length) ++ cs.drop length = c :: cs := by
        rw [List.cons_append, List.take_append_drop]
      rw [← hText]
      cases front with
      | gap => exact .gap hBegins (scans_scan _ _)
      | token kind => exact .token hBegins (scans_scan _ _)
      | refused error => exact .refused hBegins
termination_by text.length
decreasing_by
  · exact Nat.lt_succ_of_le (length_drop_le length cs)
  · exact Nat.lt_succ_of_le (length_drop_le length cs)

/-- Blanks and comments in front of a text. A comment goes on to the next line feed, or to the end. -/
inductive Gap (after : List Char) : List Char → Prop where
  | nil : Gap after []
  | blank {c : Char} {gap : List Char} (blank : isBlank c) (others : Gap after gap) :
      Gap after (c :: gap)
  | comment {body gap : List Char} (inside : ∀ c ∈ body, c ≠ '\n')
      (ended : ∀ c ∈ (gap ++ after).head?, c = '\n') (others : Gap after gap) :
      Gap after ('/' :: '/' :: (body ++ gap))

theorem byteLength_append (front after : List Char) :
    byteLength (front ++ after) = byteLength front + byteLength after := by
  induction front with
  | nil => exact (Nat.zero_add _).symm
  | cons c front ih => simp [byteLength] at ih ⊢; omega

theorem Begins.gap {front gap after : List Char} (h : Begins (gap ++ after) front .gap)
    (hGap : Gap after gap) : Gap after (front ++ gap) := by
  cases h with
  | blank blank => exact .blank blank hGap
  | comment inside ended => exact .comment inside ended hGap

/-- Every token has bytes, so spans are not empty. -/
theorem byteLength_pos {word : List Char} (h : word ≠ []) : 0 < byteLength word := by
  obtain ⟨c, cs, rfl⟩ := List.exists_cons_of_ne_nil h
  exact Nat.lt_of_lt_of_le c.utf8Size_pos (Nat.le_add_right _ _)

end Lexer

/-- The span takes up a part of a text that stands behind `before`. Both of its ends lie between
characters. -/
structure Span.Places (span : Span) (before part : List Char) : Prop where
  first : span.first.toNat = Lexer.byteLength before
  limit : span.limit.toNat = Lexer.byteLength (before ++ part)

namespace Lexer

theorem toNat_clamp {offset : Nat} (h : offset ≤ 4294967295) : (Span.clamp offset).toNat = offset := by
  rw [Span.clamp, Nat.min_eq_left h]
  exact Nat.mod_eq_of_lt (Nat.lt_succ_of_le h)

/-- A span made from the offsets of a part takes up that part. -/
theorem places_ofRange {before part : List Char} (h : byteLength (before ++ part) ≤ 4294967295) :
    (Span.ofRange (byteLength before) (byteLength before + byteLength part)).Places before part := by
  rw [← byteLength_append]
  refine ⟨toNat_clamp (Nat.le_trans ?_ h), toNat_clamp h⟩
  rw [byteLength_append]
  exact Nat.le_add_right _ _

/-- A text that stands behind `before` is divided into gaps and the tokens between them. Each token is
spelled by the text in its span, and ends where nothing could make it longer. The last token is the one
for the end. -/
inductive Partition : List Char → List Char → List (Token String) → Prop where
  | ended {before gap : List Char} {place : Span} (apart : Gap [] gap)
      (placed : place.Places (before ++ gap) []) :
      Partition before gap [⟨.endOfFile, place⟩]
  | token {before gap word after : List Char} {kind : TokenKind String} {place : Span}
      {tokens : List (Token String)} (apart : Gap (word ++ after) gap) (spelled : Spells kind word)
      (last : Ends kind after) (placed : place.Places (before ++ gap) word)
      (others : Partition (before ++ gap ++ word) after tokens) :
      Partition before (gap ++ word ++ after) (⟨kind, place⟩ :: tokens)

/-- A blank or a comment in front of a text belongs to its first gap. -/
theorem Partition.prepend {before front after : List Char} {tokens : List (Token String)}
    (hFront : Begins after front .gap) (h : Partition (before ++ front) after tokens) :
    Partition before (front ++ after) tokens := by
  cases h with
  | ended apart placed =>
      rw [List.append_assoc] at placed
      refine .ended (Begins.gap ?_ apart) placed
      rw [List.append_nil]
      exact hFront
  | token apart spelled last placed others =>
      rw [List.append_assoc before] at placed others
      rw [List.append_assoc] at hFront
      rw [← List.append_assoc, ← List.append_assoc]
      exact .token (hFront.gap apart) spelled last placed others

/-- A text that is read to its end is divided by the tokens that are read. -/
theorem Scans.partition {offset : Nat} {before text : List Char} {tokens : List (Token String)}
    (h : Scans offset text tokens none) (hOffset : offset = byteLength before)
    (hSize : byteLength (before ++ text) ≤ 4294967295) : Partition before text tokens := by
  generalize hNone : (none : Option LexError) = error at h
  induction h generalizing before with
  | ended offset =>
      subst hOffset
      refine .ended .nil ?_
      rw [List.append_nil] at hSize ⊢
      exact places_ofRange (by rwa [List.append_nil])
  | gap begins others ih =>
      rw [← List.append_assoc] at hSize
      refine (ih ?_ hSize hNone).prepend begins
      rw [byteLength_append, hOffset]
  | @token offset kind word after tokens error begins others ih =>
      subst hOffset
      rw [← List.append_assoc] at hSize
      have hLimit : byteLength (before ++ word) ≤ 4294967295 := by
        rw [byteLength_append] at hSize
        exact Nat.le_trans (Nat.le_add_right _ _) hSize
      have hOthers := ih (byteLength_append before word).symm hSize hNone
      cases begins with
      | token spelled ended =>
          refine Partition.token .nil spelled ended ?_ ?_
          · rw [List.append_nil]
            exact places_ofRange hLimit
          · rw [List.append_nil]
            exact hOthers
  | refused begins => cases hNone

/-- No token is spelled by nothing. The one for the end of the text has no spelling at all. -/
theorem Spells.ne_nil {kind : TokenKind String} {word : List Char} (h : Spells kind word) :
    word ≠ [] := by
  obtain ⟨c, cs, rfl, -⟩ := h.piece (fun c (hFront : c ∈ [].head?) => nomatch hFront)
  exact List.cons_ne_nil c cs

/-- Nothing that spells a token and begins at the same place is longer than a token that ends where nothing
makes it longer. -/
theorem Spells.longest {kind other : TokenKind String} {word after spelling rest : List Char}
    (h : Spells kind word) (hEnds : Ends kind after) (hOther : Spells other spelling)
    (hText : word ++ after = spelling ++ rest) : spelling.length ≤ word.length := by
  rcases List.append_eq_append_iff.mp hText with ⟨more, hLonger, rfl⟩ | ⟨more, hShorter, -⟩
  · -- The longer spelling alone is cut off as a whole, but also at the end of the word.
    have hAlone : Ends kind more := fun c hFront => hEnds c (List.mem_head?_append_of_mem_head? hFront)
    obtain ⟨c, cs, rfl, hPiece⟩ := h.piece hAlone
    obtain ⟨d, ds, rfl, hWhole⟩ := hOther.piece (fun c (hFront : c ∈ [].head?) => nomatch hFront)
    rw [List.cons_append] at hLonger
    obtain ⟨rfl, rfl⟩ := List.cons.inj hLonger
    rw [List.append_nil, hPiece] at hWhole
    have hLength : cs.length = (cs ++ more).length := congrArg Prod.snd hWhole
    rw [List.length_cons, List.length_cons, hLength]
  · rw [hShorter, List.length_append]
    exact Nat.le_add_right _ _

theorem Spells.ne_endOfFile {kind : TokenKind String} {word : List Char} (h : Spells kind word) :
    kind ≠ .endOfFile := by
  cases h <;> exact nofun

end Lexer

open Lexer

def Token.map {ν μ : Type} (f : ν → μ) (token : Token ν) : Token μ :=
  ⟨token.kind.map f, token.span⟩

/-- Only the token for the end has no value that could be replaced by its own. -/
theorem Token.eq_endOfFile_of_map {ν μ : Type} {f : ν → μ} {token : Token ν} {place : Span}
    (h : token.map f = ⟨.endOfFile, place⟩) : token = ⟨.endOfFile, place⟩ := by
  obtain ⟨kind, span⟩ := token
  cases kind <;> cases h
  rfl

/-- Tokens end as they do with other values for their identifiers. -/
theorem Token.exists_of_map_endOfFile {ν μ : Type} {f : ν → μ} {tokens : List (Token ν)}
    {words : List (Token μ)} {place : Span}
    (h : tokens.map (Token.map f) = words ++ [⟨.endOfFile, place⟩]) :
    ∃ named, tokens = named ++ [⟨.endOfFile, place⟩] ∧ named.map (Token.map f) = words := by
  obtain ⟨named, last, rfl, hNamed, hLast⟩ := List.map_eq_append_iff.mp h
  obtain ⟨final, rfl, hFinal⟩ := List.map_eq_singleton_iff.mp hLast
  exact ⟨named, by rw [Token.eq_endOfFile_of_map hFinal], hNamed⟩

/-- The token is spelled by the text in its span, and could not be longer. -/
def Token.Spelled (source : List Char) (token : Token String) : Prop :=
  ∃ before word after, source = before ++ word ++ after ∧ token.span.Places before word ∧
    Spells token.kind word ∧ Ends token.kind after

/-- Nothing that begins where the token does and spells a token is longer than the text in its span. -/
def Token.Longest {ν : Type} (source : List Char) (token : Token ν) : Prop :=
  ∃ before word after, source = before ++ word ++ after ∧ token.span.Places before word ∧
    ∀ kind spelling rest, Spells kind spelling → word ++ after = spelling ++ rest →
      spelling.length ≤ word.length

/-- A longer spelling at the same place would go on with the token, and it has ended. -/
theorem Token.Spelled.longest {source : List Char} {token : Token String} (h : token.Spelled source) :
    token.Longest source := by
  obtain ⟨before, word, after, hText, hPlaces, hSpells, hEnds⟩ := h
  exact ⟨before, word, after, hText, hPlaces, fun _ _ _ hOther => hSpells.longest hEnds hOther⟩

theorem Token.Spelled.kind_ne {source : List Char} {token : Token String}
    (h : token.Spelled source) : token.kind ≠ .endOfFile := by
  obtain ⟨before, word, after, -, -, hSpells, -⟩ := h
  exact hSpells.ne_endOfFile

/-- A token that is spelled has at least one byte. -/
theorem Token.Spelled.first_lt_limit {source : List Char} {token : Token String}
    (h : token.Spelled source) : token.span.first < token.span.limit := by
  obtain ⟨before, word, after, -, hPlaces, hSpells, -⟩ := h
  rw [UInt32.lt_iff_toNat_lt, hPlaces.first, hPlaces.limit, byteLength_append]
  exact Nat.lt_add_of_pos_right (byteLength_pos hSpells.ne_nil)

/-- The tokens of a divided text in order: those between the gaps, and then the one for the end. -/
theorem Lexer.Partition.words {before text : List Char} {tokens : List (Token String)}
    (h : Partition before text tokens) :
    ∃ words place, tokens = words ++ [⟨.endOfFile, place⟩] ∧ place.Places (before ++ text) [] ∧
      (∀ token ∈ words, token.Spelled (before ++ text) ∧ byteLength before ≤ token.span.first.toNat) ∧
      words.Pairwise (fun token other => token.span.limit ≤ other.span.first) := by
  induction h with
  | ended apart placed => exact ⟨[], _, rfl, placed, nofun, .nil⟩
  | @token before gap word after kind place tokens apart spelled last placed others ih =>
      obtain ⟨words, final, rfl, hFinal, hWords, hOrdered⟩ := ih
      have hText : before ++ gap ++ word ++ after = before ++ (gap ++ word ++ after) := by
        simp only [List.append_assoc]
      rw [hText] at hFinal hWords
      refine ⟨⟨kind, place⟩ :: words, final, rfl, hFinal, ?_, .cons ?_ hOrdered⟩
      · intro token hToken
        rcases List.mem_cons.mp hToken with rfl | hLater
        · refine ⟨⟨before ++ gap, word, after, hText.symm, placed, spelled, last⟩, ?_⟩
          rw [placed.first, byteLength_append]
          exact Nat.le_add_right _ _
        · refine ⟨(hWords token hLater).1, Nat.le_trans ?_ (hWords token hLater).2⟩
          rw [List.append_assoc, byteLength_append]
          exact Nat.le_add_right _ _
      · intro other hOther
        rw [UInt32.le_iff_toNat_le, placed.limit]
        exact (hWords other hOther).2

/-- The name of an identifier looks up to its text in every later table, and nothing else changes. -/
theorem Lexer.map_internToken (token : Token String) {table later : Interner}
    (hGrows : (internToken token table).2.GrowsTo later) (hFits : later.size ≤ Interner.capacity) :
    (internToken token table).1.map later.lookup = token := by
  obtain ⟨kind, place⟩ := token
  cases kind with
  | identifier text =>
      have hText := hGrows.text? (Interner.text?_intern (Nat.le_trans hGrows.size hFits))
      exact congrArg (fun text => (⟨.identifier text, place⟩ : Token String))
        (Interner.lookup_of_text hText)
  | keyword | delimiter | operator | integer | endOfFile => rfl

theorem Lexer.growsTo_internTokens (tokens : List (Token String)) (table : Interner) :
    table.GrowsTo (internTokens tokens table).2 := by
  rw [internTokens_table]
  exact Interner.growsTo_internAll table _

/-- The numbered tokens are those that were read, if there are numbers for all texts. -/
theorem Lexer.map_internTokens (tokens : List (Token String)) {table later : Interner}
    (hGrows : (internTokens tokens table).2.GrowsTo later) (hFits : later.size ≤ Interner.capacity) :
    (internTokens tokens table).1.map (Token.map later.lookup) = tokens := by
  induction tokens generalizing table with
  | nil => rfl
  | cons token tokens ih =>
      have hToken := map_internToken token ((growsTo_internTokens tokens _).trans hGrows) hFits
      rw [internTokens]
      exact congrArg₂ List.cons hToken (ih hGrows)

/-- Two ends in the same place make an empty span, and there is only one such span. -/
theorem Span.eq_emptyAt {span : Span} {offset : Nat} (hFirst : span.first.toNat = offset)
    (hLimit : span.limit.toNat = offset) : span = Span.emptyAt offset.toUInt32 := by
  have hSame : span.limit = span.first := UInt32.toNat_inj.mp (hLimit.trans hFirst.symm)
  have hNumber : offset.toUInt32 = span.first := by
    rw [← hFirst]
    exact UInt32.ofNat_toNat
  rw [Span.emptyAt, hNumber]
  cases span
  cases hSame
  rfl

/-- Bytes counted by characters are the bytes of the encoding. -/
theorem Lexer.size_utf8Encode (cs : List Char) : cs.utf8Encode.size = byteLength cs := by
  induction cs with
  | nil => rfl
  | cons c cs ih =>
      rw [List.utf8Encode_cons, ByteArray.size_append, ih, List.utf8Encode_singleton]
      simp [byteLength]

theorem Lexer.byteLength_toList (source : String) : byteLength source.toList = source.utf8ByteSize := by
  rw [← size_utf8Encode, String.utf8Encode_toList, String.size_toByteArray]

/-- Where the scan comes to the end of the text, its tokens and the gaps between them make it up. -/
theorem Lexer.partition_scan {source : String} (hSize : source.utf8ByteSize ≤ 4294967295)
    (h : (scan 0 source.toList).error = none) :
    Partition [] source.toList (scan 0 source.toList).tokens := by
  have hScans := scans_scan 0 source.toList
  rw [h] at hScans
  exact hScans.partition rfl (by rwa [List.nil_append, byteLength_toList])

/-- What is read up to the end of a text: the tokens in the order of their places, and then one for the
end. -/
theorem Lexer.scan_words {source : String} (hSize : source.utf8ByteSize ≤ 4294967295)
    (h : (scan 0 source.toList).error = none) :
    ∃ words, (scan 0 source.toList).tokens =
        words ++ [⟨.endOfFile, Span.emptyAt source.utf8ByteSize.toUInt32⟩] ∧
      (∀ token ∈ words, token.Spelled source.toList) ∧
      words.Pairwise (fun token other => token.span.limit ≤ other.span.first) := by
  obtain ⟨words, place, hTokens, hPlace, hWords, hOrdered⟩ := (partition_scan hSize h).words
  rw [List.nil_append] at hPlace
  have hEnd := Span.eq_emptyAt hPlace.first (by rw [hPlace.limit, List.append_nil])
  rw [hEnd, byteLength_toList] at hTokens
  exact ⟨words, hTokens, fun token hToken => (hWords token hToken).1, hOrdered⟩

/-- The table after lexing is known from the texts of the identifiers, in the order in which they
were read. -/
theorem lex_eq_of_identifiers {source : String} {table : Interner} {texts : List String}
    {result : Except LexError (List (Token Name))} (hResult : (lex source table).1 = result)
    (hTexts : identifiers (scan 0 source.toList).tokens = texts) :
    lex source table = (result, (table.internAll texts).2) := by
  refine Prod.ext hResult ?_
  rw [lex_table, hTexts]

/-- A list of tokens comes from a scan without an error. -/
theorem lex_eq_ok {source : String} {table later : Interner} {tokens : List (Token Name)}
    (h : lex source table = (.ok tokens, later)) :
    (scan 0 source.toList).error = none ∧
      internTokens (scan 0 source.toList).tokens table = (tokens, later) := by
  rw [lex] at h
  cases hError : (scan 0 source.toList).error with
  | some error =>
      rw [hError] at h
      cases h
  | none =>
      rw [hError] at h
      cases h
      exact ⟨rfl, rfl⟩

theorem lex_eq_error {source : String} {table later : Interner} {error : LexError}
    (h : lex source table = (.error error, later)) : (scan 0 source.toList).error = some error := by
  rw [lex] at h
  cases hError : (scan 0 source.toList).error with
  | none =>
      rw [hError] at h
      cases h
  | some found =>
      rw [hError] at h
      cases h
      rfl

/-- Lexing divides the text. In the order of their places there are the tokens between the gaps, each the
longest that begins at its place, and then one token for the end. The table has numbers for all its
texts, which is when numbering goes through. -/
theorem lex_partition {source : String} {table later : Interner} {tokens : List (Token Name)}
    (hSize : source.utf8ByteSize ≤ 4294967295) (hFits : later.size ≤ Interner.capacity)
    (h : lex source table = (.ok tokens, later)) :
    Partition [] source.toList (tokens.map (Token.map later.lookup)) ∧
      ∃ words, tokens = words ++ [⟨.endOfFile, Span.emptyAt source.utf8ByteSize.toUInt32⟩] ∧
        (∀ token ∈ words, (token.map later.lookup).Spelled source.toList ∧ token.Longest source.toList ∧
          token.kind ≠ .endOfFile ∧ token.span.first < token.span.limit) ∧
        words.Pairwise (fun token other => token.span.limit ≤ other.span.first) := by
  obtain ⟨hError, hTokens⟩ := lex_eq_ok h
  have hNamed : tokens.map (Token.map later.lookup) = (scan 0 source.toList).tokens := by
    have hGrows : (internTokens (scan 0 source.toList).tokens table).2.GrowsTo later := by
      rw [hTokens]
      exact .refl later
    have hMap := map_internTokens (scan 0 source.toList).tokens hGrows hFits
    rwa [hTokens] at hMap
  obtain ⟨words, hWords, hSpelled, hOrdered⟩ := scan_words hSize hError
  obtain ⟨named, hSplit, rfl⟩ := Token.exists_of_map_endOfFile (hNamed.trans hWords)
  refine ⟨hNamed ▸ partition_scan hSize hError, named, hSplit, fun token hToken => ?_,
    List.pairwise_map.mp hOrdered⟩
  have hToken := hSpelled _ (List.mem_map_of_mem hToken)
  refine ⟨hToken, hToken.longest, fun hKind => hToken.kind_ne ?_, hToken.first_lt_limit⟩
  rw [Token.map, hKind]
  rfl

/-- A comment with a character of two bytes stands between the tokens, and one digit row has a zero in
front. -/
theorem lex_partition_aroundComment :
    let source := "x1=07//\u00e9\n<=y"
    let tokens : List (Token Name) :=
      [⟨.identifier ⟨8⟩, ⟨0, 2⟩⟩, ⟨.delimiter .assign, ⟨2, 3⟩⟩, ⟨.integer 7, ⟨3, 5⟩⟩,
        ⟨.operator .le, ⟨10, 12⟩⟩, ⟨.identifier ⟨9⟩, ⟨12, 13⟩⟩, ⟨.endOfFile, ⟨13, 13⟩⟩]
    let later : Interner := (Interner.initial.internAll ["x1", "y"]).2
    source.utf8ByteSize ≤ 4294967295 ∧ later.size ≤ Interner.capacity ∧
      lex source .initial = (.ok tokens, later) ∧
      Partition [] source.toList (tokens.map (Token.map later.lookup)) ∧
      ∃ words, tokens = words ++ [⟨.endOfFile, Span.emptyAt source.utf8ByteSize.toUInt32⟩] ∧
        (∀ token ∈ words, (token.map later.lookup).Spelled source.toList ∧ token.Longest source.toList ∧
          token.kind ≠ .endOfFile ∧ token.span.first < token.span.limit) ∧
        words.Pairwise (fun token other => token.span.limit ≤ other.span.first) := by
  have hLex : lex "x1=07//\u00e9\n<=y" .initial =
      (.ok [⟨.identifier ⟨8⟩, ⟨0, 2⟩⟩, ⟨.delimiter .assign, ⟨2, 3⟩⟩, ⟨.integer 7, ⟨3, 5⟩⟩,
        ⟨.operator .le, ⟨10, 12⟩⟩, ⟨.identifier ⟨9⟩, ⟨12, 13⟩⟩, ⟨.endOfFile, ⟨13, 13⟩⟩],
        (Interner.initial.internAll ["x1", "y"]).2) :=
    lex_eq_of_identifiers (by decide +kernel) (by decide +kernel)
  exact ⟨by decide, by decide, hLex, lex_partition (by decide) (by decide) hLex⟩

end IntScript
