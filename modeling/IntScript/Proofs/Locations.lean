import IntScript.Proofs.Grammar.CorrectPrefix
import IntScript.Proofs.Lexing.Determinacy

/-! The report about a text that is no program marks parts of that text: what could not be read, or where
the text ends too early and what is still open there. -/
namespace IntScript

namespace Lexer

theorem continuesWord_of_isWord {word : List Char} (h : isWord word) : ∀ c ∈ word, continuesWord c := by
  intro c hMem
  cases word with
  | nil => cases hMem
  | cons first others =>
      obtain ⟨hFirst, hOthers⟩ := Bool.and_eq_true_iff.mp h
      rcases List.mem_cons.mp hMem with rfl | hMem
      · exact continuesWord_of_startsWord hFirst
      · exact List.all_eq_true.mp hOthers c hMem

/-- Words are made of characters of one byte. -/
theorem utf8Size_of_continuesWord {c : Char} (h : continuesWord c) : c.utf8Size = 1 := by
  have hWord : continuesWord c = (((c.isUpper || c.isLower) || c.isDigit) || c == '_') := rfl
  have hUpper : c.isUpper = decide (65 ≤ c.val ∧ c.val ≤ 90) := rfl
  have hLower : c.isLower = (decide (97 ≤ c.val) && decide (c.val ≤ 122)) := rfl
  have hDigit : c.isDigit = (decide (48 ≤ c.val) && decide (c.val ≤ 57)) := rfl
  rw [hWord, hUpper, hLower, hDigit] at h
  simp only [Bool.or_eq_true, Bool.and_eq_true, decide_eq_true_eq, beq_iff_eq] at h
  rw [Char.utf8Size_eq_one_iff]
  rcases h with ((⟨-, hLast⟩ | ⟨-, hLast⟩) | ⟨-, hLast⟩) | rfl
  · exact UInt32.le_trans hLast (by decide)
  · exact UInt32.le_trans hLast (by decide)
  · exact UInt32.le_trans hLast (by decide)
  · decide

/-- A token is made of characters of one byte, and no blank stands in it. -/
theorem Spells.characters {kind : TokenKind String} {word : List Char} (h : Spells kind word) :
    ∀ c ∈ word, isBlank c = false ∧ c.utf8Size = 1 := by
  have hWord {word : List Char} (hAll : ∀ c ∈ word, continuesWord c) :
      ∀ c ∈ word, isBlank c = false ∧ c.utf8Size = 1 := fun c hMem =>
    ⟨isBlank_eq_false_of_continuesWord (hAll c hMem), utf8Size_of_continuesWord (hAll c hMem)⟩
  have hSigns {signs : List Char} (hAll : signs.all (fun c => !isBlank c && c.utf8Size == 1)) :
      ∀ c ∈ signs, isBlank c = false ∧ c.utf8Size = 1 := by
    simpa using hAll
  cases h with
  | keyword keyword => exact hWord (continuesWord_of_isWord (isWord_spelling keyword))
  | identifier valid => exact hWord (continuesWord_of_isWord (Bool.and_eq_true_iff.mp valid).1)
  | integer some all small => exact hWord (fun c hMem => continuesWord_of_isDigit (all c hMem))
  | delimiter delimiter => exact hSigns (by cases delimiter <;> decide)
  | operator op => exact hSigns (by cases op <;> decide)

theorem internTokens_forget (tokens : List (Token String)) (table : Interner) :
    (internTokens tokens table).1.map (Token.map (fun _ => ())) =
      tokens.map (Token.map (fun _ => ())) := by
  induction tokens generalizing table with
  | nil => rfl
  | cons token tokens ih =>
      obtain ⟨kind, span⟩ := token
      cases kind <;> exact congrArg (List.cons _) (ih _)

end Lexer

open Lexer

/-- The span takes up a part of one line of the text. Both of its ends lie between characters. -/
structure Span.OnLine (span : Span) (source : String) : Prop where
  ordered : span.first ≤ span.limit
  inside : span.limit.toNat ≤ source.utf8ByteSize
  part : ∃ before part after, source.toList = before ++ part ++ after ∧ span.Places before part ∧
    '\n' ∉ part ∧ '\r' ∉ part

/-- A part without blanks has no line feed in it, so it lies on one line. -/
theorem Span.Places.onLine {span : Span} {source : String} {before part after : List Char}
    (h : span.Places before part) (hText : source.toList = before ++ part ++ after)
    (hSolid : ∀ c ∈ part, isBlank c = false) : span.OnLine source := by
  constructor
  · rw [UInt32.le_iff_toNat_le, h.first, h.limit, byteLength_append]
    exact Nat.le_add_right _ _
  · rw [h.limit, ← byteLength_toList, hText, byteLength_append (before ++ part)]
    exact Nat.le_add_right _ _
  · refine ⟨before, part, after, hText, h, fun hMem => ?_, fun hMem => ?_⟩
    · exact absurd (hSolid _ hMem) (by decide)
    · exact absurd (hSolid _ hMem) (by decide)

/-- The end of the text is a place as well, with nothing in it. -/
theorem Span.places_emptyAt {source : String} (h : source.utf8ByteSize ≤ 4294967295) :
    (Span.emptyAt source.utf8ByteSize.toUInt32).Places source.toList [] := by
  have hNumber : source.utf8ByteSize.toUInt32.toNat = source.utf8ByteSize :=
    Nat.mod_eq_of_lt (Nat.lt_succ_of_le h)
  constructor
  · rw [byteLength_toList]
    exact hNumber
  · rw [List.append_nil, byteLength_toList]
    exact hNumber

/-- A token stands where it is spelled, also when its identifier is numbered. -/
theorem lex_words {source : String} {table : Interner} {tokens : List (Token Name)}
    (hSize : source.utf8ByteSize ≤ 4294967295) (h : (lex source table).1 = .ok tokens) :
    ∃ named, tokens = named ++ [⟨.endOfFile, Span.emptyAt source.utf8ByteSize.toUInt32⟩] ∧
      ∀ token ∈ named, ∃ word : Token String, word.Spelled source.toList ∧
        word.map (fun _ => ()) = token.map (fun _ => ()) := by
  obtain ⟨hError, hTokens⟩ := lex_eq_ok (Prod.ext h rfl)
  obtain ⟨words, hWords, hSpelled, -⟩ := scan_words hSize hError
  have hForget := internTokens_forget (scan 0 source.toList).tokens table
  rw [hTokens, hWords, List.map_append] at hForget
  obtain ⟨named, rfl, hNamed⟩ := Token.exists_of_map_endOfFile hForget
  refine ⟨named, rfl, fun token hToken => ?_⟩
  have hMem : token.map (fun _ => ()) ∈ words.map (Token.map (fun _ => ())) :=
    hNamed ▸ List.mem_map_of_mem hToken
  obtain ⟨word, hWord, hSame⟩ := List.mem_map.mp hMem
  exact ⟨word, hSpelled word hWord, hSame⟩

/-- Every token but the last stands for a word that was found in the text. -/
theorem exists_word_of_lex {source : String} {table : Interner} {tokens : List (Token Name)}
    {token : Token Name} (hSize : source.utf8ByteSize ≤ 4294967295)
    (h : (lex source table).1 = .ok tokens) (hMem : token ∈ tokens) (hKind : token.kind ≠ .endOfFile) :
    ∃ word : Token String, word.Spelled source.toList ∧
      word.map (fun _ => ()) = token.map (fun _ => ()) := by
  obtain ⟨named, rfl, hNamed⟩ := lex_words hSize h
  rcases List.mem_append.mp hMem with hMem | hMem
  · exact hNamed token hMem
  · rw [List.mem_singleton.mp hMem] at hKind
    exact (hKind rfl).elim

/-- Errors at the end of the tokens are reported at the end of the text. -/
theorem stopSpan_of_lex {source : String} {table : Interner} {tokens : List (Token Name)}
    (hSize : source.utf8ByteSize ≤ 4294967295) (h : (lex source table).1 = .ok tokens) :
    Parser.stopSpan tokens = Span.emptyAt source.utf8ByteSize.toUInt32 := by
  obtain ⟨named, rfl, hNamed⟩ := lex_words hSize h
  have hNone : named.find? (fun token => token.kind == .endOfFile) = none := by
    refine List.find?_eq_none.mpr (fun token hToken hEnd => ?_)
    obtain ⟨word, hSpelled, hSame⟩ := hNamed token hToken
    have hKind : token.map (fun _ => ()) = ⟨.endOfFile, token.span⟩ := by
      rw [Token.map, eq_of_beq hEnd]
      rfl
    exact hSpelled.kind_ne (congrArg Token.kind (Token.eq_endOfFile_of_map (hSame.trans hKind)))
  rw [Parser.stopSpan, List.find?_append, hNone]
  rfl

/-- What the primary label of a report marks: the character or the whole row of digits that lexing
refuses, or else a whole token or the end of the text. -/
inductive Marked (source : String) (table : Interner) : Span → Prop where
  | character {c : Char} {before after : List Char} {span : Span}
      (refused : (lex source table).1 = .error (.invalidCharacter c span))
      (text : source.toList = before ++ [c] ++ after) (placed : span.Places before [c])
      (solid : isBlank c = false)
      (nothing : ∀ kind word rest, Spells kind word → c :: after ≠ word ++ rest) :
      Marked source table span
  | digits {digits before after : List Char} {span : Span}
      (refused : (lex source table).1 = .error (.integerOutOfRange (String.ofList digits) span))
      (text : source.toList = before ++ digits ++ after) (placed : span.Places before digits)
      (all : ∀ c ∈ digits, c.isDigit) (large : largestLiteral < decimal digits)
      (first : ∀ c ∈ before.getLast?, c.isDigit = false)
      (last : ∀ c ∈ after.head?, c.isDigit = false) : Marked source table span
  | token {tokens : List (Token Name)} {token : Token Name} (read : (lex source table).1 = .ok tokens)
      (mem : token ∈ tokens) (word : token.kind ≠ .endOfFile) : Marked source table token.span
  | ended {tokens : List (Token Name)} (read : (lex source table).1 = .ok tokens) :
      Marked source table (Span.emptyAt source.utf8ByteSize.toUInt32)

inductive Opens (source : String) (table : Interner) : Span → Prop where
  | intro {tokens : List (Token Name)} {opener : Delimiter} {c : Char} {before after : List Char}
      {span : Span} (read : (lex source table).1 = .ok tokens) (mem : ⟨.delimiter opener, span⟩ ∈ tokens)
      (either : (opener, c) ∈ [(.openParen, '('), (.openBrace, '\x7b')])
      (text : source.toList = before ++ [c] ++ after) (placed : span.Places before [c]) :
      Opens source table span

/-- The labels of a report about a text that is no program. -/
inductive Labelled (source : String) (table : Interner) : ErrorCode → List Label → Prop where
  | alone {code : ErrorCode} {span : Span} {message : String} (other : code ≠ .unclosedDelimiter)
      (marked : Marked source table span) : Labelled source table code [⟨true, span, message⟩]
  | unclosed {span opened : Span} {message note : String} (marked : Marked source table span)
      (opens : Opens source table opened) (earlier : opened.limit ≤ span.first) :
      Labelled source table .unclosedDelimiter [⟨true, span, message⟩, ⟨false, opened, note⟩]

/-- What a label marks of a text has no blanks in it. Unless it is a single character, all its characters
have one byte. -/
def Solid (part : List Char) : Prop :=
  (∀ c ∈ part, isBlank c = false) ∧ ((∀ c ∈ part, c.utf8Size = 1) ∨ ∃ c, part = [c])

/-- An opening delimiter is one character of one byte. -/
theorem Opens.exists_part {source : String} {table : Interner} {span : Span}
    (h : Opens source table span) :
    ∃ before part after, source.toList = before ++ part ++ after ∧ span.Places before part ∧
      Solid part := by
  obtain ⟨-, -, hEither, hText, hPlaced⟩ := h
  refine ⟨_, _, _, hText, hPlaced, fun d hMem => ?_, Or.inr ⟨_, rfl⟩⟩
  simp only [List.mem_cons, List.not_mem_nil, or_false, Prod.mk.injEq] at hEither hMem
  rcases hEither with ⟨-, rfl⟩ | ⟨-, rfl⟩ <;> rw [hMem] <;> decide

/-- Whatever is marked can be pointed to in the text, the end included. -/
theorem Marked.exists_part {source : String} {table : Interner} {span : Span}
    (hSize : source.utf8ByteSize ≤ 4294967295) (h : Marked source table span) :
    ∃ before part after, source.toList = before ++ part ++ after ∧ span.Places before part ∧
      Solid part := by
  cases h with
  | character refused text placed solid nothing =>
      refine ⟨_, _, _, text, placed, fun d hMem => ?_, Or.inr ⟨_, rfl⟩⟩
      rwa [List.mem_singleton.mp hMem]
  | digits refused text placed all large first last =>
      have hWord := fun c hMem => continuesWord_of_isDigit (all c hMem)
      exact ⟨_, _, _, text, placed, fun c hMem => isBlank_eq_false_of_continuesWord (hWord c hMem),
        Or.inl (fun c hMem => utf8Size_of_continuesWord (hWord c hMem))⟩
  | ended read =>
      exact ⟨source.toList, [], [], by simp, Span.places_emptyAt hSize, nofun, Or.inl nofun⟩
  | @token tokens token read mem supplied =>
      obtain ⟨word, ⟨before, part, after, hText, hPlaced, hSpells, -⟩, hSame⟩ :=
        exists_word_of_lex hSize read mem supplied
      have hSpan : word.span = token.span := congrArg (fun same : Token Unit => same.span) hSame
      exact ⟨before, part, after, hText, hSpan ▸ hPlaced, fun c hMem => (hSpells.characters c hMem).1,
        Or.inl (fun c hMem => (hSpells.characters c hMem).2)⟩

theorem Opens.onLine {source : String} {table : Interner} {span : Span} (h : Opens source table span) :
    span.OnLine source := by
  obtain ⟨before, part, after, hText, hPlaced, hSolid, -⟩ := h.exists_part
  exact hPlaced.onLine hText hSolid

/-- Lexing refuses a character or a row of digits. -/
theorem marked_of_lex {source : String} {table : Interner} {error : LexError}
    (hSize : source.utf8ByteSize ≤ 4294967295) (h : (lex source table).1 = .error error) :
    Marked source table error.span := by
  have hScan : scan 0 source.toList = ⟨(scan 0 source.toList).tokens, some error⟩ := by
    rw [← lex_eq_error (Prod.ext h rfl)]
  have hBytes : byteLength source.toList ≤ 4294967295 := by rwa [byteLength_toList]
  obtain ⟨before, hStops⟩ := (scan_eq_error_iff hBytes _ error).mp hScan
  cases hStops with
  | character split passed solid nothing placed =>
      exact .character h (split.trans (List.append_cons _ _ _)) placed solid nothing
  | digits split passed some all begun ended large placed =>
      exact .digits h (split.trans (List.append_assoc _ _ _).symm) placed all large begun ended

namespace Parser

/-- Only parentheses and braces are ever noted as open. -/
theorem mem_nest {before : List (Token Name)} {token opener : Token Name} (h : opener ∈ nest before token) :
    opener ∈ before ∨ opener = token ∧
      (token.kind = .delimiter .openParen ∨ token.kind = .delimiter .openBrace) := by
  rw [nest] at h
  split at h
  next hKind => exact (List.mem_cons.mp h).symm.imp_right (fun hSame => ⟨hSame, Or.inl hKind⟩)
  next hKind => exact (List.mem_cons.mp h).symm.imp_right (fun hSame => ⟨hSame, Or.inr hKind⟩)
  next => exact Or.inl (List.mem_of_mem_tail h)
  next => exact Or.inl (List.mem_of_mem_tail h)
  next => exact Or.inl h

/-- A delimiter that is open was so in front, or it is one of the tokens. -/
theorem mem_unclosed {before : List (Token Name)} {tokens : Tokens} {opener : Token Name}
    (h : opener ∈ unclosed before tokens) :
    opener ∈ before ∨ opener ∈ tokens ∧
      (opener.kind = .delimiter .openParen ∨ opener.kind = .delimiter .openBrace) := by
  induction tokens generalizing before with
  | nil => exact Or.inl h
  | cons token tokens ih =>
      have hOthers : opener ∈ unclosed (nest before token) tokens := h
      rcases ih hOthers with hMem | ⟨hMem, hKind⟩
      · rcases mem_nest hMem with hBefore | ⟨rfl, hKind⟩
        · exact Or.inl hBefore
        · exact Or.inr ⟨List.mem_cons_self, hKind⟩
      · exact Or.inr ⟨List.mem_cons_of_mem _ hMem, hKind⟩

/-- An error is found at a token that counts, and at the end if it is about a delimiter that is open. -/
theorem found_of_parse {tokens : List (Token Name)} {error : ParseError} (h : parse tokens = .error error) :
    error.found ∈ counted tokens ∧ ∀ opener, error.opener? = some opener →
      error.found = ⟨.endOfFile, stopSpan tokens⟩ ∧ opener ∈ relevant tokens ∧
        (opener.kind = .delimiter .openParen ∨ opener.kind = .delimiter .openBrace) := by
  rw [parse_eq_error_iff] at h
  obtain ⟨read, ahead, hRelevant, hFound, hOpener, -, -⟩ :=
    (Reader.foresees_program (stopSpan tokens) (relevant tokens)).refused error h
  refine ⟨?_, fun opener hOpened => ?_⟩
  · obtain ⟨rest, hCounted⟩ := take_counted hRelevant
    rw [hCounted, hFound]
    exact List.mem_append_right read List.mem_cons_self
  · obtain ⟨rfl, hHead⟩ := hOpener opener hOpened
    rw [List.append_nil] at hRelevant
    rcases mem_unclosed (List.mem_of_mem_head? hHead) with hNone | hMem
    · cases hNone
    · exact ⟨hFound, hRelevant ▸ hMem⟩

end Parser

/-- An opening delimiter among the tokens is a character of the text. -/
theorem opens_of_lex {source : String} {table : Interner} {tokens : List (Token Name)}
    {opener : Delimiter} {opened : Span} (hSize : source.utf8ByteSize ≤ 4294967295)
    (h : (lex source table).1 = .ok tokens) (hMem : ⟨.delimiter opener, opened⟩ ∈ tokens)
    (hKind : opener = .openParen ∨ opener = .openBrace) : Opens source table opened := by
  obtain ⟨⟨kind, span⟩, ⟨before, part, after, hText, hPlaced, hSpells, -⟩, hSame⟩ :=
    exists_word_of_lex hSize h hMem nofun
  cases kind <;> cases hSame
  cases hSpells
  rcases hKind with rfl | rfl
  · have hText : source.toList = before ++ ['('] ++ after := hText
    exact .intro h hMem List.mem_cons_self hText hPlaced
  · have hText : source.toList = before ++ ['\x7b'] ++ after := hText
    exact .intro h hMem (List.mem_cons_of_mem _ List.mem_cons_self) hText hPlaced

/-- The first label is at the token that was found, and the second at the delimiter that is not
closed, if the error is of that class. -/
theorem labelled_of_parse {source : String} {table : Interner} {tokens : List (Token Name)}
    {error : ParseError} (hSize : source.utf8ByteSize ≤ 4294967295)
    (hLex : (lex source table).1 = .ok tokens) (h : parse tokens = .error error) (names : Interner) :
    Labelled source table (error.diagnostic names).code (error.diagnostic names).labels := by
  obtain ⟨hFound, hOpener⟩ := Parser.found_of_parse h
  have hMarked : Marked source table error.span := by
    rw [← error.found_span]
    rcases List.mem_append.mp hFound with hToken | hEnd
    · exact .token hLex ((List.takeWhile_sublist _).subset hToken) (Parser.kind_of_mem_relevant hToken)
    · rw [List.mem_singleton.mp hEnd, stopSpan_of_lex hSize hLex]
      exact .ended hLex
  cases error with
  | unclosedDelimiter opener opened limit =>
      obtain ⟨hEnd, hMem, hKind⟩ := hOpener ⟨.delimiter opener, opened⟩ rfl
      have hLimit : limit = Span.emptyAt source.utf8ByteSize.toUInt32 :=
        (congrArg Token.span hEnd).trans (stopSpan_of_lex hSize hLex)
      have hOpens := opens_of_lex hSize hLex ((List.takeWhile_sublist _).subset hMem)
        (hKind.imp TokenKind.delimiter.inj TokenKind.delimiter.inj)
      have hEarlier : opened.limit ≤ limit.first := by
        rw [UInt32.le_iff_toNat_le, hLimit, (Span.places_emptyAt hSize).first, byteLength_toList]
        exact hOpens.onLine.inside
      exact .unclosed hMarked hOpens hEarlier
  | expectedDelimiter | expectedExpression | expectedIdentifier => exact .alone nofun hMarked

theorem Labelled.exists_part {source : String} {table : Interner} {code : ErrorCode}
    {labels : List Label} {label : Label} (hSize : source.utf8ByteSize ≤ 4294967295)
    (h : Labelled source table code labels) (hMem : label ∈ labels) :
    ∃ before part after, source.toList = before ++ part ++ after ∧ label.span.Places before part ∧
      Solid part := by
  cases h with
  | alone other marked =>
      rw [List.mem_singleton.mp hMem]
      exact marked.exists_part hSize
  | unclosed marked opens earlier =>
      rcases List.mem_cons.mp hMem with rfl | hMem
      · exact marked.exists_part hSize
      · rw [List.mem_singleton.mp hMem]
        exact opens.exists_part

/-- Since no label has a blank in it, none goes over the end of a line. -/
theorem Labelled.onLine {source : String} {table : Interner} {code : ErrorCode} {labels : List Label}
    (hSize : source.utf8ByteSize ≤ 4294967295) (h : Labelled source table code labels) :
    ∀ label ∈ labels, label.span.OnLine source := by
  intro label hMem
  obtain ⟨before, part, after, hText, hPlaced, hSolid, -⟩ := h.exists_part hSize hMem
  exact hPlaced.onLine hText hSolid

/-- The report about a text that is no program marks what is wrong with the text, and where a pair was
opened if that is not closed. Every label lies on one line of the text. -/
theorem parseSource_error_labelled {source : String} {table later : Interner} {error : SourceError}
    (hSize : source.utf8ByteSize ≤ 4294967295)
    (h : parseSource source table = (.error error, later)) :
    Labelled source table (error.diagnostic later).code (error.diagnostic later).labels ∧
      ∀ label ∈ (error.diagnostic later).labels, label.span.OnLine source := by
  suffices hLabelled :
      Labelled source table (error.diagnostic later).code (error.diagnostic later).labels from
    ⟨hLabelled, hLabelled.onLine hSize⟩
  rw [parseSource] at h
  rcases hLex : lex source table with ⟨result, names⟩
  have hResult : (lex source table).1 = result := congrArg Prod.fst hLex
  rw [hLex] at h
  cases result with
  | error found =>
      cases h
      have hMarked := marked_of_lex hSize hResult
      cases found <;> exact .alone (fun hSame => by cases hSame) hMarked
  | ok tokens =>
      cases hParse : parse tokens with
      | ok block =>
          simp only [hParse] at h
          cases h
      | error found =>
          simp only [hParse] at h
          cases h
          exact labelled_of_parse hSize hResult hParse later

/-- The text ends in the arguments of a call, behind a comment with a character of two bytes. -/
theorem parseSource_error_labelled_openCall :
    let source := "//\u00e9\nf(1"
    let error : SourceError := .grammatical (.unclosedDelimiter .openParen ⟨6, 7⟩ ⟨8, 8⟩)
    let later : Interner := (Interner.initial.internAll ["f"]).2
    source.utf8ByteSize ≤ 4294967295 ∧ parseSource source .initial = (.error error, later) ∧
      Labelled source .initial (error.diagnostic later).code (error.diagnostic later).labels ∧
      ∀ label ∈ (error.diagnostic later).labels, label.span.OnLine source := by
  let tokens : List (Token Name) :=
    [⟨.identifier ⟨8⟩, ⟨5, 6⟩⟩, ⟨.delimiter .openParen, ⟨6, 7⟩⟩, ⟨.integer 1, ⟨7, 8⟩⟩,
      ⟨.endOfFile, ⟨8, 8⟩⟩]
  have hLex : lex "//\u00e9\nf(1" .initial = (.ok tokens, (Interner.initial.internAll ["f"]).2) :=
    lex_eq_of_identifiers (by decide +kernel) (by decide +kernel)
  have hParse : parse tokens = .error (.unclosedDelimiter .openParen ⟨6, 7⟩ ⟨8, 8⟩) := by cbv
  have hError : parseSource "//\u00e9\nf(1" .initial =
      (.error (.grammatical (.unclosedDelimiter .openParen ⟨6, 7⟩ ⟨8, 8⟩)),
        (Interner.initial.internAll ["f"]).2) := by
    simp only [parseSource, hLex, hParse]
  exact ⟨by decide, hError, parseSource_error_labelled (by decide) hError⟩

end IntScript
