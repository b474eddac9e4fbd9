import IntScript.Command.Listing
import IntScript.Proofs.Lexing.Partition
import IntScript.Proofs.Printing.Contents
import IntScript.Proofs.Printing.Settling

/-! Canonical text settles. A program keeps the identifiers and literals of its source in their order, so
its canonical text, read with a table of its own, numbers the same names in the same way. It may be read
as another program, but as one with the same tokens, and the text of that one no longer changes. -/
namespace IntScript

open Grammar Lexer

namespace TokenKind

def identifier? {ν : Type} : TokenKind ν → Option ν
  | identifier name => some name
  | _ => none

/-- A token that a program may have been printed as: a literal has a spelling, and a name is one of an
identifier. -/
def printable (names : Interner) : TokenKind Name → Bool
  | identifier name => names.identifies name
  | integer value => decide (0 ≤ value)
  | keyword _ | delimiter _ | operator _ | endOfFile => true

theorem identifier?_map {ν μ : Type} (f : ν → μ) (kind : TokenKind ν) :
    (kind.map f).identifier? = kind.identifier?.map f := by
  cases kind <;> rfl

end TokenKind

/-- The texts to be numbered can be told from the kinds of the tokens. -/
theorem Lexer.identifiers_eq (tokens : List (Token String)) :
    identifiers tokens = (tokens.map (·.kind)).filterMap TokenKind.identifier? := by
  induction tokens with
  | nil => rfl
  | cons token tokens ih =>
      obtain ⟨kind, span⟩ := token
      cases kind <;> simp only [identifiers, List.map_cons, List.filterMap_cons, TokenKind.identifier?, ih]

namespace Grammar

/-- The names of a row are in its contents. -/
theorem filterMap_contents (row : Kinds) :
    (contents row).filterMap TokenKind.identifier? = row.filterMap TokenKind.identifier? := by
  induction row with
  | nil => rfl
  | cons kind row ih =>
      cases hLasting : lasting kind with
      | true => simp [hLasting, List.filterMap_cons, ih]
      | false =>
          have hNone : kind.identifier? = none := by
            cases kind <;> first | rfl | simp [lasting] at hLasting
          simp [hLasting, hNone, ih]

/-- Only what is in the contents of a row decides whether it may have been printed. -/
theorem all_contents (names : Interner) (row : Kinds) :
    (contents row).all (TokenKind.printable names) = row.all (TokenKind.printable names) := by
  induction row with
  | nil => rfl
  | cons kind row ih =>
      cases hLasting : lasting kind with
      | true => simp [hLasting, ih]
      | false =>
          have hPrintable : kind.printable names := by
            cases kind <;> first | rfl | simp [lasting] at hLasting
          simp [hLasting, hPrintable, ih]

@[simp] theorem all_parenthesized (names : Interner) (wanted : Bool) (inner : Kinds) :
    (parenthesized wanted inner).all (TokenKind.printable names) =
      inner.all (TokenKind.printable names) := by
  rw [← all_contents, contents_parenthesized, all_contents]

end Grammar

section

variable {names : Interner}

mutual

/-- That an expression can be printed is a matter of its tokens one by one. -/
theorem Expr.all_kinds (expr : Expr) :
    expr.kinds.all (TokenKind.printable names) = expr.printable names := by
  match expr with
  | .literal _ | .reference _ => simp [Expr.kinds, Expr.printable, TokenKind.printable]
  | .call _ arguments =>
      simp [Expr.kinds, Expr.printable, TokenKind.printable, Expr.all_argumentKinds arguments]
  | .binary _ left right =>
      simp [Expr.kinds, Expr.printable, TokenKind.printable, Expr.all_kinds left, Expr.all_kinds right]

theorem Expr.all_argumentKinds (arguments : List Expr) :
    (Expr.argumentKinds arguments).all (TokenKind.printable names) =
      Expr.argumentsPrintable names arguments := by
  match arguments with
  | [] => rfl
  | [argument] => simp [Expr.argumentKinds, Expr.argumentsPrintable, Expr.all_kinds argument]
  | argument :: next :: further =>
      have hOthers := Expr.all_argumentKinds (next :: further)
      rw [Expr.argumentsPrintable, ← hOthers, ← Expr.all_kinds argument]
      simp [Expr.argumentKinds, TokenKind.printable]

end

theorem Stmt.all_parameterKinds (parameters : List Name) :
    (Stmt.parameterKinds parameters).all (TokenKind.printable names) =
      parameters.all names.identifies := by
  induction parameters with
  | nil => rfl
  | cons name others ih =>
      cases others with
      | nil => rfl
      | cons next further =>
          rw [List.all_cons, ← ih]
          simp [Stmt.parameterKinds, TokenKind.printable]

mutual

theorem Stmt.all_kinds (stmt : Stmt) :
    stmt.kinds.all (TokenKind.printable names) = stmt.printable names := by
  match stmt with
  | .function _ parameters body =>
      simp [Stmt.kinds, Stmt.printable, TokenKind.printable, Stmt.all_parameterKinds,
        Stmt.all_blockKinds body, Bool.and_assoc]
  | .declare _ value | .assign _ value | .yield value | .evaluate value =>
      simp [Stmt.kinds, Stmt.printable, TokenKind.printable, Expr.all_kinds]
  | .loop _ body =>
      simp [Stmt.kinds, Stmt.printable, TokenKind.printable, Expr.all_kinds, Stmt.all_blockKinds body]
  | .branch _ positive negative =>
      have hNegative : (Stmt.blockKinds negative).all (TokenKind.printable names) =
          Stmt.blockPrintable names negative := Stmt.all_blockKinds negative
      cases negative with
      | nil =>
          simp [Stmt.kinds, Stmt.printable, TokenKind.printable, Expr.all_kinds,
            Stmt.all_blockKinds positive, Stmt.blockPrintable]
      | cons first others =>
          rw [Stmt.printable, ← hNegative]
          simp [Stmt.kinds, TokenKind.printable, Expr.all_kinds, Stmt.all_blockKinds positive,
            Bool.and_assoc]

/-- A program is printable exactly if its tokens are. -/
theorem Stmt.all_blockKinds (block : Block) :
    (Stmt.blockKinds block).all (TokenKind.printable names) = block.printable names := by
  match block with
  | [] => rfl
  | stmt :: others =>
      simp [Stmt.blockKinds, Block.printable, Stmt.blockPrintable, Stmt.all_kinds stmt,
        Stmt.all_blockKinds others]

end

end

namespace Lexer

/-- Tokens up to the end of a text are spelled in it, all but the last one. -/
theorem Scans.words {offset : Nat} {text : List Char} {tokens : List (Token String)}
    {error : Option LexError} (h : Scans offset text tokens error) (hNone : error = none) :
    ∃ words place, tokens = words ++ [⟨.endOfFile, place⟩] ∧
      ∀ token ∈ words, ∃ word, Spells token.kind word := by
  induction h with
  | ended offset => exact ⟨[], _, rfl, nofun⟩
  | gap _ _ ih => exact ih hNone
  | token begins _ ih =>
      obtain ⟨words, place, rfl, hWords⟩ := ih hNone
      refine ⟨_ :: words, place, rfl, ?_⟩
      intro token hToken
      rcases List.mem_cons.mp hToken with rfl | hLater
      · cases begins with
        | token spells => exact ⟨_, spells⟩
      · exact hWords token hLater
  | refused begins => cases hNone

/-- Numbering tokens again, with a table that already has their identifiers, comes to the same. -/
theorem internTokens_later (tokens : List (Token String)) {table later : Interner}
    (hGrows : (internTokens tokens table).2.GrowsTo later) 
    (hFits : later.size ≤ Interner.capacity) :
    internTokens tokens later = ((internTokens tokens table).1, later) := by
  induction tokens generalizing table with
  | nil => rfl
  | cons token tokens ih =>
      have hOthers := ih hGrows
      have hToken : internToken token later = ((internToken token table).1, later) := by
        obtain ⟨kind, span⟩ := token
        cases kind with
        | identifier text =>
            have hText := ((growsTo_internTokens tokens _).trans hGrows).text? (Interner.text?_intern
              (Nat.le_trans ((growsTo_internTokens tokens _).trans hGrows).size hFits))
            simp only [internToken]
            rw [Interner.intern_text hText]
        | keyword | delimiter | operator | integer | endOfFile => rfl
      rw [internTokens, hToken]
      simp only [hOthers]
      rfl

/-- Whatever is spelled may have been printed. -/
theorem Spells.printable {names : Interner} {kind : TokenKind Name} {word : List Char}
    (h : Spells (kind.map names.lookup) word) : kind.printable names := by
  cases kind with
  | identifier name =>
      cases h with
      | identifier valid =>
          rw [Interner.lookup] at valid
          rw [TokenKind.printable, Interner.identifies]
          cases hText : names.text? name with
          | none =>
              rw [hText] at valid
              exact absurd valid (by decide)
          | some text => rwa [hText] at valid
  | integer value =>
      cases h with
      | integer some all small =>
          rw [TokenKind.printable, decide_eq_true_eq]
          exact (Int32.ofNat_le_iff_le (by decide) (Nat.lt_succ_of_le small)).mpr (Nat.zero_le _)
  | keyword | delimiter | operator | endOfFile => rfl

end Lexer

section

variable {source text first : String} {table later names : Interner} {tokens : List (Token Name)}
  {block : Block}

/-- Lexed tokens end with the one for the end of the text. The others may have been printed, and the
identifiers of the text are the names in them. -/
theorem kinds_of_lex (h : lex source table = (.ok tokens, later))
    (hFits : later.size ≤ Interner.capacity) :
    tokens.map (·.kind) = beforeEnd tokens ++ [.endOfFile] ∧
      (beforeEnd tokens).all (TokenKind.printable later) ∧
      identifiers (scan 0 source.toList).tokens =
        ((contents (beforeEnd tokens)).filterMap TokenKind.identifier?).map later.lookup := by
  obtain ⟨hError, hTokens⟩ := lex_eq_ok h
  have hMap : tokens.map (Token.map later.lookup) = (scan 0 source.toList).tokens := by
    have hMap := map_internTokens (scan 0 source.toList).tokens
      (Interner.GrowsTo.refl (internTokens (scan 0 source.toList).tokens table).2)
      (by rw [hTokens]; exact hFits)
    rwa [hTokens] at hMap
  obtain ⟨words, place, hWords, hSpelled⟩ := (scans_scan 0 source.toList).words hError
  obtain ⟨named, rfl, hNamed⟩ := Token.exists_of_map_endOfFile (hMap.trans hWords)
  have hEach (kind : TokenKind Name) (hKind : kind ∈ named.map (·.kind)) :
      ∃ word, Spells (kind.map later.lookup) word := by
    obtain ⟨token, hToken, rfl⟩ := List.mem_map.mp hKind
    exact hSpelled (token.map later.lookup) (hNamed ▸ List.mem_map_of_mem hToken)
  have hBefore : beforeEnd (named ++ [⟨.endOfFile, place⟩]) = named.map (·.kind) := by
    rw [beforeEnd, List.map_append, List.takeWhile_append_of_pos]
    · simp
    · intro kind hKind
      rw [bne_iff_ne]
      rintro rfl
      obtain ⟨word, hWord⟩ := hEach _ hKind
      exact hWord.ne_endOfFile rfl
  rw [hBefore]
  refine ⟨by simp, ?_, ?_⟩
  · rw [List.all_eq_true]
    intro kind hKind
    obtain ⟨word, hWord⟩ := hEach kind hKind
    exact hWord.printable
  · have hKinds : (scan 0 source.toList).tokens.map (·.kind) =
        (named.map (·.kind)).map (TokenKind.map later.lookup) ++ [.endOfFile] := by
      rw [hWords, ← hNamed]
      simp [Token.map, Function.comp_def]
    rw [identifiers_eq, hKinds, List.filterMap_append, List.filterMap_map, filterMap_contents,
      List.map_filterMap]
    simp only [Function.comp_def, TokenKind.identifier?_map]
    exact List.append_nil _

/-- A text is read with a table that already has its identifiers as it is read without them. -/
theorem lex_later (hGrows : (lex text table).2.GrowsTo later) 
    (hFits : later.size ≤ Interner.capacity) : lex text later = ((lex text table).1, later) := by
  rw [lex_table, ← internTokens_table] at hGrows
  have hTokens := internTokens_later _ hGrows hFits
  rw [lex, lex, hTokens]
  cases (scan 0 text.toList).error <;> rfl

/-- A program that holds what a source does, printed with the names of the source, is read with the table
that the source was read with as with those names. -/
theorem lex_printBlock_of_contents (h : lex source table = (.ok tokens, names))
    (hFits : names.size ≤ Interner.capacity)
    (hContents : contents (Stmt.blockKinds block) = contents (beforeEnd tokens)) :
    block.printable names ∧ ∃ reread, lex (printBlock names block) table = (.ok reread, names) ∧
      beforeEnd reread = Stmt.blockKinds block := by
  obtain ⟨-, hAll, hSource⟩ := kinds_of_lex h hFits
  have hPrintable : block.printable names := by
    rwa [← Stmt.all_blockKinds, ← all_contents, hContents, all_contents]
  obtain ⟨reread, hReread, hKinds⟩ := lex_printBlock hPrintable
  obtain ⟨-, -, hText⟩ := kinds_of_lex hReread hFits
  have hTable : (lex (printBlock names block) table).2 = names := by
    rw [lex_table, hText, hKinds, hContents, ← hSource, ← lex_table, h]
  have hGrows : (lex (printBlock names block) table).2.GrowsTo names := by
    rw [hTable]
    exact Interner.GrowsTo.refl names
  have hAgain := lex_later hGrows hFits
  rw [hReread] at hAgain
  refine ⟨hPrintable, reread, ?_, hKinds⟩
  exact Prod.ext (congrArg Prod.fst hAgain).symm hTable

/-- A text is a program if it can be cut into tokens and these are one. -/
theorem parseSource_eq_ok_iff :
    parseSource source table = (.ok block, names) ↔
      ∃ tokens, lex source table = (.ok tokens, names) ∧ parse tokens = .ok block := by
  rw [parseSource]
  generalize lex source table = found
  obtain ⟨_ | tokens, grown⟩ := found
  · simp
  · simp only [Prod.mk.injEq, Except.ok.injEq]
    cases hParse : parse tokens with
    | error error => simp [hParse]
    | ok read => simp [hParse, and_comm]

/-- The canonical text is that of the program that the source is read as. -/
theorem canonical_eq_ok_iff :
    Listing.canonical source = .ok text ↔
      ∃ block names, parseSource source Interner.initial = (.ok block, names) ∧
        text = printBlock names block := by
  rw [Listing.canonical]
  generalize parseSource source Interner.initial = found
  obtain ⟨_ | block, grown⟩ := found
  · simp
  · simp [eq_comm]

end

/-- The canonical text of a program settles. What was read can be printed so that its tokens are read
again, its text is accepted, and the text of what is read then is its own canonical text and has the
same tokens. The table of the source has numbers for all its texts, which is when numbering goes
through. -/
theorem canonical_settles {source first : String} (hFirst : Listing.canonical source = .ok first)
    (hFits : (lex source Interner.initial).2.size ≤ Interner.capacity) :
    ∃ block names, parseSource source Interner.initial = (.ok block, names) ∧ block.printable names ∧
      ∃ second, Listing.canonical first = .ok second ∧ Listing.canonical second = .ok second ∧
        ∃ tokens others, lex first Interner.initial = (.ok tokens, names) ∧
          lex second Interner.initial = (.ok others, names) ∧
          tokens.map (·.kind) = others.map (·.kind) := by
  obtain ⟨block, names, hParsed, rfl⟩ := canonical_eq_ok_iff.mp hFirst
  obtain ⟨words, hWords, hBlock⟩ := parseSource_eq_ok_iff.mp hParsed
  have hTable : names = (lex source Interner.initial).2 := by rw [hWords]
  rw [← hTable] at hFits
  have hContents : contents (Stmt.blockKinds block) = contents (beforeEnd words) := by
    have hDerives : Statements unopened (beforeEnd words) block [] := (parse_eq_ok_iff words block).mp hBlock
    rw [hDerives.contents_eq, contents_nil, List.append_nil]
  -- The text of the program read from the canonical text has the tokens of that text.
  have hSettled : contents (Stmt.blockKinds (Stmt.blockSettled block)) = contents (beforeEnd words) := by
    rw [Stmt.blockKinds_settled, hContents]
  obtain ⟨hPrintable, tokens, hTokens, hKinds⟩ :=
    lex_printBlock_of_contents hWords hFits hContents
  obtain ⟨-, others, hOthers, hOtherKinds⟩ :=
    lex_printBlock_of_contents hWords hFits hSettled
  rw [Stmt.blockKinds_settled] at hOtherKinds
  have hSecond := parseSource_eq_ok_iff.mpr ⟨tokens, hTokens, parse_eq_settled hKinds⟩
  have hThird := parseSource_eq_ok_iff.mpr ⟨others, hOthers, parse_eq_settled hOtherKinds⟩
  refine ⟨block, names, hParsed, hPrintable, _, canonical_eq_ok_iff.mpr ⟨_, _, hSecond, rfl⟩,
    canonical_eq_ok_iff.mpr ⟨_, _, hThird, rfl⟩, tokens, others, hTokens, hOthers, ?_⟩
  rw [(kinds_of_lex hTokens hFits).1, (kinds_of_lex hOthers hFits).1, hKinds, hOtherKinds]

/-- A variable and a product that a semicolon separates in the source: canonical text has no semicolons,
so it is read as the product of a call, and the text of that settles. -/
theorem canonical_settles_touching :
    Listing.canonical "x;(1+2)*(3)" = .ok "x\n(1 + 2) * 3\n" ∧
      (lex "x;(1+2)*(3)" Interner.initial).2.size ≤ Interner.capacity ∧
      Listing.canonical "x\n(1 + 2) * 3\n" = .ok "x(1 + 2) * 3\n" ∧
      Listing.canonical "x(1 + 2) * 3\n" = .ok "x(1 + 2) * 3\n" := by
  let sum : Expr := .binary .add (.literal 1) (.literal 2)
  let firstTokens : List (Token Name) :=
    [⟨.identifier ⟨8⟩, ⟨0, 1⟩⟩, ⟨.delimiter .semicolon, ⟨1, 2⟩⟩, ⟨.delimiter .openParen, ⟨2, 3⟩⟩,
      ⟨.integer 1, ⟨3, 4⟩⟩, ⟨.operator .add, ⟨4, 5⟩⟩, ⟨.integer 2, ⟨5, 6⟩⟩,
      ⟨.delimiter .closeParen, ⟨6, 7⟩⟩, ⟨.operator .mul, ⟨7, 8⟩⟩, ⟨.delimiter .openParen, ⟨8, 9⟩⟩,
      ⟨.integer 3, ⟨9, 10⟩⟩, ⟨.delimiter .closeParen, ⟨10, 11⟩⟩, ⟨.endOfFile, ⟨11, 11⟩⟩]
  let secondTokens : List (Token Name) :=
    [⟨.identifier ⟨8⟩, ⟨0, 1⟩⟩, ⟨.delimiter .openParen, ⟨2, 3⟩⟩, ⟨.integer 1, ⟨3, 4⟩⟩,
      ⟨.operator .add, ⟨5, 6⟩⟩, ⟨.integer 2, ⟨7, 8⟩⟩, ⟨.delimiter .closeParen, ⟨8, 9⟩⟩,
      ⟨.operator .mul, ⟨10, 11⟩⟩, ⟨.integer 3, ⟨12, 13⟩⟩, ⟨.endOfFile, ⟨14, 14⟩⟩]
  have hFirst : Listing.canonical "x;(1+2)*(3)" = .ok "x\n(1 + 2) * 3\n" := by
    have hLex : lex "x;(1+2)*(3)" .initial = (.ok firstTokens, (Interner.initial.internAll ["x"]).2) :=
      lex_eq_of_identifiers (by decide +kernel) (by decide +kernel)
    have hParse : parse firstTokens =
        .ok [.evaluate (.reference ⟨8⟩), .evaluate (.binary .mul sum (.literal 3))] := by cbv
    have hRead := parseSource_eq_ok_iff.mpr ⟨firstTokens, hLex, hParse⟩
    exact canonical_eq_ok_iff.mpr ⟨_, _, hRead, by decide +kernel⟩
  have hFits : (lex "x;(1+2)*(3)" Interner.initial).2.size ≤ Interner.capacity := by decide +kernel
  have hSecond : Listing.canonical "x\n(1 + 2) * 3\n" = .ok "x(1 + 2) * 3\n" := by
    have hLex : lex "x\n(1 + 2) * 3\n" .initial =
        (.ok secondTokens, (Interner.initial.internAll ["x"]).2) :=
      lex_eq_of_identifiers (by decide +kernel) (by decide +kernel)
    have hParse : parse secondTokens =
        .ok [.evaluate (.binary .mul (.call ⟨8⟩ [sum]) (.literal 3))] := by cbv
    have hRead := parseSource_eq_ok_iff.mpr ⟨secondTokens, hLex, hParse⟩
    exact canonical_eq_ok_iff.mpr ⟨_, _, hRead, by decide +kernel⟩
  obtain ⟨block, names, -, -, second, hRead, hSettled, -⟩ := canonical_settles hFirst hFits
  obtain rfl : second = "x(1 + 2) * 3\n" := Except.ok.inj (hRead.symm.trans hSecond)
  exact ⟨hFirst, hFits, hSecond, hSettled⟩

end IntScript
