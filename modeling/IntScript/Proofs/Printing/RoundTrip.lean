import IntScript.Proofs.Grammar.Greedy
import IntScript.Proofs.Printing.Openings
import IntScript.Proofs.Printing.PrintedText

/-! Reading a printed program back. -/
namespace IntScript

/-- A token that a printed program may hold: its identifiers are those of the table, and it is not the
token for the end of the text. -/
def TokenKind.legible (names : Interner) : TokenKind Name → Bool
  | .identifier name => names.identifies name
  | .endOfFile => false
  | .keyword _ | .delimiter _ | .operator _ | .integer _ => true

section

variable {names : Interner}

theorem Grammar.legible_parenthesized {inner : Grammar.Kinds} (wanted : Bool)
    (h : inner.all (TokenKind.legible names)) :
    (Grammar.parenthesized wanted inner).all (TokenKind.legible names) := by
  cases wanted with
  | false => exact h
  | true => simp only [parenthesized, if_true, List.cons_append, List.all_cons, List.all_append,
      List.all_nil, TokenKind.legible, h, Bool.and_true]

mutual

/-- Chosen parentheses bring no other tokens in. -/
theorem Expr.legible_kindsWith (expr : Expr) (h : expr.printable names) (chosen : Place → Bool) :
    (expr.kindsWith chosen).all (TokenKind.legible names) := by
  match expr with
  | .literal _ => rfl
  | .reference name => simpa [Expr.kindsWith, TokenKind.legible, Expr.printable] using h
  | .call callee arguments =>
      rw [Expr.printable, Bool.and_eq_true] at h
      have hArguments := Expr.legible_argumentKindsWith arguments h.2
        (fun index => chosen ∘ .inArgument index)
      simp [Expr.kindsWith, TokenKind.legible, h.1, hArguments]
  | .binary op left right =>
      rw [Expr.printable, Bool.and_eq_true] at h
      have hLeft := Grammar.legible_parenthesized (left.isBinary && chosen .left)
        (Expr.legible_kindsWith left h.1 (chosen ∘ .inLeft))
      have hRight := Grammar.legible_parenthesized (right.isBinary && chosen .right)
        (Expr.legible_kindsWith right h.2 (chosen ∘ .inRight))
      simp only [Expr.kindsWith, List.all_append, List.all_cons, TokenKind.legible, hLeft, hRight,
        Bool.and_true]

theorem Expr.legible_argumentKindsWith (arguments : List Expr)
    (h : Expr.argumentsPrintable names arguments) (chosen : Nat → Place → Bool) :
    (Expr.argumentKindsWith arguments chosen).all (TokenKind.legible names) := by
  match arguments with
  | [] => rfl
  | [argument] =>
      rw [Expr.argumentsPrintable, Bool.and_eq_true] at h
      exact Expr.legible_kindsWith argument h.1 (chosen 0)
  | argument :: next :: further =>
      rw [Expr.argumentsPrintable, Bool.and_eq_true] at h
      have hFirst := Expr.legible_kindsWith argument h.1 (chosen 0)
      have hOthers := Expr.legible_argumentKindsWith (next :: further) h.2
        (fun index => chosen (index + 1))
      simp [Expr.argumentKindsWith, TokenKind.legible, hFirst, hOthers]

end

theorem Expr.legible_kinds (expr : Expr) (h : expr.printable names) :
    expr.kinds.all (TokenKind.legible names) := by
  rw [← expr.kindsWith_parenthesizes]
  exact Expr.legible_kindsWith expr h _

theorem Stmt.legible_parameterKinds (parameters : List Name) (h : parameters.all names.identifies) :
    (Stmt.parameterKinds parameters).all (TokenKind.legible names) := by
  induction parameters with
  | nil => rfl
  | cons name others ih =>
      rw [List.all_cons, Bool.and_eq_true] at h
      cases others with
      | nil => simp [Stmt.parameterKinds, TokenKind.legible, h.1]
      | cons next further => simp [Stmt.parameterKinds, TokenKind.legible, h.1, ih h.2]

mutual

/-- What is printed of a printable statement is made of legible tokens only. -/
theorem Stmt.legible_kinds (stmt : Stmt) (h : stmt.printable names) :
    stmt.kinds.all (TokenKind.legible names) := by
  match stmt with
  | .function name parameters body =>
      simp only [Stmt.printable, Bool.and_eq_true] at h
      have hBody := Stmt.legible_blockKinds body h.2
      have hParameters := Stmt.legible_parameterKinds parameters h.1.2
      simp [Stmt.kinds, TokenKind.legible, h.1.1, hParameters, hBody]
  | .declare name value | .assign name value =>
      rw [Stmt.printable, Bool.and_eq_true] at h
      simp [Stmt.kinds, TokenKind.legible, h.1, Expr.legible_kinds value h.2]
  | .loop test body =>
      rw [Stmt.printable, Bool.and_eq_true] at h
      have hBody := Stmt.legible_blockKinds body h.2
      simp [Stmt.kinds, TokenKind.legible, Expr.legible_kinds test h.1, hBody]
  | .branch test positive negative =>
      simp only [Stmt.printable, Bool.and_eq_true] at h
      have hPositive := Stmt.legible_blockKinds positive h.1.2
      have hNegative := Stmt.legible_blockKinds negative h.2
      cases negative with
      | nil => simp [Stmt.kinds, TokenKind.legible, Expr.legible_kinds test h.1.1, hPositive]
      | cons first others =>
          simp [Stmt.kinds, TokenKind.legible, Expr.legible_kinds test h.1.1, hPositive, hNegative]
  | .yield value => simp [Stmt.kinds, TokenKind.legible, Expr.legible_kinds value h]
  | .evaluate value => exact Expr.legible_kinds value h

theorem Stmt.legible_blockKinds (block : Block) (h : block.printable names) :
    (Stmt.blockKinds block).all (TokenKind.legible names) := by
  match block with
  | [] => rfl
  | stmt :: others =>
      rw [Block.printable, Stmt.blockPrintable, Bool.and_eq_true] at h
      have hStmt := Stmt.legible_kinds stmt h.1
      have hOthers := Stmt.legible_blockKinds others h.2
      simp [Stmt.blockKinds, hStmt, hOthers]

end

/-- A text that is cut into legible tokens is read as them, and its names are read back as
themselves. -/
theorem Lexer.Lexes.lex_legible {text : String} {kinds : Grammar.Kinds}
    (h : Lexes text.toList (kinds.map (TokenKind.map names.lookup)))
    (hLegible : kinds.all (TokenKind.legible names)) :
    ∃ tokens, IntScript.lex text names = (.ok tokens, names) ∧ Grammar.beforeEnd tokens = kinds := by
  rw [List.all_eq_true] at hLegible
  obtain ⟨tokens, hTokens, hKinds⟩ := h.lex (fun name hName => by
    have hName : names.identifies name := hLegible _ hName
    obtain ⟨text, hText, -⟩ := (Option.any_eq_true _ _).mp hName
    exact ⟨text, hText⟩)
  refine ⟨tokens, hTokens, ?_⟩
  rw [Grammar.beforeEnd, hKinds, List.takeWhile_append_of_pos]
  · simp
  · intro kind hKind
    rw [bne_iff_ne]
    rintro rfl
    exact absurd (hLegible _ hKind) Bool.false_ne_true

/-- A printed program is cut into its tokens, and its names are read back as themselves. -/
theorem lex_printBlock {block : Block} (h : block.printable names) :
    ∃ tokens, lex (printBlock names block) names = (.ok tokens, names) ∧
      Grammar.beforeEnd tokens = Stmt.blockKinds block := by
  have hText : (printBlock names block).toList =
      Line.characters (Stmt.blockLines names 0 block) ++ [] := by
    rw [printBlock, String.toList_join, List.flatMap_map, List.append_nil]
    rfl
  have hLexes := Stmt.blockLexes block h 0 Lexer.lexes_nil
  rw [← hText, List.append_nil] at hLexes
  exact hLexes.lex_legible (Stmt.legible_blockKinds block h)

/-- The tokens of a printed program are always those of some program, and of the printed one exactly if
no neighbours touch. -/
theorem parse_blockKinds {block : Block} {tokens : List (Token Name)}
    (hTokens : Grammar.beforeEnd tokens = Stmt.blockKinds block) :
    ∃ reread, parse tokens = .ok reread ∧ (reread = block ↔ block.clashes = false) := by
  have hPlain : Grammar.Program Grammar.anything (Stmt.blockKinds block) block := by
    have hDerives : Grammar.Statements Grammar.anything (Stmt.blockKinds block ++ []) block [] :=
      Stmt.blockDerives (fun _ _ => trivial) block [] (by simp [Grammar.unopened])
        (Or.inr (fun _ => trivial))
    rwa [List.append_nil] at hDerives
  obtain ⟨reread, hReread⟩ := hPlain.greedy
  have hParse := (parse_eq_ok_iff tokens reread).mpr (hTokens ▸ hReread)
  refine ⟨reread, hParse, ?_⟩
  constructor
  · rintro rfl
    rw [← Bool.not_eq_true]
    exact fun hClashes => Stmt.not_derives_of_clashes hClashes hReread
  · intro hSeparate
    have hDerives := Stmt.blockDerives (fun _ hRest => hRest) block [] (by simp [Grammar.unopened])
      (Or.inl hSeparate)
    rw [List.append_nil] at hDerives
    have hSame := (parse_eq_ok_iff tokens block).mpr (hTokens ▸ hDerives)
    exact Except.ok.inj (hParse.symm.trans hSame)

end

/-- Whatever table of names a program is printed with, the text is read without an error and without
new names, and the program comes back unchanged exactly if nowhere in it, at any depth, a statement
that ends with a variable stands before one that begins with a parenthesis. -/
theorem printBlock_roundTrip (texts : List String) (block : Block)
    (hPrintable : block.printable (Interner.initial.internAll texts).2) :
    ∃ tokens, lex (printBlock (Interner.initial.internAll texts).2 block)
        (Interner.initial.internAll texts).2 = (.ok tokens, (Interner.initial.internAll texts).2) ∧
      ∃ reread, parse tokens = .ok reread ∧ (reread = block ↔ block.clashes = false) := by
  obtain ⟨tokens, hTokens, hKinds⟩ := lex_printBlock hPrintable
  exact ⟨tokens, hTokens, parse_blockKinds hKinds⟩

/-- A reference before a product in parentheses: both lines are read as one call. -/
theorem printBlock_roundTrip_touching :
    ∃ block : Block, block.printable (Interner.initial.internAll ["x"]).2 ∧ block.clashes ∧
      ∃ tokens, lex (printBlock (Interner.initial.internAll ["x"]).2 block)
          (Interner.initial.internAll ["x"]).2 = (.ok tokens, (Interner.initial.internAll ["x"]).2) ∧
        ∃ reread, parse tokens = .ok reread ∧ reread ≠ block := by
  have hPrintable : Block.printable (Interner.initial.internAll ["x"]).2
      [.evaluate (.reference ⟨8⟩),
        .evaluate (.binary .mul (.binary .add (.literal 1) (.literal 2)) (.literal 3))] := by decide
  obtain ⟨tokens, hTokens, reread, hReread, hSame⟩ := printBlock_roundTrip ["x"] _ hPrintable
  refine ⟨_, hPrintable, rfl, tokens, hTokens, reread, hReread, fun hEqual => ?_⟩
  exact absurd (hSame.mp hEqual) (by decide)

end IntScript
