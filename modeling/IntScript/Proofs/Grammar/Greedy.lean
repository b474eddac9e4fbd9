import IntScript.Proofs.Grammar

/-! Every row that the plain grammar derives has a derivation in which an identifier before an opening
parenthesis is no variable. Where the plain grammar ends a statement between the two, the identifier
calls with the parenthesis as its argument, and both statements become one. -/
namespace IntScript.Grammar

/-- A primary in which no variable stands before an opening parenthesis. -/
def Closed (input rest : Kinds) : Prop :=
  ∃ expr, Primary unopened input expr rest

def Open (input rest : Kinds) : Prop :=
  ¬ unopened rest ∧ ∃ name, input = .identifier name :: rest

/-- `primary (operator primary)*`, without levels, whose last primary is given by `last`. -/
inductive Row (last : Kinds → Kinds → Prop) : Kinds → Kinds → Prop where
  | last {input rest : Kinds} (final : last input rest) :
      Row last input rest
  | more {input middle rest : Kinds} {op : BinaryOp} (first : Closed input (.operator op :: middle))
      (others : Row last middle rest) :
      Row last input rest

/-- What a row of the plain grammar is: complete, or such that a parenthesis after it belongs to it. -/
def Read (input rest : Kinds) : Prop :=
  Row Closed input rest ∨ Row Open input rest

theorem Row.opened {input rest : Kinds} (h : Row Open input rest) : ¬ unopened rest := by
  induction h with
  | last final => exact final.1
  | more _ _ ih => exact ih

/-- Rows are joined by an operator, and only the last primary of the second decides how the whole
ends. -/
theorem Row.append {last : Kinds → Kinds → Prop} {input middle rest : Kinds} {op : BinaryOp}
    (h : Row Closed input (.operator op :: middle)) (others : Row last middle rest) :
    Row last input rest := by
  generalize hEnd : TokenKind.operator op :: middle = ending at h
  induction h with
  | last final =>
      subst hEnd
      exact Row.more final others
  | more first _ ih => exact Row.more first (ih hEnd)

/-- Before anything but an opening parenthesis a row is complete. -/
theorem Read.closed {input rest : Kinds} (h : Read input rest) (hRest : unopened rest) :
    Row Closed input rest := by
  rcases h with hClosed | hOpen
  · exact hClosed
  · exact absurd hRest hOpen.opened

/-- A primary that begins with an opening parenthesis is the argument of an identifier before it. -/
theorem Closed.call {input rest : Kinds} (h : Closed input rest) (hInput : ¬ unopened input)
    (name : Name) : Closed (.identifier name :: input) rest := by
  obtain ⟨expr, hPrimary⟩ := h
  cases hPrimary with
  | group inner => exact ⟨_, Primary.call name (Arguments.some (Values.last inner))⟩
  | _ => simp [unopened] at hInput

/-- A row that stops before an opening parenthesis goes on with the row that begins there. -/
theorem Row.glue {input middle rest : Kinds} (h : Row Open input middle)
    (others : Row Closed middle rest) : Row Closed input rest := by
  induction h with
  | last final =>
      obtain ⟨hOpened, name, rfl⟩ := final
      cases others with
      | last final => exact Row.last (final.call hOpened name)
      | more first others => exact Row.more (first.call hOpened name) others
  | more first _ ih => exact Row.more first (ih others)

/-- Where the operands of a level can be made longer, so can the last of several. -/
theorem Steps.extend {level : Nat} {input middle rest : Kinds} {op : BinaryOp}
    {steps : List (BinaryOp × Expr)}
    (hOperand : ∀ {input : Kinds} {expr : Expr}, Operand unopened level input expr
      (.operator op :: middle) → ∃ longer, Operand unopened level input longer rest)
    (h : Steps unopened level input steps (.operator op :: middle)) :
    input = .operator op :: middle ∨ ∃ longer, Steps unopened level input longer rest := by
  induction steps generalizing input with
  | nil =>
      cases h with
      | nil => exact Or.inl rfl
  | cons step steps ih =>
      cases h with
      | cons known operand others =>
          right
          rcases ih others with hLast | ⟨longer, hLonger⟩
          · subst hLast
            obtain ⟨last, hLast⟩ := hOperand operand
            exact ⟨_, Steps.cons known hLast (Steps.nil _ _)⟩
          · exact ⟨_, Steps.cons known operand hLonger⟩

/-- One more primary joins an operand from the right, at the level of its operator. -/
theorem Operand.extend {bound level : Nat} {input middle rest : Kinds} {op : BinaryOp}
    {expr next : Expr} (h : Operand unopened bound input expr (.operator op :: middle))
    (hLevel : level < bound) (known : op ∈ operators (level + 1))
    (primary : Primary unopened middle next rest) :
    ∃ longer, Operand unopened bound input longer rest := by
  induction bound generalizing input expr with
  | zero => exact absurd hLevel (Nat.not_lt_zero _)
  | succ bound ih =>
      by_cases hSame : level = bound
      · subst hSame
        exact ⟨_, h.snoc known ((Operand.primary primary).looser (Nat.zero_le _))⟩
      · have hTighter : level < bound := by omega
        cases h with
        | joined first steps =>
            rcases steps.extend (fun operand => ih operand hTighter) with hNone | ⟨longer, hLonger⟩
            · subst hNone
              obtain ⟨longer, hLonger⟩ := ih first hTighter
              exact ⟨_, Operand.joined hLonger (Steps.nil _ _)⟩
            · exact ⟨_, Operand.joined first hLonger⟩

/-- Whatever the levels of its operators, a row can be put behind an expression and gives an
expression again, though not one of the same shape. -/
theorem Row.operand_append {start input rest : Kinds} {op : BinaryOp} {expr : Expr}
    (h : Row Closed input rest) (hStart : Operand unopened loosest start expr (.operator op :: input)) :
    ∃ longer, Operand unopened loosest start longer rest := by
  obtain ⟨level, hLevel, known⟩ := exists_level op
  induction h generalizing op expr level with
  | last final =>
      obtain ⟨next, hNext⟩ := final
      exact hStart.extend hLevel known hNext
  | more first _ ih =>
      obtain ⟨next, hNext⟩ := first
      obtain ⟨longer, hLonger⟩ := hStart.extend hLevel known hNext
      obtain ⟨level, hLevel, known⟩ := exists_level _
      exact ih hLonger level hLevel known

/-- A complete row is an expression: some tree joins its primaries by level. -/
theorem Row.operand {input rest : Kinds} (h : Row Closed input rest) :
    ∃ expr, Operand unopened loosest input expr rest := by
  cases h with
  | last final =>
      obtain ⟨expr, hPrimary⟩ := final
      exact ⟨expr, (Operand.primary hPrimary).looser (Nat.zero_le _)⟩
  | more first others =>
      obtain ⟨expr, hPrimary⟩ := first
      exact others.operand_append ((Operand.primary hPrimary).looser (Nat.zero_le _))

/-- Only the last part of a row can be such that a parenthesis belongs to it. -/
theorem Read.append {input middle rest : Kinds} {op : BinaryOp}
    (h : Read input (.operator op :: middle)) (others : Read middle rest) : Read input rest := by
  have hFirst := h.closed (unopened_operator op middle)
  exact others.imp hFirst.append hFirst.append

mutual

/-- Levels are given up here: what is left is primaries with operators between them. -/
theorem Operand.read {level : Nat} {input rest : Kinds} {expr : Expr}
    (h : Operand anything level input expr rest) : Read input rest := by
  match h with
  | .primary inner => exact inner.read
  | .joined left steps =>
      rcases steps.read with hNone | ⟨op, input, hMiddle, hOthers⟩
      · exact hNone ▸ left.read
      · exact (hMiddle ▸ left.read).append hOthers

theorem Steps.read {level : Nat} {input rest : Kinds} {steps : List (BinaryOp × Expr)}
    (h : Steps anything level input steps rest) :
    input = rest ∨ ∃ op middle, input = .operator op :: middle ∧ Read middle rest := by
  match h with
  | .nil _ _ => exact Or.inl rfl
  | .cons known operand others =>
      right
      rcases others.read with hNone | ⟨op, input, hMiddle, hOthers⟩
      · exact ⟨_, _, rfl, hNone ▸ operand.read⟩
      · exact ⟨_, _, rfl, (hMiddle ▸ operand.read).append hOthers⟩

/-- The one choice that the plain grammar leaves is whether an identifier before a parenthesis is a
variable. -/
theorem Primary.read {input rest : Kinds} {expr : Expr} (h : Primary anything input expr rest) :
    Read input rest := by
  match h with
  | .literal value rest => exact Or.inl (Row.last ⟨_, Primary.literal value rest⟩)
  | .reference name _ =>
      by_cases hRest : unopened rest
      · exact Or.inl (Row.last ⟨_, Primary.reference name hRest⟩)
      · exact Or.inr (Row.last ⟨hRest, name, rfl⟩)
  | .call callee inner =>
      obtain ⟨values, hValues⟩ := inner.read
      exact Or.inl (Row.last ⟨_, Primary.call callee hValues⟩)
  | .group inner =>
      obtain ⟨expr, hInner⟩ := (inner.read.closed (unopened_delimiter (by decide) _)).operand
      exact Or.inl (Row.last ⟨_, Primary.group hInner⟩)

/-- The parenthesis at the end closes the arguments, so the last of them is complete. -/
theorem Arguments.read {input rest : Kinds} {values : List Expr}
    (h : Arguments anything input values rest) : ∃ values, Arguments unopened input values rest := by
  match h with
  | .none rest => exact ⟨_, Arguments.none rest⟩
  | .some inner =>
      obtain ⟨values, hValues⟩ := inner.read
      exact ⟨values, Arguments.some hValues⟩

theorem Values.read {input rest : Kinds} {values : List Expr}
    (h : Values anything input values rest) : ∃ values, Values unopened input values rest := by
  match h with
  | .last inner =>
      obtain ⟨expr, hInner⟩ := (inner.read.closed (unopened_delimiter (by decide) _)).operand
      exact ⟨_, Values.last hInner⟩
  | .more inner others =>
      obtain ⟨expr, hInner⟩ := (inner.read.closed (unopened_delimiter (by decide) _)).operand
      obtain ⟨values, hValues⟩ := others.read
      exact ⟨_, Values.more hInner hValues⟩

end

/-- A condition ends with its own parenthesis, so no other can be drawn into it. -/
theorem Condition.greedy {input rest : Kinds} {test : Expr}
    (h : Condition anything input test rest) : ∃ test, Condition unopened input test rest := by
  cases h with
  | group inner =>
      obtain ⟨expr, hInner⟩ := (inner.read.closed (unopened_delimiter (by decide) _)).operand
      exact ⟨expr, Condition.group hInner⟩

/-- Before an opening parenthesis, and whatever row begins there, the statement at `input` takes it
in. -/
def Absorbs (input rest : Kinds) : Prop :=
  ¬ unopened rest ∧ ∀ after, Row Closed rest after → ∃ stmt, Statement unopened input stmt after

/-- A statement that ends with an expression is complete, or takes in the next row. -/
theorem Read.complete_or_absorbs {head input rest : Kinds} (h : Read input rest)
    (hStatement : ∀ {expr rest}, Operand unopened loosest input expr rest →
      ∃ stmt, Statement unopened head stmt rest) :
    (∃ stmt, Statement unopened head stmt rest) ∨ Absorbs head rest := by
  rcases h with hClosed | hOpen
  · obtain ⟨expr, hExpr⟩ := hClosed.operand
    exact Or.inl (hStatement hExpr)
  · refine Or.inr ⟨hOpen.opened, fun after hAfter => ?_⟩
    obtain ⟨expr, hExpr⟩ := (hOpen.glue hAfter).operand
    exact hStatement hExpr

/-- A statement before an opening parenthesis takes in what it can of the next one. -/
theorem Absorbs.read {input middle rest : Kinds} (h : Absorbs input middle) (hRead : Read middle rest) :
    (∃ stmt, Statement unopened input stmt rest) ∨ Absorbs input rest := by
  rcases hRead with hClosed | hOpen
  · exact Or.inl (h.2 rest hClosed)
  · exact Or.inr ⟨hOpen.opened, fun after hAfter => h.2 after (hOpen.glue hAfter)⟩

/-- Either the statement is one in the greedy reading too, or it takes in what comes after it up to
the end of some statement there. -/
theorem statements_before {input middle rest : Kinds}
    (h : (∃ stmt, Statement unopened input stmt middle) ∨ Absorbs input middle)
    (others : (∃ block, Statements unopened middle block rest) ∧
      ∀ start, Absorbs start middle → ∃ block, Statements unopened start block rest) :
    ∃ block, Statements unopened input block rest := by
  rcases h with ⟨stmt, hStmt⟩ | hAbsorbs
  · obtain ⟨block, hBlock⟩ := others.1
    exact ⟨stmt :: block, Statements.cons hStmt hBlock⟩
  · exact others.2 input hAbsorbs

/-- A statement that begins with a parenthesis can only be an expression. -/
theorem Statement.read_of_opened {input rest : Kinds} {stmt : Stmt}
    (h : Statement anything input stmt rest) (hInput : ¬ unopened input) : Read input rest := by
  cases h with
  | evaluate inner => exact inner.read
  | _ => simp [unopened] at hInput

mutual

theorem Statement.greedy {input rest : Kinds} {stmt : Stmt}
    (h : Statement anything input stmt rest) :
    (∃ stmt, Statement unopened input stmt rest) ∨ Absorbs input rest := by
  match h with
  | .function name parameters inner =>
      obtain ⟨body, hBody⟩ := inner.greedy
      exact Or.inl ⟨_, Statement.function name parameters hBody⟩
  | .declare name inner =>
      exact inner.read.complete_or_absorbs (fun hExpr => ⟨_, Statement.declare name hExpr⟩)
  | .loop condition inner =>
      obtain ⟨test, hTest⟩ := condition.greedy
      obtain ⟨body, hBody⟩ := inner.greedy
      exact Or.inl ⟨_, Statement.loop hTest hBody⟩
  | .branch condition inner =>
      obtain ⟨test, hTest⟩ := condition.greedy
      obtain ⟨body, hBody⟩ := inner.greedy
      exact Or.inl ⟨_, Statement.branch hTest hBody⟩
  | .otherwise condition first second =>
      obtain ⟨test, hTest⟩ := condition.greedy
      obtain ⟨positive, hPositive⟩ := first.greedy
      obtain ⟨negative, hNegative⟩ := second.greedy
      exact Or.inl ⟨_, Statement.otherwise hTest hPositive hNegative⟩
  | .assign name inner =>
      exact inner.read.complete_or_absorbs (fun hExpr => ⟨_, Statement.assign name hExpr⟩)
  | .yield inner =>
      exact inner.read.complete_or_absorbs (fun hExpr => ⟨_, Statement.yield hExpr⟩)
  | .evaluate inner =>
      exact inner.read.complete_or_absorbs (fun hExpr => ⟨_, Statement.evaluate hExpr⟩)

/-- A brace ends the last statement, so that nothing outside is drawn in. -/
theorem Braced.greedy {input rest : Kinds} {block : Block} (h : Braced anything input block rest) :
    ∃ block, Braced unopened input block rest := by
  match h with
  | .group inner =>
      obtain ⟨block, hBlock⟩ := (inner.greedy (unopened_delimiter (by decide) _)).1
      exact ⟨block, Braced.group hBlock⟩

/-- What the plain grammar derives up to anything but an opening parenthesis also has a derivation
without variables before parentheses; a statement in front of it may take in its beginning. -/
theorem Statements.greedy {input rest : Kinds} {block : Block}
    (h : Statements anything input block rest) (hRest : unopened rest) :
    (∃ block, Statements unopened input block rest) ∧
      ∀ start, Absorbs start input → ∃ block, Statements unopened start block rest := by
  match h with
  | .nil _ => exact ⟨⟨_, Statements.nil _⟩, fun start hStart => absurd hRest hStart.1⟩
  | .semicolon others =>
      obtain ⟨block, hBlock⟩ := (others.greedy hRest).1
      exact ⟨⟨block, Statements.semicolon hBlock⟩,
        fun start hStart => absurd (unopened_delimiter (by decide) _) hStart.1⟩
  | .cons first others =>
      have hOthers := others.greedy hRest
      refine ⟨statements_before first.greedy hOthers, fun start hStart => ?_⟩
      exact statements_before (hStart.read (first.read_of_opened hStart.1)) hOthers

end

/-- No program of the plain grammar is lost when identifiers before parentheses always call. -/
theorem Program.greedy {input : Kinds} {block : Block} (h : Program anything input block) :
    ∃ block, Program unopened input block :=
  (Statements.greedy h (by simp [unopened])).1

end IntScript.Grammar
