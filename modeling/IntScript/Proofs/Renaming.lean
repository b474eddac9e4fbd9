import IntScript.Program
import IntScript.Program.ParseError
import Mathlib.Data.List.Forall2

/-! Tokens and programs that differ in how their names are numbered and in nothing else. The relation of
names is left open; it pairs each name of one numbering with that of the same identifier in another. -/
namespace IntScript

/-- Paired names are equal on one side exactly when they are on the other. -/
def OneToOne (pairs : Name → Name → Prop) : Prop :=
  ∀ {first second other partner : Name}, pairs first second → pairs other partner →
    (first = other ↔ second = partner)

/-- Both succeed, with what is alike, or both fail alike. -/
inductive OutcomeLike {ε α β : Type} (failing : ε → ε → Prop) (like : α → β → Prop) :
    Except ε α → Except ε β → Prop where
  | ok {first : α} {second : β} (same : like first second) : OutcomeLike failing like (.ok first) (.ok second)
  | error {first second : ε} (same : failing first second) :
      OutcomeLike failing like (.error first) (.error second)

/-- What comes after like outcomes is alike, if each step is. -/
theorem OutcomeLike.bind {ε α β γ δ : Type} {failing : ε → ε → Prop} {like : α → β → Prop}
    {alike : γ → δ → Prop} {first : Except ε α} {second : Except ε β} {next : α → Except ε γ}
    {next' : β → Except ε δ} (h : OutcomeLike failing like first second)
    (hNext : ∀ found other, like found other → OutcomeLike failing alike (next found) (next' other)) :
    OutcomeLike failing alike (first >>= next) (second >>= next') := by
  cases h with
  | ok same => exact hNext _ _ same
  | error same => exact .error same

section

variable (pairs : Name → Name → Prop)

/-- The same kind, with paired names. -/
inductive TokenKind.Like : TokenKind Name → TokenKind Name → Prop where
  | keyword (keyword : Keyword) : Like (.keyword keyword) (.keyword keyword)
  | delimiter (delimiter : Delimiter) : Like (.delimiter delimiter) (.delimiter delimiter)
  | operator (op : BinaryOp) : Like (.operator op) (.operator op)
  | integer (value : Int32) : Like (.integer value) (.integer value)
  | identifier {first second : Name} (paired : pairs first second) :
      Like (.identifier first) (.identifier second)
  | endOfFile : Like .endOfFile .endOfFile

inductive Token.Like : Token Name → Token Name → Prop where
  | mk {first second : TokenKind Name} (sameKind : first.Like pairs second) (span : Span) :
      Like ⟨first, span⟩ ⟨second, span⟩

/-- The same expression, with paired names. -/
inductive Expr.Like : Expr → Expr → Prop where
  | literal (value : Int32) : Like (.literal value) (.literal value)
  | reference {first second : Name} (paired : pairs first second) :
      Like (.reference first) (.reference second)
  | call {first second : Name} {arguments others : List Expr} (paired : pairs first second)
      (sameArguments : List.Forall₂ Like arguments others) :
      Like (.call first arguments) (.call second others)
  | binary (op : BinaryOp) {left right left' right' : Expr} (sameLeft : Like left left')
      (sameRight : Like right right') : Like (.binary op left right) (.binary op left' right')

inductive Stmt.Like : Stmt → Stmt → Prop where
  | function {first second : Name} {parameters parameters' : List Name} {body body' : Block}
      (paired : pairs first second) (sameParameters : List.Forall₂ pairs parameters parameters')
      (sameBody : List.Forall₂ Like body body') :
      Like (.function first parameters body) (.function second parameters' body')
  | declare {first second : Name} {value value' : Expr} (paired : pairs first second)
      (sameValue : value.Like pairs value') : Like (.declare first value) (.declare second value')
  | loop {condition condition' : Expr} {body body' : Block}
      (sameCondition : condition.Like pairs condition') (sameBody : List.Forall₂ Like body body') :
      Like (.loop condition body) (.loop condition' body')
  | branch {condition condition' : Expr} {positive positive' negative negative' : Block}
      (sameCondition : condition.Like pairs condition')
      (samePositive : List.Forall₂ Like positive positive')
      (sameNegative : List.Forall₂ Like negative negative') :
      Like (.branch condition positive negative) (.branch condition' positive' negative')
  | assign {first second : Name} {value value' : Expr} (paired : pairs first second)
      (sameValue : value.Like pairs value') : Like (.assign first value) (.assign second value')
  | yield {value value' : Expr} (sameValue : value.Like pairs value') :
      Like (.yield value) (.yield value')
  | evaluate {value value' : Expr} (sameValue : value.Like pairs value') :
      Like (.evaluate value) (.evaluate value')

abbrev Block.Like : Block → Block → Prop :=
  List.Forall₂ (Stmt.Like pairs)

/-- The same error at the same place, with paired names. -/
inductive ParseError.Like : ParseError → ParseError → Prop where
  | expectedDelimiter (expected : Delimiter) {first second : Token Name}
      (sameFound : first.Like pairs second) :
      Like (.expectedDelimiter expected first) (.expectedDelimiter expected second)
  | expectedExpression {first second : Token Name} (sameFound : first.Like pairs second) :
      Like (.expectedExpression first) (.expectedExpression second)
  | unclosedDelimiter (opener : Delimiter) (opened limit : Span) :
      Like (.unclosedDelimiter opener opened limit) (.unclosedDelimiter opener opened limit)
  | expectedIdentifier (role : IdentifierRole) {first second : Token Name}
      (sameFound : first.Like pairs second) :
      Like (.expectedIdentifier role first) (.expectedIdentifier role second)

end

namespace TokenKind.Like

variable {pairs : Name → Name → Prop} {first second : TokenKind Name}

/-- Only identifiers differ, so a kind of another sort is found on both sides or on neither. -/
theorem eq_iff (h : first.Like pairs second) (kind : TokenKind Name)
    (hKind : ∀ name, kind ≠ .identifier name) : first = kind ↔ second = kind := by
  cases h with
  | @identifier first second paired =>
      constructor
      · intro hFirst
        exact absurd hFirst.symm (hKind first)
      · intro hSecond
        exact absurd hSecond.symm (hKind second)
  | keyword | delimiter | operator | integer | endOfFile => exact Iff.rfl

theorem eq_delimiter_iff (h : first.Like pairs second) (delimiter : Delimiter) :
    first = .delimiter delimiter ↔ second = .delimiter delimiter :=
  h.eq_iff _ (fun _ => nofun)

theorem eq_keyword_iff (h : first.Like pairs second) (keyword : Keyword) :
    first = .keyword keyword ↔ second = .keyword keyword :=
  h.eq_iff _ (fun _ => nofun)

/-- An operator is not a name, so it is the same in both. -/
theorem operator? (h : first.Like pairs second) : first.operator? = second.operator? := by
  cases h <;> rfl

end TokenKind.Like

end IntScript
