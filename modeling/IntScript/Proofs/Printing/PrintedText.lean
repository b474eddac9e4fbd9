import IntScript.Proofs.Lexing.Interning
import IntScript.Proofs.Printing.Parentheses

/-! The text of a printed program is cut into the tokens of the program. Only literals that are not
negative and names that are identifiers can be printed so that they are read back. -/
namespace IntScript

open Lexer

/-- The name is known, and its text is one that an identifier may have. -/
def Interner.identifies (names : Interner) (name : Name) : Bool :=
  (names.text? name).any isIdentifier

namespace Expr

mutual

/-- Every literal of the expression has a spelling, and every name is an identifier. -/
def printable (names : Interner) : Expr → Bool
  | literal value => decide (0 ≤ value)
  | reference name => names.identifies name
  | call callee arguments => names.identifies callee && argumentsPrintable names arguments
  | binary _ left right => left.printable names && right.printable names

def argumentsPrintable (names : Interner) : List Expr → Bool
  | [] => true
  | argument :: others => argument.printable names && argumentsPrintable names others

end

end Expr

namespace Stmt

mutual

/-- Every literal in the statement has a spelling, and every name is an identifier. -/
def printable (names : Interner) : Stmt → Bool
  | function name parameters body =>
      names.identifies name && parameters.all names.identifies && blockPrintable names body
  | declare name value | assign name value => names.identifies name && value.printable names
  | loop condition body => condition.printable names && blockPrintable names body
  | branch condition positive negative =>
      condition.printable names && blockPrintable names positive && blockPrintable names negative
  | yield value | evaluate value => value.printable names

def blockPrintable (names : Interner) : List Stmt → Bool
  | [] => true
  | stmt :: others => stmt.printable names && blockPrintable names others

end

end Stmt

/-- Every literal in the program, at any depth, is not negative, and every name is an identifier. -/
abbrev Block.printable (names : Interner) (block : Block) : Bool :=
  Stmt.blockPrintable names block

/-- Nothing in front of the text joins a word or a number before it. -/
def Lexer.Apart (after : List Char) : Prop :=
  ∀ c ∈ after.head?, continuesWord c = false

namespace Lexer

theorem apart_cons {c : Char} (h : continuesWord c = false) (after : List Char) :
    Apart (c :: after) := by
  simpa [Apart] using h

theorem apart_nil : Apart [] := by
  simp [Apart]

theorem Apart.identifier {after : List Char} (h : Apart after) (text : String) :
    Ends (.identifier text) after := h

theorem Apart.integer {after : List Char} (h : Apart after) (value : Int32) :
    Ends (.integer value) after := by
  intro c hMem
  cases hDigit : c.isDigit with
  | false => exact hDigit
  | true => exact absurd (continuesWord_of_isDigit hDigit) (by rw [h c hMem]; decide)

/-- The value of digits is the library's. -/
theorem decimal_eq_ofDigitChars (digits : List Char) :
    decimal digits = Nat.ofDigitChars 10 digits 0 := by
  rw [decimal, Nat.ofDigitChars_eq_foldl]
  simp only [Nat.mul_comm]

/-- A literal that is not negative is spelled as it is printed. -/
theorem spells_literal {value : Int32} (h : 0 ≤ value) :
    Spells (.integer value) (toString value).toList := by
  have hText : (toString value).toList = Nat.toDigits 10 value.toNatClampNeg := by
    have hInt : value.toInt = Int.ofNat value.toNatClampNeg := by
      rw [Int32.le_iff_toInt_le, Int32.toInt_zero] at h
      exact (Int.toNat_of_nonneg h).symm
    change value.toInt.repr.toList = _
    rw [hInt, Int.repr, Nat.toList_repr]
  have hDecimal : decimal (Nat.toDigits 10 value.toNatClampNeg) = value.toNatClampNeg := by
    rw [decimal_eq_ofDigitChars, Nat.ofDigitChars_ten_toDigits]
  have hSmall : decimal (Nat.toDigits 10 value.toNatClampNeg) ≤ largestLiteral := by
    have hBound := value.toInt_lt
    rw [hDecimal, largestLiteral, Int32.toNatClampNeg]
    omega
  have hSpells := Spells.integer Nat.toDigits_ne_nil
    (fun c => Nat.isDigit_of_mem_toDigits (by decide) (by decide)) hSmall
  rwa [hDecimal, Int32.ofNat_toNatClampNeg value h, ← hText] at hSpells

/-- A name that identifies has a text that is read as an identifier. -/
theorem spells_name {names : Interner} {name : Name} (h : names.identifies name) :
    Spells (.identifier (names.lookup name)) (names.lookup name).toList := by
  rw [Interner.identifies, Option.any_eq_true] at h
  obtain ⟨text, hText, hValid⟩ := h
  rw [Interner.lookup_of_text hText]
  exact Spells.identifier hValid

section

variable {after : List Char} {kinds : List (TokenKind String)}

/-- A name is read back as its text if nothing joins it. -/
theorem Lexes.name {names : Interner} {name : Name} (h : Lexes after kinds)
    (hName : names.identifies name) (hAfter : Apart after) :
    Lexes ((names.lookup name).toList ++ after) (.identifier (names.lookup name) :: kinds) :=
  h.spelling (spells_name hName) (hAfter.identifier _)

theorem Lexes.space (h : Lexes after kinds) : Lexes (' ' :: after) kinds :=
  h.blank rfl

theorem Lexes.newline (h : Lexes after kinds) : Lexes ('\n' :: after) kinds :=
  h.blank rfl

/-- A keyword is read as itself, if no letter or digit follows it. -/
theorem Lexes.keyword (h : Lexes after kinds) (keyword : Keyword) (hAfter : Apart after) :
    Lexes (keyword.spelling.toList ++ after) (.keyword keyword :: kinds) :=
  h.spelling (Spells.keyword keyword) hAfter

/-- With a space behind it an operator cannot become a longer one. -/
theorem Lexes.operator (h : Lexes after kinds) (op : BinaryOp) :
    Lexes (op.symbol.toList ++ ' ' :: after) (.operator op :: kinds) :=
  h.space.spelling (Spells.operator op) (fun c hMem => by
    obtain rfl : ' ' = c := Option.some.inj hMem
    cases op <;> rfl)

/-- The space keeps the sign from becoming a comparison. -/
theorem Lexes.assign (h : Lexes after kinds) :
    Lexes ('=' :: ' ' :: after) (.delimiter .assign :: kinds) :=
  h.space.spelling (Spells.delimiter .assign) (fun c hMem => by
    obtain rfl : ' ' = c := Option.some.inj hMem
    rfl)

/-- Brackets are complete by themselves, whatever follows them. -/
theorem Lexes.openParen (h : Lexes after kinds) :
    Lexes ('(' :: after) (.delimiter .openParen :: kinds) :=
  h.spelling (Spells.delimiter .openParen) (fun _ _ => rfl)

theorem Lexes.closeParen (h : Lexes after kinds) :
    Lexes (')' :: after) (.delimiter .closeParen :: kinds) :=
  h.spelling (Spells.delimiter .closeParen) (fun _ _ => rfl)

theorem Lexes.openBrace (h : Lexes after kinds) :
    Lexes ('\x7b' :: after) (.delimiter .openBrace :: kinds) :=
  h.spelling (Spells.delimiter .openBrace) (fun _ _ => rfl)

theorem Lexes.closeBrace (h : Lexes after kinds) :
    Lexes ('\x7d' :: after) (.delimiter .closeBrace :: kinds) :=
  h.spelling (Spells.delimiter .closeBrace) (fun _ _ => rfl)

theorem Lexes.comma (h : Lexes after kinds) :
    Lexes (',' :: ' ' :: after) (.delimiter .comma :: kinds) :=
  h.space.spelling (Spells.delimiter .comma) (fun _ _ => rfl)

end

end Lexer

section

variable {names : Interner}

/-- Parentheses around a text that is cut into tokens are two more of them. -/
theorem Lexer.lexes_parenthesize {text : String} {inner : Grammar.Kinds}
    (hInner : ∀ {after : List Char} {kinds : List (TokenKind String)}, Apart after → Lexes after kinds →
      Lexes (text.toList ++ after) (inner.map (TokenKind.map names.lookup) ++ kinds))
    (wanted : Bool) {after : List Char} {kinds : List (TokenKind String)} (hAfter : Apart after)
    (hRest : Lexes after kinds) :
    Lexes ((Expr.parenthesize wanted text).toList ++ after)
      ((Grammar.parenthesized wanted inner).map (TokenKind.map names.lookup) ++ kinds) := by
  cases wanted with
  | false => exact hInner hAfter hRest
  | true =>
      have hOpened := (hInner (apart_cons (by decide) _) hRest.closeParen).openParen
      simpa [Expr.parenthesize, Grammar.parenthesized, TokenKind.map] using hOpened

mutual

/-- Wherever a printed expression has parentheses, it is cut into its tokens if no word or number goes
on after it. -/
theorem Expr.lexesWith (expr : Expr) (h : expr.printable names) (chosen : Place → Bool)
    {after : List Char} {kinds : List (TokenKind String)} (hAfter : Apart after)
    (hRest : Lexes after kinds) :
    Lexes ((expr.printWith names chosen).toList ++ after)
      ((expr.kindsWith chosen).map (TokenKind.map names.lookup) ++ kinds) := by
  match expr with
  | .literal value =>
      exact hRest.spelling (spells_literal (of_decide_eq_true h)) (hAfter.integer value)
  | .reference name => exact hRest.name h hAfter
  | .call callee arguments =>
      rw [Expr.printable, Bool.and_eq_true] at h
      have hArguments := Expr.lexesArgumentsWith arguments h.2
        (fun index => chosen ∘ .inArgument index) hRest
      have hCall := hArguments.openParen.name h.1 (apart_cons (by decide) _)
      simpa [Expr.printWith, Expr.kindsWith, TokenKind.map] using hCall
  | .binary op left right =>
      rw [Expr.printable, Bool.and_eq_true] at h
      have hRight := lexes_parenthesize (Expr.lexesWith right h.2 (chosen ∘ .inRight))
        (right.isBinary && chosen .right) hAfter hRest
      have hLeft := lexes_parenthesize (Expr.lexesWith left h.1 (chosen ∘ .inLeft))
        (left.isBinary && chosen .left) (apart_cons (by decide) _) (hRight.operator op).space
      simpa [Expr.printWith, Expr.kindsWith, TokenKind.map] using hLeft

/-- Arguments are read back up to their parenthesis, by induction on the list. -/
theorem Expr.lexesArgumentsWith (arguments : List Expr) (h : Expr.argumentsPrintable names arguments)
    (chosen : Nat → Place → Bool) {after : List Char} {kinds : List (TokenKind String)}
    (hRest : Lexes after kinds) :
    Lexes ((Expr.printArgumentsWith names arguments chosen).toList ++ ')' :: after)
      ((Expr.argumentKindsWith arguments chosen).map (TokenKind.map names.lookup) ++
        .delimiter .closeParen :: kinds) := by
  match arguments with
  | [] => exact hRest.closeParen
  | [argument] =>
      rw [Expr.argumentsPrintable, Bool.and_eq_true] at h
      exact Expr.lexesWith argument h.1 (chosen 0) (apart_cons (by decide) _) hRest.closeParen
  | argument :: next :: further =>
      rw [Expr.argumentsPrintable, Bool.and_eq_true] at h
      have hOthers := (Expr.lexesArgumentsWith (next :: further) h.2 (fun index => chosen (index + 1))
        hRest).comma
      have hFirst := Expr.lexesWith argument h.1 (chosen 0) (apart_cons (by decide) _) hOthers
      simpa [Expr.printArgumentsWith, Expr.argumentKindsWith, TokenKind.map] using hFirst

end

/-- The canonical text is a case of chosen parentheses. -/
theorem Expr.lexes (expr : Expr) (h : expr.printable names) {after : List Char}
    {kinds : List (TokenKind String)} (hAfter : Apart after) (hRest : Lexes after kinds) :
    Lexes ((expr.print names).toList ++ after)
      (expr.kinds.map (TokenKind.map names.lookup) ++ kinds) := by
  rw [← expr.printWith_parenthesizes names, ← expr.kindsWith_parenthesizes]
  exact Expr.lexesWith expr h _ hAfter hRest

/-- Commas separate the names, so nothing joins them. -/
theorem Stmt.lexesParameters (parameters : List Name) (h : parameters.all names.identifies)
    {after : List Char} {kinds : List (TokenKind String)} (hRest : Lexes after kinds) :
    Lexes ((", ".intercalate (parameters.map names.lookup)).toList ++ ')' :: after)
      ((Stmt.parameterKinds parameters).map (TokenKind.map names.lookup) ++
        .delimiter .closeParen :: kinds) := by
  induction parameters with
  | nil => exact hRest.closeParen
  | cons name others ih =>
      rw [List.all_cons, Bool.and_eq_true] at h
      cases others with
      | nil =>
          have hLast := hRest.closeParen.name h.1 (apart_cons (by decide) _)
          simpa [Stmt.parameterKinds, TokenKind.map] using hLast
      | cons next further =>
          have hMore := (ih h.2).comma.name h.1 (apart_cons (by decide) _)
          simpa [Stmt.parameterKinds, TokenKind.map] using hMore

end

/-- The characters of lines, indented and ended by line feeds. -/
def Line.characters (lines : List Line) : List Char :=
  lines.flatMap (fun line => line.print.toList)

def Line.indentation (depth : Nat) : List Char :=
  List.replicate (4 * depth) ' '

theorem Line.characters_append (lines others : List Line) :
    characters (lines ++ others) = characters lines ++ characters others :=
  List.flatMap_append

theorem Line.characters_single (depth : Nat) (text : String) :
    characters [⟨depth, text⟩] = indentation depth ++ text.toList ++ ['\n'] := by
  simp [characters, Line.print, indentation]

/-- Any depth of indentation is read as nothing. -/
theorem Lexer.Lexes.indentation {after : List Char} {kinds : List (TokenKind String)}
    (h : Lexes after kinds) (depth : Nat) : Lexes (Line.indentation depth ++ after) kinds := by
  rw [Line.indentation]
  induction 4 * depth with
  | zero => exact h
  | succ count ih => exact ih.space

/-- What stands between the braces of a block. -/
def Line.between (depth : Nat) (body : List Line) : List Char :=
  if body.isEmpty then [] else '\n' :: characters body ++ indentation depth

/-- Laid out in braces, a block is its header, an opening brace, its lines and a closing brace. -/
theorem Stmt.characters_braced (depth : Nat) (header : String) (body : List Line)
    (after : List Char) :
    Line.characters (braced depth header body).1 ++
        (Line.indentation depth ++ ((braced depth header body).2.toList ++ after)) =
      Line.indentation depth ++
        (header.toList ++ '\x7b' :: (Line.between depth body ++ '\x7d' :: after)) := by
  cases body with
  | nil => simp [braced, Line.characters, Line.between]
  | cons line others =>
      simp [braced, Line.characters, Line.between, Line.print, Line.indentation]

section

variable {after : List Char} {kinds bodyKinds : List (TokenKind String)} {body : List Line}

/-- The braces of a block are read around whatever its lines are read as. An empty block has no
lines and no line feed. -/
theorem Lexer.Lexes.braces
    (hBody : ∀ {after : List Char} {kinds : List (TokenKind String)}, Lexes after kinds →
      Lexes (Line.characters body ++ after) (bodyKinds ++ kinds))
    (hRest : Lexes after kinds) (depth : Nat) :
    Lexes ('\x7b' :: (Line.between depth body ++ '\x7d' :: after))
      (.delimiter .openBrace :: (bodyKinds ++ .delimiter .closeBrace :: kinds)) := by
  cases body with
  | nil => exact (hBody hRest.closeBrace).openBrace
  | cons line others =>
      have hLines := (hBody (hRest.closeBrace.indentation depth)).newline
      simpa [Line.between] using hLines.openBrace

end

section

variable {names : Interner}

mutual

/-- The lines of a printed statement are cut into its tokens. -/
theorem Stmt.lexes (stmt : Stmt) (h : stmt.printable names) (depth : Nat) {after : List Char}
    {kinds : List (TokenKind String)} (hRest : Lexes after kinds) :
    Lexes (Line.characters (stmt.lines names depth) ++ after)
      (stmt.kinds.map (TokenKind.map names.lookup) ++ kinds) := by
  match stmt with
  | .function name parameters body =>
      simp only [Stmt.printable, Bool.and_eq_true] at h
      have hBody := hRest.newline.braces (Stmt.blockLexes body h.2 (depth + 1)) depth
      have hParameters := (Stmt.lexesParameters parameters h.1.2 hBody.space).openParen
      have hName := (hParameters.name h.1.1 (apart_cons (by decide) _)).space
      have hKeyword := (hName.keyword .function (apart_cons (by decide) _)).indentation depth
      simpa [Stmt.lines, Stmt.kinds, TokenKind.map, Keyword.spelling, Line.characters_append,
        Line.characters_single, Stmt.characters_braced] using hKeyword
  | .declare name value =>
      simp only [Stmt.printable, Bool.and_eq_true] at h
      have hValue := Expr.lexes value h.2 (apart_cons (by decide) _) hRest.newline
      have hName := (hValue.assign.space.name h.1 (apart_cons (by decide) _)).space
      have hKeyword := (hName.keyword .declare (apart_cons (by decide) _)).indentation depth
      simpa [Stmt.lines, Stmt.kinds, TokenKind.map, Keyword.spelling, Line.characters_single]
        using hKeyword
  | .loop test body =>
      simp only [Stmt.printable, Bool.and_eq_true] at h
      have hBody := hRest.newline.braces (Stmt.blockLexes body h.2 (depth + 1)) depth
      have hTest := Expr.lexes test h.1 (apart_cons (by decide) _) hBody.space.closeParen
      have hKeyword :=
        (hTest.openParen.space.keyword .loop (apart_cons (by decide) _)).indentation depth
      simpa [Stmt.lines, Stmt.kinds, TokenKind.map, Keyword.spelling, Line.characters_append,
        Line.characters_single, Stmt.characters_braced] using hKeyword
  | .branch test positive negative =>
      simp only [Stmt.printable, Bool.and_eq_true] at h
      have hTest {after : List Char} {kinds : List (TokenKind String)} (hRest : Lexes after kinds) :=
        let hBody := hRest.braces (Stmt.blockLexes positive h.1.2 (depth + 1)) depth
        let hTest := Expr.lexes test h.1.1 (apart_cons (by decide) _) hBody.space.closeParen
        (hTest.openParen.space.keyword .branch (apart_cons (by decide) _)).indentation depth
      cases negative with
      | nil =>
          simpa [Stmt.lines, Stmt.kinds, TokenKind.map, Keyword.spelling, Line.characters_append,
            Line.characters_single, Stmt.characters_braced] using hTest hRest.newline
      | cons first others =>
          have hBody := hRest.newline.braces (Stmt.blockLexes (first :: others) h.2 (depth + 1)) depth
          have hOtherwise := hBody.space.keyword .otherwise (apart_cons (by decide) _)
          have hWhole := hTest hOtherwise.space
          simpa [Stmt.lines, Stmt.kinds, TokenKind.map, Keyword.spelling, Line.characters_append,
            Line.characters_single, Stmt.characters_braced] using hWhole
  | .assign name value =>
      simp only [Stmt.printable, Bool.and_eq_true] at h
      have hValue := Expr.lexes value h.2 (apart_cons (by decide) _) hRest.newline
      have hName :=
        (hValue.assign.space.name h.1 (apart_cons (by decide) _)).indentation depth
      simpa [Stmt.lines, Stmt.kinds, TokenKind.map, Line.characters_single] using hName
  | .yield value =>
      have hValue := (Expr.lexes value h (apart_cons (by decide) _) hRest.newline).space
      have hKeyword := (hValue.keyword .yield (apart_cons (by decide) _)).indentation depth
      simpa [Stmt.lines, Stmt.kinds, TokenKind.map, Keyword.spelling, Line.characters_single]
        using hKeyword
  | .evaluate value =>
      have hValue :=
        (Expr.lexes value h (apart_cons (by decide) _) hRest.newline).indentation depth
      simpa [Stmt.lines, Stmt.kinds, Line.characters_single] using hValue

/-- The statements of a block are read back one after the other, since line feeds separate them. -/
theorem Stmt.blockLexes (block : Block) (h : block.printable names) (depth : Nat)
    {after : List Char} {kinds : List (TokenKind String)} (hRest : Lexes after kinds) :
    Lexes (Line.characters (Stmt.blockLines names depth block) ++ after)
      ((Stmt.blockKinds block).map (TokenKind.map names.lookup) ++ kinds) := by
  match block with
  | [] => exact hRest
  | stmt :: others =>
      rw [Block.printable, Stmt.blockPrintable, Bool.and_eq_true] at h
      have hStmt := Stmt.lexes stmt h.1 depth (Stmt.blockLexes others h.2 depth hRest)
      simpa [Stmt.blockLines, Stmt.blockKinds, Line.characters_append] using hStmt

end

end

end IntScript
