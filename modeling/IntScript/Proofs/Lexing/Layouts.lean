import IntScript.Proofs.Lexing.Determinacy
import IntScript.Proofs.Locations

/-! Tokens may be written down with any blanks and comments around them. Reading finds the tokens, at the
places of their spellings, and nothing of what stands between them. -/
namespace IntScript

namespace Lexer

/-- Blanks, and comments that a line feed ends. -/
inductive Filling : List Char → Prop where
  | nil : Filling []
  | blank {c : Char} {others : List Char} (blank : isBlank c) (more : Filling others) :
      Filling (c :: others)
  | comment {body others : List Char} (inside : ∀ c ∈ body, c ≠ '\n') (more : Filling others) :
      Filling ('/' :: '/' :: (body ++ '\n' :: others))

/-- A token as it is written down, with the text in front of it. -/
structure Written where
  gap : List Char
  kind : TokenKind String
  word : List Char

/-- Tokens as they are written down, one behind the other, and the text behind the last of them. -/
structure Layout where
  written : List Written
  last : List Char

namespace Layout

def kinds (layout : Layout) : List (TokenKind String) :=
  layout.written.map (·.kind)

def text (layout : Layout) : List Char :=
  layout.written.flatMap (fun token => token.gap ++ token.word) ++ layout.last

/-- Each token where its spelling is, if the text begins at a byte offset, and the token for the end. -/
def tokensFrom (last : List Char) : Nat → List Written → List (Token String)
  | offset, [] =>
      let limit := offset + byteLength last
      [⟨.endOfFile, Span.ofRange limit limit⟩]
  | offset, token :: others =>
      let first := offset + byteLength token.gap
      let limit := first + byteLength token.word
      ⟨token.kind, Span.ofRange first limit⟩ :: tokensFrom last limit others

def tokens (layout : Layout) : List (Token String) :=
  tokensFrom layout.last 0 layout.written

/-- Every token has one of its spellings. In front of it stand blanks and comments, the first of them a
blank if another token comes before. What stands behind the last token begins with a blank too, if it is
not empty, and its last comment may go on to the end of the text. -/
structure Valid (layout : Layout) : Prop where
  spelled : ∀ token ∈ layout.written, Spells token.kind token.word
  filled : ∀ token ∈ layout.written, Filling token.gap
  apart : ∀ token ∈ layout.written.tail, ∃ c ∈ token.gap.head?, isBlank c
  closing : Gap [] layout.last
  closed : layout.written ≠ [] → ∀ c ∈ layout.last.head?, isBlank c

end Layout

/-- Fillings make no token, whatever they are made of and whatever comes behind. -/
theorem Filling.passes {gap : List Char} (h : Filling gap) (rest : List Char) (offset : Nat) :
    Passes rest offset gap [] := by
  induction h generalizing offset with
  | nil => exact .start offset
  | blank blank more ih => exact .gap (.blank blank) (ih _)
  | @comment body others inside more ih =>
      have hEnded : ∀ c ∈ (('\n' :: others) ++ rest).head?, c = '\n' :=
        fun c hFront => (Option.mem_some_iff.mp hFront).symm
      have hLineFeed : isBlank '\n' := by decide
      exact .gap (.comment inside hEnded) (.gap (.blank hLineFeed) (ih _))

/-- Behind the last token a comment need not be ended. -/
theorem Gap.scans {gap : List Char} (h : Gap [] gap) (offset : Nat) :
    Scans offset gap (Layout.tokensFrom gap offset []) none := by
  induction h generalizing offset with
  | nil => exact .ended offset
  | @blank c gap blank others ih =>
      have hOthers := ih (offset + byteLength [c])
      rw [Layout.tokensFrom, Nat.add_assoc, ← byteLength_append] at hOthers
      exact .gap (.blank blank) hOthers
  | @comment body gap inside ended others ih =>
      have hOthers := ih (offset + byteLength ('/' :: '/' :: body))
      rw [Layout.tokensFrom, Nat.add_assoc, ← byteLength_append] at hOthers
      rw [List.append_nil] at ended
      exact .gap (.comment inside ended) hOthers

/-- A blank is part of no token, and no token is part of a comment that a blank is in front of. -/
theorem ends_of_isBlank {after : List Char} (h : ∀ c ∈ after.head?, isBlank c) (kind : TokenKind String) :
    Ends kind after := by
  intro c hFront
  have hBlank := h c hFront
  have hNoWord : continuesWord c = false := by
    rw [Bool.eq_false_iff]
    intro hWord
    rw [isBlank_eq_false_of_continuesWord hWord] at hBlank
    cases hBlank
  have hNoSign {sign : Char} (hSolid : isBlank sign = false) : (c == sign) = false := by
    rw [beq_eq_false_iff_ne]
    rintro rfl
    rw [hSolid] at hBlank
    cases hBlank
  cases kind with
  | keyword | identifier => exact hNoWord
  | integer => exact isDigit_eq_false_of_continuesWord hNoWord
  | operator op =>
      cases op with
      | lt | gt => exact hNoSign (by decide : isBlank '=' = false)
      | div => exact hNoSign (by decide : isBlank '/' = false)
      | add | sub | mul | mod | eq | ne | le | ge | or | and => rfl
  | delimiter delimiter =>
      cases delimiter with
      | assign => exact hNoSign (by decide : isBlank '=' = false)
      | openParen | closeParen | openBrace | closeBrace | comma | semicolon => rfl
  | endOfFile => rfl

namespace Layout

variable {token : Written} {others : List Written} {last : List Char}

/-- The text of a layout, divided where its first token ends. -/
theorem text_cons (token : Written) (others : List Written) (last : List Char) :
    text ⟨token :: others, last⟩ = token.gap ++ (token.word ++ text ⟨others, last⟩) := by
  simp [text]

/-- Without its first token a layout is still valid, though what comes first then need not have a
blank in front. -/
theorem Valid.behind (h : Valid ⟨token :: others, last⟩) : Valid ⟨others, last⟩ where
  spelled := fun other hMem => h.spelled other (List.mem_cons_of_mem token hMem)
  filled := fun other hMem => h.filled other (List.mem_cons_of_mem token hMem)
  apart := fun other hMem => h.apart other (List.mem_of_mem_tail hMem)
  closing := h.closing
  closed := fun _ => h.closed (List.cons_ne_nil token others)

/-- Behind a token the text ends, or a blank follows. -/
theorem Valid.isBlank_of_head? (h : Valid ⟨token :: others, last⟩) :
    ∀ c ∈ (text ⟨others, last⟩).head?, isBlank c := by
  cases others with
  | nil => exact h.closed (List.cons_ne_nil token [])
  | cons next others =>
      obtain ⟨c, hFront, hBlank⟩ := h.apart next List.mem_cons_self
      obtain ⟨gap, hGap⟩ := List.head?_eq_some_iff.mp hFront
      intro d hMem
      rw [text_cons, hGap] at hMem
      obtain rfl : c = d := Option.mem_some_iff.mp hMem
      exact hBlank

/-- By induction on the tokens; the blank in front of the next one is what ends each of them. -/
theorem Valid.scansFrom {written : List Written} (h : Valid ⟨written, last⟩) (offset : Nat) :
    Scans offset (text ⟨written, last⟩) (tokensFrom last offset written) none := by
  induction written generalizing offset with
  | nil => exact h.closing.scans offset
  | cons token others ih =>
      rw [text_cons]
      refine ((h.filled token List.mem_cons_self).passes _ offset).scans (.token ?_ (ih h.behind _))
      exact .token (h.spelled token List.mem_cons_self) (ends_of_isBlank h.isBlank_of_head? token.kind)

theorem Valid.scan_eq {layout : Layout} (h : layout.Valid) : scan 0 layout.text = ⟨layout.tokens, none⟩ :=
  (h.scansFrom 0).scan_eq

theorem map_kind_tokensFrom (last : List Char) (offset : Nat) (written : List Written) :
    (tokensFrom last offset written).map (·.kind) = written.map (·.kind) ++ [.endOfFile] := by
  induction written generalizing offset with
  | nil => rfl
  | cons token others ih => exact congrArg (List.cons token.kind) (ih _)

end Layout

/-- Which kinds tokens have when they are numbered depends on the kinds that they had. -/
theorem internTokens_kinds {tokens others : List (Token String)}
    (h : tokens.map (·.kind) = others.map (·.kind)) (table : Interner) :
    (internTokens tokens table).1.map (·.kind) = (internTokens others table).1.map (·.kind) ∧
      (internTokens tokens table).2 = (internTokens others table).2 := by
  induction tokens generalizing others table with
  | nil =>
      rw [List.map_nil, eq_comm, List.map_eq_nil_iff] at h
      rw [h]
      exact ⟨rfl, rfl⟩
  | cons token tokens ih =>
      obtain ⟨other, rest, rfl, hKind, hRest⟩ := List.map_eq_cons_iff.mp h.symm
      obtain ⟨kind, place⟩ := token
      obtain ⟨same, place'⟩ := other
      obtain rfl : same = kind := hKind
      cases same with
      | identifier text =>
          obtain ⟨hKinds, hTable⟩ := ih hRest.symm (table.intern text).2
          exact ⟨congrArg (List.cons _) hKinds, hTable⟩
      | keyword | delimiter | operator | integer | endOfFile =>
          obtain ⟨hKinds, hTable⟩ := ih hRest.symm table
          exact ⟨congrArg (List.cons _) hKinds, hTable⟩

theorem internTokens_spans (tokens : List (Token String)) (table : Interner) :
    (internTokens tokens table).1.map (·.span) = tokens.map (·.span) := by
  have hForget := congrArg (List.map (·.span)) (internTokens_forget tokens table)
  rwa [List.map_map, List.map_map] at hForget

end Lexer

open Lexer

/-- However tokens are written down, with whatever blanks and comments, with whatever zeros in front of
integers, reading finds tokens of the same kinds, at the places where they were written. With numbers for
all texts the identifiers among them stand for the texts that were written. -/
theorem lex_layout (kinds : List (TokenKind String)) (table : Interner) :
    ∃ named later,
      (later.size ≤ Interner.capacity →
        named.map (TokenKind.map later.lookup) = kinds ++ [.endOfFile]) ∧
      ∀ layout : Layout, layout.Valid → layout.kinds = kinds →
        ∃ tokens, lex (String.ofList layout.text) table = (.ok tokens, later) ∧
          tokens.map (·.kind) = named ∧ tokens.map (·.span) = layout.tokens.map (·.span) := by
  let plain : List (Token String) := (kinds ++ [TokenKind.endOfFile]).map (fun kind => ⟨kind, Span.origin⟩)
  have hPlain : plain.map (·.kind) = kinds ++ [.endOfFile] := by
    rw [List.map_map]
    exact List.map_id _
  refine ⟨(internTokens plain table).1.map (·.kind), (internTokens plain table).2, fun hFits => ?_, ?_⟩
  · have hNamed := congrArg (List.map (·.kind)) (map_internTokens plain (.refl _) hFits)
    rw [List.map_map] at hNamed ⊢
    exact hNamed.trans hPlain
  · rintro layout hValid rfl
    have hKinds : layout.tokens.map (·.kind) = plain.map (·.kind) :=
      (Layout.map_kind_tokensFrom _ _ _).trans hPlain.symm
    obtain ⟨hNamed, hLater⟩ := internTokens_kinds hKinds table
    have hScan : scan 0 (String.ofList layout.text).toList = ⟨layout.tokens, none⟩ := by
      rw [String.toList_ofList, hValid.scan_eq]
    exact ⟨_, hLater ▸ lex_of_scan hScan table, hNamed, internTokens_spans _ _⟩

/-- A comment has a character of two bytes and an operator in it, an integer has zeros in front, and the
last comment goes on to the end of the text. -/
theorem lex_layout_amongComments :
    let layout : Layout :=
      ⟨[⟨['/', '/', '|', '\n'], .identifier "iff", ['i', 'f', 'f']⟩,
          ⟨[' ', '/', '/', '\u00e9', '<', '=', '\n'], .operator .lt, ['<']⟩,
          ⟨['\x0c'], .delimiter .assign, ['=']⟩, ⟨['\t'], .integer 7, ['0', '0', '7']⟩],
        ['\r', '/', '/', '&']⟩
    let later : Interner := (Interner.initial.internAll ["iff"]).2
    layout.Valid ∧ ∃ tokens, lex (String.ofList layout.text) .initial = (.ok tokens, later) ∧
      tokens.map (TokenKind.map later.lookup ·.kind) = layout.kinds ++ [.endOfFile] ∧
      tokens.map (·.span) = [⟨4, 7⟩, ⟨15, 16⟩, ⟨17, 18⟩, ⟨19, 22⟩, ⟨26, 26⟩] := by
  intro layout later
  have hValid : layout.Valid := by
    refine ⟨?_, ?_, ?_, ?_, ?_⟩
    · simp only [layout, List.forall_mem_cons]
      exact ⟨.identifier (by decide), .operator .lt, .delimiter .assign,
        @Spells.integer ['0', '0', '7'] (List.cons_ne_nil _ _) (List.all_eq_true.mp rfl) (by decide),
        List.forall_mem_nil _⟩
    · simp only [layout, List.forall_mem_cons]
      exact ⟨@Filling.comment ['|'] [] (by simp) .nil,
        .blank (by decide) (@Filling.comment ['\u00e9', '<', '='] [] (by simp) .nil),
        .blank (by decide) .nil, .blank (by decide) .nil, List.forall_mem_nil _⟩
    · simp [layout, isBlank]
    · exact .blank (by decide) (@Gap.comment [] ['&'] [] (by simp) (by simp) .nil)
    · simp [layout, isBlank]
  refine ⟨hValid, ?_⟩
  obtain ⟨named, found, hNamed, hLex⟩ := lex_layout layout.kinds .initial
  obtain ⟨tokens, hTokens, hKinds, hSpans⟩ := hLex layout hValid rfl
  have hTable : found = later := by
    have hTexts : identifiers (scan 0 (String.ofList layout.text).toList).tokens = ["iff"] := by
      decide +kernel
    have hLater := lex_table (String.ofList layout.text) .initial
    rwa [hTokens, hTexts] at hLater
  subst hTable
  refine ⟨tokens, hTokens, ?_, hSpans.trans rfl⟩
  rw [← hNamed (by decide), ← hKinds, List.map_map]
  rfl

end IntScript
