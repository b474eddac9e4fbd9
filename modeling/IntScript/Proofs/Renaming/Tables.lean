import IntScript.Proofs.Lexing.Interning
import IntScript.Proofs.Renaming
import Mathlib.Data.List.Perm.Subperm

/-! Two tables of names pair the names that stand for the same text. What is read and what is reported by
way of one table is then the same as by way of the other. -/
namespace IntScript

namespace Interner

/-- How many texts there are numbers for. -/
def capacity : Nat := UInt32.size

/-- The later table holds what the first one does, under the same numbers. -/
def GrowsTo (table later : Interner) : Prop :=
  table.strings <+: later.strings

/-- The names stand for the same text, each in its table. -/
def SameText (table other : Interner) (name partner : Name) : Prop :=
  ∃ text, table.text? name = some text ∧ other.text? partner = some text

section

variable {table later other : Interner} {name partner : Name} {text : String}

theorem GrowsTo.refl (table : Interner) : table.GrowsTo table :=
  List.prefix_refl _

theorem GrowsTo.trans {last : Interner} (h : table.GrowsTo later) (further : later.GrowsTo last) :
    table.GrowsTo last :=
  List.IsPrefix.trans h further

theorem GrowsTo.size (h : table.GrowsTo later) : table.size ≤ later.size :=
  List.IsPrefix.length_le h

/-- A name keeps its text for as long as the table lives. -/
theorem GrowsTo.text? (h : table.GrowsTo later) (hText : table.text? name = some text) :
    later.text? name = some text := by
  obtain ⟨hBound, rfl⟩ := List.getElem?_eq_some_iff.mp hText
  exact (List.prefix_iff_getElem?.mp h) _ hBound

/-- A text that is known changes nothing, and one that is new comes last. -/
theorem growsTo_intern (table : Interner) (text : String) : table.GrowsTo (table.intern text).2 := by
  rw [GrowsTo, strings_intern]
  split
  next => exact List.prefix_refl _
  next => exact List.prefix_append _ _

theorem internAll_append (table : Interner) (texts others : List String) :
    (table.internAll (texts ++ others)).2 = ((table.internAll texts).2.internAll others).2 := by
  induction texts generalizing table with
  | nil => rfl
  | cons text texts ih => exact ih (table.intern text).2

theorem growsTo_internAll (table : Interner) (texts : List String) :
    table.GrowsTo (table.internAll texts).2 := by
  induction texts generalizing table with
  | nil => exact GrowsTo.refl table
  | cons text texts ih => exact (table.growsTo_intern text).trans (ih _)

/-- More texts only add to the table. -/
theorem growsTo_of_prefix (table : Interner) {texts others : List String} (h : texts <+: others) :
    (table.internAll texts).2.GrowsTo (table.internAll others).2 := by
  obtain ⟨rest, rfl⟩ := h
  rw [internAll_append]
  exact growsTo_internAll _ rest

/-- Interning makes the text known, and no other. -/
theorem mem_intern {known : String} :
    known ∈ (table.intern text).2.strings ↔ known ∈ table.strings ∨ known = text := by
  rw [strings_intern]
  split
  next hKnown => exact ⟨Or.inl, fun hMem => hMem.elim id (fun hSame => hSame ▸ hKnown)⟩
  next => rw [List.mem_append, List.mem_singleton]

/-- Once a text has a place, it keeps it while the table grows. -/
theorem GrowsTo.idxOf (h : (table.intern text).2.GrowsTo later) :
    later.strings.idxOf text = table.strings.idxOf text := by
  obtain ⟨rest, hRest⟩ := h
  rw [← hRest, List.idxOf_append_of_mem (mem_intern.mpr (Or.inr rfl)), strings_intern]
  split
  next => rfl
  next hNew =>
    rw [List.idxOf_append_of_notMem hNew, List.idxOf_cons_self, List.idxOf_eq_length hNew, Nat.add_zero]

/-- A text of the table is found under its number, if there are numbers for all texts. -/
theorem text?_intern_of_mem (h : text ∈ table.strings) (hFits : table.size ≤ capacity) :
    table.text? (table.intern text).1 = some text := by
  have hBound : table.strings.idxOf text < table.strings.length := List.idxOf_lt_length_of_mem h
  have hNumber : (table.strings.idxOf text).toUInt32.toNat = table.strings.idxOf text :=
    Nat.mod_eq_of_lt (Nat.lt_of_lt_of_le hBound hFits)
  rw [text?, intern_name, hNumber, List.getElem?_eq_getElem hBound, List.getElem_idxOf]

/-- A text is found under the number that it gets, if there was one left for it. -/
theorem text?_intern (hFits : (table.intern text).2.size ≤ capacity) :
    (table.intern text).2.text? (table.intern text).1 = some text := by
  have hText := text?_intern_of_mem (mem_intern.mpr (Or.inr rfl)) hFits
  rwa [intern_name, (GrowsTo.refl (table.intern text).2).idxOf, ← intern_name] at hText

/-- A text has one name. -/
theorem eq_of_text (hName : table.text? name = some text) (hPartner : table.text? partner = some text) :
    name = partner := by
  have hSame := intern_text hName
  rw [intern_text hPartner] at hSame
  exact (congrArg Prod.fst hSame).symm

/-- A text interned in two tables has the same text under both numbers, from then on. -/
theorem sameText_intern {last final : Interner} (hFirst : (table.intern text).2.GrowsTo last)
    (hFits : last.size ≤ capacity) (hSecond : (other.intern text).2.GrowsTo final)
    (hRoom : final.size ≤ capacity) :
    SameText last final (table.intern text).1 (other.intern text).1 :=
  ⟨text, hFirst.text? (text?_intern (Nat.le_trans hFirst.size hFits)),
    hSecond.text? (text?_intern (Nat.le_trans hSecond.size hRoom))⟩

/-- In a table a text has one name, so pairing names by their text is one to one. -/
theorem oneToOne_sameText (table other : Interner) : OneToOne (SameText table other) := by
  rintro first second name partner ⟨text, hFirst, hSecond⟩ ⟨found, hName, hPartner⟩
  constructor
  · rintro rfl
    rw [hFirst] at hName
    cases hName
    exact eq_of_text hSecond hPartner
  · rintro rfl
    rw [hSecond] at hPartner
    cases hPartner
    exact eq_of_text hFirst hName

/-- Texts are what a report shows of names. -/
theorem SameText.lookup (h : SameText table other name partner) :
    table.lookup name = other.lookup partner := by
  obtain ⟨text, hName, hPartner⟩ := h
  rw [lookup_of_text hName, lookup_of_text hPartner]

/-- Names that two tables hold stand for the same text there, if they do in tables that grew from them. -/
theorem SameText.of_growsTo {last final : Interner} (h : SameText last final name partner)
    (hFirst : table.GrowsTo last) (hSecond : other.GrowsTo final) {text' : String}
    (hName : table.text? name = some text) (hPartner : other.text? partner = some text') :
    SameText table other name partner := by
  obtain ⟨found, hFound, hFound'⟩ := h
  rw [hFirst.text? hName] at hFound
  rw [hSecond.text? hPartner] at hFound'
  cases hFound
  cases hFound'
  exact ⟨text, hName, hPartner⟩

theorem subset_intern (h : table.strings ⊆ other.strings) (text : String) :
    (table.intern text).2.strings ⊆ (other.intern text).2.strings := by
  intro known hKnown
  exact mem_intern.mpr ((mem_intern.mp hKnown).imp_left (fun hMem => h hMem))

theorem subset_internAll (h : table.strings ⊆ other.strings) (texts : List String) :
    (table.internAll texts).2.strings ⊆ (other.internAll texts).2.strings := by
  induction texts generalizing table other with
  | nil => exact h
  | cons text texts ih => exact ih (subset_intern h text)

/-- A table is no larger than one that has all its texts. -/
theorem size_le_of_subset (h : table.strings ⊆ other.strings) : table.size ≤ other.size :=
  (List.subperm_of_subset table.mirrored.distinct h).length_le

end

end Interner

end IntScript
