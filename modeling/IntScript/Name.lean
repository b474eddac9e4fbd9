/-!
Names and the table that numbers them.

Every identifier of a program is replaced by a `Name`, its position in an `Interner`. The table only
grows, at its end, so a name keeps its meaning for as long as the table lives, and two names of one
table are equal exactly when they stand for the same text. The texts are stored twice, in a row from which
a name is spelled and in a map from which a text is named; that both say the same is part of the table.
-/

namespace IntScript

/-- An identifier, given by its number in an `Interner`. -/
structure Name where
  raw : UInt32
deriving DecidableEq

namespace Name

/-- The name of the empty text, which every table holds in front. -/
def empty : Name := ⟨0⟩

def inspect (name : Name) : String :=
  s!"Name({name.raw.toNat})"

end Name

/-- The texts that a new table has numbers for: the empty text, the keywords, and the output function. -/
def reservedTexts : List String :=
  ["", "fun", "var", "while", "if", "else", "return", "println"]

/-- No text has two places in the row, and the map finds the place of exactly the texts that have one. -/
structure Mirrors (numbers : List (String × UInt32)) (strings : List String) : Prop where
  distinct : strings.Nodup
  number : ∀ text number, numbers.lookup text = some number ↔
    ∃ place : Nat, strings[place]? = some text ∧ place.toUInt32 = number

namespace Mirrors

variable {numbers : List (String × UInt32)} {strings : List String} {text : String}

/-- The map alone decides whether a text is new, without a look at the row. -/
theorem lookup_eq_none_iff (h : Mirrors numbers strings) : numbers.lookup text = none ↔ text ∉ strings := by
  rw [Option.eq_none_iff_forall_ne_some]
  constructor
  · intro hNone hMem
    obtain ⟨place, hPlace⟩ := List.mem_iff_getElem?.mp hMem
    exact hNone _ ((h.number text _).mpr ⟨place, hPlace, rfl⟩)
  · intro hNew number hSome
    obtain ⟨place, hPlace, -⟩ := (h.number text number).mp hSome
    exact hNew (List.mem_of_getElem? hPlace)

theorem nil : Mirrors [] [] := ⟨List.nodup_nil, by simp⟩

/-- The map still mirrors the row after a new text has come to its end, and its place into the map. -/
theorem push (h : Mirrors numbers strings) (hNew : numbers.lookup text = none) :
    Mirrors ((text, strings.length.toUInt32) :: numbers) (strings ++ [text]) where
  distinct := by
    rw [List.nodup_append]
    refine ⟨h.distinct, by simp, fun other hOther last hLast => ?_⟩
    rw [List.mem_singleton] at hLast
    rintro rfl
    exact h.lookup_eq_none_iff.mp hNew (hLast ▸ hOther)
  number other number := by
    have hPlace (place : Nat) : (strings ++ [text])[place]? = some other ↔
        strings[place]? = some other ∨ place = strings.length ∧ text = other := by grind
    simp only [hPlace, List.lookup_cons]
    by_cases hSame : other = text
    · subst hSame
      have hUnplaced (place : Nat) : strings[place]? ≠ some other :=
        fun hPlaced => h.lookup_eq_none_iff.mp hNew (List.mem_of_getElem? hPlaced)
      simp [hUnplaced]
    · rw [beq_false_of_ne hSame]
      simpa [Ne.symm hSame] using h.number other number

end Mirrors

/-- The texts known so far, in the order of their numbers, and a map from texts to numbers. -/
structure Interner where
  strings : List String
  numbers : List (String × UInt32)
  mirrored : Mirrors numbers strings

namespace Interner

def number? (table : Interner) (text : String) : Option UInt32 :=
  table.numbers.lookup text

def withEmpty : Interner := ⟨[""], [("", 0)], Mirrors.nil.push rfl⟩

/-- Give the next number to a text that has none. -/
def push (table : Interner) (text : String) (hNew : table.number? text = none) : Interner where
  strings := table.strings ++ [text]
  numbers := (text, table.strings.length.toUInt32) :: table.numbers
  mirrored := table.mirrored.push hNew

/-- The slow path of a caller who did not find the text and then waited for the table. The map is asked once
more, for others may have put the text in while this caller waited. -/
def enter (table : Interner) (text : String) : Name × Interner :=
  match hNumber : table.number? text with
  | some number => (⟨number⟩, table)
  | none => (⟨table.strings.length.toUInt32⟩, table.push text hNumber)

/-- The name of a text. The caller has first looked for it, without holding the table, when this was as it
was `seen`, and takes the slow path only if it was not there. -/
def internAfter (table seen : Interner) (text : String) : Name × Interner :=
  match seen.number? text with
  | some number => (⟨number⟩, table)
  | none => table.enter text

/-- The name of a text, if nobody else comes between the look and the slow path. -/
def intern (table : Interner) (text : String) : Name × Interner :=
  table.internAfter table text

def internAll (table : Interner) : List String → List Name × Interner
  | [] => ([], table)
  | text :: texts =>
      let (name, table) := table.intern text
      let (names, table) := table.internAll texts
      (name :: names, table)

/-- A table that holds the reserved texts only. -/
def initial : Interner := (withEmpty.internAll reservedTexts.tail).2

/-- The text of a name, if its number is in use. -/
def text? (table : Interner) (name : Name) : Option String :=
  table.strings[name.raw.toNat]?

/-- The text of a name, with a placeholder for a number that no text has. -/
def lookup (table : Interner) (name : Name) : String :=
  (table.text? name).getD "<unknown>"

def size (table : Interner) : Nat :=
  table.strings.length

def isEmpty (table : Interner) : Bool :=
  table.size ≤ 1

/-- The texts added after the reserved ones, in the order of their numbers. -/
def added (table : Interner) : List String :=
  table.strings.drop reservedTexts.length

end Interner

end IntScript
