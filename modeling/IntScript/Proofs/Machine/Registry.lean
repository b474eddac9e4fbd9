import IntScript.Proofs.Lexing.Numbering
import IntScript.Proofs.Machine.Start
import Mathlib.Data.List.Nodup

/-! Registries of builtins and the root scope they are declared in. A registry has a name once, in the place
where it was first registered and with the builtin that was registered last. So the names are numbered
apart, and every run gets a root that binds them all. -/
namespace IntScript

namespace Builtins

/-- Registering these builtins, one after the other, leads to a registry. The standard one has the output
function registered. -/
inductive Built : List Builtin → Builtins → Prop where
  | none : Built [] .none
  | standard : Built [Builtin.println] .standard
  | insert {registered : List Builtin} {builtins : Builtins} (earlier : Built registered builtins)
      (builtin : Builtin) : Built (registered ++ [builtin]) (builtins.insert builtin)

/-- Of two equal texts the first one stays, so one more at the end is new or nothing. -/
theorem eraseDups_concat (texts : List String) (text : String) :
    (texts ++ [text]).eraseDups =
      if text ∈ texts then texts.eraseDups else texts.eraseDups ++ [text] := by
  rw [List.eraseDups_append]
  split
  next hKnown => simp [List.removeAll, hKnown]
  next hNew => simp [List.removeAll, hNew, List.eraseDups_cons]

/-- A name that was there keeps its place, and a new one comes last. -/
theorem names_place (builtin : Builtin) (entries : List Builtin) :
    (place builtin entries).map (·.name) =
      if builtin.name ∈ entries.map (·.name) then entries.map (·.name)
      else entries.map (·.name) ++ [builtin.name] := by
  induction entries with
  | nil => rfl
  | cons entry entries ih =>
      rw [place]
      by_cases hName : entry.name = builtin.name
      · simp [hName]
      · rw [if_neg hName, List.map_cons, ih]
        simp only [List.map_cons, List.mem_cons, Ne.symm hName, false_or]
        split <;> rfl

/-- The function registered last is the one that is found. -/
theorem find?_place (builtin : Builtin) (entries : List Builtin) (name : String) :
    (place builtin entries).find? (·.name = name) =
      if builtin.name = name then some builtin else entries.find? (·.name = name) := by
  induction entries with
  | nil =>
      by_cases hName : builtin.name = name
      · simp [place, hName]
      · simp [place, hName]
  | cons entry entries ih =>
      rw [place]
      by_cases hSame : entry.name = builtin.name
      · rw [if_pos hSame]
        by_cases hName : builtin.name = name
        · simp [hName]
        · simp [hName, hSame]
      · rw [if_neg hSame]
        by_cases hName : entry.name = name
        · have hOther : builtin.name ≠ name := fun hBuiltin => hSame (hName.trans hBuiltin.symm)
          simp [hName, hOther]
        · simp [hName, ih]

section

variable {registered : List Builtin} {builtins : Builtins}

/-- The names stand in the order in which they were first registered. -/
theorem Built.names_eq (h : Built registered builtins) :
    builtins.names = (registered.map (·.name)).eraseDups := by
  induction h with
  | none => rfl
  | standard => rfl
  | insert earlier builtin ih =>
      rw [names, Builtins.insert, names_place, ← names, ih, List.map_append, List.map_singleton,
        eraseDups_concat]
      simp only [List.mem_eraseDups]

/-- No name is registered twice, however often it was given. -/
theorem Built.nodup_names (h : Built registered builtins) : builtins.names.Nodup := by
  induction h with
  | none => exact List.nodup_nil
  | standard => exact List.nodup_singleton _
  | insert earlier builtin ih =>
      rw [names, Builtins.insert, names_place, ← names]
      split
      next => exact ih
      next hNew =>
        refine List.nodup_append.mpr ⟨ih, List.nodup_singleton _, fun other hOther added hAdded => ?_⟩
        rw [List.mem_singleton] at hAdded
        rintro rfl
        exact hNew (hAdded ▸ hOther)

/-- What is found under a name was registered last under it. -/
theorem Built.find?_eq (h : Built registered builtins) (name : String) :
    builtins.entries.find? (·.name = name) = (registered.filter (·.name = name)).getLast? := by
  induction h with
  | none => rfl
  | standard =>
      by_cases hName : Builtin.println.name = name
      · simp [Builtins.standard, Builtins.insert, Builtins.none, place, hName]
      · simp [Builtins.standard, Builtins.insert, Builtins.none, place, hName]
  | insert earlier builtin ih =>
      rw [Builtins.insert, find?_place, ih, List.filter_append]
      by_cases hName : builtin.name = name
      · simp [hName]
      · simp [hName]

end

end Builtins

namespace Interner

/-- A text that has a number keeps it while the table grows. -/
theorem GrowsTo.intern_fst {table later : Interner} {text : String}
    (h : (table.intern text).2.GrowsTo later) : (later.intern text).1 = (table.intern text).1 := by
  rw [intern_name, intern_name, h.idxOf]

theorem mem_internAll {table : Interner} {texts : List String} {text : String} (h : text ∈ texts) :
    text ∈ (table.internAll texts).2.strings := by
  rw [strings_internAll, List.mem_append, unseen, List.mem_eraseDups, List.mem_filter]
  by_cases hKnown : text ∈ table.strings
  · exact Or.inl hKnown
  · exact Or.inr ⟨h, by simpa using hKnown⟩

end Interner

/-- Where no name has two entries, each entry is found. -/
theorem Table.get?_eq_some_iff {α : Type} {table : Table α} (h : (table.map Prod.fst).Nodup) (name : Name)
    (value : α) : table.get? name = some value ↔ (name, value) ∈ table := by
  refine ⟨mem_of_get?, fun hMem => ?_⟩
  induction table with
  | nil => cases hMem
  | cons entry table ih =>
      obtain ⟨other, found⟩ := entry
      rw [List.map_cons, List.nodup_cons] at h
      rw [get?_cons]
      rcases List.mem_cons.mp hMem with hSame | hLater
      · cases hSame
        exact if_pos rfl
      · have hOther : name ≠ other := by
          rintro rfl
          exact h.1 (List.mem_map.mpr ⟨_, hLater, rfl⟩)
        rw [if_neg hOther, ih h.2 hLater]

namespace Interpreter

open Interner

/-- A store with one scope, the root, which binds functions only. -/
def rootBinding (functions : Table Callable) : Store :=
  ⟨#[some { integers := [], functions, parent := none, handles := 1, children := 0 }]⟩

/-- A builtin under the number of its name. -/
def entryOf (names : Interner) (builtin : Builtin) : Name × Callable :=
  ((names.intern builtin.name).1, .builtin builtin)

/-- Declaring in the root adds one entry to its table, and the store stays one with one scope. -/
theorem declareFunction_rootBinding {functions : Table Callable} {name : Name}
    (hNew : name ∉ functions.map Prod.fst) (callable : Callable) :
    (rootBinding functions).declareFunction 0 name callable =
      (.ok (), rootBinding ((name, callable) :: functions)) := by
  have hFree : functions.has name = false := by
    rw [Table.has, List.any_eq_false]
    intro entry hEntry hName
    rw [beq_iff_eq] at hName
    exact hNew (hName ▸ List.mem_map_of_mem hEntry)
  have hScope : (rootBinding functions).scope? 0 =
      some { integers := [], functions, parent := none, handles := 1, children := 0 } := rfl
  rw [Store.declareFunction, hScope, Option.any_some, hFree, if_neg Bool.false_ne_true]
  rfl

/-- Builtins whose numbers are all different are declared, one after the other. -/
theorem declareBuiltins_rootBinding {entries : List Builtin} {functions : Table Callable}
    {names later : Interner} (hLater : (names.internAll (entries.map (·.name))).2.GrowsTo later)
    (hApart : (((entries.map (entryOf later)).reverse ++ functions).map Prod.fst).Nodup) :
    declareBuiltins (rootBinding functions) 0 entries names =
      ((.ok (), rootBinding ((entries.map (entryOf later)).reverse ++ functions)),
        (names.internAll (entries.map (·.name))).2) := by
  induction entries generalizing functions names with
  | nil => rfl
  | cons builtin entries ih =>
      have hFirst : (names.intern builtin.name).2.GrowsTo later := (growsTo_internAll _ _).trans hLater
      have hEntry : entryOf later builtin = ((names.intern builtin.name).1, .builtin builtin) := by
        rw [entryOf, hFirst.intern_fst]
      rw [List.map_cons, List.reverse_cons, List.append_assoc, List.singleton_append, hEntry] at hApart ⊢
      have hNew : (names.intern builtin.name).1 ∉ functions.map Prod.fst := by
        rw [List.map_append] at hApart
        exact (List.nodup_cons.mp (List.nodup_append.mp hApart).2.1).1
      rw [declareBuiltins]
      simp only [declareFunction_rootBinding hNew]
      exact ih hLater hApart

/-- Texts that are all in the table have different numbers. -/
theorem nodup_entryOf {entries : List Builtin} {names : Interner}
    (hApart : (entries.map (·.name)).Nodup) (hKnown : ∀ builtin ∈ entries, builtin.name ∈ names.strings)
    (hFits : names.size ≤ capacity) : ((entries.map (entryOf names)).map Prod.fst).Nodup := by
  rw [List.map_map]
  refine List.Nodup.map_on ?_ hApart.of_map
  intro builtin hBuiltin other hOther (hSame : (names.intern builtin.name).1 = (names.intern other.name).1)
  have hText := text?_intern_of_mem (hKnown builtin hBuiltin) hFits
  rw [hSame, text?_intern_of_mem (hKnown other hOther) hFits] at hText
  exact List.inj_on_of_nodup_map hApart hBuiltin hOther (Option.some.inj hText).symm

/-- A registry has each name once, in order of first registration, with what was registered last. So
whatever texts have numbers already, all its builtins are declared: the names are numbered in this order, the
root binds the number of each to its builtin, and nothing else, and programs run from there. -/
theorem declareBuiltins_built {registered : List Builtin} {builtins : Builtins}
    (hBuilt : Builtins.Built registered builtins) {names : Interner}
    (hFits : (names.internAll builtins.names).2.size ≤ capacity) :
    (builtins.names.Nodup ∧ builtins.names = (registered.map (·.name)).eraseDups ∧
      ∀ name, builtins.entries.find? (·.name = name) = (registered.filter (·.name = name)).getLast?) ∧
    ∃ functions later,
      declareBuiltins (Store.empty.root).2 0 builtins.entries names =
        ((.ok (), rootBinding functions), later) ∧
      later.strings = names.strings ++ unseen names.strings builtins.names ∧
      functions.map Prod.snd = (builtins.entries.map .builtin).reverse ∧
      (∀ name callable, functions.get? name = some callable ↔
        ∃ builtin ∈ builtins.entries, name = (later.intern builtin.name).1 ∧ callable = .builtin builtin) ∧
      (∀ builtin ∈ builtins.entries, later.text? (later.intern builtin.name).1 = some builtin.name) ∧
      ∀ (interpreter : Interpreter) (steps : Nat) (program : Block), interpreter.builtins = builtins →
        interpreter.runWithin steps program names =
          ((Machine.run steps (interpreter.start program (rootBinding functions) 0)).map
            (fun state => interpreter.finish state later), later) := by
  refine ⟨⟨hBuilt.nodup_names, hBuilt.names_eq, hBuilt.find?_eq⟩, ?_⟩
  generalize hNumbered : (names.internAll builtins.names).2 = later at hFits
  have hKnown : ∀ builtin ∈ builtins.entries, builtin.name ∈ later.strings := by
    intro builtin hBuiltin
    rw [← hNumbered]
    exact mem_internAll (List.mem_map_of_mem hBuiltin)
  have hApart : (((builtins.entries.map (entryOf later)).reverse).map Prod.fst).Nodup := by
    rw [List.map_reverse, List.nodup_reverse]
    exact nodup_entryOf hBuilt.nodup_names hKnown hFits
  have hSeeded : declareBuiltins (Store.empty.root).2 0 builtins.entries names =
      ((.ok (), rootBinding (builtins.entries.map (entryOf later)).reverse), later) := by
    have hLater : (names.internAll (builtins.entries.map (·.name))).2.GrowsTo later :=
      hNumbered ▸ GrowsTo.refl later
    rw [← List.append_nil (List.reverse _)] at hApart ⊢
    rw [← hNumbered] at hLater hApart ⊢
    exact declareBuiltins_rootBinding hLater hApart
  refine ⟨_, later, hSeeded, ?_, ?_, fun name callable => ?_, fun builtin hBuiltin => ?_, ?_⟩
  · rw [← hNumbered, strings_internAll]
  · rw [List.map_reverse, List.map_map]
    rfl
  · rw [Table.get?_eq_some_iff hApart, List.mem_reverse, List.mem_map]
    simp only [entryOf, Prod.mk.injEq, eq_comm]
  · exact text?_intern_of_mem (hKnown builtin hBuiltin) hFits
  · rintro interpreter steps program rfl
    exact runWithin_eq hSeeded program steps

/-- The output function is registered anew, a name twice and the empty name once, and two of the names have
numbers before. -/
theorem declareBuiltins_built_registeredTwice :
    let first := Builtin.ofFunction "f" (fun _ => 1)
    let last := Builtin.ofFunction "f" (fun arguments => arguments.foldl (· + ·) 0)
    let silent := Builtin.ofFunction "println" (fun _ => 2)
    let nameless := Builtin.ofFunction "" (fun _ => 3)
    let names := (Interner.initial.internAll ["x", "f"]).2
    ∃ builtins : Builtins, Builtins.Built [Builtin.println, first, silent, nameless, last] builtins ∧
      (names.internAll builtins.names).2.size ≤ capacity ∧
      builtins.names = ["println", "f", ""] ∧
      builtins.entries.find? (·.name = "f") = some last ∧
      ∃ functions later,
        declareBuiltins (Store.empty.root).2 0 builtins.entries names =
          ((.ok (), rootBinding functions), later) ∧
        functions.map Prod.snd = [.builtin nameless, .builtin last, .builtin silent] := by
  intro first last silent nameless names
  let builtins := (((Builtins.standard.insert first).insert silent).insert nameless).insert last
  have hBuilt : Builtins.Built [Builtin.println, first, silent, nameless, last] builtins :=
    (((Builtins.Built.standard.insert first).insert silent).insert nameless).insert last
  have hFits : (names.internAll builtins.names).2.size ≤ capacity := by decide
  obtain ⟨⟨-, hNames, hFound⟩, functions, later, hSeeded, -, hFunctions, -⟩ :=
    declareBuiltins_built hBuilt hFits
  exact ⟨builtins, hBuilt, hFits, hNames, hFound "f", functions, later, hSeeded, hFunctions⟩

end Interpreter

end IntScript
