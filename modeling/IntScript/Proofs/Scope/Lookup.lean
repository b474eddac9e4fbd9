import IntScript.Proofs.Scope.Held

/-! Where a look-up ends. -/
namespace IntScript

namespace Table

variable {α : Type}

theorem mem_of_get? {table : Table α} {name : Name} {value : α} (h : table.get? name = some value) :
    (name, value) ∈ table := by
  obtain ⟨entry, hFind, rfl⟩ := Option.map_eq_some_iff.mp h
  have hName : entry.1 = name := by simpa using List.find?_some hFind
  exact hName ▸ List.mem_of_find?_eq_some hFind

theorem get?_cons (name other : Name) (value : α) (table : Table α) :
    get? ((name, value) :: table) other = if other = name then some value else table.get? other := by
  rw [get?, List.find?_cons]
  by_cases hSame : other = name
  · simp [hSame]
  · have hOther : (name == other) = false := by simpa using Ne.symm hSame
    simp only [hOther, hSame, if_false, get?]

theorem has_eq_isSome (table : Table α) (name : Name) :
    table.has name = (table.get? name).isSome := by
  induction table with
  | nil => rfl
  | cons entry table ih =>
      have hCons : has (entry :: table) name = (entry.1 == name || has table name) := rfl
      have hEntry : entry :: table = (entry.1, entry.2) :: table := rfl
      rw [hCons, hEntry, get?_cons, ih]
      by_cases hName : name = entry.1
      · simp [hName]
      · simp [hName, Ne.symm hName]

/-- Changing the entry of a name changes what is found under it, if anything is. -/
theorem get?_put (table : Table α) (name : Name) (value : α) (other : Name) :
    (table.put name value).get? other =
      if other = name then (table.get? name).map (fun _ => value) else table.get? other := by
  induction table with
  | nil => simp [put, get?]
  | cons entry table ih =>
      have hCons : put (entry :: table) name value =
          ((if entry.1 = name then (name, value) else entry) :: put table name value) := rfl
      have hEntry : entry :: table = (entry.1, entry.2) :: table := rfl
      rw [hCons, hEntry]
      by_cases hName : entry.1 = name
      · subst hName
        rw [if_pos rfl, get?_cons, get?_cons, get?_cons, ih]
        split <;> simp
      · rw [if_neg hName, get?_cons, get?_cons, get?_cons, ih, if_neg (Ne.symm hName)]
        by_cases hOther : other = entry.1
        · rw [if_pos hOther, if_pos hOther, if_neg (hOther ▸ hName)]
        · rw [if_neg hOther, if_neg hOther]

end Table

namespace Store

/-- A look-up from `id` that takes scopes with the property `found` ends at `owner`. -/
inductive Finds (store : Store) (found : Scope → Bool) : ScopeId → ScopeId → Prop where
  | here {id : ScopeId} {scope : Scope} (hScope : store.scope? id = some scope)
      (hFound : found scope = true) : Finds store found id id
  | outward {id parent owner : ScopeId} {scope : Scope} (hScope : store.scope? id = some scope)
      (hFound : found scope = false) (hParent : scope.parent = some parent)
      (further : Finds store found parent owner) : Finds store found id owner

variable {store : Store} {held : List ScopeId} {found : Scope → Bool}

theorem Finds.exists_scope {id owner : ScopeId} (h : store.Finds found id owner) :
    ∃ scope, store.scope? owner = some scope ∧ found scope = true := by
  induction h with
  | here hScope hFound => exact ⟨_, hScope, hFound⟩
  | outward _ _ _ _ ih => exact ih

/-- The way outward is one way, so there is one end to it. -/
theorem Finds.unique {id first second : ScopeId} (h : store.Finds found id first)
    (other : store.Finds found id second) : first = second := by
  induction h with
  | here hScope hFound =>
      cases other with
      | here => rfl
      | outward hOther hNot => simp_all
  | outward hScope hFound hParent _ ih =>
      cases other with
      | here hOther hNot => simp_all
      | outward hOther _ hOuter further =>
          rw [hScope] at hOther
          cases hOther
          rw [hParent] at hOuter
          cases hOuter
          exact ih further

/-- Parents are older than their children, so every way outward ends. -/
def Older (store : Store) : Prop :=
  ∀ id parent scope, store.scope? id = some scope → scope.parent = some parent → parent < id

/-- Scopes that are held are numbered by age. -/
theorem Holds.older (h : store.Holds held) : store.Older :=
  fun _ _ _ hScope hParent => (h.parent hScope hParent).1

/-- The way outward leads to the first scope with the property. -/
theorem Older.nearest?_eq_some_iff (h : store.Older) (id owner : ScopeId) :
    store.nearest? found id = some owner ↔ store.Finds found id owner := by
  induction id using Nat.strongRecOn with
  | ind id ih =>
      rw [nearest?]
      cases hScope : store.scope? id with
      | none =>
          simp only [reduceCtorEq, false_iff]
          intro hFinds
          cases hFinds <;> simp_all
      | some scope =>
          cases hFound : found scope with
          | true =>
              simp only [hFound, if_true, Option.some.injEq]
              constructor
              · rintro rfl
                exact Finds.here hScope hFound
              · exact fun hFinds => (Finds.here hScope hFound).unique hFinds
          | false =>
              cases hParent : scope.parent with
              | none =>
                  simp only [hFound, hParent, Bool.false_eq_true, if_false, reduceCtorEq, false_iff]
                  intro hFinds
                  cases hFinds <;> simp_all
              | some parent =>
                  have hOlder := h id parent scope hScope hParent
                  simp only [hFound, hParent, Bool.false_eq_true, if_false, hOlder, if_true]
                  rw [ih parent hOlder]
                  constructor
                  · exact fun further => Finds.outward hScope hFound hParent further
                  · intro hFinds
                    cases hFinds <;> simp_all

/-- The scopes in which a name has an entry of one of the two tables. -/
abbrev FindsEntry {α : Type} (store : Store) (table : Scope → Table α) (name : Name) :
    ScopeId → ScopeId → Prop :=
  store.Finds (fun scope => (table scope).has name)

/-- The search comes to no end only where there is nothing to be found. -/
theorem Older.nearest?_eq_none_iff (h : store.Older) (id : ScopeId) :
    store.nearest? found id = none ↔ ∀ owner, ¬ store.Finds found id owner := by
  rw [Option.eq_none_iff_forall_ne_some]
  exact forall_congr' (fun owner => not_congr (h.nearest?_eq_some_iff id owner))

/-- A look-up takes the entry of the first scope that has one, and fails only if there is none. -/
theorem Older.entry_cases {α : Type} (h : store.Older) (table : Scope → Table α) (id : ScopeId)
    (name : Name) :
    (∃ owner scope value, store.FindsEntry table name id owner ∧ store.scope? owner = some scope ∧
      (table scope).get? name = some value ∧
      ((store.nearest? (fun scope => (table scope).has name) id).bind store.scope?).bind
        (fun scope => (table scope).get? name) = some value) ∨
    ((∀ owner, ¬ store.FindsEntry table name id owner) ∧
      ((store.nearest? (fun scope => (table scope).has name) id).bind store.scope?).bind
        (fun scope => (table scope).get? name) = none) := by
  cases hNearest : store.nearest? (fun scope => (table scope).has name) id with
  | none => exact Or.inr ⟨(h.nearest?_eq_none_iff id).mp hNearest, rfl⟩
  | some owner =>
      have hFinds := (h.nearest?_eq_some_iff id owner).mp hNearest
      obtain ⟨scope, hScope, hHas⟩ := hFinds.exists_scope
      rw [Table.has_eq_isSome] at hHas
      obtain ⟨value, hValue⟩ := Option.isSome_iff_exists.mp hHas
      refine Or.inl ⟨owner, scope, value, hFinds, hScope, hValue, ?_⟩
      rw [Option.bind_some, hScope, Option.bind_some, hValue]

/-- The error is known, and it is about the name that was asked for. -/
theorem Older.getVariable_cases (h : store.Older) (id : ScopeId) (name : Name) :
    (∃ owner scope value, store.FindsEntry Scope.integers name id owner ∧
      store.scope? owner = some scope ∧ scope.integers.get? name = some value ∧
      store.getVariable id name = .ok value) ∨
    ((∀ owner, ¬ store.FindsEntry Scope.integers name id owner) ∧
      store.getVariable id name = .error (.undefinedVariable name)) := by
  rcases h.entry_cases Scope.integers id name with
    ⟨owner, scope, value, hFinds, hScope, hValue, hEntry⟩ | ⟨hNone, hEntry⟩
  · exact Or.inl ⟨owner, scope, value, hFinds, hScope, hValue, by rw [getVariable, hEntry]⟩
  · exact Or.inr ⟨hNone, by rw [getVariable, hEntry]⟩

theorem Older.getFunction_cases (h : store.Older) (id : ScopeId) (name : Name) :
    (∃ owner scope callable, store.FindsEntry Scope.functions name id owner ∧
      store.scope? owner = some scope ∧ scope.functions.get? name = some callable ∧
      store.getFunction id name = .ok callable) ∨
    ((∀ owner, ¬ store.FindsEntry Scope.functions name id owner) ∧
      store.getFunction id name = .error (.undefinedFunction name)) := by
  rcases h.entry_cases Scope.functions id name with
    ⟨owner, scope, callable, hFinds, hScope, hValue, hEntry⟩ | ⟨hNone, hEntry⟩
  · exact Or.inl ⟨owner, scope, callable, hFinds, hScope, hValue, by rw [getFunction, hEntry]⟩
  · exact Or.inr ⟨hNone, by rw [getFunction, hEntry]⟩

/-- A function that is found is in the table of a scope on the way outward. -/
theorem Older.entry_of_getFunction (h : store.Older) {id : ScopeId} {name : Name}
    {callable : Callable} (hFound : store.getFunction id name = .ok callable) :
    ∃ owner scope, store.FindsEntry Scope.functions name id owner ∧
      store.scope? owner = some scope ∧ (name, callable) ∈ scope.functions := by
  rcases h.getFunction_cases id name with
    ⟨owner, scope, found, hFinds, hScope, hEntry, hSame⟩ | ⟨-, hNone⟩
  · rw [hSame] at hFound
    cases hFound
    exact ⟨owner, scope, hFinds, hScope, Table.mem_of_get? hEntry⟩
  · rw [hNone] at hFound
    cases hFound

/-- An assignment changes one entry in one scope, or fails and changes nothing. -/
theorem Older.setVariable_cases (h : store.Older) (id : ScopeId) (name : Name) (value : Int32) :
    (∃ owner, store.FindsEntry Scope.integers name id owner ∧
      store.setVariable id name value = (.ok (), store.modify owner (fun scope =>
        { scope with integers := scope.integers.put name value }))) ∨
    ((∀ owner, ¬ store.FindsEntry Scope.integers name id owner) ∧
      store.setVariable id name value = (.error (.undefinedVariable name), store)) := by
  cases hNearest : store.nearest? (fun scope => scope.integers.has name) id with
  | none =>
      exact Or.inr ⟨(h.nearest?_eq_none_iff id).mp hNearest, by rw [Store.setVariable, hNearest]⟩
  | some owner =>
      exact Or.inl ⟨owner, (h.nearest?_eq_some_iff id owner).mp hNearest,
        by rw [Store.setVariable, hNearest]⟩

end Store

end IntScript
