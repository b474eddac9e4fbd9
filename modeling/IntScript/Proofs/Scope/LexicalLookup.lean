import IntScript.Proofs.Scope.Requests

/-! Scopes as a store with lexical look-up: what a look-up finds is decided by the nearest scope that
declares the name, and an operation changes what is found from exactly those scopes for which it changes
the nearest declaration. -/
namespace IntScript

namespace Store

variable {α β : Type} {store : Store} {table : Scope → Table α}

/-- The entry that a look-up in one of the tables takes. -/
def lookup? (store : Store) (table : Scope → Table α) (id : ScopeId) (name : Name) : Option α :=
  ((store.nearest? (fun scope => (table scope).has name) id).bind store.scope?).bind
    (fun scope => (table scope).get? name)

/-- A look-up takes the entry of the scope itself, or else what its parent finds. -/
theorem lookup?_eq (store : Store) (table : Scope → Table α) (id : ScopeId) (name : Name) :
    store.lookup? table id name = (store.scope? id).bind (fun scope =>
      ((table scope).get? name).or (scope.parent.bind (fun parent =>
        if parent < id then store.lookup? table parent name else none))) := by
  rw [lookup?, nearest?]
  cases hScope : store.scope? id with
  | none => rfl
  | some scope =>
      rw [Option.bind_some]
      cases hEntry : (table scope).get? name with
      | some value =>
          have hHas : (table scope).has name = true := by rw [Table.has_eq_isSome, hEntry]; rfl
          simp only [hHas, if_true, Option.bind_some, hScope, hEntry, Option.some_or]
      | none =>
          have hHas : (table scope).has name = false := by rw [Table.has_eq_isSome, hEntry]; rfl
          simp only [hHas, Bool.false_eq_true, if_false, Option.none_or]
          cases hParent : scope.parent with
          | none => rfl
          | some parent =>
              by_cases hOlder : parent < id
              · simp only [hOlder, if_true, Option.bind_some]
                rfl
              · simp only [hOlder, if_false, Option.bind_some, Option.bind_none]

/-- The recursion of a look-up: the scope itself, and then its parent. -/
theorem Older.lookup?_eq (h : store.Older) (table : Scope → Table α) (id : ScopeId) (name : Name) :
    store.lookup? table id name = (store.scope? id).bind (fun scope =>
      ((table scope).get? name).or
        (scope.parent.bind (fun parent => store.lookup? table parent name))) := by
  rw [Store.lookup?_eq]
  cases hScope : store.scope? id with
  | none => rfl
  | some scope =>
      cases hParent : scope.parent with
      | none => simp only [Option.bind_some, hParent, Option.bind_none]
      | some parent => simp only [Option.bind_some, hParent, if_pos (h id parent scope hScope hParent)]

/-- What a look-up takes depends on the tables and the parents of scopes that are not younger. -/
theorem lookup?_congr {later : Store} {id : ScopeId} (name : Name)
    (h : ∀ other ≤ id, (later.scope? other).map (fun scope => (table scope, scope.parent)) =
      (store.scope? other).map (fun scope => (table scope, scope.parent))) :
    later.lookup? table id name = store.lookup? table id name := by
  induction id using Nat.strongRecOn with
  | ind id ih =>
      have hHere := h id (Nat.le_refl id)
      rw [lookup?_eq, lookup?_eq]
      cases hScope : store.scope? id with
      | none =>
          rw [hScope, Option.map_none, Option.map_eq_none_iff] at hHere
          rw [hHere, Option.bind_none, Option.bind_none]
      | some scope =>
          rw [hScope, Option.map_some, Option.map_eq_some_iff] at hHere
          obtain ⟨now, hNow, hSame⟩ := hHere
          obtain ⟨hTable, hParent⟩ := Prod.mk.inj hSame
          rw [hNow, Option.bind_some, Option.bind_some, hTable, hParent]
          cases scope.parent with
          | none => rfl
          | some parent =>
              rw [Option.bind_some, Option.bind_some]
              split
              next hOlder =>
                have hNear (other : ScopeId) (hOther : other ≤ parent) : other ≤ id :=
                  Nat.le_trans hOther (Nat.le_of_lt hOlder)
                rw [ih parent hOlder (fun other hOther => h other (hNear other hOther))]
              next => rfl

/-- A look-up finds what the nearest declaration says. -/
theorem Older.lookup?_eq_some_iff (h : store.Older) (table : Scope → Table α) (id : ScopeId) (name : Name)
    (value : α) :
    store.lookup? table id name = some value ↔
      ∃ owner scope, store.FindsEntry table name id owner ∧ store.scope? owner = some scope ∧
        (table scope).get? name = some value := by
  rcases h.entry_cases table id name with
    ⟨owner, scope, found, hFinds, hScope, hFound, hEntry⟩ | ⟨hNone, hEntry⟩
  · rw [lookup?, hEntry]
    constructor
    · intro hSame
      exact ⟨owner, scope, hFinds, hScope, hFound.trans hSame⟩
    · rintro ⟨other, inner, hOther, hInner, hValue⟩
      obtain rfl := hFinds.unique hOther
      rw [hScope] at hInner
      cases hInner
      rw [← hFound, hValue]
  · rw [lookup?, hEntry]
    constructor
    · nofun
    · rintro ⟨owner, -, hFinds, -, -⟩
      exact absurd hFinds (hNone owner)

/-- It finds nothing only if no scope outward declares the name. -/
theorem Older.lookup?_eq_none_iff (h : store.Older) (table : Scope → Table α) (id : ScopeId) (name : Name) :
    store.lookup? table id name = none ↔ ∀ owner, ¬ store.FindsEntry table name id owner := by
  rcases h.entry_cases table id name with
    ⟨owner, scope, found, hFinds, hScope, hFound, hEntry⟩ | ⟨hNone, hEntry⟩
  · rw [lookup?, hEntry]
    exact ⟨nofun, fun hNone => absurd hFinds (hNone owner)⟩
  · rw [lookup?, hEntry]
    exact ⟨fun _ => hNone, fun _ => rfl⟩

def answer (missing : ScopeError) : Option α → Except ScopeError α
  | none => .error missing
  | some value => .ok value

theorem answer_eq_ok_iff {missing : ScopeError} {entry : Option α} {value : α} :
    answer missing entry = .ok value ↔ entry = some value := by
  cases entry <;> simp [answer]

theorem answer_eq_error_iff {missing error : ScopeError} {entry : Option α} :
    answer missing entry = .error error ↔ entry = none ∧ missing = error := by
  cases entry <;> simp [answer]

/-- Both kinds of look-up are the same one in different tables, and differ in their error. -/
theorem getVariable_eq (store : Store) (id : ScopeId) (name : Name) :
    store.getVariable id name =
      answer (.undefinedVariable name) (store.lookup? Scope.integers id name) := by
  cases hFound : store.lookup? Scope.integers id name with
  | none =>
      rw [lookup?] at hFound
      rw [getVariable, hFound, answer]
  | some entry =>
      rw [lookup?] at hFound
      rw [getVariable, hFound, answer]

theorem getFunction_eq (store : Store) (id : ScopeId) (name : Name) :
    store.getFunction id name =
      answer (.undefinedFunction name) (store.lookup? Scope.functions id name) := by
  cases hFound : store.lookup? Scope.functions id name with
  | none =>
      rw [lookup?] at hFound
      rw [getFunction, hFound, answer]
  | some entry =>
      rw [lookup?] at hFound
      rw [getFunction, hFound, answer]

section

variable {owner : ScopeId} {f : Scope → Scope}

theorem Older.modify (h : store.Older) (hParent : ∀ scope, (f scope).parent = scope.parent) :
    (store.modify owner f).Older := by
  intro id parent scope hScope hOuter
  obtain ⟨old, hOld, rfl⟩ := scope_before_modify hScope
  refine h id parent old hOld (Eq.trans ?_ hOuter)
  split
  next => exact (hParent old).symm
  next => rfl

/-- After a change to one scope a look-up takes what it took before, unless it ends in that scope, at an
entry that was changed. The change may not take entries away. -/
theorem Older.lookup?_modify (h : store.Older) (hParent : ∀ scope, (f scope).parent = scope.parent)
    {name : Name} (hKept : ∀ scope, store.scope? owner = some scope →
      (table (f scope)).get? name = none → (table scope).get? name = none) {id : ScopeId}
    (hSame : (store.modify owner f).FindsEntry table name id owner → ∀ scope,
      store.scope? owner = some scope → (table (f scope)).get? name = (table scope).get? name) :
    (store.modify owner f).lookup? table id name = store.lookup? table id name := by
  have hLater : (store.modify owner f).Older := h.modify hParent
  induction id using Nat.strongRecOn with
  | ind id ih =>
      rw [hLater.lookup?_eq, h.lookup?_eq]
      cases hScope : store.scope? id with
      | none =>
          have hNone : (store.modify owner f).scope? id = none := by
            rw [scope?_modify]
            split
            next hOwner => rw [← hOwner, hScope, Option.map_none]
            next => exact hScope
          rw [hNone]
          rfl
      | some scope =>
          obtain ⟨now, hNow, hChanged⟩ : ∃ now, (store.modify owner f).scope? id = some now ∧
              now = if id = owner then f scope else scope := ⟨_, scope_after_modify hScope, rfl⟩
          have hOuter : now.parent = scope.parent := by
            rw [hChanged]
            split
            next => exact hParent scope
            next => rfl
          rw [hNow, Option.bind_some, Option.bind_some, hOuter]
          cases hEntry : (table now).get? name with
          | some value =>
              have hHas : (table now).has name = true := by rw [Table.has_eq_isSome, hEntry]; rfl
              have hOld : (table scope).get? name = some value := by
                rw [hChanged] at hEntry
                split at hEntry
                next hOwner =>
                  subst hOwner
                  exact (hSame (.here hNow hHas) scope hScope).symm.trans hEntry
                next => exact hEntry
              rw [hOld, Option.some_or, Option.some_or]
          | none =>
              have hHas : (table now).has name = false := by rw [Table.has_eq_isSome, hEntry]; rfl
              have hOld : (table scope).get? name = none := by
                rw [hChanged] at hEntry
                split at hEntry
                next hOwner => exact hKept scope (hOwner ▸ hScope) hEntry
                next => exact hEntry
              rw [hOld, Option.none_or, Option.none_or]
              cases hAround : scope.parent with
              | none => rfl
              | some parent =>
                  refine ih parent (h id parent scope hScope hAround) (fun hFinds => hSame ?_)
                  exact .outward hNow hHas (hOuter.trans hAround) hFinds

/-- A change that leaves the entries of a table alone leaves alone what is found in it. -/
theorem Older.lookup?_modify_of_same (h : store.Older) (hParent : ∀ scope, (f scope).parent = scope.parent)
    (hTable : ∀ scope, table (f scope) = table scope) (id : ScopeId) (name : Name) :
    (store.modify owner f).lookup? table id name = store.lookup? table id name :=
  h.lookup?_modify hParent (fun scope _ hNone => hTable scope ▸ hNone)
    (fun _ scope _ => by rw [hTable])

/-- A look-up that ends in the changed scope takes the entry that this has now. -/
theorem Older.lookup?_modify_of_finds (h : store.Older) (hParent : ∀ scope, (f scope).parent = scope.parent)
    {name : Name} {value : α} (hEntry : ∀ scope, store.scope? owner = some scope →
      (table (f scope)).get? name = some value) {id : ScopeId}
    (hFinds : (store.modify owner f).FindsEntry table name id owner) :
    (store.modify owner f).lookup? table id name = some value := by
  refine ((h.modify hParent).lookup?_eq_some_iff table id name value).mpr ?_
  obtain ⟨now, hNow, -⟩ := hFinds.exists_scope
  obtain ⟨old, hOld, rfl⟩ := scope_before_modify hNow
  rw [if_pos rfl] at hNow
  exact ⟨owner, f old, hFinds, hNow, hEntry old hOld⟩

end

/-- What looking a name up comes to: the entry in the nearest scope that declares the name, and an error
exactly if there is no such scope. -/
structure Looks (store : Store) (table : Scope → Table α)
    (look : Store → ScopeId → Name → Except ScopeError α) (missing : Name → ScopeError) : Prop where
  found : ∀ start name value, look store start name = .ok value ↔
    ∃ owner scope, store.FindsEntry table name start owner ∧ store.scope? owner = some scope ∧
      (table scope).get? name = some value
  failed : ∀ start name error, look store start name = .error error ↔
    (∀ owner, ¬ store.FindsEntry table name start owner) ∧ missing name = error

/-- The way outward from a scope comes to `last`, and none of the scopes before `last` declares the name: a
declaration of it in `last` is the nearest one. -/
inductive Unshadowed (store : Store) (table : Scope → Table α) (name : Name) : ScopeId → ScopeId → Prop where
  | here {id : ScopeId} {scope : Scope} (hScope : store.scope? id = some scope) :
      Unshadowed store table name id id
  | outward {id parent last : ScopeId} {scope : Scope} (hScope : store.scope? id = some scope)
      (hNot : (table scope).has name = false) (hParent : scope.parent = some parent)
      (further : Unshadowed store table name parent last) : Unshadowed store table name id last

/-- What declaring a name in a scope comes to. It fails exactly if that scope has declared the name
already, and then nothing has changed. Otherwise the scope declares the name from now on, and its
declaration is the nearest one from exactly the scopes between which and it nothing declared the name
before. From these the new value is found, and from everywhere else, and under every other name, what was
found before. -/
structure Declares (store : Store) (table : Scope → Table α)
    (look : Store → ScopeId → Name → Except ScopeError α) (id : ScopeId) (name : Name) (value : α)
    (duplicate : ScopeError) (outcome : Except ScopeError Unit × Store) : Prop where
  answers : outcome.1 = .ok () ∨ outcome = (.error duplicate, store)
  refused : outcome.1 = .error duplicate ↔
    ∃ scope, store.scope? id = some scope ∧ (table scope).has name = true
  declared : outcome.1 = .ok () → store.isLive id = true →
    outcome.2.FindsEntry table name id id ∧ look outcome.2 id name = .ok value
  nearest : outcome.1 = .ok () → ∀ start,
    outcome.2.FindsEntry table name start id ↔ store.Unshadowed table name start id
  seen : outcome.1 = .ok () → ∀ start, outcome.2.FindsEntry table name start id →
    look outcome.2 start name = .ok value
  unseen : outcome.1 = .ok () → ∀ start other,
    ¬ (other = name ∧ outcome.2.FindsEntry table name start id) →
      look outcome.2 start other = look store start other

/-- What giving a new value to a variable comes to. It fails exactly if the variable cannot be read, and
then nothing has changed. Otherwise the new value is found from the scopes with the same nearest
declaration as the scope in question, and everything else is found as before. -/
structure Assigns (store : Store) (id : ScopeId) (name : Name) (value : Int32)
    (outcome : Except ScopeError Unit × Store) : Prop where
  answers : outcome.1 = .ok () ∨ outcome = (.error (.undefinedVariable name), store)
  refused : outcome.1 = .error (.undefinedVariable name) ↔ ∃ error, store.getVariable id name = .error error
  assigned : outcome.1 = .ok () → ∃ owner, store.FindsEntry Scope.integers name id owner ∧
    (∀ start, store.FindsEntry Scope.integers name start owner →
      outcome.2.getVariable start name = .ok value) ∧
    ∀ start other, ¬ (other = name ∧ store.FindsEntry Scope.integers name start owner) →
      outcome.2.getVariable start other = store.getVariable start other

section

variable {look : Store → ScopeId → Name → Except ScopeError α} {missing : Name → ScopeError}

/-- The two sides of a look-up, from the equation for its recursion. -/
theorem Older.looks (h : store.Older)
    (hLook : ∀ start name, look store start name = answer (missing name) (store.lookup? table start name)) :
    store.Looks table look missing := by
  constructor
  · intro start name value
    rw [hLook, answer_eq_ok_iff, h.lookup?_eq_some_iff]
  · intro start name error
    rw [hLook, answer_eq_error_iff, h.lookup?_eq_none_iff]

section

variable {name : Name} {owner start : ScopeId} {f : Scope → Scope}

/-- Once a scope declares a name, a look-up that comes to it ends there. -/
theorem Unshadowed.findsEntry_modify {last : ScopeId} (h : store.Unshadowed table name start last)
    (hLast : last = owner) (hHas : ∀ scope, (table (f scope)).has name = true) :
    (store.modify owner f).FindsEntry table name start owner := by
  induction h with
  | @here id scope hScope =>
      subst hLast
      refine Finds.here (scope_after_modify hScope) ?_
      rw [if_pos rfl]
      exact hHas scope
  | @outward id parent last scope hScope hNot hAround _ ih =>
      have hNow : (store.modify owner f).scope? id = some (if id = owner then f scope else scope) :=
        scope_after_modify hScope
      split at hNow
      next hHere => exact hHere ▸ Finds.here (hHere ▸ hNow) (hHas scope)
      next hAway => exact .outward hNow hNot hAround (ih hLast)

/-- A look-up that ends in the scope changed has passed no scope that declared the name before. -/
theorem Finds.unshadowed {last : ScopeId} (h : (store.modify owner f).FindsEntry table name start last)
    (hHas : ∀ scope, (table (f scope)).has name = true) : store.Unshadowed table name start last := by
  induction h with
  | here hNow =>
      obtain ⟨old, hOld, -⟩ := scope_before_modify hNow
      exact .here hOld
  | outward hNow hNot hAround _ ih =>
      obtain ⟨old, hOld, rfl⟩ := scope_before_modify hNow
      split at hNot
      next =>
        rw [hHas] at hNot
        cases hNot
      next hAway =>
        rw [if_neg hAway] at hAround
        exact .outward hOld hNot hAround ih

end

/-- A declaration puts a new entry in front of the table of the scope, unless there is one already. -/
theorem Older.declares (h : store.Older)
    (hLook : ∀ store start name,
      look store start name = answer (missing name) (store.lookup? table start name))
    {id : ScopeId} {name : Name} {value : α} {duplicate : ScopeError} {f : Scope → Scope}
    {outcome : Except ScopeError Unit × Store} (hParent : ∀ scope, (f scope).parent = scope.parent)
    (hTable : ∀ scope, table (f scope) = (name, value) :: table scope)
    (hOutcome : outcome = if (store.scope? id).any (fun scope => (table scope).has name) then
      (.error duplicate, store) else (.ok (), store.modify id f)) :
    store.Declares table look id name value duplicate outcome := by
  have hDeclared : (store.scope? id).any (fun scope => (table scope).has name) = true ↔
      ∃ scope, store.scope? id = some scope ∧ (table scope).has name = true :=
    Option.any_eq_true _ _
  split at hOutcome
  next hHas =>
    subst hOutcome
    exact {
      answers := Or.inr rfl
      refused := ⟨fun _ => hDeclared.mp hHas, fun _ => rfl⟩
      declared := nofun
      nearest := nofun
      seen := nofun
      unseen := nofun }
  next hHas =>
    subst hOutcome
    have hEntry (scope : Scope) : (table (f scope)).get? name = some value := by
      rw [hTable, Table.get?_cons, if_pos rfl]
    have hDeclares (scope : Scope) : (table (f scope)).has name = true := by
      rw [Table.has_eq_isSome, hEntry]
      rfl
    have hSeen (start : ScopeId) (hFinds : (store.modify id f).FindsEntry table name start id) :
        look (store.modify id f) start name = .ok value := by
      rw [hLook, answer_eq_ok_iff]
      exact h.lookup?_modify_of_finds hParent (fun scope _ => hEntry scope) hFinds
    refine {
      answers := Or.inl rfl
      refused := ⟨nofun, fun hSome => absurd (hDeclared.mpr hSome) hHas⟩
      declared := fun _ hLive => ?_
      nearest := fun _ start => ⟨fun hFinds => hFinds.unshadowed hDeclares,
        fun hNearest => hNearest.findsEntry_modify rfl hDeclares⟩
      seen := fun _ => hSeen
      unseen := fun _ start other hAway => ?_ }
    · obtain ⟨scope, hScope⟩ := Option.isSome_iff_exists.mp hLive
      have hHere : store.Unshadowed table name id id := .here hScope
      have hFinds := hHere.findsEntry_modify rfl hDeclares
      exact ⟨hFinds, hSeen id hFinds⟩
    · rw [hLook, hLook]
      refine congrArg (answer (missing other)) (h.lookup?_modify hParent (fun scope _ hNone => ?_) ?_)
      · rw [hTable, Table.get?_cons] at hNone
        split at hNone
        next => cases hNone
        next => exact hNone
      · intro hFinds scope _
        rw [hTable, Table.get?_cons, if_neg]
        rintro rfl
        exact hAway ⟨rfl, hFinds⟩

end

/-- A look-up ends where it did if each scope on the way is still there. -/
theorem Finds.of_kept {later : Store} {found : Scope → Bool} {start last : ScopeId}
    (h : store.Finds found start last)
    (hKept : ∀ id scope, store.scope? id = some scope → ∃ now, later.scope? id = some now ∧
      now.parent = scope.parent ∧ found now = found scope) : later.Finds found start last := by
  induction h with
  | here hScope hFound =>
      obtain ⟨now, hNow, -, hSame⟩ := hKept _ _ hScope
      exact .here hNow (hSame.trans hFound)
  | outward hScope hFound hParent _ ih =>
      obtain ⟨now, hNow, hOuter, hSame⟩ := hKept _ _ hScope
      exact .outward hNow (hSame.trans hFound) (hOuter.trans hParent) ih

/-- Giving a new value to a variable does not change which scopes declare what. -/
theorem findsEntry_put_iff {owner : ScopeId} {name other : Name} {value : Int32} {start last : ScopeId} :
    (store.modify owner (fun scope =>
      { scope with integers := scope.integers.put name value })).FindsEntry Scope.integers other start last ↔
      store.FindsEntry Scope.integers other start last := by
  constructor
  · intro h
    refine h.of_kept (fun id now hNow => ?_)
    obtain ⟨old, hOld, rfl⟩ := scope_before_modify hNow
    refine ⟨old, hOld, ?_, ?_⟩
    · split <;> rfl
    · split
      next => exact (Table.has_put old.integers name value other).symm
      next => rfl
  · intro h
    refine h.of_kept (fun id scope hScope => ?_)
    rw [scope?_modify]
    split
    next hSame =>
      rw [← hSame, hScope]
      exact ⟨_, rfl, rfl, Table.has_put scope.integers name value other⟩
    next => exact ⟨scope, hScope, rfl, rfl⟩

/-- The value is put where the look-up would have found the old one. -/
theorem Older.assigns (h : store.Older) (id : ScopeId) (name : Name) (value : Int32) :
    store.Assigns id name value (store.setVariable id name value) := by
  have hRead : (∃ error, store.getVariable id name = .error error) ↔
      ∀ owner, ¬ store.FindsEntry Scope.integers name id owner := by
    simp only [getVariable_eq, answer_eq_error_iff, h.lookup?_eq_none_iff, exists_and_left, exists_eq',
      and_true]
  rcases h.setVariable_cases id name value with ⟨owner, hFinds, hSet⟩ | ⟨hNone, hSet⟩
  · rw [hSet]
    refine ⟨Or.inl rfl, ⟨nofun, fun hError => absurd hFinds (hRead.mp hError owner)⟩, fun _ =>
      ⟨owner, hFinds, fun start hStart => ?_, fun start other hAway => ?_⟩⟩
    · obtain ⟨old, hOld, hHas⟩ := hFinds.exists_scope
      rw [getVariable_eq, answer_eq_ok_iff]
      refine h.lookup?_modify_of_finds ?_ (fun scope hScope => ?_) (findsEntry_put_iff.mpr hStart)
      · exact fun _ => rfl
      rw [hOld] at hScope
      cases hScope
      rw [Table.has_eq_isSome] at hHas
      obtain ⟨entry, hEntry⟩ := Option.isSome_iff_exists.mp hHas
      rw [Table.get?_put, if_pos rfl, hEntry, Option.map_some]
    · rw [getVariable_eq, getVariable_eq]
      refine congrArg (answer _) (h.lookup?_modify ?_ (fun scope _ hNone => ?_) ?_)
      · exact fun _ => rfl
      · rw [Table.get?_put] at hNone
        split at hNone
        next hSame => rwa [Option.map_eq_none_iff, ← hSame] at hNone
        next => exact hNone
      · intro hEnds scope _
        rw [Table.get?_put, if_neg]
        rintro rfl
        exact hAway ⟨rfl, findsEntry_put_iff.mp hEnds⟩
  · rw [hSet]
    exact ⟨Or.inr rfl, ⟨fun _ => hRead.mpr hNone, fun _ => rfl⟩, nofun⟩

/-- Variables are declared in the scope itself, whatever is declared further out. -/
theorem Older.declareVariable_declares (h : store.Older) (id : ScopeId) (name : Name) (value : Int32) :
    store.Declares Scope.integers getVariable id name value (.duplicateVariable name)
      (store.declareVariable id name value) := by
  refine h.declares getVariable_eq ?_ ?_ rfl <;> exact fun _ => rfl

theorem Older.declareFunction_declares (h : store.Older) (id : ScopeId) (name : Name)
    (callable : Callable) :
    store.Declares Scope.functions getFunction id name callable (.duplicateFunction name)
      (store.declareFunction id name callable) := by
  refine h.declares getFunction_eq ?_ ?_ rfl <;> exact fun _ => rfl

/-- What is done with variables does not matter to functions. -/
theorem Older.getFunction_kept (h : store.Older) (id : ScopeId) (name : Name) (value : Int32)
    (start : ScopeId) (other : Name) :
    (store.declareVariable id name value).2.getFunction start other = store.getFunction start other ∧
      (store.setVariable id name value).2.getFunction start other = store.getFunction start other := by
  simp only [getFunction_eq]
  constructor
  · rw [declareVariable]
    split
    next => rfl
    next => refine congrArg _ (h.lookup?_modify_of_same ?_ ?_ start other) <;> exact fun _ => rfl
  · rw [setVariable]
    split
    next => rfl
    next => refine congrArg _ (h.lookup?_modify_of_same ?_ ?_ start other) <;> exact fun _ => rfl

/-- What is done with functions does not matter to variables. -/
theorem Older.getVariable_kept (h : store.Older) (id : ScopeId) (name : Name) (callable : Callable)
    (start : ScopeId) (other : Name) :
    (store.declareFunction id name callable).2.getVariable start other = store.getVariable start other := by
  rw [getVariable_eq, getVariable_eq, declareFunction]
  split
  next => rfl
  next => refine congrArg _ (h.lookup?_modify_of_same ?_ ?_ start other) <;> exact fun _ => rfl

/-- After any requests about scopes with handles, what is done next in a scope changes what is found only
from the scopes that share its nearest declaration, or come to have theirs in it, and it changes nothing
at all if it fails. Variables and functions do not matter to each other. -/
theorem lexical_serveAll {requests : List Request} (hPermits : Ledger.empty.PermitsAll requests)
    (id : ScopeId) (name : Name) :
    let store := Store.empty.serveAll requests
    store.Looks Scope.integers getVariable .undefinedVariable ∧
    store.Looks Scope.functions getFunction .undefinedFunction ∧
    (∀ value, store.Declares Scope.integers getVariable id name value (.duplicateVariable name)
        (store.declareVariable id name value) ∧
      ∀ start other, (store.declareVariable id name value).2.getFunction start other =
        store.getFunction start other) ∧
    (∀ value, store.Assigns id name value (store.setVariable id name value) ∧
      ∀ start other, (store.setVariable id name value).2.getFunction start other =
        store.getFunction start other) ∧
    ∀ callable, store.Declares Scope.functions getFunction id name callable (.duplicateFunction name)
        (store.declareFunction id name callable) ∧
      ∀ start other, (store.declareFunction id name callable).2.getVariable start other =
        store.getVariable start other := by
  intro store
  have hOlder : store.Older := (accounts_serveAll hPermits).toCounts.storeOlder
  refine ⟨hOlder.looks (getVariable_eq store), hOlder.looks (getFunction_eq store), fun value => ?_,
    fun value => ?_, fun callable => ?_⟩
  · exact ⟨hOlder.declareVariable_declares id name value,
      fun start other => (hOlder.getFunction_kept id name value start other).1⟩
  · exact ⟨hOlder.assigns id name value,
      fun start other => (hOlder.getFunction_kept id name value start other).2⟩
  · exact ⟨hOlder.declareFunction_declares id name callable,
      hOlder.getVariable_kept id name callable⟩

/-- The root declares a variable that one of its grandchildren declares again, and the scope in question
stands between them. -/
theorem lexical_serveAll_shadowed :
    let requests : List Request :=
      [.root, .declareVariable 0 ⟨8⟩ 1, .child 0, .child 1, .declareVariable 2 ⟨8⟩ 5, .child 0]
    let store := Store.empty.serveAll requests
    let id : ScopeId := 1
    let name : Name := ⟨8⟩
    Ledger.empty.PermitsAll requests ∧
    store.Looks Scope.integers getVariable .undefinedVariable ∧
    store.Looks Scope.functions getFunction .undefinedFunction ∧
    (∀ value, store.Declares Scope.integers getVariable id name value (.duplicateVariable name)
        (store.declareVariable id name value) ∧
      ∀ start other, (store.declareVariable id name value).2.getFunction start other =
        store.getFunction start other) ∧
    (∀ value, store.Assigns id name value (store.setVariable id name value) ∧
      ∀ start other, (store.setVariable id name value).2.getFunction start other =
        store.getFunction start other) ∧
    ∀ callable, store.Declares Scope.functions getFunction id name callable (.duplicateFunction name)
        (store.declareFunction id name callable) ∧
      ∀ start other, (store.declareFunction id name callable).2.getVariable start other =
        store.getVariable start other := by
  have hPermits : Ledger.empty.PermitsAll
      [.root, .declareVariable 0 ⟨8⟩ 1, .child 0, .child 1, .declareVariable 2 ⟨8⟩ 5, .child 0] := by
    decide
  exact ⟨hPermits, lexical_serveAll hPermits 1 ⟨8⟩⟩

end Store

end IntScript
