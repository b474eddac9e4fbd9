import IntScript.Proofs.Pruning
import IntScript.Proofs.Renaming.Scopes

/-! Two stores of which only the first one has scopes for the arguments of calls. Otherwise their scopes
bind the same, up to statements left out of the bodies of functions. -/
namespace IntScript

/-- A scope that is held in the first store, and the scope of the second store from which the same is
seen: its own counterpart, or for arguments, which have none, that of the call. -/
inductive Tier where
  | scope (id image : ScopeId)
  | arguments (id image : ScopeId)

namespace Tier

def id : Tier → ScopeId
  | scope id _ | arguments id _ => id

def own? : Tier → Option ScopeId
  | scope _ image => some image
  | arguments _ _ => none

end Tier

abbrev Tiers := List Tier

namespace Tiers

def ids (tiers : Tiers) : List ScopeId :=
  tiers.map Tier.id

def images (tiers : Tiers) : List ScopeId :=
  tiers.filterMap Tier.own?

/-- The second scope is the counterpart of the first. -/
def Pairs (tiers : Tiers) (id image : ScopeId) : Prop :=
  .scope id image ∈ tiers

/-- The same is seen from both scopes. -/
def Shows (tiers : Tiers) (id image : ScopeId) : Prop :=
  .scope id image ∈ tiers ∨ .arguments id image ∈ tiers

theorem Pairs.outward {tiers : Tiers} {id image : ScopeId} (h : tiers.Pairs id image) (tier : Tier) :
    Pairs (tier :: tiers) id image :=
  List.mem_cons_of_mem tier h

/-- What a scope shows is settled by the tier on top, or by those below it. -/
theorem Shows.cases {tier : Tier} {outer : Tiers} {id image : ScopeId}
    (h : Shows (tier :: outer) id image) :
    tier = .scope id image ∨ tier = .arguments id image ∨ outer.Shows id image := by
  rcases h with hScope | hArguments
  · rcases List.mem_cons.mp hScope with hHere | hFurther
    · exact Or.inl hHere.symm
    · exact Or.inr (Or.inr (Or.inl hFurther))
  · rcases List.mem_cons.mp hArguments with hHere | hFurther
    · exact Or.inr (Or.inl hHere.symm)
    · exact Or.inr (Or.inr (Or.inr hFurther))

theorem Pairs.shows {tiers : Tiers} {id image : ScopeId} (h : tiers.Pairs id image) :
    tiers.Shows id image :=
  Or.inl h

theorem Pairs.mem_ids {tiers : Tiers} {id image : ScopeId} (h : tiers.Pairs id image) :
    id ∈ tiers.ids :=
  List.mem_map.mpr ⟨_, h, rfl⟩

theorem Pairs.mem_images {tiers : Tiers} {id image : ScopeId} (h : tiers.Pairs id image) :
    image ∈ tiers.images :=
  List.mem_filterMap.mpr ⟨_, h, rfl⟩

theorem Shows.mem_ids {tiers : Tiers} {id image : ScopeId} (h : tiers.Shows id image) :
    id ∈ tiers.ids := by
  rcases h with hScope | hArguments
  · exact List.mem_map.mpr ⟨_, hScope, rfl⟩
  · exact List.mem_map.mpr ⟨_, hArguments, rfl⟩

end Tiers

theorem oneToOne_eq : OneToOne Eq := by
  rintro first second other partner rfl rfl
  exact Iff.rfl

/-- The same builtin, or the same function up to statements left out, declared in paired scopes. -/
inductive Callable.Prunes (homes : ScopeId → ScopeId → Prop) : Callable → Callable → Prop where
  | builtin (builtin : Builtin) : Prunes homes (.builtin builtin) (.builtin builtin)
  | user (name : Name) (parameters : List Name) {body body' : Block} {home home' : ScopeId}
      (pruned : Block.Prunes false body body') (paired : homes home home') :
      Prunes homes (.user ⟨name, parameters, body⟩ home) (.user ⟨name, parameters, body'⟩ home')

/-- More counterparts do no harm to a function. -/
theorem Callable.Prunes.mono {homes homes' : ScopeId → ScopeId → Prop}
    (hMono : ∀ home home', homes home home' → homes' home home') {callee callee' : Callable}
    (h : callee.Prunes homes callee') : callee.Prunes homes' callee' := by
  cases h with
  | builtin builtin => exact .builtin builtin
  | user name parameters pruned paired => exact .user name parameters pruned (hMono _ _ paired)

/-- The scopes bind the same, up to statements left out, and the scopes around them are counterparts. -/
structure Scope.Prunes (outer : Tiers) (id image : ScopeId) (first second : Scope) : Prop where
  integers : first.integers = second.integers
  functions : Table.Like Eq (Callable.Prunes fun home home' => home = id ∧ home' = image)
    first.functions second.functions
  parent : Option.Rel outer.Pairs first.parent second.parent

namespace Store

/-- Counterparts bind the same, and a scope for arguments binds nothing and lies in one from which the
same is seen as from its image. -/
inductive Matches (store store' : Store) : Tiers → Prop where
  | nil : Matches store store' []
  | scope {id image : ScopeId} {outer : Tiers} {first second : Scope}
      (here : store.scope? id = some first) (there : store'.scope? image = some second)
      (same : first.Prunes outer id image second) (further : Matches store store' outer) :
      Matches store store' (.scope id image :: outer)
  | arguments {id image parent : ScopeId} {outer : Tiers} {first : Scope}
      (here : store.scope? id = some first) (noInteger : first.integers = [])
      (noFunction : first.functions = []) (around : first.parent = some parent)
      (shown : outer.Shows parent image) (further : Matches store store' outer) :
      Matches store store' (.arguments id image :: outer)

/-- The second store is the first one without the scopes for arguments. -/
structure Collapses (tiers : Tiers) (store store' : Store) : Prop where
  first : store.Holds tiers.ids
  second : store'.Holds tiers.images
  scopes : store.Matches store' tiers

/-- The change comes out the same in both stores. -/
inductive ChangeCollapses (tiers : Tiers) :
    Except ScopeError Unit × Store → Except ScopeError Unit × Store → Prop where
  | mk (outcome : Except ScopeError Unit) {later later' : Store}
      (collapses : later.Collapses tiers later') :
      ChangeCollapses tiers (outcome, later) (outcome, later')

namespace Matches

variable {store store' later later' : Store} {tiers : Tiers}

/-- Stores may change where no scope is held, as they do when a scope is removed. -/
theorem mono (h : store.Matches store' tiers) (hFirst : store.Keeps later tiers.ids)
    (hSecond : store'.Keeps later' tiers.images) : later.Matches later' tiers := by
  induction h with
  | nil => exact .nil
  | scope here there same _ ih =>
      obtain ⟨now, hNow, hIntegers, hFunctions, hParent⟩ := hFirst _ List.mem_cons_self _ here
      obtain ⟨now', hNow', hIntegers', hFunctions', hParent'⟩ := hSecond _ List.mem_cons_self _ there
      refine .scope hNow hNow' ⟨?_, ?_, ?_⟩ (ih ?_ ?_)
      · rw [hIntegers, hIntegers', same.integers]
      · rw [hFunctions, hFunctions']
        exact same.functions
      · rw [hParent, hParent']
        exact same.parent
      · exact fun id hId => hFirst id (List.mem_cons_of_mem _ hId)
      · exact fun id hId => hSecond id (List.mem_cons_of_mem _ hId)
  | arguments here noInteger noFunction around shown _ ih =>
      obtain ⟨now, hNow, hIntegers, hFunctions, hParent⟩ := hFirst _ List.mem_cons_self _ here
      refine .arguments hNow ?_ ?_ (hParent.trans around) shown (ih ?_ hSecond)
      · rw [hIntegers, noInteger]
      · rw [hFunctions, noFunction]
      · exact fun id hId => hFirst id (List.mem_cons_of_mem _ hId)

/-- Counterparts are there and bind the same. -/
theorem of_pairs (h : store.Matches store' tiers) {id image : ScopeId} (hPair : tiers.Pairs id image) :
    ∃ outer first second, store.scope? id = some first ∧ store'.scope? image = some second ∧
      first.Prunes outer id image second := by
  induction h with
  | nil => cases hPair
  | scope here there same _ ih =>
      rcases List.mem_cons.mp hPair with hHere | hFurther
      · cases hHere
        exact ⟨_, _, _, here, there, same⟩
      · exact ih hFurther
  | arguments _ _ _ _ _ _ ih =>
      rcases List.mem_cons.mp hPair with hHere | hFurther
      · cases hHere
      · exact ih hFurther

/-- A look-up in the second store ends in the counterpart of the scope in which it ends in the first. -/
theorem nearest? (h : store.Matches store' tiers) {held held' : List ScopeId} (hHolds : store.Holds held)
    (hHolds' : store'.Holds held') {pairs : ScopeId → ScopeId → Prop}
    (hPairs : ∀ {id image : ScopeId}, tiers.Pairs id image → pairs id image)
    {found found' : Scope → Bool}
    (hFound : ∀ {outer : Tiers} {id image : ScopeId} {first second : Scope},
      pairs id image → first.Prunes outer id image second → found first = found' second)
    (hEmpty : ∀ scope : Scope, scope.integers = [] → scope.functions = [] → found scope = false)
    {id image : ScopeId} (hShows : tiers.Shows id image) :
    Option.Rel pairs (store.nearest? found id) (store'.nearest? found' image) := by
  induction h generalizing id image with
  | nil => rcases hShows with hShows | hShows <;> cases hShows
  | @scope _ _ outer first second here there same _ ih =>
      have hOuter {id image : ScopeId} (hPair : outer.Pairs id image) : pairs id image :=
        hPairs (hPair.outward _)
      rcases hShows.cases with hHere | hHere | hFurther
      · cases hHere
        have hPair : pairs _ _ := hPairs List.mem_cons_self
        have hParent := same.parent
        rw [Store.nearest?, Store.nearest?, here, there]
        simp only [hFound hPair same]
        split
        next => exact .some hPair
        next =>
          generalize hFirst : first.parent = around at hParent ⊢
          generalize hSecond : second.parent = around' at hParent ⊢
          cases hParent with
          | none => exact .none
          | some hParents =>
              simp only [(hHolds.parent here hFirst).1, (hHolds'.parent there hSecond).1, if_true]
              exact ih hOuter hParents.shows
      · cases hHere
      · exact ih hOuter hFurther
  | @arguments _ _ parent outer first here noInteger noFunction around shown _ ih =>
      have hOuter {id image : ScopeId} (hPair : outer.Pairs id image) : pairs id image :=
        hPairs (hPair.outward _)
      rcases hShows.cases with hHere | hHere | hFurther
      · cases hHere
      · cases hHere
        rw [Store.nearest?, here]
        simp only [hEmpty first noInteger noFunction, Bool.false_eq_true, if_false, around,
          (hHolds.parent here around).1, if_true]
        exact ih hOuter shown
      · exact ih hOuter hFurther

/-- A change of two counterparts that lets them bind the same leaves all others as they are. -/
theorem modify (h : store.Matches store' tiers) (hIds : tiers.ids.Nodup) (hImages : tiers.images.Nodup)
    {id image : ScopeId} (hPair : tiers.Pairs id image) {f g : Scope → Scope}
    (hChange : ∀ {outer : Tiers} {first second : Scope}, first.Prunes outer id image second →
      (f first).Prunes outer id image (g second)) :
    (store.modify id f).Matches (store'.modify image g) tiers := by
  induction h with
  | nil => cases hPair
  | @scope here' image' outer first second here there same further ih =>
      obtain ⟨hId, hIdsOuter⟩ := List.nodup_cons.mp hIds
      obtain ⟨hImage, hImagesOuter⟩ := List.nodup_cons.mp hImages
      rcases List.mem_cons.mp hPair with hHere | hFurther
      · cases hHere
        refine .scope ?_ ?_ (hChange same) (further.mono (keeps_modify _ hId f) (keeps_modify _ hImage g))
        · rw [scope?_modify, if_pos rfl, here, Option.map_some]
        · rw [scope?_modify, if_pos rfl, there, Option.map_some]
      · have hOther : here' ≠ id := fun hSame => hId (hSame ▸ Tiers.Pairs.mem_ids hFurther)
        have hOther' : image' ≠ image := fun hSame => hImage (hSame ▸ Tiers.Pairs.mem_images hFurther)
        refine .scope ?_ ?_ same (ih hIdsOuter hImagesOuter hFurther)
        · rw [scope?_modify, if_neg hOther, here]
        · rw [scope?_modify, if_neg hOther', there]
  | @arguments here' image' parent outer first here noInteger noFunction around shown further ih =>
      obtain ⟨hId, hIdsOuter⟩ := List.nodup_cons.mp hIds
      rcases List.mem_cons.mp hPair with hHere | hFurther
      · cases hHere
      · have hOther : here' ≠ id := fun hSame => hId (hSame ▸ Tiers.Pairs.mem_ids hFurther)
        refine .arguments ?_ noInteger noFunction around shown (ih hIdsOuter hImages hFurther)
        rw [scope?_modify, if_neg hOther, here]

end Matches

namespace Collapses

variable {tiers : Tiers} {store store' : Store}

section

variable (h : store.Collapses tiers store')

include h

theorem nodup_ids : tiers.ids.Nodup :=
  h.first.descending.imp (fun hNewer => Nat.ne_of_gt hNewer)

theorem nodup_images : tiers.images.Nodup :=
  h.second.descending.imp (fun hNewer => Nat.ne_of_gt hNewer)

/-- Every counterpart is alive in its own store. -/
theorem isLive {id image : ScopeId} (hPair : tiers.Pairs id image) :
    store.isLive id = true ∧ store'.isLive image = true :=
  ⟨h.first.isLive hPair.mem_ids, h.second.isLive hPair.mem_images⟩

/-- What is found where a look-up ends. -/
theorem entry {α : Type} {like : α → α → Prop} {table : Scope → Table α}
    (hTable : ∀ {outer : Tiers} {id image : ScopeId} {first second : Scope},
      tiers.Pairs id image → first.Prunes outer id image second →
      Table.Like Eq like (table first) (table second))
    (hEmpty : ∀ scope : Scope, scope.integers = [] → scope.functions = [] → table scope = [])
    (name : Name) {id image : ScopeId} (hShows : tiers.Shows id image) :
    Option.Rel like
      ((store.nearest? (fun scope => (table scope).has name) id).bind store.scope? |>.bind
        (fun scope => (table scope).get? name))
      ((store'.nearest? (fun scope => (table scope).has name) image).bind store'.scope? |>.bind
        (fun scope => (table scope).get? name)) := by
  have hOwners : Option.Rel tiers.Pairs (store.nearest? (fun scope => (table scope).has name) id)
      (store'.nearest? (fun scope => (table scope).has name) image) := by
    refine h.scopes.nearest? h.first h.second (fun hPair => hPair) (fun hPair hSame => ?_)
      (fun scope hIntegers hFunctions => ?_) hShows
    · exact (hTable hPair hSame).has oneToOne_eq rfl
    · rw [hEmpty scope hIntegers hFunctions]
      rfl
  generalize store.nearest? (fun scope => (table scope).has name) id = owner at hOwners ⊢
  generalize store'.nearest? (fun scope => (table scope).has name) image = owner' at hOwners ⊢
  cases hOwners with
  | none => exact .none
  | some hPair =>
      obtain ⟨outer, first, second, hFirst, hSecond, hSame⟩ := h.scopes.of_pairs hPair
      rw [Option.bind_some, Option.bind_some, hFirst, hSecond]
      exact (hTable hPair hSame).get? oneToOne_eq rfl

/-- A look-up passes the scopes for arguments, which bind nothing. -/
theorem getVariable (name : Name) {id image : ScopeId} (hShows : tiers.Shows id image) :
    store.getVariable id name = store'.getVariable image name := by
  have hTable {outer : Tiers} {id image : ScopeId} {first second : Scope} (_ : tiers.Pairs id image)
      (hSame : first.Prunes outer id image second) :
      Table.Like Eq Eq first.integers second.integers := by
    rw [hSame.integers]
    exact List.forall₂_same.mpr fun _ _ => ⟨rfl, rfl⟩
  have hEntry := h.entry hTable (fun _ hIntegers _ => hIntegers) name hShows
  rw [Store.getVariable, Store.getVariable]
  generalize ((store.nearest? _ id).bind store.scope?).bind _ = found at hEntry ⊢
  generalize ((store'.nearest? _ image).bind store'.scope?).bind _ = found' at hEntry ⊢
  cases hEntry with
  | none => rfl
  | some same => rw [same]

/-- The functions found may differ in the statements left out, and in nothing else. -/
theorem getFunction (name : Name) {id image : ScopeId} (hShows : tiers.Shows id image) :
    OutcomeLike Eq (Callable.Prunes tiers.Pairs) (store.getFunction id name)
      (store'.getFunction image name) := by
  have hTable {outer : Tiers} {id image : ScopeId} {first second : Scope}
      (hPair : tiers.Pairs id image) (hSame : first.Prunes outer id image second) :
      Table.Like Eq (Callable.Prunes tiers.Pairs) first.functions second.functions := by
    refine hSame.functions.imp fun _ _ hEntry => ⟨hEntry.1, hEntry.2.mono ?_⟩
    rintro home home' ⟨rfl, rfl⟩
    exact hPair
  have hEntry := h.entry hTable (fun _ _ hFunctions => hFunctions) name hShows
  rw [Store.getFunction, Store.getFunction]
  generalize ((store.nearest? _ id).bind store.scope?).bind _ = found at hEntry ⊢
  generalize ((store'.nearest? _ image).bind store'.scope?).bind _ = found' at hEntry ⊢
  cases hEntry with
  | none => exact .error rfl
  | some same => exact .ok same

section

variable {id image : ScopeId} (hPair : tiers.Pairs id image)

include hPair

/-- A scope for arguments is not a counterpart, so nothing is ever declared in one. -/
theorem declareVariable (name : Name) (value : Int32) :
    ChangeCollapses tiers (store.declareVariable id name value)
      (store'.declareVariable image name value) := by
  obtain ⟨outer, first, second, hFirst, hSecond, hSame⟩ := h.scopes.of_pairs hPair
  have hHolds := h.first.declareVariable id name value
  have hHolds' := h.second.declareVariable image name value
  rw [Store.declareVariable] at hHolds ⊢
  rw [Store.declareVariable] at hHolds' ⊢
  rw [hFirst, Option.any_some, hSame.integers] at hHolds ⊢
  rw [hSecond, Option.any_some] at hHolds' ⊢
  generalize second.integers.has name = taken at hHolds hHolds' ⊢
  cases taken with
  | true => exact .mk _ h
  | false =>
      refine .mk _ ⟨hHolds, hHolds', h.scopes.modify h.nodup_ids h.nodup_images hPair fun hPruned => ?_⟩
      exact { hPruned with integers := congrArg ((name, value) :: ·) hPruned.integers }

/-- The function is declared in counterparts, which become its two homes. -/
theorem declareFunction {callable callable' : Callable} {name : Name}
    (hCallable : callable.Prunes (fun home home' => home = id ∧ home' = image) callable')
    (hHome : ∀ function home, callable = .user function home → home = id ∧ function.name = name)
    (hHome' : ∀ function home, callable' = .user function home →
      home = image ∧ function.name = name) :
    ChangeCollapses tiers (store.declareFunction id name callable)
      (store'.declareFunction image name callable') := by
  obtain ⟨outer, first, second, hFirst, hSecond, hSame⟩ := h.scopes.of_pairs hPair
  have hHolds := h.first.declareFunction id hHome
  have hHolds' := h.second.declareFunction image hHome'
  rw [Store.declareFunction] at hHolds ⊢
  rw [Store.declareFunction] at hHolds' ⊢
  rw [hFirst, Option.any_some, hSame.functions.has oneToOne_eq rfl] at hHolds ⊢
  rw [hSecond, Option.any_some] at hHolds' ⊢
  generalize second.functions.has name = taken at hHolds hHolds' ⊢
  cases taken with
  | true => exact .mk _ h
  | false =>
      refine .mk _ ⟨hHolds, hHolds', h.scopes.modify h.nodup_ids h.nodup_images hPair fun hPruned => ?_⟩
      exact { hPruned with functions := .cons ⟨rfl, hCallable⟩ hPruned.functions }

/-- A new scope on both sides. -/
theorem child : (store.child id).2.Collapses
    (.scope store.slots.size store'.slots.size :: tiers) (store'.child image).2 := by
  have hScopes := h.scopes.mono (keeps_child _ id _) (keeps_child _ image _)
  exact ⟨h.first.child hPair.mem_ids, h.second.child hPair.mem_images,
    .scope (store.scope?_child_new id) (store'.scope?_child_new image) ⟨rfl, .nil, .some hPair⟩ hScopes⟩

end

/-- An assignment from a scope for arguments goes to a scope further out, and there it has a
counterpart. -/
theorem setVariable (name : Name) (value : Int32) {id image : ScopeId} (hShows : tiers.Shows id image) :
    ChangeCollapses tiers (store.setVariable id name value) (store'.setVariable image name value) := by
  have hHolds := h.first.setVariable id name value
  have hHolds' := h.second.setVariable image name value
  have hOwners : Option.Rel tiers.Pairs (store.nearest? (fun scope => scope.integers.has name) id)
      (store'.nearest? (fun scope => scope.integers.has name) image) := by
    refine h.scopes.nearest? h.first h.second (fun hPair => hPair) (fun _ hSame => ?_)
      (fun scope hIntegers _ => ?_) hShows
    · rw [hSame.integers]
    · rw [hIntegers]
      rfl
  rw [Store.setVariable] at hHolds ⊢
  rw [Store.setVariable] at hHolds' ⊢
  generalize store.nearest? _ id = owner at hOwners hHolds ⊢
  generalize store'.nearest? _ image = owner' at hOwners hHolds' ⊢
  cases hOwners with
  | none => exact .mk _ h
  | some hPair =>
      refine .mk _ ⟨hHolds, hHolds', h.scopes.modify h.nodup_ids h.nodup_images hPair fun hPruned => ?_⟩
      exact { hPruned with integers := congrArg (Table.put · name value) hPruned.integers }

/-- A new scope for arguments, on the first side only. -/
theorem arguments {id image : ScopeId} (hShows : tiers.Shows id image) :
    (store.child id).2.Collapses (.arguments store.slots.size image :: tiers) store' := by
  have hScopes := h.scopes.mono (keeps_child _ id _) (keeps_refl store' _)
  exact ⟨h.first.child hShows.mem_ids, h.second,
    .arguments (store.scope?_child_new id) rfl rfl rfl hShows hScopes⟩

end

/-- The newest scope is given up on both sides. -/
theorem release {id image : ScopeId} (h : store.Collapses (.scope id image :: tiers) store')
    (hRooted : tiers.Pairs 0 0) : (store.release id).Collapses tiers (store'.release image) := by
  have hMore := List.ne_nil_of_mem hRooted.mem_ids
  have hMore' := List.ne_nil_of_mem hRooted.mem_images
  cases h.scopes with
  | scope _ _ _ further =>
      exact ⟨h.first.release hMore, h.second.release hMore',
        further.mono (h.first.keeps_release hMore) (h.second.keeps_release hMore')⟩

/-- The newest scope of the first side is one for arguments, and is given up. -/
theorem discard {id image : ScopeId} (h : store.Collapses (.arguments id image :: tiers) store')
    (hRooted : tiers.Pairs 0 0) : (store.release id).Collapses tiers store' := by
  have hMore := List.ne_nil_of_mem hRooted.mem_ids
  cases h.scopes with
  | arguments _ _ _ _ _ further =>
      exact ⟨h.first.release hMore, h.second,
        further.mono (h.first.keeps_release hMore) (keeps_refl store' _)⟩

end Collapses

/-- A store with nothing but a root. -/
theorem Holds.collapses {store : Store} (h : store.Holds [0])
    (hOutermost : ∀ scope, store.scope? 0 = some scope → scope.parent = none) :
    store.Collapses [.scope 0 0] store := by
  obtain ⟨root, hRoot⟩ := h.exists_scope List.mem_cons_self
  refine ⟨h, h, .scope hRoot hRoot ⟨rfl, List.forall₂_same.mpr ?_, ?_⟩ .nil⟩
  · rintro ⟨name, callable⟩ hEntry
    refine ⟨rfl, ?_⟩
    cases callable with
    | builtin builtin => exact .builtin builtin
    | user function home =>
        obtain ⟨name, parameters, body⟩ := function
        obtain ⟨rfl, -⟩ := h.home hRoot hEntry
        exact .user name parameters (Block.Prunes.refl false body) ⟨rfl, rfl⟩
  · rw [hOutermost root hRoot]
    exact .none

end Store

end IntScript
