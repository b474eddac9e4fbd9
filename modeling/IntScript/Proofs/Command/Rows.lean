import IntScript.Proofs.Command.Settings
import Mathlib.Data.List.Forall2
import Mathlib.Data.List.Induction

/-! Rows of arguments. Reading takes account of the arguments one after the other, so it comes to an end at the
first one that offends, and of the settings of one kind the last one counts. -/
namespace IntScript

namespace Options

namespace Setting

/-- The last limit on calls that is set counts, wherever it stands in the row. -/
theorem foldl_apply_maxDepth (settings : List Setting) (draft : Draft) :
    (settings.foldl apply draft).maxDepth =
      (settings.filterMap maxDepth?).getLastD draft.maxDepth := by
  induction settings generalizing draft with
  | nil => rfl
  | cons setting settings ih =>
      cases setting <;>
        simp only [List.foldl_cons, ih, apply, List.filterMap_cons, maxDepth?, List.getLastD_cons]

theorem foldl_apply_color (settings : List Setting) (draft : Draft) :
    (settings.foldl apply draft).color = (settings.filterMap color?).getLastD draft.color := by
  induction settings generalizing draft with
  | nil => rfl
  | cons setting settings ih =>
      cases setting <;>
        simp only [List.foldl_cons, ih, apply, List.filterMap_cons, color?, List.getLastD_cons]

theorem filterMap_path?_cons (setting : Setting) (settings : List Setting) :
    (setting :: settings).filterMap path? =
      setting.path?.toList ++ settings.filterMap path? := by
  cases setting <;> rfl

/-- As long as there is one path at most, it is the one that is known in the end. -/
theorem foldl_apply_path {settings : List Setting} {draft : Draft}
    (hOne : (draft.path.toList ++ settings.filterMap path?).length ≤ 1) :
    (settings.foldl apply draft).path.toList =
      draft.path.toList ++ settings.filterMap path? := by
  induction settings generalizing draft with
  | nil => exact (List.append_nil _).symm
  | cons setting settings ih =>
      rw [filterMap_path?_cons, ← List.append_assoc] at hOne ⊢
      have hFirst := apply_path (Nat.le_trans (List.sublist_append_left _ _).length_le hOne)
      rw [← hFirst] at hOne ⊢
      exact ih hOne

end Setting

/-- The arguments settle something each, and there is one path at most. -/
structure Understood (arguments : List String) (settings : List Setting) : Prop where
  settles : List.Forall₂ Settles arguments settings
  one : (arguments.filter isPath).length ≤ 1

/-- Exactly the arguments that stand for a path settle one. -/
theorem paths_of_settles {arguments : List String} {settings : List Setting}
    (hSettles : List.Forall₂ Settles arguments settings) :
    settings.filterMap Setting.path? = arguments.filter isPath := by
  induction hSettles with
  | nil => rfl
  | @cons argument setting arguments settings hSettles _ ih =>
      rw [Setting.filterMap_path?_cons, hSettles.paths, ih, ← List.filter_append,
        List.singleton_append]

/-- Arguments that settle something are taken on one after the other. -/
theorem foldlM_of_settles {arguments : List String} {settings : List Setting} {draft : Draft}
    (hSettles : List.Forall₂ Settles arguments settings)
    (hOne : (draft.path.toList ++ settings.filterMap Setting.path?).length ≤ 1) :
    arguments.foldlM step draft = .ok (settings.foldl Setting.apply draft) := by
  induction hSettles generalizing draft with
  | nil => rfl
  | @cons argument setting arguments settings hSettles _ ih =>
      rw [Setting.filterMap_path?_cons, ← List.append_assoc] at hOne
      have hFirst := Nat.le_trans (List.sublist_append_left _ _).length_le hOne
      rw [← Setting.apply_path hFirst] at hOne
      rw [List.foldlM_cons, step_of_settles hSettles hFirst]
      exact ih hOne

/-- Each argument settles something, whatever the others settle. -/
theorem exists_settles_iff {arguments : List String} :
    (∃ settings, List.Forall₂ Settles arguments settings) ↔
      ∀ argument ∈ arguments, ∃ setting, Settles argument setting := by
  induction arguments with
  | nil => exact ⟨fun _ => nofun, fun _ => ⟨[], .nil⟩⟩
  | cons argument arguments ih =>
      rw [List.forall_mem_cons, ← ih]
      constructor
      · rintro ⟨_, hSettles | ⟨hFirst, hRest⟩⟩
        exact ⟨⟨_, hFirst⟩, _, hRest⟩
      · rintro ⟨⟨setting, hFirst⟩, settings, hRest⟩
        exact ⟨setting :: settings, .cons hFirst hRest⟩

/-- An understood row is read to the end. -/
theorem Understood.read {arguments : List String} {settings : List Setting}
    (hUnderstood : Understood arguments settings) :
    arguments.foldlM step defaults = .ok (settings.foldl Setting.apply defaults) ∧
      (settings.foldl Setting.apply defaults).path.toList = arguments.filter isPath := by
  have hPaths := paths_of_settles hUnderstood.settles
  have hOne : (defaults.path.toList ++ settings.filterMap Setting.path?).length ≤ 1 :=
    hPaths.symm ▸ hUnderstood.one
  refine ⟨foldlM_of_settles hUnderstood.settles hOne, ?_⟩
  rw [Setting.foldl_apply_path hOne, hPaths]
  rfl

/-- All arguments are understood together, or one of them is the first that offends. -/
theorem understood_or_offends (arguments : List String) :
    (∃ settings, Understood arguments settings) ∨
    ∃ earlier argument later error settings, arguments = earlier ++ argument :: later ∧
      Offends earlier argument error ∧ Understood earlier settings := by
  induction arguments using List.reverseRecOn with
  | nil => exact .inl ⟨[], .nil, by simp⟩
  | append_singleton earlier argument ih =>
      rcases ih with ⟨settings, hEarlier⟩ |
        ⟨before, first, later, error, settings, rfl, hOffends, hBefore⟩
      · rcases settles_or_offends hEarlier.one argument with ⟨setting, hLast, hOne⟩ | ⟨error, hOffends⟩
        · exact .inl ⟨settings ++ [setting], List.rel_append hEarlier.settles (.cons hLast .nil), hOne⟩
        · exact .inr ⟨earlier, argument, [], error, settings, rfl, hOffends, hEarlier⟩
      · exact .inr ⟨before, first, later ++ [argument], error, settings, by simp, hOffends, hBefore⟩

/-- A row without an offender is one whose arguments all settle something, with one path at most. -/
theorem unoffending_iff {arguments : List String} :
    Unoffending arguments ↔ ∃ settings, Understood arguments settings := by
  constructor
  · intro hNone
    rcases understood_or_offends arguments with hUnderstood | ⟨_, _, _, _, _, hSplit, hOffends, _⟩
    · exact hUnderstood
    · exact absurd hOffends (hNone _ _ _ _ hSplit)
  · rintro ⟨settings, hSettles, hOne⟩ earlier argument later error rfl
    obtain ⟨setting, hArgument⟩ := exists_settles_iff.mp ⟨settings, hSettles⟩ argument (by simp)
    refine hArgument.not_offends (Nat.le_trans (List.Sublist.length_le ?_) hOne)
    exact ((List.singleton_sublist.mpr List.mem_cons_self).append_left earlier).filter _

/-- A row is read to the end if no argument of it offends, and up to the first that does. -/
theorem foldlM_eq_error_iff {arguments : List String} {error : OptionError} :
    arguments.foldlM step defaults = .error error ↔
      ∃ earlier argument later, arguments = earlier ++ argument :: later ∧
        Offends earlier argument error ∧ Unoffending earlier := by
  have hStops {earlier : List String} {argument : String} {later : List String} {error : OptionError}
      {settings : List Setting} (hOffends : Offends earlier argument error)
      (hEarlier : Understood earlier settings) :
      (earlier ++ argument :: later).foldlM step defaults = .error error := by
    rw [List.foldlM_append, hEarlier.read.1]
    change List.foldlM step _ (argument :: later) = _
    rw [List.foldlM_cons, step_of_offends hEarlier.read.2 hOffends]
    rfl
  constructor
  · intro hError
    rcases understood_or_offends arguments with ⟨settings, hUnderstood⟩ |
      ⟨earlier, argument, later, first, settings, rfl, hOffends, hEarlier⟩
    · exact nomatch hUnderstood.read.1.symm.trans hError
    · cases (hStops hOffends hEarlier).symm.trans hError
      exact ⟨earlier, argument, later, rfl, hOffends, unoffending_iff.mpr ⟨settings, hEarlier⟩⟩
  · rintro ⟨earlier, argument, later, rfl, hOffends, hNone⟩
    obtain ⟨settings, hEarlier⟩ := unoffending_iff.mp hNone
    exact hStops hOffends hEarlier

theorem understood_of_foldlM {arguments : List String} {draft : Draft}
    (hRead : arguments.foldlM step defaults = .ok draft) :
    ∃ settings, Understood arguments settings := by
  rcases understood_or_offends arguments with hUnderstood |
    ⟨earlier, argument, later, error, settings, hSplit, hOffends, hEarlier⟩
  · exact hUnderstood
  · have hError := foldlM_eq_error_iff.mpr
      ⟨earlier, argument, later, hSplit, hOffends, unoffending_iff.mpr ⟨settings, hEarlier⟩⟩
    exact nomatch hRead.symm.trans hError

/-- What is no path is read alike with a path and without one. -/
theorem step_apply_path {argument : String} (hOther : isPath argument = false) (path : String)
    (draft : Draft) :
    step (Setting.apply draft (.path path)) argument =
      (step draft argument).map (Setting.apply · (.path path)) := by
  by_cases hDepth : ∃ value, argument = "--max-depth=" ++ value
  · obtain ⟨value, rfl⟩ := hDepth
    rw [step_maxDepth, step_maxDepth]
    cases depth? value <;> rfl
  · by_cases hColor : ∃ value, argument = "--color=" ++ value
    · obtain ⟨value, rfl⟩ := hColor
      rw [step_color, step_color]
      cases ColorMode.ofText? value <;> rfl
    · rw [step_other _ (not_exists.mp hDepth) (not_exists.mp hColor),
        step_other _ (not_exists.mp hDepth) (not_exists.mp hColor), hOther]
      rfl

/-- Arguments that are no path can be read before or after a path without a difference, errors
included. This is what lets the path be moved to the front. -/
theorem foldlM_apply_path {arguments : List String}
    (hOther : ∀ argument ∈ arguments, isPath argument = false) (path : String) (draft : Draft) :
    arguments.foldlM step (Setting.apply draft (.path path)) =
      (arguments.foldlM step draft).map (Setting.apply · (.path path)) := by
  induction arguments generalizing draft with
  | nil => rfl
  | cons argument arguments ih =>
      rw [List.forall_mem_cons] at hOther
      rw [List.foldlM_cons, List.foldlM_cons, step_apply_path hOther.1]
      cases step draft argument with
      | error error => rfl
      | ok next => exact ih hOther.2 next

/-- A path among arguments that are none is read as if it came last. -/
theorem foldlM_path {before after : List String} {path : String} (hPath : isPath path = true)
    (hOther : ∀ argument ∈ before ++ after, isPath argument = false) :
    (before ++ path :: after).foldlM step defaults =
      ((before ++ after).foldlM step defaults).map (Setting.apply · (.path path)) := by
  rw [List.forall_mem_append] at hOther
  rw [List.foldlM_append, List.foldlM_append]
  cases hBefore : before.foldlM step defaults with
  | error error => rfl
  | ok draft =>
      obtain ⟨settings, hUnderstood⟩ := understood_of_foldlM hBefore
      cases hUnderstood.read.1.symm.trans hBefore
      have hFree := hUnderstood.read.2
      rw [List.filter_eq_nil_iff.mpr (by simpa using hOther.1)] at hFree
      change List.foldlM step (settings.foldl Setting.apply defaults) (path :: after) = _
      rw [List.foldlM_cons, step_of_settles (.path hPath) (by simp [hFree, Setting.path?])]
      exact foldlM_apply_path hOther.2 path _

end Options

end IntScript
