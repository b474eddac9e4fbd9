import IntScript.Proofs.Command.Rows

/-! Which arguments make options. -/
namespace IntScript

namespace Options

/-- An error in an argument comes before a missing path. -/
theorem ofArguments_of_error {arguments : List String} {error : OptionError}
    (hRead : arguments.foldlM step defaults = .error error) :
    ofArguments arguments = .error error := by
  rw [ofArguments, hRead]
  rfl

/-- Once every argument has been read, only the path can still be missing. -/
theorem ofArguments_of_ok {arguments : List String} {draft : Draft}
    (hRead : arguments.foldlM step defaults = .ok draft) :
    ofArguments arguments = draft.path.elim (.error .missingPath)
      (fun path => .ok { path, maxDepth := draft.maxDepth, color := draft.color }) := by
  obtain ⟨path, maxDepth, color⟩ := draft
  rw [ofArguments, hRead]
  cases path <;> rfl

/-- The options that are read from a row with one path in it. -/
theorem Understood.options {arguments : List String} {settings : List Setting} {path : String}
    (hUnderstood : Understood arguments settings) (hPath : arguments.filter isPath = [path]) :
    ofArguments arguments = .ok
      { path
        maxDepth := (settings.filterMap Setting.maxDepth?).getLastD (some CallStack.defaultLimit)
        color := (settings.filterMap Setting.color?).getLastD .auto } := by
  obtain ⟨hRead, hKnown⟩ := hUnderstood.read
  rw [hPath, Option.toList_eq_singleton_iff] at hKnown
  rw [ofArguments_of_ok hRead, hKnown, Setting.foldl_apply_maxDepth, Setting.foldl_apply_color]
  rfl

theorem Understood.missingPath {arguments : List String} {settings : List Setting}
    (hUnderstood : Understood arguments settings) (hPath : arguments.filter isPath = []) :
    ofArguments arguments = .error .missingPath := by
  obtain ⟨hRead, hKnown⟩ := hUnderstood.read
  rw [hPath, Option.toList_eq_nil_iff] at hKnown
  rw [ofArguments_of_ok hRead, hKnown]
  rfl

/-- A row gives options, or an argument of it offends, or it has no path. -/
theorem ofArguments_cases (arguments : List String) :
    (∃ settings path, Understood arguments settings ∧ arguments.filter isPath = [path]) ∨
    (∃ error, arguments.foldlM step defaults = .error error ∧
      ofArguments arguments = .error error) ∨
    (∃ settings, Understood arguments settings ∧ arguments.filter isPath = []) := by
  cases hRead : arguments.foldlM step defaults with
  | error error => exact .inr (.inl ⟨error, rfl, ofArguments_of_error hRead⟩)
  | ok draft =>
      obtain ⟨settings, hUnderstood⟩ := understood_of_foldlM hRead
      have hOne := hUnderstood.one
      cases hPath : arguments.filter isPath with
      | nil => exact .inr (.inr ⟨settings, hUnderstood, rfl⟩)
      | cons path rest =>
          rw [hPath, List.length_cons] at hOne
          rw [List.length_eq_zero_iff.mp (show rest.length = 0 by omega)]
          exact .inl ⟨settings, path, hUnderstood, rfl⟩

/-- Whatever is accepted was understood argument by argument, with exactly one path among them. -/
theorem understood_of_ofArguments {arguments : List String} {options : Options}
    (hOptions : ofArguments arguments = .ok options) :
    (∃ settings, Understood arguments settings) ∧ arguments.filter isPath = [options.path] := by
  rcases ofArguments_cases arguments with ⟨settings, path, hUnderstood, hPath⟩ |
    ⟨error, -, hError⟩ | ⟨settings, hUnderstood, hPath⟩
  · cases (hUnderstood.options hPath).symm.trans hOptions
    exact ⟨⟨settings, hUnderstood⟩, hPath⟩
  · exact nomatch hError.symm.trans hOptions
  · exact nomatch (hUnderstood.missingPath hPath).symm.trans hOptions

/-- A missing path is reported only where nothing else is to be reported. -/
theorem ofArguments_eq_error_iff {arguments : List String} {error : OptionError} :
    ofArguments arguments = .error error ↔
      arguments.foldlM step defaults = .error error ∨
      error = .missingPath ∧ Unoffending arguments ∧ arguments.filter isPath = [] := by
  constructor
  · intro hError
    rcases ofArguments_cases arguments with ⟨settings, path, hUnderstood, hPath⟩ |
      ⟨first, hRead, hFirst⟩ | ⟨settings, hUnderstood, hPath⟩
    · exact nomatch (hUnderstood.options hPath).symm.trans hError
    · cases hFirst.symm.trans hError
      exact .inl hRead
    · cases (hUnderstood.missingPath hPath).symm.trans hError
      exact .inr ⟨rfl, unoffending_iff.mpr ⟨settings, hUnderstood⟩, hPath⟩
  · rintro (hRead | ⟨rfl, hNone, hPath⟩)
    · exact ofArguments_of_error hRead
    · obtain ⟨settings, hUnderstood⟩ := unoffending_iff.mp hNone
      exact hUnderstood.missingPath hPath

/-- Reading accepts exactly the rows in which every argument settles something and one is a path.
The path is that argument, wherever it stands, and a setting is what the last argument for it
settles. If not, then the error is that of the first argument that offends, or else that the path is
missing. -/
theorem ofArguments_exact (arguments : List String) :
    ((∃ options, ofArguments arguments = .ok options) ↔
      (∀ argument ∈ arguments, ∃ setting, Settles argument setting) ∧
        (arguments.filter isPath).length = 1) ∧
    (∀ options, ofArguments arguments = .ok options →
      arguments.filter isPath = [options.path] ∧
      ∀ settings, List.Forall₂ Settles arguments settings →
        options.maxDepth = (settings.filterMap Setting.maxDepth?).getLastD
          (some CallStack.defaultLimit) ∧
        options.color = (settings.filterMap Setting.color?).getLastD .auto) ∧
    (∀ before path after before' after', arguments = before ++ path :: after →
      isPath path = true → (∀ argument ∈ before ++ after, isPath argument = false) →
      before' ++ after' = before ++ after →
      ofArguments (before' ++ path :: after') = ofArguments arguments) ∧
    ∀ error, ofArguments arguments = .error error ↔
      (∃ earlier argument later, arguments = earlier ++ argument :: later ∧
        Offends earlier argument error ∧ Unoffending earlier) ∨
      (error = .missingPath ∧ Unoffending arguments ∧
        ∀ argument ∈ arguments, isPath argument = false) := by
  refine ⟨⟨?_, ?_⟩, ?_, ?_, ?_⟩
  · rintro ⟨options, hOptions⟩
    obtain ⟨⟨settings, hUnderstood⟩, hPath⟩ := understood_of_ofArguments hOptions
    exact ⟨exists_settles_iff.mp ⟨settings, hUnderstood.settles⟩, by rw [hPath]; rfl⟩
  · rintro ⟨hEach, hOne⟩
    obtain ⟨settings, hSettles⟩ := exists_settles_iff.mpr hEach
    obtain ⟨path, hPath⟩ := List.length_eq_one_iff.mp hOne
    exact ⟨_, Understood.options ⟨hSettles, Nat.le_of_eq hOne⟩ hPath⟩
  · intro options hOptions
    obtain ⟨⟨_, hUnderstood⟩, hPath⟩ := understood_of_ofArguments hOptions
    refine ⟨hPath, fun settings hSettles => ?_⟩
    have hSame := Except.ok.inj
      (hOptions.symm.trans (Understood.options ⟨hSettles, hUnderstood.one⟩ hPath))
    exact ⟨congrArg Options.maxDepth hSame, congrArg Options.color hSame⟩
  · rintro before path after before' after' rfl hPath hOther hMoved
    have hMovedOther := hOther
    rw [← hMoved] at hMovedOther
    rw [ofArguments, ofArguments, foldlM_path hPath hMovedOther, foldlM_path hPath hOther, hMoved]
  · intro error
    rw [ofArguments_eq_error_iff, foldlM_eq_error_iff]
    simp only [List.filter_eq_nil_iff, Bool.not_eq_true]

end Options

end IntScript
