import IntScript.Command.Options

/-! What one argument says. It settles the limit on nested calls, the use of colour or the path of the program,
or it offends. What it settles is a matter of its text alone; whether it offends may also depend on a path that
was given before it. -/
namespace IntScript

def ColorMode.word : ColorMode → String
  | auto => "auto"
  | always => "always"
  | never => "never"

theorem ColorMode.ofText?_eq_some_iff {text : String} {mode : ColorMode} :
    ofText? text = some mode ↔ text = mode.word := by
  constructor
  · intro h
    unfold ofText? at h
    split at h <;> cases h <;> rfl
  · rintro rfl
    cases mode <;> rfl

namespace Options

/-- What one argument settles. -/
inductive Setting where
  | maxDepth (limit : Option Nat)
  | color (mode : ColorMode)
  | path (path : String)

namespace Setting

def maxDepth? : Setting → Option (Option Nat)
  | maxDepth limit => some limit
  | _ => none

def color? : Setting → Option ColorMode
  | color mode => some mode
  | _ => none

def path? : Setting → Option String
  | path text => some text
  | _ => none

/-- The draft with the setting in the place of the one that it had. -/
def apply (draft : Draft) : Setting → Draft
  | maxDepth limit => { draft with maxDepth := limit }
  | color mode => { draft with color := mode }
  | path text => { draft with path := some text }

/-- A path that takes no other path's place is added to what is known. -/
theorem apply_path {setting : Setting} {draft : Draft}
    (hOne : (draft.path.toList ++ setting.path?.toList).length ≤ 1) :
    (apply draft setting).path.toList = draft.path.toList ++ setting.path?.toList := by
  cases setting with
  | maxDepth limit => exact (List.append_nil _).symm
  | color mode => exact (List.append_nil _).symm
  | path text =>
      cases hPath : draft.path with
      | none => rfl
      | some given => simp [hPath, path?] at hOne

end Setting

/-- How a limit on nested calls is written: the word for none, or a positive number below 2 ^ 64 in
digits, with one plus sign in front if wanted. -/
inductive Limit : String → Option Nat → Prop where
  | unlimited : Limit "unlimited" none
  | number {sign digits : List Char} (hSign : sign = [] ∨ sign = ['+'])
      (hDigits : ∀ digit ∈ digits, digit.isDigit = true)
      (hPositive : 1 ≤ Nat.ofDigitChars 10 digits 0)
      (hFits : Nat.ofDigitChars 10 digits 0 < UInt64.size) :
      Limit (String.ofList (sign ++ digits)) (some (Nat.ofDigitChars 10 digits 0))

def isPath (argument : String) : Bool := argument.toList.head? != some '-'

/-- What an argument settles, by its text alone. -/
inductive Settles : String → Setting → Prop where
  | maxDepth {value : String} {limit : Option Nat} (hLimit : Limit value limit) :
      Settles ("--max-depth=" ++ value) (.maxDepth limit)
  | color (mode : ColorMode) : Settles ("--color=" ++ mode.word) (.color mode)
  | path {argument : String} (hPath : isPath argument = true) : Settles argument (.path argument)

/-- How an argument offends that comes after others. -/
inductive Offends (earlier : List String) : String → OptionError → Prop where
  | maxDepth {value : String} (hNone : ∀ limit, ¬ Limit value limit) :
      Offends earlier ("--max-depth=" ++ value) (.invalidValue "--max-depth" value)
  | color {value : String} (hNone : ∀ mode : ColorMode, value ≠ mode.word) :
      Offends earlier ("--color=" ++ value) (.invalidValue "--color" value)
  | unknown {argument : String} (hPath : isPath argument = false)
      (hDepth : ∀ value, argument ≠ "--max-depth=" ++ value)
      (hColor : ∀ value, argument ≠ "--color=" ++ value) :
      Offends earlier argument (.unknownOption argument)
  | second {path argument : String} (hPath : isPath argument = true) (hMem : path ∈ earlier)
      (hTaken : isPath path = true) : Offends earlier argument (.unexpectedArgument argument)

def Unoffending (arguments : List String) : Prop :=
  ∀ earlier argument later error, arguments = earlier ++ argument :: later →
    ¬ Offends earlier argument error

/-- Leads are compared character by character, so nothing but the lead itself is left out. -/
theorem after?_eq_some_iff {lead text value : String} :
    after? lead text = some value ↔ text = lead ++ value := by
  unfold after?
  split
  next hLead =>
    obtain ⟨rest, hRest⟩ := List.isPrefixOf_iff_prefix.mp hLead
    rw [← hRest, List.drop_left, Option.some_inj, ← String.toList_inj, ← String.toList_inj, ← hRest,
      String.toList_ofList, String.toList_append, List.append_cancel_left_eq]
  next hLead =>
    refine ⟨nofun, ?_⟩
    rintro rfl
    exact absurd (List.isPrefixOf_iff_prefix.mpr (by simp)) hLead

theorem after?_eq_none_iff {lead text : String} :
    after? lead text = none ↔ ∀ value, text ≠ lead ++ value := by
  rw [Option.eq_none_iff_forall_ne_some]
  exact forall_congr' fun value => not_congr after?_eq_some_iff

theorem not_isPath_maxDepth (value : String) : isPath ("--max-depth=" ++ value) = false := by
  simp [isPath]

theorem not_isPath_color (value : String) : isPath ("--color=" ++ value) = false := by
  simp [isPath]

/-- No argument sets both, for the two leads differ in their third character. -/
theorem color_ne_maxDepth (value other : String) :
    "--color=" ++ value ≠ "--max-depth=" ++ other := by
  simp [← String.toList_inj]

/-- A number is read from digits that a plus sign may stand before. -/
theorem decimal?_eq_some_iff {text : String} {number : Nat} :
    decimal? text = some number ↔ ∃ sign digits : List Char, (sign = [] ∨ sign = ['+']) ∧
      text = String.ofList (sign ++ digits) ∧ digits ≠ [] ∧
      (∀ digit ∈ digits, digit.isDigit = true) ∧
      Nat.ofDigitChars 10 digits 0 = number ∧ number ≤ largestDepth := by
  have hValue (digits : List Char) :
      digits.foldl (fun value digit => value * 10 + (digit.toNat - '0'.toNat)) 0 =
        Nat.ofDigitChars 10 digits 0 := by
    rw [Nat.ofDigitChars_eq_foldl]
    simp only [Nat.mul_comm]
  have hUnsigned (digits : List Char) :
      (if digits.isEmpty || !digits.all Char.isDigit then none
        else if Nat.ofDigitChars 10 digits 0 ≤ largestDepth then
          some (Nat.ofDigitChars 10 digits 0) else none) = some number ↔
      digits ≠ [] ∧ (∀ digit ∈ digits, digit.isDigit = true) ∧
        Nat.ofDigitChars 10 digits 0 = number ∧ number ≤ largestDepth := by
    grind
  have hText (characters : List Char) :
      text = String.ofList characters ↔ text.toList = characters := by
    rw [← String.toList_inj, String.toList_ofList]
  simp only [decimal?, hValue, hUnsigned, hText]
  constructor
  · intro h
    split at h
    next digits hPlus => exact ⟨['+'], digits, .inr rfl, hPlus, h⟩
    next => exact ⟨[], text.toList, .inl rfl, rfl, h⟩
  · rintro ⟨sign, digits, rfl | rfl, hSplit, hDigits⟩
    · split
      next later hPlus =>
        have hMem : '+' ∈ digits := by
          rw [← List.nil_append digits, ← hSplit, hPlus]
          exact List.mem_cons_self
        exact absurd (hDigits.2.1 '+' hMem) (by decide)
      next => rwa [hSplit]
    · split
      next later hPlus => rwa [(List.cons.inj (hPlus.symm.trans hSplit)).2]
      next hPlus => exact absurd hSplit (hPlus digits)

/-- Reading a limit and the two ways of writing one agree on every text. -/
theorem depth?_eq_some_iff {value : String} {limit : Option Nat} :
    depth? value = some limit ↔ Limit value limit := by
  constructor
  · intro h
    unfold depth? at h
    split at h
    next hWord =>
      cases h
      exact hWord ▸ .unlimited
    next =>
      split at h
      next => cases h
      next => cases h
      next number hPositive hNumber =>
        cases h
        obtain ⟨sign, digits, hSign, rfl, -, hDigits, rfl, hFits⟩ := decimal?_eq_some_iff.mp hNumber
        exact .number hSign hDigits (Nat.one_le_iff_ne_zero.mpr (hPositive ·)) (Nat.lt_succ_of_le hFits)
  · intro h
    cases h with
    | unlimited => rfl
    | @number sign digits hSign hDigits hPositive hFits =>
        have hNumber : decimal? (String.ofList (sign ++ digits)) =
            some (Nat.ofDigitChars 10 digits 0) := by
          refine decimal?_eq_some_iff.mpr ⟨sign, digits, hSign, rfl, ?_, hDigits, rfl,
            Nat.le_of_lt_succ hFits⟩
          rintro rfl
          exact absurd hPositive (by decide)
        have hWord : String.ofList (sign ++ digits) ≠ "unlimited" := by
          intro hWord
          rw [hWord] at hNumber
          have hNone : decimal? "unlimited" = none := by decide
          exact nomatch hNone.symm.trans hNumber
        unfold depth?
        rw [if_neg hWord, hNumber]
        split
        next hZero =>
          rw [Option.some_inj.mp hZero] at hPositive
          exact absurd hPositive (by decide)
        next hNone => cases hNone
        next hSome => rw [Option.some_inj.mp hSome]

example : depth? "+007" = some (some 7) ∧ depth? "18446744073709551616" = none := by decide

/-- A limit is read whatever the draft says already, and a bad one is reported with its text. -/
theorem step_maxDepth (draft : Draft) (value : String) :
    step draft ("--max-depth=" ++ value) =
      (depth? value).elim (.error (.invalidValue "--max-depth" value))
        (fun limit => .ok { draft with maxDepth := limit }) := by
  simp only [step, after?_eq_some_iff.mpr rfl]
  cases depth? value <;> rfl

theorem step_color (draft : Draft) (value : String) :
    step draft ("--color=" ++ value) =
      (ColorMode.ofText? value).elim (.error (.invalidValue "--color" value))
        (fun mode => .ok { draft with color := mode }) := by
  simp only [step, after?_eq_none_iff.mpr (color_ne_maxDepth value), after?_eq_some_iff.mpr rfl]
  cases ColorMode.ofText? value <;> rfl

/-- Any other argument is a path if it does not begin with a dash. An unknown setting is reported
even where a path would be one too many. -/
theorem step_other (draft : Draft) {argument : String}
    (hDepth : ∀ value, argument ≠ "--max-depth=" ++ value)
    (hColor : ∀ value, argument ≠ "--color=" ++ value) :
    step draft argument =
      if isPath argument = true then
        draft.path.elim (.ok { draft with path := some argument })
          (fun _ => .error (.unexpectedArgument argument))
      else .error (.unknownOption argument) := by
  rw [step, after?_eq_none_iff.mpr hDepth, after?_eq_none_iff.mpr hColor, isPath]
  by_cases hHead : argument.toList.head? = some '-'
  · simp only [hHead, bne_self_eq_false, Bool.false_eq_true, ↓reduceIte]
  · simp only [hHead, bne_iff_ne, ne_eq, not_false_eq_true, ↓reduceIte]
    cases draft.path <;> rfl

theorem isPath.ne_maxDepth {argument : String} (hPath : isPath argument = true) (value : String) :
    argument ≠ "--max-depth=" ++ value := by
  rintro rfl
  exact Bool.false_ne_true ((not_isPath_maxDepth value).symm.trans hPath)

theorem isPath.ne_color {argument : String} (hPath : isPath argument = true) (value : String) :
    argument ≠ "--color=" ++ value := by
  rintro rfl
  exact Bool.false_ne_true ((not_isPath_color value).symm.trans hPath)

/-- What an argument settles is taken on, unless it is a second path. -/
theorem step_of_settles {draft : Draft} {argument : String} {setting : Setting}
    (hSettles : Settles argument setting)
    (hOne : (draft.path.toList ++ setting.path?.toList).length ≤ 1) :
    step draft argument = .ok (setting.apply draft) := by
  cases hSettles with
  | maxDepth hLimit =>
      rw [step_maxDepth, depth?_eq_some_iff.mpr hLimit]
      rfl
  | color mode =>
      rw [step_color, ColorMode.ofText?_eq_some_iff.mpr rfl]
      rfl
  | path hPath =>
      rw [step_other draft (isPath.ne_maxDepth hPath) (isPath.ne_color hPath), if_pos hPath]
      cases hGiven : draft.path with
      | none => rfl
      | some given => simp [hGiven, Setting.path?] at hOne

/-- An argument that offends ends the reading. -/
theorem step_of_offends {draft : Draft} {earlier : List String} {argument : String}
    {error : OptionError} (hGiven : draft.path.toList = earlier.filter isPath)
    (hOffends : Offends earlier argument error) : step draft argument = .error error := by
  cases hOffends with
  | @maxDepth value hNone =>
      have hDepth : depth? value = none :=
        Option.eq_none_iff_forall_ne_some.mpr fun limit h => hNone limit (depth?_eq_some_iff.mp h)
      rw [step_maxDepth, hDepth, Option.elim_none]
  | @color value hNone =>
      have hColor : ColorMode.ofText? value = none :=
        Option.eq_none_iff_forall_ne_some.mpr fun mode h => hNone mode (ColorMode.ofText?_eq_some_iff.mp h)
      rw [step_color, hColor, Option.elim_none]
  | unknown hPath hDepth hColor => rw [step_other draft hDepth hColor, if_neg (by simp [hPath])]
  | @second path _ hPath hMem hTaken =>
      rw [step_other draft (isPath.ne_maxDepth hPath) (isPath.ne_color hPath), if_pos hPath]
      cases hDraft : draft.path with
      | none =>
          rw [hDraft, Option.toList_none, eq_comm, List.filter_eq_nil_iff] at hGiven
          exact absurd hTaken (hGiven path hMem)
      | some given => rfl

theorem Settles.paths {argument : String} {setting : Setting} (hSettles : Settles argument setting) :
    setting.path?.toList = [argument].filter isPath := by
  cases hSettles with
  | @maxDepth value => simp [Setting.path?, not_isPath_maxDepth]
  | color mode => simp [Setting.path?, not_isPath_color]
  | path hPath => simp [Setting.path?, hPath]

/-- Every argument settles something that may still be settled, or it offends. -/
theorem settles_or_offends {earlier : List String} (hOne : (earlier.filter isPath).length ≤ 1)
    (argument : String) :
    (∃ setting, Settles argument setting ∧ ((earlier ++ [argument]).filter isPath).length ≤ 1) ∨
    ∃ error, Offends earlier argument error := by
  rw [List.filter_append]
  by_cases hDepth : ∃ value, argument = "--max-depth=" ++ value
  · obtain ⟨value, rfl⟩ := hDepth
    by_cases hLimit : ∃ limit, Limit value limit
    · obtain ⟨limit, hLimit⟩ := hLimit
      exact .inl ⟨_, .maxDepth hLimit, by simpa [not_isPath_maxDepth] using hOne⟩
    · exact .inr ⟨_, .maxDepth (not_exists.mp hLimit)⟩
  · by_cases hColor : ∃ value, argument = "--color=" ++ value
    · obtain ⟨value, rfl⟩ := hColor
      by_cases hMode : ∃ mode : ColorMode, value = mode.word
      · obtain ⟨mode, rfl⟩ := hMode
        exact .inl ⟨_, .color mode, by simpa [not_isPath_color] using hOne⟩
      · exact .inr ⟨_, .color (not_exists.mp hMode)⟩
    · cases hPath : isPath argument with
      | false => exact .inr ⟨_, .unknown hPath (not_exists.mp hDepth) (not_exists.mp hColor)⟩
      | true =>
          cases hEarlier : earlier.filter isPath with
          | nil => exact .inl ⟨_, .path hPath, by simp [hPath]⟩
          | cons path rest =>
              have hMem : path ∈ earlier.filter isPath := hEarlier ▸ List.mem_cons_self
              rw [List.mem_filter] at hMem
              exact .inr ⟨_, .second hPath hMem.1 hMem.2⟩

/-- What settles something does not offend, as long as no second path is given. -/
theorem Settles.not_offends {earlier : List String} {argument : String} {setting : Setting}
    {error : OptionError} (hSettles : Settles argument setting)
    (hOne : ((earlier ++ [argument]).filter isPath).length ≤ 1) :
    ¬ Offends earlier argument error := by
  intro hOffends
  rw [List.filter_append, ← hSettles.paths] at hOne
  -- A draft with the path that was given takes the argument on and refuses it.
  have hGiven : (earlier.filter isPath).head?.toList = earlier.filter isPath := by
    cases hEarlier : earlier.filter isPath with
    | nil => rfl
    | cons path rest =>
        rw [hEarlier, List.length_append, List.length_cons] at hOne
        rw [List.length_eq_zero_iff.mp (show rest.length = 0 by omega)]
        rfl
  let draft : Draft := { defaults with path := (earlier.filter isPath).head? }
  have hOne : (draft.path.toList ++ setting.path?.toList).length ≤ 1 := by rwa [hGiven]
  have hRefused : step draft argument = .error error := step_of_offends hGiven hOffends
  exact nomatch (step_of_settles hSettles hOne).symm.trans hRefused

end Options

end IntScript
