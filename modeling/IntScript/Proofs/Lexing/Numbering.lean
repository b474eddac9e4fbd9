import IntScript.Proofs.Lexing.Partition

/-! The numbers that texts get. A table holds the reserved texts and then every other text once, in the
order in which they were first numbered, so that a number is a place in this list and keeps its text. -/
namespace IntScript

namespace Interner

/-- What a table may be asked: for the number of a text, or for the text of a name. -/
inductive Query where
  | intern (text : String)
  | lookup (name : Name)

inductive Answer where
  | named (name : Name)
  | spelled (text : String)

def Query.text? : Query → Option String
  | intern text => some text
  | lookup _ => none

def answer (table : Interner) : Query → Answer × Interner
  | .intern text =>
      let (name, table) := table.intern text
      (.named name, table)
  | .lookup name => (.spelled (table.lookup name), table)

/-- The answers to queries that follow each other, and the table after the last of them. -/
def answerAll (table : Interner) : List Query → List Answer × Interner
  | [] => ([], table)
  | query :: queries =>
      let (answer, table) := table.answer query
      let (answers, table) := table.answerAll queries
      (answer :: answers, table)

/-- The table that queries to a new one lead to. -/
def after (queries : List Query) : Interner :=
  (initial.answerAll queries).2

/-- The texts of a row that are not among those known already, each where it first occurs. -/
def unseen (known texts : List String) : List String :=
  (texts.filter (· ∉ known)).eraseDups

theorem unseen_cons_of_mem {known : List String} {text : String} (h : text ∈ known)
    (texts : List String) : unseen known (text :: texts) = unseen known texts := by
  simp [unseen, h]

theorem unseen_cons_of_not_mem {known : List String} {text : String} (h : text ∉ known)
    (texts : List String) :
    unseen known (text :: texts) = text :: unseen (known ++ [text]) texts := by
  have hOthers : (texts.filter (· ∉ known)).filter (fun other => !other == text) =
      texts.filter (· ∉ known ++ [text]) := by
    rw [List.filter_filter]
    refine List.filter_congr (fun other _ => ?_)
    rw [Bool.eq_iff_iff]
    simp [and_comm]
  rw [unseen, List.filter_cons_of_pos (by simpa using h), List.eraseDups_cons, hOthers, unseen]

/-- Numbering texts adds those that were not there, in order of first occurrence. -/
theorem strings_internAll (table : Interner) (texts : List String) :
    (table.internAll texts).2.strings = table.strings ++ unseen table.strings texts := by
  induction texts generalizing table with
  | nil => exact (List.append_nil _).symm
  | cons text texts ih =>
      have hNext : (table.internAll (text :: texts)).2.strings =
          (table.intern text).2.strings ++ unseen (table.intern text).2.strings texts := ih _
      rw [hNext, strings_intern]
      split
      next hKnown => rw [unseen_cons_of_mem hKnown]
      next hNew => rw [unseen_cons_of_not_mem hNew, List.append_assoc, List.singleton_append]

/-- Only the texts that are numbered change the table. -/
theorem answerAll_table (table : Interner) (queries : List Query) :
    (table.answerAll queries).2 = (table.internAll (queries.filterMap Query.text?)).2 := by
  induction queries generalizing table with
  | nil => rfl
  | cons query queries ih =>
      cases query with
      | intern text => exact ih (table.intern text).2
      | lookup name => exact ih table

/-- Each answer is given by the table that the queries before it lead to. -/
theorem getElem?_answers (table : Interner) (queries : List Query) (moment : Nat) :
    (table.answerAll queries).1[moment]? = queries[moment]?.map (fun query =>
      ((table.answerAll (queries.take moment)).2.answer query).1) := by
  induction queries generalizing table moment with
  | nil => rfl
  | cons query queries ih =>
      cases moment with
      | zero => rfl
      | succ moment => exact ih (table.answer query).2 moment

section

variable {queries : List Query} {moment : Nat}

/-- Later tables only add to earlier ones, whatever was asked in between. -/
theorem growsTo_after (queries : List Query) (moment : Nat) :
    (after (queries.take moment)).GrowsTo (after queries) := by
  rw [after, after, answerAll_table, answerAll_table]
  exact growsTo_of_prefix _ ((List.take_prefix moment queries).filterMap Query.text?)

theorem after_succ {query : Query} (h : queries[moment]? = some query) :
    after (queries.take (moment + 1)) = ((after (queries.take moment)).answer query).2 := by
  rw [after, after, answerAll_table, answerAll_table, List.take_add_one, h, List.filterMap_append,
    internAll_append]
  cases query with
  | intern text => rfl
  | lookup name => rfl

/-- A number that was not given out has the placeholder for its text. -/
theorem lookup_of_size_le {table : Interner} {name : Name} (h : table.size ≤ name.raw.toNat) :
    table.lookup name = "<unknown>" := by
  rw [lookup, text?, List.getElem?_eq_none h, Option.getD_none]

/-- The text of a number in use never changes. -/
theorem GrowsTo.lookup {table later : Interner} (h : table.GrowsTo later) {name : Name}
    (hUsed : name.raw.toNat < table.size) : later.lookup name = table.lookup name := by
  have hText : table.text? name = some table.strings[name.raw.toNat] := List.getElem?_eq_getElem hUsed
  rw [lookup_of_text hText, lookup_of_text (h.text? hText)]

/-- A number that was given keeps its text, whatever is asked later. -/
theorem named_of_intern (hFits : (after queries).size ≤ capacity) {text : String}
    (h : queries[moment]? = some (.intern text)) :
    ∃ name, (initial.answerAll queries).1[moment]? = some (.named name) ∧
      (after queries).text? name = some text := by
  have hNext := growsTo_after queries (moment + 1)
  rw [after_succ h] at hNext
  refine ⟨((after (queries.take moment)).intern text).1, ?_, ?_⟩
  · rw [getElem?_answers, h]
    rfl
  · exact hNext.text? (text?_intern (Nat.le_trans hNext.size hFits))

/-- The table grows by new texts and by nothing else. -/
theorem size_intern_ne_iff (table : Interner) (text : String) :
    (table.intern text).2.size ≠ table.size ↔ text ∉ table.strings := by
  rw [size, size, strings_intern]
  split
  next hKnown => exact iff_of_false (fun hOther => hOther rfl) (fun hNew => hNew hKnown)
  next hNew => exact iff_of_true (by simp) hNew

/-- Where there are numbers for all texts, the map and the row are inverse to each other. -/
theorem number?_eq_some_iff {table : Interner} (hFits : table.size ≤ capacity) (text : String)
    (number : UInt32) : table.number? text = some number ↔ table.text? ⟨number⟩ = some text := by
  refine (table.mirrored.number text number).trans ⟨?_, fun hText => ⟨number.toNat, hText, by simp⟩⟩
  rintro ⟨place, hPlace, rfl⟩
  have hBound : place < table.size := (List.getElem?_eq_some_iff.mp hPlace).1
  have hNumber : place.toUInt32.toNat = place := Nat.mod_eq_of_lt (Nat.lt_of_lt_of_le hBound hFits)
  rw [text?, hNumber]
  exact hPlace

/-- What the map has said once, it says later too. -/
theorem GrowsTo.number? {table later : Interner} (h : table.GrowsTo later) {text : String} {number : UInt32}
    (hNumber : table.number? text = some number) : later.number? text = some number := by
  obtain ⟨place, hPlace, hSame⟩ := (table.mirrored.number text number).mp hNumber
  obtain ⟨hBound, rfl⟩ := List.getElem?_eq_some_iff.mp hPlace
  exact (later.mirrored.number _ number).mpr ⟨place, List.prefix_iff_getElem?.mp h _ hBound, hSame⟩

/-- A look at an earlier state does no harm: what it found is still true, and what it did not find is looked
for once more. -/
theorem GrowsTo.internAfter {seen table : Interner} (h : seen.GrowsTo table) (text : String) :
    table.internAfter seen text = table.intern text := by
  cases hSeen : seen.number? text with
  | some number =>
      rw [internAfter_of_some hSeen, intern, internAfter_of_some (h.number? hSeen)]
  | none =>
      rw [internAfter_of_none hSeen]
      by_cases hKnown : text ∈ table.strings
      · rw [intern_of_mem hKnown, enter_of_mem hKnown]
      · rw [intern_of_not_mem hKnown, enter_of_not_mem hKnown]

section

variable (hFits : (after queries).size ≤ capacity)

include hFits

/-- The number of a text is its place in the row, as it is when all has been asked. -/
theorem place_of_intern {text : String} (h : queries[moment]? = some (.intern text)) :
    ∃ name, (initial.answerAll queries).1[moment]? = some (.named name) ∧
      name.raw.toNat = (after queries).strings.idxOf text ∧
      (after queries).text? name = some text ∧ (after queries).lookup name = text := by
  obtain ⟨name, hAnswer, hText⟩ := named_of_intern hFits h
  obtain ⟨hBound, hPlace⟩ := List.getElem?_eq_some_iff.mp hText
  refine ⟨name, hAnswer, ?_, hText, lookup_of_text hText⟩
  rw [← hPlace, List.Nodup.idxOf_getElem (after queries).mirrored.distinct _ hBound]

/-- Names that were given at any two times are equal if their texts are, and not otherwise. -/
theorem named_eq_iff {later : Nat} {text other : String} {name partner : Name}
    (hText : queries[moment]? = some (.intern text))
    (hName : (initial.answerAll queries).1[moment]? = some (.named name))
    (hOther : queries[later]? = some (.intern other))
    (hPartner : (initial.answerAll queries).1[later]? = some (.named partner)) :
    name = partner ↔ text = other := by
  obtain ⟨_, hFirst, hFound⟩ := named_of_intern hFits hText
  obtain ⟨_, hSecond, hFound'⟩ := named_of_intern hFits hOther
  cases hName.symm.trans hFirst
  cases hPartner.symm.trans hSecond
  constructor
  · rintro rfl
    exact Option.some.inj (hFound.symm.trans hFound')
  · rintro rfl
    exact eq_of_text hFound hFound'

end

/-- A name is spelled as it is when all has been asked, or by the placeholder if it comes too early. -/
theorem spelled_of_lookup {name : Name} (h : queries[moment]? = some (.lookup name)) :
    (initial.answerAll queries).1[moment]? =
      some (.spelled (if name.raw.toNat < (after (queries.take moment)).size
        then (after queries).lookup name else "<unknown>")) := by
  have hAnswer : (initial.answerAll queries).1[moment]? =
      some (.spelled ((after (queries.take moment)).lookup name)) := by
    rw [getElem?_answers, h]
    rfl
  rw [hAnswer]
  split
  next hUsed => rw [(growsTo_after queries moment).lookup hUsed]
  next hUnused => rw [lookup_of_size_le (Nat.le_of_not_lt hUnused)]

/-- The table is longer after a query exactly if this asked for the number of a new text. -/
theorem size_after_succ_ne_iff (queries : List Query) (moment : Nat) :
    (after (queries.take (moment + 1))).size ≠ (after (queries.take moment)).size ↔
      ∃ text ∉ (after (queries.take moment)).strings, queries[moment]? = some (.intern text) := by
  cases hQuery : queries[moment]? with
  | none =>
      have hSame : queries.take (moment + 1) = queries.take moment := by
        rw [List.take_add_one, hQuery]
        exact List.append_nil _
      rw [hSame]
      exact iff_of_false (fun hOther => hOther rfl) (fun ⟨_, _, hNone⟩ => nomatch hNone)
  | some query =>
      rw [after_succ hQuery]
      cases query with
      | intern text =>
          refine (size_intern_ne_iff _ text).trans ⟨fun hNew => ⟨text, hNew, rfl⟩, ?_⟩
          rintro ⟨_, hNew, hSame⟩
          cases hSame
          exact hNew
      | lookup name =>
          exact iff_of_false (fun hOther => hOther rfl) (fun ⟨_, _, hOther⟩ => nomatch hOther)

end

open Lexer

/-- A table that queries to a new one lead to holds the reserved texts and then, each once, the other texts
that were numbered, in the order in which they first were. Its map and this row are inverse to each other, and
a caller whose look at the map was overtaken by later queries is answered like any other. The number of a text
is its place in the row, from the first time it is asked for; so equal names are names of equal texts, and a
name is spelled the same at all times. A number that no text has yet is spelled by a placeholder. Only a new
text makes the table longer. A source text adds its identifiers in the same way. -/
theorem numbering_stable (queries : List Query) (hFits : (after queries).size ≤ capacity) :
    let answers := (initial.answerAll queries).1
    let table := after queries
    (table.strings = reservedTexts ++ unseen reservedTexts (queries.filterMap Query.text?) ∧
      table.strings.Nodup) ∧
    (∀ text number, table.number? text = some number ↔ table.text? ⟨number⟩ = some text) ∧
    (∀ (moment : Nat) text,
      table.internAfter (after (queries.take moment)) text = table.intern text) ∧
    (∀ (moment : Nat) text, queries[moment]? = some (.intern text) →
      ∃ name, answers[moment]? = some (.named name) ∧ name.raw.toNat = table.strings.idxOf text ∧
        table.text? name = some text ∧ table.lookup name = text) ∧
    (∀ (moment later : Nat) text other name partner,
      queries[moment]? = some (.intern text) → answers[moment]? = some (.named name) →
      queries[later]? = some (.intern other) → answers[later]? = some (.named partner) →
        (name = partner ↔ text = other)) ∧
    (∀ (moment : Nat) name, queries[moment]? = some (.lookup name) →
      answers[moment]? = some (.spelled (if name.raw.toNat < (after (queries.take moment)).size
        then table.lookup name else "<unknown>"))) ∧
    (∀ name : Name, table.size ≤ name.raw.toNat → table.lookup name = "<unknown>") ∧
    (∀ moment : Nat, (after (queries.take (moment + 1))).size ≠ (after (queries.take moment)).size ↔
      ∃ text ∉ (after (queries.take moment)).strings, queries[moment]? = some (.intern text)) ∧
    ∀ source : String, ∃ words error, Scans 0 source.toList words error ∧
      (lex source table).2.strings = table.strings ++ unseen table.strings (identifiers words) := by
  intro answers table
  have hTable : table = (initial.internAll (queries.filterMap Query.text?)).2 := answerAll_table _ _
  refine ⟨⟨?_, table.mirrored.distinct⟩, number?_eq_some_iff hFits,
    fun moment => (growsTo_after queries moment).internAfter, fun _ _ => place_of_intern hFits,
    fun _ _ _ _ _ _ => named_eq_iff hFits, fun _ _ => spelled_of_lookup, fun _ => lookup_of_size_le,
    size_after_succ_ne_iff queries, fun source => ?_⟩
  · rw [hTable, strings_internAll, strings_initial]
  · exact ⟨_, _, scans_scan 0 source.toList, by rw [lex_table, strings_internAll]⟩

/-- The number 8 is asked for before it has a text. Then a new text gets it, a reserved word and the empty
text keep theirs, and the new text is asked for again. -/
theorem numbering_stable_askedBefore :
    let queries : List Query :=
      [.lookup ⟨8⟩, .intern "n", .intern "while", .intern "", .lookup ⟨8⟩, .intern "n", .intern "m"]
    let answers := (initial.answerAll queries).1
    (after queries).size ≤ capacity ∧
      (after queries).strings = reservedTexts ++ ["n", "m"] ∧
      answers[0]? = some (.spelled "<unknown>") ∧ answers[4]? = some (.spelled "n") ∧
      (∃ name, answers[1]? = some (.named name) ∧ name.raw.toNat = 8) ∧
      (∃ name, answers[2]? = some (.named name) ∧ name.raw.toNat = 3) ∧
      ∃ words error, Scans 0 "m k // n\nn k".toList words error ∧
        (lex "m k // n\nn k" (after queries)).2.strings =
          reservedTexts ++ ["n", "m"] ++ unseen (reservedTexts ++ ["n", "m"]) (identifiers words) := by
  intro queries answers
  have hFits : (after queries).size ≤ capacity := by decide
  obtain ⟨⟨hStrings, -⟩, -, -, hNumbers, -, hTexts, -, -, hLex⟩ := numbering_stable queries hFits
  have hTable : (after queries).strings = reservedTexts ++ ["n", "m"] := by
    rw [hStrings]
    decide
  obtain ⟨first, hFirst, hPlace, -⟩ := hNumbers 1 "n" rfl
  obtain ⟨second, hSecond, hReserved, -⟩ := hNumbers 2 "while" rfl
  rw [hTable] at hPlace hReserved
  refine ⟨hFits, hTable, hTexts 0 ⟨8⟩ rfl, hTexts 4 ⟨8⟩ rfl, ⟨first, hFirst, hPlace⟩,
    ⟨second, hSecond, hReserved⟩, ?_⟩
  rw [← hTable]
  exact hLex _

end Interner

end IntScript
