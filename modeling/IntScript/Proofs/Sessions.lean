import IntScript.Proofs.Grammar.Completeness
import IntScript.Proofs.Renaming.Runs
import IntScript.Proofs.Renaming.Sources

/-! Sessions: source texts one after the other, with one interpreter, one table of names and one print
buffer. What a session makes of a source is what it would make of it as its first one. -/
namespace IntScript

/-- The builtin of a session in which calls were made before. Its answers may depend on those too. -/
def Builtin.after (earlier : History) (builtin : Builtin) : Builtin :=
  { builtin with answer := fun history => builtin.answer (history ++ earlier) }

/-- What the builtin answers depends on the arguments only. -/
def Builtin.Pure (builtin : Builtin) : Prop :=
  ∀ (earlier history : History) (arguments : List Int32),
    builtin.answer earlier arguments = builtin.answer history arguments

def Builtins.after (earlier : History) (builtins : Builtins) : Builtins :=
  ⟨builtins.entries.map (Builtin.after earlier)⟩

/-- A builtin that goes by its arguments only is the same after any calls. -/
theorem Builtins.after_of_pure {builtins : Builtins} (h : ∀ builtin ∈ builtins.entries, builtin.Pure)
    (earlier : History) : builtins.after earlier = builtins := by
  have hSame : ∀ builtin ∈ builtins.entries, builtin.after earlier = builtin := by
    intro builtin hMem
    obtain ⟨name, answer, output⟩ := builtin
    have hAnswer : (fun history => answer (history ++ earlier)) = answer := by
      funext history arguments
      exact h _ hMem _ _ _
    rw [Builtin.after, hAnswer]
  rw [after, List.map_congr_left hSame, List.map_id']

inductive Answer where
  /-- It is a program that ran to its end. -/
  | done
  /-- It is no program. -/
  | refused (report : Diagnostic)
  /-- It is a program, and a fault ended it. -/
  | failed (failure : Failure String)
deriving DecidableEq

/-- The answer to a source text, with the calls of builtins that its program made. -/
structure Reply where
  answer : Answer
  history : History
deriving DecidableEq

namespace Interpreter

def replyTo (result : RunResult) : Reply :=
  match result.outcome with
  | .ok () => ⟨.done, result.history⟩
  | .error failure => ⟨.failed failure, result.history⟩

/-- Read a source text and run it, if it is a program. -/
def reply (steps : Nat) (interpreter : Interpreter) (source : String) (names : Interner) :
    Option (Reply × Interpreter) × Interner :=
  match parseSource source names with
  | (.error error, names) => (some (⟨.refused (error.diagnostic names), []⟩, interpreter), names)
  | (.ok program, names) =>
      let (ended, names) := interpreter.runWithin steps program names
      (ended.map (fun ended => (replyTo ended.1, ended.2)), names)

def texts (interpreter : Interpreter) (source : String) : List String :=
  Lexer.identifiers (Lexer.scan 0 source.toList).tokens ++ interpreter.builtins.names

/-- The reply to a source text by a new interpreter with a new table of names. -/
def replyAlone (builtins : Builtins) (limit : Option Nat) (steps : Nat) (source : String) : Option Reply :=
  ((new builtins limit).reply steps source Interner.initial).1.map Prod.fst

/-- First the identifiers of the source, and then the names of the builtins. -/
theorem internAll_texts (interpreter : Interpreter) (source : String) (names : Interner) :
    (names.internAll (interpreter.texts source)).2 =
      ((parseSource source names).2.internAll interpreter.builtins.names).2 := by
  rw [texts, Interner.internAll_append, parseSource_table]

/-- A text that is no program runs nothing, but its identifiers have been numbered. -/
theorem reply_of_refused {source : String} {names read : Interner} {error : SourceError}
    (h : parseSource source names = (.error error, read)) (steps : Nat) (interpreter : Interpreter) :
    interpreter.reply steps source names =
      (some (⟨.refused (error.diagnostic read), []⟩, interpreter), read) := by
  rw [reply, h]

theorem reply_of_read {source : String} {names read : Interner} {program : Block}
    (h : parseSource source names = (.ok program, read)) (steps : Nat) (interpreter : Interpreter) :
    interpreter.reply steps source names =
      ((interpreter.runWithin steps program read).1.map (fun ended => (replyTo ended.1, ended.2)),
        (interpreter.runWithin steps program read).2) := by
  rw [reply, h]

/-- Only texts of the source and names of builtins are numbered. -/
theorem reply_table (steps : Nat) (interpreter : Interpreter) (source : String) (names : Interner) :
    ∃ numbered, numbered <+: interpreter.texts source ∧
      (interpreter.reply steps source names).2 = (names.internAll numbered).2 := by
  have hTable := parseSource_table source names
  rcases hRead : parseSource source names with ⟨error | program, read⟩
  · rw [hRead] at hTable
    rw [reply_of_refused hRead]
    exact ⟨_, List.prefix_append _ _, hTable⟩
  · rw [hRead] at hTable
    rw [reply_of_read hRead]
    obtain ⟨numbered, hPrefix, hRun⟩ := runWithin_table steps interpreter program read
    refine ⟨_, (List.prefix_append_right_inj _).mpr hPrefix, ?_⟩
    rw [Interner.internAll_append, ← hTable]
    exact hRun

section

variable {interpreter : Interpreter} (hIdle : interpreter.calls.depth = 0) {names others : Interner}

include hIdle

/-- However a run ends, the interpreter has no function running afterward. -/
theorem reply_idle {steps : Nat} {source : String} {answered : Reply} {ended : Interpreter}
    (h : (interpreter.reply steps source names).1 = some (answered, ended)) : ended = interpreter := by
  rcases hRead : parseSource source names with ⟨error | program, read⟩
  · rw [reply_of_refused hRead] at h
    cases h
    rfl
  · rw [reply_of_read hRead] at h
    obtain ⟨run, hRun, hReply⟩ := Option.map_eq_some_iff.mp h
    cases hReply
    exact runWithin_idle hIdle hRun

/-- A source has one reply, however names are numbered. -/
theorem reply_like (source : String)
    (hFits : (names.internAll (interpreter.texts source)).2.size ≤ Interner.capacity)
    (hRoom : (others.internAll (interpreter.texts source)).2.size ≤ Interner.capacity) (steps : Nat) :
    (interpreter.reply steps source names).1.map Prod.fst =
      (interpreter.reply steps source others).1.map Prod.fst := by
  rw [internAll_texts] at hFits hRoom
  have hRead := parseSource_like hFits hRoom source (Interner.growsTo_internAll _ _)
    (Interner.growsTo_internAll _ _)
  rcases hFirst : parseSource source names with ⟨found, read⟩
  rcases hSecond : parseSource source others with ⟨found', read'⟩
  rw [hFirst] at hFits hRead
  rw [hSecond] at hRoom hRead
  cases hRead with
  | error same =>
      rw [reply_of_refused hFirst, reply_of_refused hSecond]
      simp only [Option.map_some]
      rw [same]
  | ok same =>
      have hRun := runWithin_like hIdle hFits hRoom same steps
      have hReply := congrArg (Option.map replyTo) hRun
      rw [reply_of_read hFirst, reply_of_read hSecond]
      simpa only [Option.map_map, Function.comp_def] using hReply

end

end Interpreter

/-- What source texts given one after the other share. -/
structure Session where
  interpreter : Interpreter
  names : Interner
  /-- The calls of builtins made so far. -/
  history : History
  /-- What was written so far. -/
  printed : PrintBuffer

namespace Session

def new (builtins : Builtins) (limit : Option Nat) : Session :=
  ⟨Interpreter.new builtins limit, Interner.initial, [], PrintBuffer.empty⟩

def submit (steps : Nat) (session : Session) (source : String) : Option (Reply × Session) :=
  let interpreter := { session.interpreter with builtins := session.interpreter.builtins.after session.history }
  let (answered, names) := interpreter.reply steps source session.names
  answered.map (fun (reply, ended) =>
    (reply,
      { interpreter := { session.interpreter with calls := ended.calls }
        names
        history := reply.history ++ session.history
        printed := session.printed.write reply.history.output }))

def submitAll (steps : Nat) (session : Session) : List String → Option (List Reply × Session)
  | [] => some ([], session)
  | source :: sources => do
      let (reply, session) ← session.submit steps source
      let (replies, session) ← session.submitAll steps sources
      some (reply :: replies, session)

/-- The session has the interpreter that it began with, with no function running, and its table holds
nothing but these texts and the reserved ones. -/
structure Fresh (builtins : Builtins) (limit : Option Nat) (texts : List String) (session : Session) :
    Prop where
  interpreter : session.interpreter = Interpreter.new builtins limit
  known : session.names.strings ⊆ (Interner.initial.internAll texts).2.strings

theorem fresh_new (builtins : Builtins) (limit : Option Nat) : (new builtins limit).Fresh builtins limit [] :=
  ⟨rfl, List.Subset.refl _⟩

section

variable {builtins : Builtins} (hPure : ∀ builtin ∈ builtins.entries, builtin.Pure) {limit : Option Nat}
  {texts : List String} {session : Session} (h : session.Fresh builtins limit texts)

include hPure h

/-- A source text is answered by the interpreter that the session began with, and only its table is
another one. -/
theorem submit_eq (steps : Nat) (source : String) :
    session.submit steps source =
      (((Interpreter.new builtins limit).reply steps source session.names).1.map fun (reply, ended) =>
        (reply,
          { interpreter := { Interpreter.new builtins limit with calls := ended.calls }
            names := ((Interpreter.new builtins limit).reply steps source session.names).2
            history := reply.history ++ session.history
            printed := session.printed.write reply.history.output })) := by
  have hBuiltins : session.interpreter.builtins = builtins := by rw [h.interpreter, Interpreter.new]
  rw [submit, hBuiltins, builtins.after_of_pure hPure, h.interpreter]
  rfl

/-- What came before a source has no part in its reply. -/
theorem submit_reply (steps : Nat) (source : String)
    (hFits : (Interner.initial.internAll
      (texts ++ (Interpreter.new builtins limit).texts source)).2.size ≤ Interner.capacity) :
    (session.submit steps source).map Prod.fst = Interpreter.replyAlone builtins limit steps source := by
  rw [Interner.internAll_append] at hFits
  have hInitial : Interner.initial.strings ⊆ (Interner.initial.internAll texts).2.strings :=
    (Interner.growsTo_internAll _ texts).subset
  have hShared := Interner.size_le_of_subset
    (Interner.subset_internAll h.known ((Interpreter.new builtins limit).texts source))
  have hAlone := Interner.size_le_of_subset
    (Interner.subset_internAll hInitial ((Interpreter.new builtins limit).texts source))
  have hReply := Interpreter.reply_like rfl source
    (Nat.le_trans hShared hFits) (Nat.le_trans hAlone hFits) steps
  rw [submit_eq hPure h, Option.map_map]
  exact hReply

/-- However a source is answered, the session can go on as if it were new. -/
theorem submit_fresh {steps : Nat} {source : String} {reply : Reply} {later : Session}
    (hSubmit : session.submit steps source = some (reply, later)) :
    later.Fresh builtins limit (texts ++ (Interpreter.new builtins limit).texts source) := by
  rw [submit_eq hPure h] at hSubmit
  obtain ⟨⟨answered, ended⟩, hReply, hLater⟩ := Option.map_eq_some_iff.mp hSubmit
  have hEnded := Interpreter.reply_idle rfl hReply
  obtain ⟨numbered, hPrefix, hTable⟩ :=
    Interpreter.reply_table steps (Interpreter.new builtins limit) source session.names
  cases hLater
  refine ⟨?_, ?_⟩
  · rw [hEnded]
  · rw [hTable, Interner.internAll_append]
    exact List.Subset.trans (Interner.subset_internAll h.known numbered)
      (Interner.growsTo_of_prefix _ hPrefix).subset

end

/-- The calls that a program made and what it wrote are added to those before. -/
theorem submit_record {session later : Session} {steps : Nat} {source : String} {reply : Reply}
    (h : session.submit steps source = some (reply, later)) :
    later.history = reply.history ++ session.history ∧
      later.printed = session.printed.write reply.history.output := by
  obtain ⟨answered, _, hLater⟩ := Option.map_eq_some_iff.mp h
  cases hLater
  exact ⟨rfl, rfl⟩

/-- What is recorded and printed is added up over the texts. -/
theorem submitAll_record {session last : Session} {steps : Nat} {sources : List String}
    {replies : List Reply} (h : session.submitAll steps sources = some (replies, last)) :
    last.history = (replies.reverse.map (·.history)).flatten ++ session.history ∧
      last.printed.text = session.printed.text ++ String.join (replies.map (·.history.output)) := by
  induction sources generalizing session replies with
  | nil =>
      cases h
      refine ⟨rfl, ?_⟩
      rw [List.map_nil, String.join_nil, String.append_empty]
  | cons source sources ih =>
      rw [submitAll] at h
      obtain ⟨⟨reply, later⟩, hSubmit, h⟩ := Option.bind_eq_some_iff.mp h
      obtain ⟨⟨others, final⟩, hOthers, h⟩ := Option.bind_eq_some_iff.mp h
      cases h
      obtain ⟨hHistory, hPrinted⟩ := submit_record hSubmit
      obtain ⟨hLast, hText⟩ := ih hOthers
      constructor
      · rw [hLast, hHistory]
        simp
      · rw [hText, hPrinted, PrintBuffer.write]
        simp [String.append_assoc]

section

variable {builtins : Builtins} (hPure : ∀ builtin ∈ builtins.entries, builtin.Pure) {limit : Option Nat}
  {texts : List String} {session : Session} (h : session.Fresh builtins limit texts)

include hPure h

/-- As long as there are numbers enough, each reply is that of a new interpreter, whatever came
before. -/
theorem submitAll_replies (steps : Nat) (sources : List String)
    (hFits : (Interner.initial.internAll
      (texts ++ sources.flatMap (Interpreter.new builtins limit).texts)).2.size ≤ Interner.capacity) :
    (session.submitAll steps sources).map Prod.fst =
      sources.mapM (Interpreter.replyAlone builtins limit steps) := by
  induction sources generalizing session texts with
  | nil => rfl
  | cons source sources ih =>
      rw [List.flatMap_cons, ← List.append_assoc] at hFits
      have hFirst := hFits
      rw [Interner.internAll_append] at hFirst
      have hReply := submit_reply hPure h steps source
        (Nat.le_trans (Interner.growsTo_internAll _ _).size hFirst)
      rw [submitAll, List.mapM_cons, ← hReply]
      rcases hSubmit : session.submit steps source with _ | ⟨reply, later⟩
      · rfl
      · have hOthers := ih (submit_fresh hPure h hSubmit) hFits
        rw [← hOthers]
        simp only [Option.map_some, Option.bind_eq_bind, Option.bind_some]
        cases later.submitAll steps sources <;> rfl

end

/-- The programs of a session are answered as if each were the only one, and the session makes the calls
and prints the texts that they make and print alone. All this as long as there are numbers for all the
texts of the session. -/
theorem submitAll_independent {builtins : Builtins} (hPure : ∀ builtin ∈ builtins.entries, builtin.Pure)
    (limit : Option Nat) (steps : Nat) (sources : List String)
    (hFits : (Interner.initial.internAll
      (sources.flatMap (Interpreter.new builtins limit).texts)).2.size ≤ Interner.capacity) :
    ((new builtins limit).submitAll steps sources).map Prod.fst =
        sources.mapM (Interpreter.replyAlone builtins limit steps) ∧
      ∀ replies last, (new builtins limit).submitAll steps sources = some (replies, last) →
        last.history = (replies.reverse.map (·.history)).flatten ∧
          last.printed.text = String.join (replies.map (·.history.output)) := by
  refine ⟨submitAll_replies hPure (fresh_new builtins limit) steps sources hFits, ?_⟩
  intro replies last hSubmit
  obtain ⟨hHistory, hText⟩ := submitAll_record hSubmit
  rw [new] at hHistory hText
  constructor
  · rw [hHistory, List.append_nil]
  · rw [hText, PrintBuffer.empty, String.empty_append]

theorem pure_standard : ∀ builtin ∈ Builtins.standard.entries, builtin.Pure := by
  intro builtin hMem
  cases List.mem_singleton.mp hMem
  exact fun _ _ _ => rfl

/-- A call of one literal is read as such, whatever follows the end of the text. -/
theorem parseSource_call {source : String} {names : Interner} {callee : Name} {value : Int32}
    (h : (lex source names).1.toOption.map Grammar.beforeEnd =
      some [.identifier callee, .delimiter .openParen, .integer value, .delimiter .closeParen]) :
    parseSource source names = (.ok [.evaluate (.call callee [.literal value])], (lex source names).2) := by
  have hArgument : Grammar.Operand Grammar.unopened 0 [.integer value, .delimiter .closeParen]
      (.literal value) [.delimiter .closeParen] := .primary (.literal value _)
  have hCall : Grammar.Operand Grammar.unopened 0
      [.identifier callee, .delimiter .openParen, .integer value, .delimiter .closeParen]
      (.call callee [.literal value]) [] :=
    .primary (.call callee (.some (.last (hArgument.looser (Nat.zero_le _)))))
  obtain ⟨tokens, hTokens, hKinds⟩ := Option.map_eq_some_iff.mp h
  have hParse : parse tokens = .ok [.evaluate (.call callee [.literal value])] := by
    rw [parse_eq_ok_iff, hKinds]
    exact .cons (.evaluate (hCall.looser (Nat.zero_le _))) (.nil [])
  rw [parseSource]
  rcases hRead : lex source names with ⟨error | found, table⟩
  · rw [hRead] at hTokens
    cases hTokens
  · rw [hRead] at hTokens
    cases hTokens
    simp only [hParse]

/-- Programs that fail and a text that is none, around a program that prints. -/
theorem submitAll_independent_afterFailures :
    (∀ builtin ∈ Builtins.standard.entries, builtin.Pure) ∧
      (Interner.initial.internAll (["f(2)", "g ?", "println(3)", "h(4)"].flatMap
        (Interpreter.new Builtins.standard (some 3)).texts)).2.size ≤ Interner.capacity ∧
      ∃ last, (new Builtins.standard (some 3)).submitAll 40 ["f(2)", "g ?", "println(3)", "h(4)"] =
          some ([⟨.failed ⟨.undefinedFunction "f", []⟩, []⟩,
            ⟨.refused (LexError.invalidCharacter '?' ⟨2, 3⟩).diagnostic, []⟩,
            ⟨.done, [⟨"println", [3], "3\n"⟩]⟩,
            ⟨.failed ⟨.undefinedFunction "h", []⟩, []⟩], last) ∧
        last.history = [⟨"println", [3], "3\n"⟩] ∧ last.printed.text = "3\n" := by
  have hFits : (Interner.initial.internAll (["f(2)", "g ?", "println(3)", "h(4)"].flatMap
      (Interpreter.new Builtins.standard (some 3)).texts)).2.size ≤ Interner.capacity := by
    decide +kernel
  have hFirst : Interpreter.replyAlone Builtins.standard (some 3) 40 "f(2)" =
      some ⟨.failed ⟨.undefinedFunction "f", []⟩, []⟩ := by
    have hRead : parseSource "f(2)" Interner.initial =
        (.ok [.evaluate (.call ⟨8⟩ [.literal 2])], (lex "f(2)" Interner.initial).2) :=
      parseSource_call (by decide +kernel)
    rw [Interpreter.replyAlone, Interpreter.reply_of_read hRead]
    decide +kernel
  have hSecond : Interpreter.replyAlone Builtins.standard (some 3) 40 "g ?" =
      some ⟨.refused (LexError.invalidCharacter '?' ⟨2, 3⟩).diagnostic, []⟩ := by
    decide +kernel
  have hThird : Interpreter.replyAlone Builtins.standard (some 3) 40 "println(3)" =
      some ⟨.done, [⟨"println", [3], "3\n"⟩]⟩ := by
    have hRead : parseSource "println(3)" Interner.initial =
        (.ok [.evaluate (.call ⟨7⟩ [.literal 3])], (lex "println(3)" Interner.initial).2) :=
      parseSource_call (by decide +kernel)
    rw [Interpreter.replyAlone, Interpreter.reply_of_read hRead]
    decide +kernel
  -- Alone, `h` has the number that `f` has in the session.
  have hFourth : Interpreter.replyAlone Builtins.standard (some 3) 40 "h(4)" =
      some ⟨.failed ⟨.undefinedFunction "h", []⟩, []⟩ := by
    have hRead : parseSource "h(4)" Interner.initial =
        (.ok [.evaluate (.call ⟨8⟩ [.literal 4])], (lex "h(4)" Interner.initial).2) :=
      parseSource_call (by decide +kernel)
    rw [Interpreter.replyAlone, Interpreter.reply_of_read hRead]
    decide +kernel
  obtain ⟨hReplies, hRecord⟩ := submitAll_independent pure_standard (some 3) 40 _ hFits
  rw [List.mapM_cons, hFirst, List.mapM_cons, hSecond, List.mapM_cons, hThird, List.mapM_cons, hFourth,
    List.mapM_nil] at hReplies
  obtain ⟨⟨replies, last⟩, hSubmit, hEqual⟩ := Option.map_eq_some_iff.mp hReplies
  obtain ⟨hHistory, hPrinted⟩ := hRecord replies last hSubmit
  cases hEqual
  refine ⟨pure_standard, hFits, last, hSubmit, hHistory, ?_⟩
  rw [hPrinted]
  decide +kernel

end Session

end IntScript
