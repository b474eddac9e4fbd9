import IntScript.Diagnostic.Terminal
import IntScript.Proofs.Diagnostic.Positions

/-! What an emitter writes. Every piece of writing adds segments to the text and leaves the settings of the
emitter as they were, so the report of a diagnostic does not depend on what was reported before. -/
namespace IntScript

/-- Lines and columns are counted from one. -/
theorem LineTable.position_pos (table : LineTable) (offset : Nat) :
    0 < (table.position offset).1 ∧ 0 < (table.position offset).2 :=
  ⟨Nat.lt_of_lt_of_le Nat.zero_lt_one (Nat.le_max_left _ _), Nat.succ_pos _⟩

namespace Terminal

def labelLayout (terminal : Terminal) : Label → List Segment :=
  match terminal.source with
  | none => bareLabel
  | some table => sourceLabel table terminal.path

def headerLayout (diagnostic : Diagnostic) : List Segment :=
  [.styled .error "error", .styled .strong s!"[{diagnostic.code.text}]",
    .plain s!": {diagnostic.message}\n"]

/-- The report divided in the same way as the emitter's work is. -/
theorem layout_eq (terminal : Terminal) (diagnostic : Diagnostic) :
    terminal.layout diagnostic =
      headerLayout diagnostic ++ diagnostic.labels.flatMap terminal.labelLayout ++
        diagnostic.notes.flatMap (remark .note "note") ++
        diagnostic.help.flatMap (remark .help "help") :=
  rfl

end Terminal

namespace Emitter

open Terminal

def add (emitter : Emitter) (segments : List Segment) : Emitter :=
  { emitter with
    written := emitter.written ++ String.join (segments.map (Segment.write emitter.colors)) }

theorem add_nil (emitter : Emitter) : emitter.add [] = emitter := by
  rw [add, List.map_nil, String.join_nil, String.append_empty]

/-- Writing twice is writing the two rows of segments joined. -/
theorem add_add (emitter : Emitter) (first second : List Segment) :
    (emitter.add first).add second = emitter.add (first ++ second) := by
  simp only [add, List.map_append, String.join_append, String.append_assoc]

/-- The source, its path and the choice of colours outlast everything that is written. -/
theorem toTerminal_add (emitter : Emitter) (segments : List Segment) :
    (emitter.add segments).toTerminal = emitter.toTerminal :=
  rfl

theorem write_eq (emitter : Emitter) (text : String) :
    emitter.write text = emitter.add [.plain text] := by
  simp only [write, add, List.map_cons, List.map_nil, String.join_cons, String.join_nil,
    String.append_empty, Segment.write, Segment.plain]

theorem writeStyled_eq (emitter : Emitter) (style : Style) (text : String) :
    emitter.writeStyled style text = emitter.add [.styled style text] := by
  obtain ⟨⟨colors, source, path⟩, written⟩ := emitter
  cases colors <;>
    simp [writeStyled, write, add, String.join_cons, Segment.write, Segment.styled]

theorem writeHeader_eq (emitter : Emitter) (diagnostic : Diagnostic) :
    emitter.writeHeader diagnostic = emitter.add (headerLayout diagnostic) := by
  simp only [writeHeader, write_eq, writeStyled_eq, add_add, headerLayout, List.cons_append,
    List.nil_append]

/-- Lines and columns are counted from one, so that going one below is never refused. -/
theorem below?_eq {number : Nat} (h : 0 < number) : below? number = some (number - 1) := by
  cases number with
  | zero => exact absurd h (Nat.lt_irrefl 0)
  | succ number => rfl

/-- A label can always be written, and the source is there again afterwards. -/
theorem writeLabel_eq (emitter : Emitter) (label : Label) :
    emitter.writeLabel label = some (emitter.add (emitter.labelLayout label)) := by
  obtain ⟨⟨colors, source, path⟩, written⟩ := emitter
  cases source with
  | none =>
      cases hPrimary : label.isPrimary <;>
        simp only [writeLabel, hPrimary, write_eq, writeStyled_eq, add_add, labelLayout, bareLabel,
          List.cons_append, List.nil_append, if_true, Bool.false_eq_true, if_false]
  | some table =>
      obtain ⟨hLine, hColumn⟩ := table.position_pos label.span.first.toNat
      simp only [writeLabel, labelLayout, sourceLabel]
      generalize table.position label.span.first.toNat = place at hLine hColumn
      obtain ⟨line, column⟩ := place
      simp only [below?_eq hLine, below?_eq hColumn, Option.bind_eq_bind, Option.bind_some, write_eq,
        writeStyled_eq, add_add, List.cons_append, List.nil_append]
      cases label.isPrimary <;>
        simp only [add, List.map_cons, List.map_nil, String.join_cons, String.join_nil, Segment.write,
          Segment.plain, toString, String.append_assoc, String.append_empty, if_true,
          Bool.false_eq_true, if_false]

/-- Writing one thing after the other adds the segments of each, if each adds segments that only the
settings decide. -/
theorem foldlM_eq {α : Type} {layout : Terminal → α → List Segment} {step : Emitter → α → Option Emitter}
    (hStep : ∀ emitter item, step emitter item = some (emitter.add (layout emitter.toTerminal item)))
    (emitter : Emitter) (items : List α) :
    items.foldlM step emitter = some (emitter.add (items.flatMap (layout emitter.toTerminal))) := by
  induction items generalizing emitter with
  | nil => rw [List.flatMap_nil, add_nil, List.foldlM_nil, Option.pure_def]
  | cons item items ih =>
      rw [List.foldlM_cons, hStep, Option.bind_eq_bind, Option.bind_some, ih, toTerminal_add, add_add,
        List.flatMap_cons]

/-- No label is refused, and each is written as if it were the first. -/
theorem writeLabels_eq (emitter : Emitter) (labels : List Label) :
    emitter.writeLabels labels = some (emitter.add (labels.flatMap emitter.labelLayout)) :=
  foldlM_eq writeLabel_eq emitter labels

theorem foldl_writeRemark (emitter : Emitter) (style : Style) (title : String) (messages : List String) :
    messages.foldl (writeRemark style title) emitter =
      emitter.add (messages.flatMap (remark style title)) := by
  induction messages generalizing emitter with
  | nil => rw [List.flatMap_nil, add_nil, List.foldl_nil]
  | cons message messages ih =>
      have hMessage : writeRemark style title emitter message = emitter.add (remark style title message) := by
        simp only [writeRemark, write_eq, writeStyled_eq, add_add, remark, List.cons_append,
          List.nil_append]
      rw [List.foldl_cons, hMessage, ih, add_add, List.flatMap_cons]

/-- A report never fails, and it is added behind whatever was written before. -/
theorem emit_eq (emitter : Emitter) (diagnostic : Diagnostic) :
    emitter.emit diagnostic = some (emitter.add (emitter.layout diagnostic)) := by
  rw [emit, writeHeader_eq, writeLabels_eq, Option.bind_eq_bind, Option.bind_some, Option.pure_def]
  simp only [foldl_writeRemark, toTerminal_add, add_add, layout_eq, List.append_assoc]

/-- All the reports stand one behind the other. -/
theorem emitAll_eq (emitter : Emitter) (diagnostics : List Diagnostic) :
    emitter.emitAll diagnostics = some (emitter.add (diagnostics.flatMap emitter.layout)) :=
  foldlM_eq emit_eq emitter diagnostics

theorem fresh_add_layout (terminal : Terminal) (diagnostic : Diagnostic) :
    (fresh terminal).add (terminal.layout diagnostic) =
      { terminal with written := terminal.render diagnostic } := by
  rw [add, fresh, String.empty_append, render]

/-- With nothing written before, the text of the emitter is the reports of fresh terminals, joined. -/
theorem fresh_add_layouts (terminal : Terminal) (diagnostics : List Diagnostic) :
    (fresh terminal).add (diagnostics.flatMap terminal.layout) =
      { terminal with written := String.join (diagnostics.map terminal.render) } := by
  rw [add, fresh, String.empty_append]
  congr 1
  induction diagnostics with
  | nil => rfl
  | cons diagnostic diagnostics ih =>
      rw [List.flatMap_cons, List.map_append, String.join_append, ih, List.map_cons, String.join_cons,
        render]

/-- What is written of diagnostics is made up of the segments of their reports. -/
theorem renderAll_eq (terminal : Terminal) (diagnostics : List Diagnostic) :
    terminal.renderAll diagnostics =
      String.join ((diagnostics.flatMap terminal.layout).map (Segment.write terminal.colors)) := by
  rw [renderAll, emitAll_eq]
  exact String.empty_append

/-- An emitter writes every report as if it were its first, whatever the spans of the labels are, and it is
then as it was before but for the text. A label is written against the source that is attached, whatever
was written before it. Wherever a label begins, the line is one that the source has, and the line and the
column are at least one. -/
theorem emitAll_independent (mode : ColorMode) (isTerminal : Bool) (source path : Option String)
    (diagnostics : List Diagnostic) :
    let terminal : Terminal := ⟨mode.applies isTerminal, source.map LineTable.ofSource, path⟩
    (∀ diagnostic, (fresh terminal).emit diagnostic =
      some { terminal with written := terminal.render diagnostic }) ∧
    (fresh terminal).emitAll diagnostics =
      some { terminal with written := String.join (diagnostics.map terminal.render) } ∧
    terminal.renderAll diagnostics =
      String.join (diagnostics.map (fun diagnostic => terminal.renderAll [diagnostic])) ∧
    (∀ earlier diagnostic passed label, ∃ before : Emitter,
      ((fresh terminal).emitAll earlier).bind
        (fun emitter => (emitter.writeHeader diagnostic).writeLabels passed) = some before ∧
      before.source = source.map LineTable.ofSource ∧
      before.writeLabel label = some { before with
        written := before.written ++
          String.join ((terminal.labelLayout label).map (Segment.write terminal.colors)) }) ∧
    ∀ table, terminal.source = some table → ∀ offset,
      1 ≤ (table.position offset).1 ∧ (table.position offset).1 ≤ table.offsets.size ∧
        1 ≤ (table.position offset).2 := by
  intro terminal
  have hEmit (diagnostic : Diagnostic) : (fresh terminal).emit diagnostic =
      some { terminal with written := terminal.render diagnostic } := by
    rw [emit_eq]
    exact congrArg some (fresh_add_layout terminal diagnostic)
  have hAll (diagnostics : List Diagnostic) : (fresh terminal).emitAll diagnostics =
      some { terminal with written := String.join (diagnostics.map terminal.render) } := by
    rw [emitAll_eq]
    exact congrArg some (fresh_add_layouts terminal diagnostics)
  have hRender (diagnostics : List Diagnostic) :
      terminal.renderAll diagnostics = String.join (diagnostics.map terminal.render) := by
    rw [renderAll, hAll]
  refine ⟨hEmit, hAll diagnostics, ?_, fun earlier diagnostic passed label => ?_, fun table hTable offset => ?_⟩
  · simp only [hRender, List.map_cons, List.map_nil, String.join_cons, String.join_nil,
      String.append_empty]
  · rw [hAll, Option.bind_some, writeHeader_eq, writeLabels_eq]
    exact ⟨_, rfl, rfl, writeLabel_eq _ label⟩
  · obtain ⟨text, -, rfl⟩ := Option.map_eq_some_iff.mp hTable
    obtain ⟨hLine, hColumn⟩ := (LineTable.ofSource text).position_pos offset
    exact ⟨hLine, LineTable.size_offsets text ▸ LineTable.lineAt_le text offset, hColumn⟩

end Emitter

end IntScript
