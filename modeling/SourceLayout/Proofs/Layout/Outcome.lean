import SourceLayout.Proofs.Layout.Dependence

/-! # When a layout fails, and what it leaves in the log

A layout refuses what is not a whole module, before it does anything else: the complaint
carries the span of what was refused, and the log is empty.  After that nothing can fail.
The questions about blank lines that could are never asked about empty groups, because the
search for paragraphs finds none (`ne_nil_of_mem_partition`).

The log of a module is one note that it is laid out and one note for each pair of
neighbouring items with an unknown span (`layOut_outcome`).  The imports that are grouped
all have spans, and so have the two ends of every gap between paragraphs, so neither of
these leaves a note.
-/
namespace SourceLayout

open Layout

namespace Node

/-- How many pairs of neighbouring items have an unknown span. -/
def unseenGaps (m : Node) : Nat :=
  (adjacent m.items).countP fun p => p.1.span.extent?.isNone || p.2.span.extent?.isNone

/-- The search for paragraphs of items leaves one note for each pair of neighbours with an
unknown span. -/
theorem notes_paragraphs_items (m : Node) :
    (paragraphs Located.span m.items).notes = List.replicate m.unseenGaps .gapUnknown :=
  notes_paragraphs_eq_replicate Located.span m.items

/-- The imports are grouped without a fault and without a note. -/
theorem importGroups_imports (m : Node) :
    importGroups m.imports = pure (importTexts m.imports) := by
  have hnotes := m.notes_importSection
  rw [importSection, Logged.bind_of_ok (result_importGroups m.imports)] at hnotes
  exact Logged.ext ((List.append_nil _).symm.trans hnotes) (result_importGroups m.imports)

end Node

/-- What is not a module is refused, with its shape and its span. -/
theorem layOut_of_not_module {l : Located Value} (h : l.value.isModule = false) :
    layOut l = Logged.breach (.notModule l.value.shape l.span) := by
  obtain ⟨span, value⟩ := l
  cases value with
  | node n =>
    have hn : n.isModule = false := h
    simp only [layOut, hn]
    rfl
  | _ => rfl

theorem Value.isModule_iff {v : Value} :
    v.isModule = true ↔ ∃ m, v = .node m ∧ m.kind = .wholeModule := by
  constructor
  · intro h
    cases v with
    | node m => exact ⟨m, rfl, of_decide_eq_true h⟩
    | _ => cases h
  · rintro ⟨m, rfl, hm⟩
    exact decide_eq_true hm

/-- **A layout fails exactly on what is not a module**, with a complaint that carries the span
it was given, and without a note.  For a module the log says that it is laid out, and that a
gap was not seen once for each pair of neighbouring items with an unknown span; grouping the
imports and writing the paragraphs of items cannot fail and add nothing to it. -/
theorem layOut_outcome (l : Located Value) :
    ((∃ f, (layOut l).result = .error f) ↔ ¬ ∃ m, l.value = .node m ∧ m.kind = .wholeModule) ∧
      (∀ f, (layOut l).result = .error f → (layOut l).notes = [] ∧
        ∃ b : Breach, f = .breach b ∧ b.violation =
          ⟨"format_module() expects a module, got " ++ l.value.shape.name, some l.span⟩) ∧
      ∀ m, l.value = .node m → m.kind = .wholeModule →
        (layOut l).notes.map Note.message =
            ("formatting module " ++ m.text.getD "None" ++ " (" ++ toString m.children.length ++
              " items)") ::
              List.replicate m.unseenGaps "no real span between groups, assuming no blank line" ∧
          (∃ groups, importGroups m.imports = pure groups) ∧
          ∃ groups, (paragraphs Located.span m.items).result = .ok groups ∧
            (∀ group ∈ groups, group ≠ []) ∧
            ∃ lines, layParagraphs Located.span (fun tree => tree.value.treeLines 0) groups =
              pure lines := by
  have hmodule : ∀ m, l.value = .node m → m.kind = .wholeModule →
      (layOut l).result = .ok (finishedText m.lines) ∧
        (layOut l).notes = .layingOut m.text m.children.length ::
          List.replicate m.unseenGaps .gapUnknown := by
    obtain ⟨span, value⟩ := l
    rintro m rfl hm
    refine ⟨result_layOut hm span, ?_⟩
    rw [notes_layOut hm, ← notes_paragraphs, m.notes_paragraphs_items]
  refine ⟨⟨?_, ?_⟩, ?_, ?_⟩
  · rintro ⟨f, hf⟩ ⟨m, hvalue, hm⟩
    rw [(hmodule m hvalue hm).1] at hf
    cases hf
  · intro h
    rw [layOut_of_not_module ((Bool.not_eq_true _).mp fun he => h (Value.isModule_iff.mp he))]
    exact ⟨_, rfl⟩
  · intro f hf
    by_cases h : l.value.isModule = true
    · obtain ⟨m, hvalue, hm⟩ := Value.isModule_iff.mp h
      rw [(hmodule m hvalue hm).1] at hf
      cases hf
    · rw [layOut_of_not_module ((Bool.not_eq_true _).mp h)] at hf ⊢
      exact ⟨rfl, _, (Except.error.inj hf).symm, rfl⟩
  · intro m hvalue hm
    refine ⟨?_, ⟨_, m.importGroups_imports⟩, partition Located.span m.items,
      result_paragraphs Located.span m.items,
      fun group hgroup => ne_nil_of_mem_partition Located.span hgroup,
      _, layParagraphs_partition Located.span _ m.items⟩
    rw [(hmodule m hvalue hm).2, List.map_cons, List.map_replicate]
    rfl

/-- A module without a name, with a synthesized item between two others and a synthesized
import. -/
def interruptedModule : Node :=
  ⟨.wholeModule, none, none, [
    ⟨spot "M" 1 1, ⟨.declaration, some "f", none, []⟩⟩,
    ⟨.unknown "", ⟨.importLine, some "import A", none, []⟩⟩,
    ⟨.unknown "", ⟨.signature, some "g", none, []⟩⟩,
    ⟨spot "M" 9 1, ⟨.declaration, some "h", none, []⟩⟩]⟩

/-- Two gaps are not seen; and neither an item nor a number is a module. -/
theorem layOut_outcome_interruptedModule :
    interruptedModule.kind = .wholeModule ∧
      (layOut ⟨.unknown "", .node interruptedModule⟩).notes.map Note.message =
        ["formatting module None (4 items)",
          "no real span between groups, assuming no blank line",
          "no real span between groups, assuming no blank line"] ∧
      (∃ b : Breach,
        (layOut ⟨spot "M" 3 1, .node ⟨.declaration, none, none, []⟩⟩).result =
          .error (.breach b) ∧
        b.violation = ⟨"format_module() expects a module, got Decl", some (spot "M" 3 1)⟩) ∧
      ∃ b : Breach,
        (layOut ⟨.unknown "", .object "float" "1.5"⟩).result = .error (.breach b) ∧
        b.violation = ⟨"format_module() expects a module, got float", some (.unknown "")⟩ := by
  obtain ⟨-, -, hmodule⟩ := layOut_outcome ⟨.unknown "", .node interruptedModule⟩
  have hrefused : ∀ l : Located Value, (¬ ∃ m, l.value = .node m ∧ m.kind = .wholeModule) →
      ∃ b : Breach, (layOut l).result = .error (.breach b) ∧ b.violation =
        ⟨"format_module() expects a module, got " ++ l.value.shape.name, some l.span⟩ := by
    intro l hl
    obtain ⟨hfails, hfault, -⟩ := layOut_outcome l
    obtain ⟨f, hf⟩ := hfails.mpr hl
    obtain ⟨-, b, rfl, hb⟩ := hfault f hf
    exact ⟨b, hf, hb⟩
  refine ⟨rfl, (hmodule _ rfl rfl).1.trans (by decide), ?_, ?_⟩
  · exact hrefused ⟨spot "M" 3 1, .node ⟨.declaration, none, none, []⟩⟩
      (by rintro ⟨m, hm, hkind⟩; cases hm; cases hkind)
  · exact hrefused ⟨.unknown "", .object "float" "1.5"⟩ (by rintro ⟨m, hm, -⟩; cases hm)

end SourceLayout
