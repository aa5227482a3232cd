import SourceLayout.Proofs.Paragraph.Uniqueness
import SourceLayout.Proofs.Layout.Dependence

/-! # The imports of a layout

Between the header and the items a layout has the imports of the module, in blocks with an
empty line below each.  The imports with a known span are taken in source order, whatever
stands between them, and cut at their blank lines; each **run** of them is a block, in which
its texts are sorted.  The imports with an unknown span are the last block, in the order in
which they came.

In a run only the texts count, and not their order (`IsBlockOf.unique`).  So modules whose
runs have the same texts are laid out alike (`layOut_importBlocks`).
-/
namespace SourceLayout

open Layout

namespace Layout

/-- A block of lines that is made of the texts of a run: all of them, sorted by code points. -/
structure IsBlockOf (run : List (Located Node)) (block : List String) : Prop where
  perm : block.Perm (ownTexts run)
  sorted : block.Pairwise (· ≤ ·)

theorem isBlockOf_sortedTexts (run : List (Located Node)) : IsBlockOf run (sortedTexts run) where
  perm := List.mergeSort_perm _ _
  sorted := (pairwise_sortedTexts run).imp of_decide_eq_true

/-- Runs of the same texts have the same block. -/
theorem IsBlockOf.unique {run run' : List (Located Node)} {block block' : List String}
    (h : IsBlockOf run block) (h' : IsBlockOf run' block')
    (hperm : (ownTexts run).Perm (ownTexts run')) : block = block' := by
  have hblocks : block.Perm block' := h.perm.trans (hperm.trans h'.perm.symm)
  exact hblocks.eq_of_pairwise (fun _ _ _ _ => String.le_antisymm) h.sorted h'.sorted

/-- A run has one block. -/
theorem rightUnique_isBlockOf : Relator.RightUnique IsBlockOf :=
  fun run _ _ h h' => h.unique h' (List.Perm.refl (ownTexts run))

end Layout

namespace Node

/-- The imports with a known span, in source order. -/
def knownImports (m : Node) : List (Located Node) :=
  m.children.filter fun tree => tree.value.isImport && tree.span.extent?.isSome

/-- The imports with an unknown span, in source order. -/
def unknownImports (m : Node) : List (Located Node) :=
  m.children.filter fun tree => tree.value.isImport && tree.span.extent?.isNone

/-- The block of the imports with an unknown span, if there are any. -/
def unknownBlock (m : Node) : List (List String) :=
  if m.unknownImports = [] then [] else [ownTexts m.unknownImports]

theorem writtenImports_eq_knownImports (m : Node) : writtenImports m.imports = m.knownImports := by
  rw [writtenImports, imports, List.filter_filter]
  refine List.filter_congr fun tree _ => ?_
  rw [Located.startLine?, Span.startLine?, Option.isSome_map, Bool.and_comm]

theorem synthesizedImports_eq_unknownImports (m : Node) :
    synthesizedImports m.imports = m.unknownImports := by
  rw [synthesizedImports, imports, List.filter_filter]
  refine List.filter_congr fun tree _ => ?_
  rw [Located.startLine?, Span.startLine?, Option.isNone_map, Bool.and_comm]

/-- The blocks of a module: one for each run, and one for the imports with an unknown span. -/
theorem importTexts_eq (m : Node) :
    importTexts m.imports =
      (partition Located.span m.knownImports).map sortedTexts ++ m.unknownBlock := by
  rw [importTexts, writtenImports_eq_knownImports, synthesizedImports_eq_unknownImports,
    unknownBlock]
  simp only [ownTexts, List.isEmpty_map, List.isEmpty_iff]

/-- Two modules with the same imports up to the order of the texts in each run, and with
everything else the same. -/
structure SameRuns (m₁ m₂ : Node) : Prop where
  text : m₁.text = m₂.text
  doc : m₁.doc = m₂.doc
  items : m₁.items = m₂.items
  unknown : ownTexts m₁.unknownImports = ownTexts m₂.unknownImports
  runs : ∃ runs₁ runs₂, IsPartition Located.span m₁.knownImports runs₁ ∧
    IsPartition Located.span m₂.knownImports runs₂ ∧
    List.Forall₂ (fun run₁ run₂ => (ownTexts run₁).Perm (ownTexts run₂)) runs₁ runs₂

namespace SameRuns

variable {m₁ m₂ : Node} (h : m₁.SameRuns m₂)
include h

theorem map_sortedTexts_eq :
    (partition Located.span m₁.knownImports).map sortedTexts =
      (partition Located.span m₂.knownImports).map sortedTexts := by
  obtain ⟨runs₁, runs₂, h₁, h₂, hruns⟩ := h.runs
  rw [← (isPartition_iff _).mp h₁, ← (isPartition_iff _).mp h₂]
  refine map_eq_of_forall₂ hruns fun run₁ run₂ hperm => ?_
  exact (isBlockOf_sortedTexts run₁).unique (isBlockOf_sortedTexts run₂) hperm

theorem unknownBlock_eq : m₁.unknownBlock = m₂.unknownBlock := by
  have hnil : ∀ m : Node, m.unknownImports = [] ↔ ownTexts m.unknownImports = [] :=
    fun m => List.map_eq_nil_iff.symm
  simp only [unknownBlock, hnil, h.unknown]

theorem lines_eq : m₁.lines = m₂.lines := by
  rw [lines, lines, preamble, preamble, itemParagraphs, itemParagraphs, importTexts_eq,
    importTexts_eq, h.map_sortedTexts_eq, h.unknownBlock_eq, h.text, h.doc, h.items]

end SameRuns

end Node

/-- **The imports of a module are laid out in blocks**, with an empty line below each: a block
of sorted texts for each run of imports with a known span, and last the texts of the others as
they came, if there are any.  Hence modules with the same texts in their runs are laid out as
one text. -/
theorem layOut_importBlocks {m : Node} (h : m.kind = .wholeModule) (span : Span) :
    (∃ runs blocks items, IsPartition Located.span m.knownImports runs ∧
        List.Forall₂ IsBlockOf runs blocks ∧
        m.importSection.result = .ok ((blocks ++ m.unknownBlock).flatMap (· ++ [""])) ∧
        m.itemSection.result = .ok items ∧
        (layOut ⟨span, .node m⟩).result = .ok (finishedText
          (m.preamble ++ (blocks ++ m.unknownBlock).flatMap (· ++ [""]) ++ items))) ∧
      ∀ m' span', m'.kind = .wholeModule → m.SameRuns m' →
        ∃ text, (layOut ⟨span, .node m⟩).result = .ok text ∧
          (layOut ⟨span', .node m'⟩).result = .ok text := by
  have hsection : closeGroups (importTexts m.imports) =
      ((partition Located.span m.knownImports).map sortedTexts ++ m.unknownBlock).flatMap
        (· ++ [""]) := by
    rw [closeGroups, m.importTexts_eq]
  refine ⟨⟨partition Located.span m.knownImports, _, _, (isPartition_iff _).mpr rfl, ?_,
    (m.result_importSection).trans (congrArg _ hsection), m.result_itemSection, ?_⟩, ?_⟩
  · exact List.forall₂_map_right_iff.mpr (List.forall₂_same.mpr fun run _ =>
      isBlockOf_sortedTexts run)
  · rw [result_layOut h, Node.lines, hsection]
  · intro m' span' h' hruns
    refine ⟨finishedText m.lines, result_layOut h span, ?_⟩
    rw [hruns.lines_eq, result_layOut h']

/-- A module with imports in two runs, which other children stand between: one without a text,
one twice, and two with unknown spans. -/
def interleavedModule : Node :=
  ⟨.wholeModule, some "M", none, [
    ⟨spot "M" 1 1, ⟨.importLine, some "import B", none, []⟩⟩,
    ⟨spot "M" 20 1, ⟨.declaration, some "f", some "one", []⟩⟩,
    ⟨.unknown "", ⟨.importLine, some "import Z", none, []⟩⟩,
    ⟨spot "M" 2 1, ⟨.importLine, none, none, []⟩⟩,
    ⟨spot "M" 3 1, ⟨.importLine, some "import B", none, []⟩⟩,
    ⟨.unknown "", ⟨.signature, some "g", none, []⟩⟩,
    ⟨spot "M" 7 1, ⟨.importLine, some "import A", none, []⟩⟩,
    ⟨.unknown "", ⟨.importLine, some "import C", none, []⟩⟩]⟩

/-- The same with all imports in front, in other orders and on other lines, and partly
upwards. -/
def reorderedModule : Node :=
  ⟨.wholeModule, some "M", none, [
    ⟨.unknown "", ⟨.importLine, some "import Z", none, []⟩⟩,
    ⟨.unknown "", ⟨.importLine, some "import C", none, []⟩⟩,
    ⟨spot "N" 12 1, ⟨.importLine, none, none, []⟩⟩,
    ⟨spot "N" 11 1, ⟨.importLine, some "import B", none, []⟩⟩,
    ⟨spot "N" 10 1, ⟨.importLine, some "import B", none, []⟩⟩,
    ⟨spot "N" 30 1, ⟨.importLine, some "import A", none, []⟩⟩,
    ⟨spot "M" 20 1, ⟨.declaration, some "f", some "one", []⟩⟩,
    ⟨.unknown "", ⟨.signature, some "g", none, []⟩⟩]⟩

theorem sameRuns_interleavedModule : interleavedModule.SameRuns reorderedModule where
  text := rfl
  doc := rfl
  items := rfl
  unknown := rfl
  runs := by
    refine ⟨_, _, (isPartition_iff _).mpr rfl, (isPartition_iff _).mpr rfl, ?_⟩
    exact .cons (by decide) (.cons (by decide) .nil)

theorem layOut_interleavedModule :
    let text := "module M where\n\n\nimport B\nimport B\n\nimport A\n\n" ++
      "import Z\nimport C\n\n-- | one\nf\ng\n"
    interleavedModule.kind = .wholeModule ∧ reorderedModule.kind = .wholeModule ∧
      interleavedModule.SameRuns reorderedModule ∧
      interleavedModule.importSection.result = .ok
        ["", "import B", "import B", "", "import A", "", "import Z", "import C", ""] ∧
      (layOut ⟨.unknown "", .node interleavedModule⟩).result = .ok text ∧
      (layOut ⟨spot "M" 1 1, .node reorderedModule⟩).result = .ok text := by
  intro text
  obtain ⟨⟨runs, blocks, items, hruns, hblocks, himports, hitems, hlayout⟩, hsame⟩ :=
    layOut_importBlocks (m := interleavedModule) rfl (.unknown "")
  obtain ⟨text', htext, hreordered⟩ := hsame reorderedModule (spot "M" 1 1) rfl
    sameRuns_interleavedModule
  have hblocks_eq : blocks = [["", "import B", "import B"], ["import A"]] := by
    refine rightUnique_isBlockOf.forall₂ hblocks ?_
    rw [(isPartition_iff _).mp hruns]
    exact .cons ⟨by decide, by decide⟩ (.cons ⟨by decide, by decide⟩ .nil)
  have hitems_eq : items = ["-- | one", "f", "g"] := by
    rw [interleavedModule.result_itemSection] at hitems
    exact (Except.ok.inj hitems).symm.trans (by decide)
  rw [hblocks_eq] at himports hlayout
  have hinterleaved : (layOut ⟨.unknown "", .node interleavedModule⟩).result = .ok text := by
    rw [hlayout, hitems_eq]
    exact congrArg Except.ok (by decide +kernel)
  rw [hinterleaved] at htext
  rw [← htext] at hreordered
  exact ⟨rfl, rfl, sameRuns_interleavedModule, himports, hinterleaved, hreordered⟩

end SourceLayout
