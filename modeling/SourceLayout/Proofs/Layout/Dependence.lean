import SourceLayout.Span.Shift
import SourceLayout.Proofs.Tree.Pointwise
import SourceLayout.Proofs.Layout.Sections

/-! # What a layout depends on

Of a module the layout reads the name and the doc comment, the texts of its imports, the
texts and docs of its items and of all that is in them, and for every two neighbours among
the written imports and among the items whether a blank line separates them.  Two modules
that agree in this much are **alike** and have the same text (`layOut_alike`).

So nothing else matters: in which file and in which columns anything stands, on which lines
as long as the blank lines stay, where nested nodes stand, of which kind the items and the
nested nodes are, what belongs to an import besides its text, and how imports and items are
mixed.  In particular a module may be moved to the right, and any of its children too.
-/
namespace SourceLayout

open Layout

/-- The answers to whether a blank line separates neighbours, from left to right. -/
def separations (trees : List (Located Node)) : List (Except Fault Bool) :=
  (adjacent trees).map fun p => (separatedGroups Located.span [p.1] [p.2]).result

namespace Node

/-- Two nodes with the same text and the same doc. -/
def SameWords (a b : Node) : Prop := a.ownText = b.ownText ∧ a.doc = b.doc

/-- Two modules that agree in all that a layout reads. -/
structure Alike (m₁ m₂ : Node) : Prop where
  text : m₁.text = m₂.text
  doc : m₁.doc = m₂.doc
  /-- The imports with a line in the source have the same texts, in the same order. -/
  written : ownTexts (writtenImports m₁.imports) = ownTexts (writtenImports m₂.imports)
  /-- So have the imports without one. -/
  synthesized :
    ownTexts (synthesizedImports m₁.imports) = ownTexts (synthesizedImports m₂.imports)
  /-- The items correspond in order, with all that is in them. -/
  items : MatchesIn SameWords m₁.items m₂.items
  /-- Blank lines separate the same neighbours among the written imports. -/
  writtenGaps :
    separations (writtenImports m₁.imports) = separations (writtenImports m₂.imports)
  /-- Blank lines separate the same neighbours among the items. -/
  itemGaps : separations m₁.items = separations m₂.items

end Node

/-- Corresponding members that have the same image under a function. -/
theorem map_eq_of_forall₂ {α β : Type} {r : α → α → Prop} {f : α → β} {as bs : List α}
    (h : List.Forall₂ r as bs) (hf : ∀ a b, r a b → f a = f b) : as.map f = bs.map f := by
  have himages : List.Forall₂ (· = ·) (as.map f) (bs.map f) :=
    List.forall₂_map_left_iff.mpr (List.forall₂_map_right_iff.mpr (h.imp hf))
  rwa [List.forall₂_eq_eq_eq] at himages

/-- Corresponding members on which a test agrees are kept together. -/
theorem forall₂_filter {α : Type} {r : α → α → Prop} {p : α → Bool} {as bs : List α}
    (h : List.Forall₂ r as bs) (hp : ∀ a b, r a b → p a = p b) :
    List.Forall₂ r (as.filter p) (bs.filter p) := by
  refine List.rel_filter (fun a b hab => ?_) h
  show p a = true ↔ p b = true
  rw [hp a b hab]

/-- A child is a written import, a synthesized one, or an item. -/
theorem Node.length_children (m : Node) :
    m.children.length = (writtenImports m.imports).length +
      (synthesizedImports m.imports).length + m.items.length := by
  have hkinds : m.children.length = m.imports.length + m.items.length :=
    List.length_eq_length_filter_add _
  have hlines : m.imports.length =
      (writtenImports m.imports).length + (synthesizedImports m.imports).length := by
    simp only [writtenImports, synthesizedImports, ← Option.not_isSome]
    exact List.length_eq_length_filter_add _
  rw [hkinds, hlines]

/-! ## Paragraphs -/

/-- Lists with the same image have paragraphs with the same image, if blank lines separate
the same neighbours. -/
theorem map_partition_eq {β : Type} {f : Located Node → β} {xs ys : List (Located Node)}
    (h : xs.map f = ys.map f) (hsep : separations xs = separations ys) :
    (partition Located.span xs).map (List.map f) =
      (partition Located.span ys).map (List.map f) := by
  induction xs generalizing ys with
  | nil => rw [List.map_eq_nil_iff.mp h.symm]
  | cons x xs ih =>
    obtain ⟨y, ys, rfl⟩ : ∃ y ys', ys = y :: ys' :=
      List.exists_cons_of_ne_nil fun he => by rw [he] at h; cases h
    obtain ⟨hxy, hrest⟩ := List.cons.inj h
    cases xs with
    | nil =>
      obtain rfl : ys = [] := List.map_eq_nil_iff.mp hrest.symm
      exact congrArg (fun b => [[b]]) hxy
    | cons x' xs =>
      cases ys with
      | nil => cases hrest
      | cons y' ys =>
        obtain ⟨hfirst, hsep⟩ := List.cons.inj hsep
        have hblank : x.span.blankBetween x'.span = y.span.blankBetween y'.span := by
          have hanswers := (Span.result_separated _ _).symm.trans
            (hfirst.trans (Span.result_separated _ _))
          exact Except.ok.inj hanswers
        rw [partition_cons_cons, partition_cons_cons, map_placeBefore, map_placeBefore, hxy,
          hblank, ih hrest hsep]

/-! ## Trees -/

namespace Node

mutual
/-- A tree is written by the words of its nodes. -/
theorem treeLines_eq_of_matches (depth : Nat) :
    (a b : Node) → Matches SameWords a b → a.treeLines depth = b.treeLines depth
  | ⟨_, _, _, children₁⟩, ⟨_, _, _, children₂⟩, ⟨⟨htext, hdoc⟩, hchildren⟩ => by
    have hbelow := forestLines_eq_of_matchesIn (depth + 1) children₁ children₂ hchildren
    simp only [ownText] at htext hdoc
    rw [treeLines, treeLines, htext, hdoc, hbelow]
termination_by structural a => a

theorem forestLines_eq_of_matchesIn (depth : Nat) :
    (as bs : List (Located Node)) → MatchesIn SameWords as bs →
      forestLines depth as = forestLines depth bs
  | [], [], _ => rfl
  | ⟨_, a⟩ :: as, ⟨_, b⟩ :: bs, ⟨htree, hrest⟩ => by
    rw [forestLines, forestLines, treeLines_eq_of_matches depth a b htree,
      forestLines_eq_of_matchesIn depth as bs hrest]
termination_by structural as => as
end

namespace Alike

variable {m₁ m₂ : Node}

theorem importTexts_eq (h : m₁.Alike m₂) : importTexts m₁.imports = importTexts m₂.imports := by
  have hgroups := map_partition_eq (f := fun tree => tree.value.ownText) h.written h.writtenGaps
  have hsorted : ∀ groups : List (List (Located Node)), groups.map sortedTexts =
      (groups.map (List.map fun tree => tree.value.ownText)).map
        (List.mergeSort · fun a b => decide (a ≤ b)) := by
    intro groups
    rw [List.map_map]
    rfl
  rw [importTexts, importTexts, hsorted, hsorted, hgroups, h.synthesized]

theorem map_treeLines_eq (h : m₁.Alike m₂) :
    (m₁.items.map fun tree => tree.value.treeLines 0) =
      m₂.items.map fun tree => tree.value.treeLines 0 := by
  refine map_eq_of_forall₂ (matchesIn_iff.mp h.items) fun a b hab => ?_
  exact treeLines_eq_of_matches 0 a.value b.value hab

theorem itemParagraphs_eq (h : m₁.Alike m₂) : m₁.itemParagraphs = m₂.itemParagraphs := by
  have hgroups := map_partition_eq h.map_treeLines_eq h.itemGaps
  have hflat : ∀ groups : List (List (Located Node)),
      (groups.map fun group => group.flatMap fun tree => tree.value.treeLines 0) =
        (groups.map (List.map fun tree => tree.value.treeLines 0)).map List.flatten := by
    intro groups
    rw [List.map_map]
    rfl
  rw [itemParagraphs, itemParagraphs, hflat, hflat, hgroups]

/-- **Alike modules have the same lines.** -/
theorem lines_eq (h : m₁.Alike m₂) : m₁.lines = m₂.lines := by
  rw [lines, lines, preamble, preamble, h.text, h.doc, h.importTexts_eq, h.itemParagraphs_eq]

/-- Alike modules have as many children. -/
theorem length_children_eq (h : m₁.Alike m₂) : m₁.children.length = m₂.children.length := by
  have hwritten := congrArg List.length h.written
  have hsynthesized := congrArg List.length h.synthesized
  have hitems := congrArg List.length h.map_treeLines_eq
  simp only [ownTexts, List.length_map] at hwritten hsynthesized hitems
  rw [length_children, length_children, hwritten, hsynthesized, hitems]

end Alike

end Node

/-- What is noted about two neighbours tells whether a span is unknown, and nothing else. -/
theorem Span.notes_separated_eq (a b : Span) :
    (a.separated b).notes =
      if a.extent?.isSome && b.extent?.isSome then [] else [.gapUnknown] := by
  cases a <;> cases b <;> rfl

section
variable {m₁ m₂ : Node} (h₁ : m₁.kind = .wholeModule) (h₂ : m₂.kind = .wholeModule)
  (h : m₁.Alike m₂)
include h₁ h₂ h

theorem result_layOut_eq_of_alike (s₁ s₂ : Span) :
    (layOut ⟨s₁, .node m₁⟩).result = (layOut ⟨s₂, .node m₂⟩).result := by
  rw [result_layOut h₁, result_layOut h₂, h.lines_eq]

theorem notes_layOut_eq_of_alike (s₁ s₂ : Span)
    (hknown : m₁.items.map (fun tree => tree.span.extent?.isSome) =
      m₂.items.map fun tree => tree.span.extent?.isSome) :
    (layOut ⟨s₁, .node m₁⟩).notes = (layOut ⟨s₂, .node m₂⟩).notes := by
  have hgaps : ∀ m : Node,
      ((adjacent m.items).flatMap fun p => (p.1.span.separated p.2.span).notes) =
        (adjacent (m.items.map fun tree => tree.span.extent?.isSome)).flatMap
          fun p => if p.1 && p.2 then [] else [.gapUnknown] := by
    intro m
    rw [adjacent_map, List.flatMap_map]
    exact congrArg (List.flatMap · _) (funext fun p => Span.notes_separated_eq _ _)
  rw [notes_layOut h₁, notes_layOut h₂, hgaps, hgaps, hknown, h.text, h.length_children_eq]

end

/-! ## Moving to the right -/

/-- A located value that was moved to the right, or left where it is. -/
def MovedRight {α : Type} (a b : Located α) : Prop := b = a ∨ ∃ n, a.moveRight n = .ok b

/-- Two spans that go over the same lines, or have both no lines. -/
inductive Span.SameLines : Span → Span → Prop
  | real {a b : Extent} (start : a.start.line = b.start.line) (stop : a.stop.line = b.stop.line) :
    SameLines (.real a) (.real b)
  | unknown (reason reason' : String) : SameLines (.unknown reason) (.unknown reason')

namespace Span.SameLines

theorem refl (s : Span) : s.SameLines s := by
  cases s with
  | real e => exact .real rfl rfl
  | unknown reason => exact .unknown reason reason

theorem isSome_extent?_eq {a b : Span} (h : a.SameLines b) :
    a.extent?.isSome = b.extent?.isSome := by
  cases h <;> rfl

theorem isSome_startLine?_eq {a b : Span} (h : a.SameLines b) :
    a.startLine?.isSome = b.startLine?.isSome := by
  rw [startLine?, startLine?, Option.isSome_map, Option.isSome_map, h.isSome_extent?_eq]

/-- Whether a blank line is seen depends on the lines only. -/
theorem blankBetween_eq {a b a' b' : Span} (ha : a.SameLines a') (hb : b.SameLines b') :
    a.blankBetween b = a'.blankBetween b' := by
  have hgap : a.gap? b = a'.gap? b' := by
    cases ha with
    | unknown _ _ => rw [gap?_unknown_left, gap?_unknown_left]
    | real _ hstop =>
      cases hb with
      | unknown _ _ => rw [gap?_unknown_right, gap?_unknown_right]
      | real hstart _ => rw [gap?_real, gap?_real, hstop, hstart]
  rw [blankBetween, blankBetween, hgap]

end Span.SameLines

/-- Two located values that are the same value on the same lines. -/
def SameOnLines {α : Type} (a b : Located α) : Prop :=
  a.value = b.value ∧ a.span.SameLines b.span

/-- A move to the right keeps the value and the lines. -/
theorem MovedRight.sameOnLines {α : Type} {a b : Located α} (h : MovedRight a b) :
    SameOnLines a b := by
  rcases h with rfl | ⟨n, hn⟩
  · exact ⟨rfl, Span.SameLines.refl _⟩
  · obtain ⟨span, value⟩ := a
    cases span with
    | unknown reason => cases hn
    | real e =>
      by_cases hneg : n < 0
      · simp [Located.moveRight, Span.moveRight, hneg] at hn
      · rw [Located.moveRight, Span.moveRight_real_of_nonneg (Int.not_lt.mp hneg)] at hn
        obtain rfl := Except.ok.inj hn
        exact ⟨rfl, .real rfl rfl⟩

theorem separations_eq_of_forall₂ {xs ys : List (Located Node)}
    (h : List.Forall₂ SameOnLines xs ys) : separations xs = separations ys := by
  induction h with
  | nil => rfl
  | cons hxy hrest ih =>
    cases hrest with
    | nil => rfl
    | cons hxy' hrest =>
      have hblank := Span.SameLines.blankBetween_eq hxy.2 hxy'.2
      refine congrArg₂ (· :: ·) ?_ ih
      exact (Span.result_separated _ _).trans
        ((congrArg Except.ok hblank).trans (Span.result_separated _ _).symm)

theorem ownTexts_eq_of_forall₂ {xs ys : List (Located Node)}
    (h : List.Forall₂ SameOnLines xs ys) : ownTexts xs = ownTexts ys :=
  map_eq_of_forall₂ h fun _ _ hab => congrArg Node.ownText hab.1

/-- Children that keep their values and their lines make an alike module. -/
theorem alike_of_sameOnLines {m : Node} {children : List (Located Node)}
    (h : List.Forall₂ SameOnLines m.children children) : m.Alike { m with children } := by
  have himport : ∀ a b : Located Node, SameOnLines a b → a.value.isImport = b.value.isImport :=
    fun _ _ hab => congrArg Node.isImport hab.1
  have hline : ∀ a b : Located Node, SameOnLines a b →
      a.startLine?.isSome = b.startLine?.isSome :=
    fun _ _ hab => hab.2.isSome_startLine?_eq
  have himports : List.Forall₂ SameOnLines m.imports { m with children }.imports :=
    forall₂_filter h himport
  have hitems : List.Forall₂ SameOnLines m.items { m with children }.items :=
    forall₂_filter h fun a b hab => congrArg not (himport a b hab)
  have hwritten : List.Forall₂ SameOnLines (writtenImports m.imports)
      (writtenImports { m with children }.imports) :=
    forall₂_filter himports hline
  have hsynthesized : List.Forall₂ SameOnLines (synthesizedImports m.imports)
      (synthesizedImports { m with children }.imports) := by
    refine forall₂_filter himports fun a b hab => ?_
    rw [← Option.not_isSome, ← Option.not_isSome, hline a b hab]
  exact {
    text := rfl
    doc := rfl
    written := ownTexts_eq_of_forall₂ hwritten
    synthesized := ownTexts_eq_of_forall₂ hsynthesized
    items := Node.matchesIn_iff.mpr <| hitems.imp fun a b hab =>
      hab.1 ▸ Node.matches_refl (fun _ => ⟨rfl, rfl⟩) a.value
    writtenGaps := separations_eq_of_forall₂ hwritten
    itemGaps := separations_eq_of_forall₂ hitems }

/-- **A layout depends on nothing but what alike modules agree in.**  Alike modules have one
text, wherever they and their parts stand.  If moreover the same items have known spans, the
same is noted.  Moving a module and any of its children to the right changes neither. -/
theorem layOut_alike {m₁ m₂ : Node} (h₁ : m₁.kind = .wholeModule) (h₂ : m₂.kind = .wholeModule)
    (h : m₁.Alike m₂) (s₁ s₂ : Span) :
    (∃ text, (layOut ⟨s₁, .node m₁⟩).result = .ok text ∧
        (layOut ⟨s₂, .node m₂⟩).result = .ok text) ∧
      (m₁.items.map (fun tree => tree.span.extent?.isSome) =
          m₂.items.map (fun tree => tree.span.extent?.isSome) →
        (layOut ⟨s₁, .node m₁⟩).notes = (layOut ⟨s₂, .node m₂⟩).notes) ∧
      ∀ moved, List.Forall₂ MovedRight m₁.children moved →
        layOut ⟨s₂, .node { m₁ with children := moved }⟩ = layOut ⟨s₁, .node m₁⟩ := by
  refine ⟨?_, fun hknown => notes_layOut_eq_of_alike h₁ h₂ h s₁ s₂ hknown, fun moved hmoved => ?_⟩
  · refine ⟨finishedText m₁.lines, result_layOut h₁ s₁, ?_⟩
    rw [← result_layOut_eq_of_alike h₁ h₂ h s₁ s₂, result_layOut h₁]
  · have hsame : List.Forall₂ SameOnLines m₁.children moved :=
      hmoved.imp fun _ _ hab => hab.sameOnLines
    have halike := alike_of_sameOnLines hsame
    have hkind : { m₁ with children := moved }.kind = .wholeModule := h₁
    have hitems : List.Forall₂ SameOnLines m₁.items { m₁ with children := moved }.items :=
      forall₂_filter hsame fun _ _ hab => congrArg (not ∘ Node.isImport) hab.1
    have hknown := map_eq_of_forall₂ hitems fun _ _ hab => hab.2.isSome_extent?_eq
    apply Logged.ext
    · exact (notes_layOut_eq_of_alike h₁ hkind halike s₁ s₂ hknown).symm
    · exact (result_layOut_eq_of_alike h₁ hkind halike s₁ s₂).symm

/-- A place of one column on a line of a file. -/
def spot (file : String) (line column : Int) : Span :=
  .real ⟨file, ⟨line, column⟩, ⟨line, column⟩, Position.le_refl _⟩

/-- A module with an item above its imports, of which one was synthesized, and an item
below them. -/
def mixedModule : Node :=
  ⟨.wholeModule, some "M", some "doc", [
    ⟨spot "M" 3 1, ⟨.declaration, some "f", some "one", [
      ⟨spot "M" 3 5, ⟨.expression, some "where g", none, []⟩⟩]⟩⟩,
    ⟨spot "M" 1 1, ⟨.importLine, some "import B", none, []⟩⟩,
    ⟨.unknown "", ⟨.importLine, some "import C", none, []⟩⟩,
    ⟨spot "M" 2 1, ⟨.importLine, some "import A", some "unread", []⟩⟩,
    ⟨spot "M" 8 1, ⟨.declaration, some "g", none, []⟩⟩]⟩

/-- The same with all imports above, in other files, on other lines and of other kinds. -/
def sortedModule : Node :=
  ⟨.wholeModule, some "M", some "doc", [
    ⟨.unknown "x", ⟨.importLine, some "import C", none, []⟩⟩,
    ⟨spot "A" 20 7, ⟨.importLine, some "import B", none, []⟩⟩,
    ⟨spot "B" 21 2, ⟨.importLine, some "import A", none, []⟩⟩,
    ⟨spot "C" 50 1, ⟨.signature, some "f", some "one", [
      ⟨.unknown "", ⟨.comment, some "where g", none, []⟩⟩]⟩⟩,
    ⟨spot "D" 52 9, ⟨.type, some "g", none, []⟩⟩]⟩

theorem alike_mixedModule : mixedModule.Alike sortedModule where
  text := rfl
  doc := rfl
  written := rfl
  synthesized := rfl
  items := ⟨⟨⟨rfl, rfl⟩, ⟨⟨rfl, rfl⟩, trivial⟩, trivial⟩, ⟨⟨rfl, rfl⟩, trivial⟩, trivial⟩
  writtenGaps := rfl
  itemGaps := rfl

theorem layOut_mixedModule :
    mixedModule.kind = .wholeModule ∧ sortedModule.kind = .wholeModule ∧
      mixedModule.Alike sortedModule ∧
      (layOut ⟨.unknown "", .node mixedModule⟩).result =
        (layOut ⟨spot "M" 1 1, .node sortedModule⟩).result ∧
      (layOut ⟨.unknown "", .node mixedModule⟩).notes =
        (layOut ⟨spot "M" 1 1, .node sortedModule⟩).notes := by
  obtain ⟨⟨text, hfirst, hsecond⟩, hnotes, -⟩ :=
    layOut_alike rfl rfl alike_mixedModule (.unknown "") (spot "M" 1 1)
  exact ⟨rfl, rfl, alike_mixedModule, hfirst.trans hsecond.symm, hnotes rfl⟩

end SourceLayout
