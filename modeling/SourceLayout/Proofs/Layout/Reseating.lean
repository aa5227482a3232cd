import Mathlib.Data.List.Forall2
import SourceLayout.Proofs.Layout.Pieces

/-! # A layout is a fixed point

The children of a module are **reseated** when each of them gets a span at the lines that
the layout of the module writes it on.  Synthesized imports have no line and stay as they
are.  A module with reseated children is laid out as the module is
(`layOut_reseated`).

The reason is that the places of spaced groups show the groups again: neighbours of one
group are one line apart, and there are two lines from the end of a group to the start
of the next (`partition_seated`).
-/
namespace SourceLayout

/-- A child that stands at a place: its span goes from the first line to the last, in some
file and between some columns. -/
structure SeatedAt (place : Place) (tree : Located Node) : Prop where
  value : tree.value = place.tree.value
  span : ∃ e : Extent, tree.span = .real e ∧ e.start.line = place.first ∧ e.stop.line = place.last

theorem seatedAt_iff {place : Place} {tree : Located Node} :
    SeatedAt place tree ↔ tree.value = place.tree.value ∧ ∃ e ∈ tree.span.extent?,
      e.start.line = place.first ∧ e.stop.line = place.last := by
  constructor
  · rintro ⟨hvalue, e, he, hlines⟩
    exact ⟨hvalue, e, Span.extent?_eq_some_iff.mpr he, hlines⟩
  · rintro ⟨hvalue, e, he, hlines⟩
    exact ⟨hvalue, e, Span.extent?_eq_some_iff.mp he, hlines⟩

instance (place : Place) (tree : Located Node) : Decidable (SeatedAt place tree) :=
  decidable_of_iff _ seatedAt_iff.symm

/-- Where in a module a child is written. -/
inductive Section where
  /-- Among the imports that have a line in the source. -/
  | written
  /-- Among the imports that have none. -/
  | synthesized
  /-- Among all other children. -/
  | items
deriving DecidableEq

/-- The section that a child is written in. -/
def Located.section (tree : Located Node) : Section :=
  if tree.value.isImport then
    if tree.startLine?.isSome then .written else .synthesized
  else .items

/-- A child after all children were moved to their places: a synthesized import has no
line in the source and is left as it is. -/
def Reseated (place : Place) (tree : Located Node) : Prop :=
  if place.tree.section = .synthesized then tree = place.tree else SeatedAt place tree

instance (place : Place) (tree : Located Node) : Decidable (Reseated place tree) :=
  inferInstanceAs <| Decidable <|
    if place.tree.section = .synthesized then tree = place.tree else SeatedAt place tree

theorem Reseated.seatedAt {place : Place} {tree : Located Node} (h : Reseated place tree)
    (hs : place.tree.section ≠ .synthesized) : SeatedAt place tree := by
  rwa [Reseated, if_neg hs] at h

/-- A child that stands at a place has a line. -/
theorem SeatedAt.section_eq {place : Place} {tree : Located Node} (h : SeatedAt place tree)
    (hs : place.tree.section ≠ .synthesized) : tree.section = place.tree.section := by
  obtain ⟨e, he, -, -⟩ := h.span
  have hline : tree.startLine?.isSome = true := by
    rw [Located.startLine?, he]
    rfl
  have hwritten : place.tree.value.isImport = true → place.tree.startLine?.isSome = true := by
    intro himport
    by_contra hnone
    exact hs (by rw [Located.section, if_pos himport, if_neg hnone])
  unfold Located.section
  rw [h.value, hline]
  by_cases himport : place.tree.value.isImport = true
  · rw [if_pos himport, if_pos himport, hwritten himport]
  · rw [if_neg himport, if_neg himport]

/-- Reseating moves no child to another section. -/
theorem Reseated.section_eq {place : Place} {tree : Located Node} (h : Reseated place tree) :
    tree.section = place.tree.section := by
  by_cases hs : place.tree.section = .synthesized
  · rw [Reseated, if_pos hs] at h
    rw [h]
  · exact (h.seatedAt hs).section_eq hs

/-! ## Groups that are read back -/

/-- Groups of the same values look alike to all that looks at the values only. -/
theorem map_eq_of_map_value_eq {β : Type} {f : List (Located Node) → β} (g : List Node → β)
    (hf : ∀ trees, f trees = g (trees.map Located.value)) {as bs : List (List (Located Node))}
    (h : as.map (List.map Located.value) = bs.map (List.map Located.value)) :
    as.map f = bs.map f := by
  obtain rfl : f = g ∘ List.map Located.value := funext hf
  rw [← List.map_map, h, List.map_map]

namespace Layout

variable (render : Located Node → List String)

/-- A child above some groups joins the first of them, unless there are lines between. -/
theorem partition_seated_cons {place : Place} {x y : Located Node} {above : Int}
    {group xs : List (Located Node)} {rest : List (List (Located Node))} (hx : SeatedAt place x)
    (hxs : List.Forall₂ SeatedAt (placesFrom above (spaced render ((y :: group) :: rest))) xs) :
    partition Located.span (x :: xs) =
      placeBefore x (decide (place.last < above)) (partition Located.span xs) := by
  -- the next child begins on the line below `above`
  obtain ⟨places, hplaces⟩ := exists_placesFrom_spaced render above y group rest
  rw [hplaces, List.forall₂_cons_left_iff] at hxs
  obtain ⟨z, zs, hz, -, rfl⟩ := hxs
  obtain ⟨a, ha, -, hstop⟩ := hx.span
  obtain ⟨b, hb, hstart, -⟩ := hz.span
  have hgap : x.span.blankBetween z.span = decide (place.last < above) := by
    rw [ha, hb]
    simp only [Span.blankBetween, Span.gap?_real, hstart, hstop, decide_eq_decide]
    omega
  rw [partition_cons_cons, hgap]

/-- **The places of spaced groups show the groups.** -/
theorem partition_seated : (groups : List (List (Located Node))) → (∀ group ∈ groups, group ≠ []) →
    (above : Int) → (xs : List (Located Node)) →
    List.Forall₂ SeatedAt (placesFrom above (spaced render groups)) xs →
    (partition Located.span xs).map (List.map Located.value) =
      groups.map (List.map Located.value)
  | [], _, _, xs, h => by
    rw [List.forall₂_nil_left_iff.mp h]
    rfl
  | [] :: _, hne, _, _, _ => absurd rfl (hne [] List.mem_cons_self)
  | [x] :: [], _, _, xs, h => by
    obtain ⟨x', _, hx, hnil, rfl⟩ := List.forall₂_cons_left_iff.mp h
    rw [List.forall₂_nil_left_iff.mp hnil, partition_singleton]
    exact congrArg (fun node => [[node]]) hx.value
  | [_] :: [] :: _, hne, _, _, _ => absurd rfl (hne [] (by simp))
  -- the empty line between two groups is a line between two neighbours
  | [x] :: (y :: group) :: rest, hne, above, xs, h => by
    rw [placesFrom_spaced_across, List.forall₂_cons_left_iff] at h
    obtain ⟨x', xs, hx, hxs, rfl⟩ := h
    have ih := partition_seated ((y :: group) :: rest)
      (fun g hg => hne g (List.mem_cons_of_mem _ hg)) _ xs hxs
    rw [partition_seated_cons render hx hxs, map_placeBefore, ih, hx.value,
      decide_eq_true (Int.lt_succ _)]
    rfl
  -- and no line is between neighbours of one group
  | (x :: y :: group) :: rest, hne, above, xs, h => by
    rw [placesFrom_spaced_within, List.forall₂_cons_left_iff] at h
    obtain ⟨x', xs, hx, hxs, rfl⟩ := h
    have hrest : ∀ g ∈ (y :: group) :: rest, g ≠ [] := by
      intro g hg
      rcases List.mem_cons.mp hg with rfl | hg
      · exact List.cons_ne_nil y group
      · exact hne g (List.mem_cons_of_mem _ hg)
    have ih := partition_seated ((y :: group) :: rest) hrest _ xs hxs
    rw [partition_seated_cons render hx hxs, map_placeBefore, ih, hx.value,
      decide_eq_false (Int.lt_irrefl _)]
    rfl

/-! ## The sections of a module -/

theorem closed_append (as bs : List (List (Located Node))) :
    closed render (as ++ bs) = closed render as ++ closed render bs := by
  rw [closed, groupPieces, List.map_append, List.flatMap_append]
  rfl

theorem tree_mem_of_mem_placesFrom {above : Int} {groups : List (List (Located Node))}
    {place : Place} (h : place ∈ placesFrom above (spaced render groups)) :
    place.tree ∈ groups.flatten := by
  rw [← map_tree_placesFrom_spaced render above groups]
  exact List.mem_map_of_mem h

theorem mem_flatten_sortedGroups {imports : List (Located Node)} {tree : Located Node} :
    tree ∈ (sortedGroups imports).flatten ↔ tree ∈ writtenImports imports := by
  rw [← flatten_partition Located.span (writtenImports imports), sortedGroups, List.mem_flatten,
    List.mem_flatten]
  simp only [List.mem_map, sortImports, exists_exists_and_eq_and, List.mem_mergeSort]

/-- Sorting sorted texts changes nothing. -/
theorem sortedTexts_sortImports (trees : List (Located Node)) :
    sortedTexts (sortImports trees) = sortedTexts trees := by
  rw [sortedTexts, ownTexts_sortImports]
  exact List.mergeSort_of_pairwise (pairwise_sortedTexts trees)

end Layout

open Layout

namespace Node

/-- The children that are written in a section. -/
def inSection (m : Node) (k : Section) : List (Located Node) :=
  m.children.filter fun tree => decide (tree.section = k)

theorem writtenImports_imports (m : Node) : writtenImports m.imports = m.inSection .written := by
  rw [writtenImports, imports, List.filter_filter]
  refine List.filter_congr fun tree _ => ?_
  unfold Located.section
  cases tree.value.isImport <;> cases tree.startLine?.isSome <;> rfl

theorem synthesizedImports_imports (m : Node) :
    synthesizedImports m.imports = m.inSection .synthesized := by
  rw [synthesizedImports, imports, List.filter_filter]
  refine List.filter_congr fun tree _ => ?_
  unfold Located.section
  cases tree.value.isImport <;> cases tree.startLine? <;> rfl

theorem items_eq_inSection (m : Node) : m.items = m.inSection .items := by
  refine List.filter_congr fun tree _ => ?_
  unfold Located.section
  cases tree.value.isImport <;> cases tree.startLine?.isSome <;> rfl

theorem section_eq_of_mem_inSection {m : Node} {k : Section} {tree : Located Node}
    (h : tree ∈ m.inSection k) : tree.section = k :=
  of_decide_eq_true (List.mem_filter.mp h).2

/-- The places of a module, section by section. -/
theorem exists_places_eq (m : Node) : ∃ a b c : Int,
    m.places = placesFrom a (spaced importLines (sortedGroups m.imports)) ++
      (placesFrom b (spaced importLines (synthesizedGroups m.imports)) ++
        placesFrom c (spaced itemLines (partition Located.span m.items))) := by
  rw [places, pieces, placesFrom, closed_append, List.append_assoc, placesFrom_append,
    placesFrom_append, placesFrom_closed, placesFrom_closed]
  exact ⟨_, _, _, rfl⟩

/-- Every child is written on at least one line. -/
theorem first_le_last_of_mem_places (m : Node) :
    ∀ place ∈ m.places, place.first ≤ place.last := by
  have hspaced : ∀ {render : Located Node → List String}, (∀ tree, render tree ≠ []) →
      ∀ (above : Int) (groups : List (List (Located Node))),
      ∀ place ∈ placesFrom above (spaced render groups), place.first ≤ place.last := by
    intro render hne above groups
    refine first_le_last_of_mem_placesFrom fun p hp howner => ?_
    rcases mem_spaced render hp with rfl | ⟨tree, rfl⟩
    · cases howner
    · exact hne tree
  have himport : ∀ tree, importLines tree ≠ [] := fun tree => List.cons_ne_nil _ _
  have hitem : ∀ tree, itemLines tree ≠ [] := fun tree => treeLines_ne_nil 0 tree.value
  intro place hplace
  obtain ⟨a, b, c, hplaces⟩ := m.exists_places_eq
  rw [hplaces, List.mem_append, List.mem_append] at hplace
  rcases hplace with hwritten | hsynthesized | hitems
  · exact hspaced himport a _ place hwritten
  · exact hspaced himport b _ place hsynthesized
  · exact hspaced hitem c _ place hitems

/-- The children of a section, after reseating, are those of the places of the section. -/
theorem forall₂_inSection {m : Node} {children : List (Located Node)}
    (h : List.Forall₂ Reseated m.places children) (k : Section) :
    List.Forall₂ Reseated (m.places.filter fun place => decide (place.tree.section = k))
      ({ m with children }.inSection k) := by
  refine List.rel_filter (fun place tree hr => ?_) h
  show decide (place.tree.section = k) = true ↔ decide (tree.section = k) = true
  rw [hr.section_eq]

/-- Each section is laid out in one stretch. -/
theorem exists_filter_places_eq (m : Node) : ∃ a b c : Int,
    (m.places.filter fun place => decide (place.tree.section = .written)) =
      placesFrom a (spaced importLines (sortedGroups m.imports)) ∧
    (m.places.filter fun place => decide (place.tree.section = .synthesized)) =
      placesFrom b (spaced importLines (synthesizedGroups m.imports)) ∧
    (m.places.filter fun place => decide (place.tree.section = .items)) =
      placesFrom c (spaced itemLines (partition Located.span m.items)) := by
  obtain ⟨a, b, c, hplaces⟩ := m.exists_places_eq
  have hwritten : ∀ place ∈ placesFrom a (spaced importLines (sortedGroups m.imports)),
      place.tree.section = .written := by
    intro place hplace
    refine section_eq_of_mem_inSection (m := m) ?_
    rw [← writtenImports_imports]
    exact mem_flatten_sortedGroups.mp (tree_mem_of_mem_placesFrom importLines hplace)
  have hsynthesized : ∀ place ∈ placesFrom b (spaced importLines (synthesizedGroups m.imports)),
      place.tree.section = .synthesized := by
    intro place hplace
    refine section_eq_of_mem_inSection (m := m) ?_
    rw [← synthesizedImports_imports, ← flatten_synthesizedGroups]
    exact tree_mem_of_mem_placesFrom importLines hplace
  have hitems : ∀ place ∈ placesFrom c (spaced itemLines (partition Located.span m.items)),
      place.tree.section = .items := by
    intro place hplace
    refine section_eq_of_mem_inSection (m := m) ?_
    rw [← items_eq_inSection, ← flatten_partition Located.span m.items]
    exact tree_mem_of_mem_placesFrom itemLines hplace
  have hkeep : ∀ {k : Section} {places : List Place}, (∀ place ∈ places, place.tree.section = k) →
      (places.filter fun place => decide (place.tree.section = k)) = places :=
    fun h => List.filter_eq_self.mpr fun place hplace => decide_eq_true (h place hplace)
  have hdrop : ∀ {k l : Section} {places : List Place},
      (∀ place ∈ places, place.tree.section = l) → l ≠ k →
      (places.filter fun place => decide (place.tree.section = k)) = [] := by
    intro k l places h hne
    refine List.filter_eq_nil_iff.mpr fun place hplace => ?_
    rw [decide_eq_true_eq, h place hplace]
    exact hne
  -- the filter of a section keeps one of the three stretches and drops the other two
  refine ⟨a, b, c, ?_, ?_, ?_⟩ <;> rw [hplaces, List.filter_append, List.filter_append]
  · rw [hkeep hwritten, hdrop hsynthesized (by decide), hdrop hitems (by decide)]
    exact List.append_nil _
  · rw [hdrop hwritten (by decide), hkeep hsynthesized, hdrop hitems (by decide)]
    exact List.append_nil _
  · rw [hdrop hwritten (by decide), hdrop hsynthesized (by decide), hkeep hitems]
    rfl

/-- The lines of a module depend on the groups of its children only, and on these only by
what is in them. -/
theorem lines_eq_of_groups {m : Node} {children : List (Located Node)}
    (hwritten : (partition Located.span ({ m with children }.inSection .written)).map
      (List.map Located.value) = (sortedGroups m.imports).map (List.map Located.value))
    (hsynthesized : { m with children }.inSection .synthesized = m.inSection .synthesized)
    (hitems : (partition Located.span ({ m with children }.inSection .items)).map
      (List.map Located.value) =
        (partition Located.span m.items).map (List.map Located.value)) :
    { m with children }.lines = m.lines := by
  have himports : importTexts { m with children }.imports = importTexts m.imports := by
    have hsorted : (partition Located.span ({ m with children }.inSection .written)).map
        sortedTexts = (sortedGroups m.imports).map sortedTexts := by
      refine map_eq_of_map_value_eq (fun nodes => (nodes.map Node.ownText).mergeSort
        fun a b => decide (a ≤ b)) (fun trees => ?_) hwritten
      rw [List.map_map]
      rfl
    -- the groups of `m` are sorted a second time
    have hagain : (sortedGroups m.imports).map sortedTexts =
        (partition Located.span (writtenImports m.imports)).map sortedTexts := by
      rw [sortedGroups, List.map_map]
      exact List.map_congr_left fun trees _ => sortedTexts_sortImports trees
    rw [importTexts, importTexts, writtenImports_imports, synthesizedImports_imports, hsynthesized,
      hsorted, hagain, ← synthesizedImports_imports]
  have hparagraphs : { m with children }.itemParagraphs = m.itemParagraphs := by
    rw [itemParagraphs, itemParagraphs, items_eq_inSection]
    refine map_eq_of_map_value_eq (List.flatMap (Node.treeLines 0)) (fun trees => ?_) hitems
    exact (List.flatMap_map _ _ _).symm
  rw [lines, lines, himports, hparagraphs]
  rfl

end Node

/-- Where no import was synthesized, each child stands at its place. -/
theorem Reseated.forall₂_seatedAt {places : List Place} {trees : List (Located Node)}
    (h : List.Forall₂ Reseated places trees)
    (hs : ∀ place ∈ places, place.tree.section ≠ .synthesized) :
    List.Forall₂ SeatedAt places trees := by
  have hboth := (List.forall₂_and_left places trees).mpr ⟨hs, h⟩
  exact hboth.imp fun place tree hpt => hpt.2.seatedAt hpt.1

/-- Where all imports were synthesized, the children are the same as before. -/
theorem Reseated.eq_map_tree {places : List Place} {trees : List (Located Node)}
    (h : List.Forall₂ Reseated places trees)
    (hs : ∀ place ∈ places, place.tree.section = .synthesized) :
    trees = places.map Place.tree := by
  induction h with
  | nil => rfl
  | @cons place tree places trees hpt _ ih =>
    rw [Reseated, if_pos (hs place List.mem_cons_self)] at hpt
    rw [hpt, ih fun p hp => hs p (List.mem_cons_of_mem place hp)]
    rfl

/-- Lines of a file, from the start of the first to the start of the last. -/
def Extent.ofLines (file : String) (first last : Int) (h : first ≤ last) : Extent where
  file := file
  start := ⟨first, 1⟩
  stop := ⟨last, 1⟩
  start_le_stop := by
    rw [Position.le_def]
    show first < last ∨ first = last ∧ (1 : Int) ≤ 1
    omega

/-- The children of every module can be reseated. -/
theorem exists_forall₂_reseated (m : Node) :
    ∃ children, List.Forall₂ Reseated m.places children := by
  have hseat : ∀ places : List Place, (∀ place ∈ places, place.first ≤ place.last) →
      ∃ children, List.Forall₂ Reseated places children := by
    intro places hplaces
    induction places with
    | nil => exact ⟨[], List.Forall₂.nil⟩
    | cons place places ih =>
      obtain ⟨children, hchildren⟩ := ih fun p hp => hplaces p (List.mem_cons_of_mem place hp)
      -- a synthesized import is kept, and any other child is put on whole lines
      by_cases hs : place.tree.section = .synthesized
      · exact ⟨place.tree :: children, List.Forall₂.cons (by rw [Reseated, if_pos hs]) hchildren⟩
      · refine ⟨⟨.real (.ofLines "" place.first place.last
          (hplaces place List.mem_cons_self)), place.tree.value⟩ :: children, ?_⟩
        refine List.Forall₂.cons ?_ hchildren
        rw [Reseated, if_neg hs]
        exact ⟨rfl, _, rfl, rfl, rfl⟩
  exact hseat m.places m.first_le_last_of_mem_places

/-- **A layout is a fixed point.**  The lines of a module are its pieces, which tell the
place of each child, and its text is these lines; and the module with its children moved to
their places, in the order of the places, has that text too. -/
theorem layOut_reseated {m : Node} (h : m.kind = .wholeModule) {children : List (Located Node)}
    (hseats : List.Forall₂ Reseated m.places children) (span span' : Span) :
    m.moduleLines.result = .ok (m.pieces.flatMap Piece.lines) ∧
      (layOut ⟨span, .node m⟩).result = .ok (finishedText (m.pieces.flatMap Piece.lines)) ∧
      (layOut ⟨span', .node { m with children }⟩).result =
        .ok (finishedText (m.pieces.flatMap Piece.lines)) := by
  obtain ⟨a, b, c, hwritten, hsynthesized, hitems⟩ := m.exists_filter_places_eq
  have hsection : ∀ {k : Section}, ∀ place ∈
      m.places.filter (fun place => decide (place.tree.section = k)), place.tree.section = k :=
    fun place hplace => of_decide_eq_true (List.mem_filter.mp hplace).2
  have hlines : { m with children }.lines = m.lines := by
    refine Node.lines_eq_of_groups ?_ ?_ ?_
    · have hseated := Reseated.forall₂_seatedAt (Node.forall₂_inSection hseats .written)
        fun place hplace => (hsection place hplace).symm ▸ (by decide)
      rw [hwritten] at hseated
      refine partition_seated importLines _ (fun group hgroup => ?_) a _ hseated
      obtain ⟨trees, htrees, rfl⟩ := List.mem_map.mp hgroup
      exact mergeSort_ne_nil (ne_nil_of_mem_partition Located.span htrees)
    · have hkept := Reseated.eq_map_tree (Node.forall₂_inSection hseats .synthesized) hsection
      rw [hkept, hsynthesized, map_tree_placesFrom_spaced, flatten_synthesizedGroups,
        Node.synthesizedImports_imports]
    · have hseated := Reseated.forall₂_seatedAt (Node.forall₂_inSection hseats .items)
        fun place hplace => (hsection place hplace).symm ▸ (by decide)
      rw [hitems] at hseated
      exact partition_seated itemLines _
        (fun group hgroup => ne_nil_of_mem_partition Located.span hgroup) c _ hseated
  rw [m.flatMap_lines_pieces]
  refine ⟨m.result_moduleLines, result_layOut h span, ?_⟩
  rw [result_layOut (m := { m with children }) h span', hlines]

/-- A module whose children stand in any order: an item with a doc comment of two lines and
an item inside, two groups of imports of which the first one is not sorted, an import that
was synthesized, and an item whose span is unknown. -/
def scatteredModule : Node :=
  ⟨.wholeModule, some "M", none, [
    ⟨.real (.ofLines "M" 9 9 (by decide)), ⟨.declaration, some "f = g", some "one\ntwo",
      [⟨.unknown "", ⟨.expression, some "where g", none, []⟩⟩]⟩⟩,
    ⟨.real (.ofLines "M" 3 3 (by decide)), ⟨.importLine, some "import B", none, []⟩⟩,
    ⟨.real (.ofLines "M" 4 4 (by decide)), ⟨.importLine, some "import A", none, []⟩⟩,
    ⟨.real (.ofLines "M" 7 7 (by decide)), ⟨.importLine, some "import C", none, []⟩⟩,
    ⟨.unknown "", ⟨.importLine, some "import D", none, []⟩⟩,
    ⟨.unknown "", ⟨.signature, some "h", none, []⟩⟩]⟩

/-- The children of that module on the lines of its layout. -/
def settledChildren : List (Located Node) := [
  ⟨.real (.ofLines "M" 3 3 (by decide)), ⟨.importLine, some "import A", none, []⟩⟩,
  ⟨.real (.ofLines "M" 4 4 (by decide)), ⟨.importLine, some "import B", none, []⟩⟩,
  ⟨.real (.ofLines "M" 6 6 (by decide)), ⟨.importLine, some "import C", none, []⟩⟩,
  ⟨.unknown "", ⟨.importLine, some "import D", none, []⟩⟩,
  ⟨.real (.ofLines "N" 10 13 (by decide)), ⟨.declaration, some "f = g", some "one\ntwo",
    [⟨.unknown "", ⟨.expression, some "where g", none, []⟩⟩]⟩⟩,
  ⟨.real (.ofLines "M" 14 14 (by decide)), ⟨.signature, some "h", none, []⟩⟩]

theorem sortedGroups_scatteredModule : sortedGroups scatteredModule.imports =
    [[⟨.real (.ofLines "M" 4 4 (by decide)), ⟨.importLine, some "import A", none, []⟩⟩,
      ⟨.real (.ofLines "M" 3 3 (by decide)), ⟨.importLine, some "import B", none, []⟩⟩],
      [⟨.real (.ofLines "M" 7 7 (by decide)), ⟨.importLine, some "import C", none, []⟩⟩]] := by
  have hpair : ∀ {a b : Located Node}, ¬ a.value.ownText ≤ b.value.ownText →
      sortImports [a, b] = [b, a] := by
    intro a b h
    simp [sortImports, List.mergeSort, h]
  have hgroups : partition Located.span (writtenImports scatteredModule.imports) =
      [[⟨.real (.ofLines "M" 3 3 (by decide)), ⟨.importLine, some "import B", none, []⟩⟩,
        ⟨.real (.ofLines "M" 4 4 (by decide)), ⟨.importLine, some "import A", none, []⟩⟩],
        [⟨.real (.ofLines "M" 7 7 (by decide)), ⟨.importLine, some "import C", none, []⟩⟩]] := by
    decide +kernel
  rw [sortedGroups, hgroups, List.map_cons, hpair (by decide), List.map_singleton, sortImports,
    List.mergeSort_singleton]

theorem forall₂_reseated_settledChildren :
    List.Forall₂ Reseated scatteredModule.places settledChildren := by
  rw [Node.places, Node.pieces, sortedGroups_scatteredModule]
  decide +kernel

theorem layOut_settledChildren :
    let text := "module M where\n\nimport A\nimport B\n\nimport C\n\nimport D\n\n" ++
      "-- | one\n-- two\nf = g\n  where g\nh\n"
    scatteredModule.kind = .wholeModule ∧
      List.Forall₂ Reseated scatteredModule.places settledChildren ∧
      scatteredModule.moduleLines.result = .ok (scatteredModule.pieces.flatMap Piece.lines) ∧
      (layOut ⟨.unknown "", .node scatteredModule⟩).result = .ok text ∧
      (layOut ⟨.unknown "", .node { scatteredModule with children := settledChildren }⟩).result =
        .ok text := by
  intro text
  have htext : finishedText (scatteredModule.pieces.flatMap Piece.lines) = text := by
    rw [Node.pieces, sortedGroups_scatteredModule]
    decide +kernel
  obtain ⟨hlines, hbefore, hafter⟩ :=
    layOut_reseated rfl forall₂_reseated_settledChildren (.unknown "") (.unknown "")
  rw [htext] at hbefore hafter
  exact ⟨rfl, forall₂_reseated_settledChildren, hlines, hbefore, hafter⟩

end SourceLayout
