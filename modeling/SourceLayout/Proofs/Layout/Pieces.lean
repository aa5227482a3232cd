import SourceLayout.Proofs.Layout.Sections

/-! # Where the children of a module are written

The lines of a module come in **pieces**: the lines of one child, or lines that belong to
no child.  Read in order the pieces are the lines of the module (`flatMap_lines_pieces`),
and counting their lines gives each child a **place**, the first and the last line that
it is written on (`placesFrom`).

Lines are counted as a reader of the text counts them (`height_eq`); that an entry is one
line is not presupposed.
-/
namespace SourceLayout

/-- Some lines of a module, and the child they are the lines of, if there is one. -/
structure Piece where
  owner : Option (Located Node)
  lines : List String

/-- A child, and the first and the last line that it is written on. -/
structure Place where
  tree : Located Node
  first : Int
  last : Int

namespace Layout

/-! ## Counting lines -/

/-- How many lines some entries take. -/
def height (entries : List String) : Nat :=
  (entries.flatMap fun entry => Text.lines entry.toList).length

@[simp] theorem height_append (as bs : List String) : height (as ++ bs) = height as + height bs := by
  rw [height, List.flatMap_append, List.length_append]
  rfl

theorem height_pos {entries : List String} (h : entries ≠ []) : 0 < height entries := by
  obtain ⟨entry, rest, rfl⟩ := List.exists_cons_of_ne_nil h
  have hentry := List.length_pos_iff.mpr (List.splitOn_ne_nil '\n' entry.toList)
  rw [height, List.flatMap_cons, List.length_append]
  exact Nat.add_pos_left hentry _

/-- The height of entries is the number of lines of their text. -/
theorem height_eq {entries : List String} (hne : entries ≠ []) :
    height entries = (Text.lines ("\n".intercalate entries).toList).length := by
  have hparts : entries.map String.toList ≠ [] := fun he => hne (List.map_eq_nil_iff.mp he)
  have hlines := Text.lines_intercalate hparts
  rw [String.toList_intercalate]
  exact (congrArg List.length (hlines.trans (List.flatMap_map _ _ _))).symm

/-- Entries without newlines take one line each. -/
theorem height_eq_length {entries : List String} (h : ∀ entry ∈ entries, '\n' ∉ entry.toList) :
    height entries = entries.length := by
  induction entries with
  | nil => rfl
  | cons entry rest ih =>
    have hentry := Text.lines_join (List.cons_ne_nil entry.toList []) fun line hline =>
      List.mem_singleton.mp hline ▸ h entry List.mem_cons_self
    have hrest := ih fun e he => h e (List.mem_cons_of_mem entry he)
    rw [List.intercalate_singleton] at hentry
    rw [height] at hrest ⊢
    rw [List.flatMap_cons, hentry, List.length_append, hrest, List.length_cons, Nat.add_comm]
    rfl

/-- The places of the children that some pieces are the lines of, when `above` lines stand
above the pieces. -/
def placesFrom (above : Int) : List Piece → List Place
  | [] => []
  | ⟨none, ls⟩ :: rest => placesFrom (above + height ls) rest
  | ⟨some tree, ls⟩ :: rest =>
    ⟨tree, above + 1, above + height ls⟩ :: placesFrom (above + height ls) rest

/-- The places below some pieces are those below as many lines. -/
theorem placesFrom_append (above : Int) (ps qs : List Piece) :
    placesFrom above (ps ++ qs) =
      placesFrom above ps ++ placesFrom (above + height (ps.flatMap Piece.lines)) qs := by
  induction ps generalizing above with
  | nil =>
    show placesFrom above qs = placesFrom (above + 0) qs
    rw [Int.add_zero]
  | cons p ps ih =>
    obtain ⟨owner, ls⟩ := p
    rw [List.flatMap_cons, height_append, Int.natCast_add, ← Int.add_assoc]
    cases owner with
    | none => exact ih (above + height ls)
    | some tree => exact congrArg (_ :: ·) (ih (above + height ls))

theorem map_tree_placesFrom (above : Int) (ps : List Piece) :
    (placesFrom above ps).map Place.tree = ps.filterMap Piece.owner := by
  fun_induction placesFrom above ps with
  | case1 => rfl
  | case2 above ls rest ih => exact ih
  | case3 above tree ls rest ih => exact congrArg (tree :: ·) ih

/-- A child that has lines is written on at least one line. -/
theorem first_le_last_of_mem_placesFrom {above : Int} {ps : List Piece}
    (h : ∀ p ∈ ps, p.owner.isSome = true → p.lines ≠ []) :
    ∀ place ∈ placesFrom above ps, place.first ≤ place.last := by
  intro place hplace
  fun_induction placesFrom above ps with
  | case1 => cases hplace
  | case2 above ls rest ih => exact ih (fun p hp => h p (List.mem_cons_of_mem _ hp)) hplace
  | case3 above tree ls rest ih =>
    rcases List.mem_cons.mp hplace with rfl | hplace
    · have hpos : 0 < height ls := height_pos (h ⟨some tree, ls⟩ List.mem_cons_self rfl)
      show above + 1 ≤ above + height ls
      omega
    · exact ih (fun p hp => h p (List.mem_cons_of_mem _ hp)) hplace

/-! ## The pieces of a module -/

/-- The empty line between two groups. -/
def blank : Piece := ⟨none, [""]⟩

/-- The line of an import. -/
def importLines (tree : Located Node) : List String := [tree.value.ownText]

/-- The lines of an item: its doc comment, its text and what is below it. -/
def itemLines (tree : Located Node) : List String := tree.value.treeLines 0

/-- Imports in the order in which they are laid out. -/
def sortImports (trees : List (Located Node)) : List (Located Node) :=
  trees.mergeSort fun a b => decide (a.value.ownText ≤ b.value.ownText)

/-- The groups of imports, in the order in which they are laid out. -/
def sortedGroups (imports : List (Located Node)) : List (List (Located Node)) :=
  (partition Located.span (writtenImports imports)).map sortImports

/-- The imports that were synthesized, which stand together if there are any. -/
def synthesizedGroups (imports : List (Located Node)) : List (List (Located Node)) :=
  if (synthesizedImports imports).isEmpty then [] else [synthesizedImports imports]

theorem ownTexts_sortImports (trees : List (Located Node)) :
    ownTexts (sortImports trees) = sortedTexts trees :=
  List.map_mergeSort fun _ _ _ _ => rfl

theorem flatten_synthesizedGroups (imports : List (Located Node)) :
    (synthesizedGroups imports).flatten = synthesizedImports imports := by
  unfold synthesizedGroups
  split
  · next h => exact (List.isEmpty_iff.mp h).symm
  · exact List.flatten_singleton

/-- The import groups, as they are laid out. -/
theorem importTexts_eq_map (imports : List (Located Node)) :
    importTexts imports =
      (sortedGroups imports ++ synthesizedGroups imports).map ownTexts := by
  rw [importTexts, sortedGroups, List.map_append, List.map_map]
  refine congrArg₂ (· ++ ·) (List.map_congr_left fun trees _ => ?_) ?_
  · exact (ownTexts_sortImports trees).symm
  · unfold synthesizedGroups
    rw [ownTexts, List.isEmpty_map]
    split <;> rfl

/-- The pieces of groups that are written with `render`. -/
def groupPieces (render : Located Node → List String) (groups : List (List (Located Node))) :
    List (List Piece) :=
  groups.map (List.map fun tree => ⟨some tree, render tree⟩)

/-- Groups with an empty line between each and the next. -/
def spaced (render : Located Node → List String) (groups : List (List (Located Node))) :
    List Piece :=
  [blank].intercalate (groupPieces render groups)

/-- Groups with an empty line below each. -/
def closed (render : Located Node → List String) (groups : List (List (Located Node))) :
    List Piece :=
  (groupPieces render groups).flatMap (· ++ [blank])

section
variable (render : Located Node → List String)

theorem mem_spaced {groups : List (List (Located Node))} {p : Piece} (h : p ∈ spaced render groups) :
    p = blank ∨ ∃ tree, p = ⟨some tree, render tree⟩ := by
  rcases mem_intercalate_blank h with h | ⟨group, hgroup, h⟩
  · exact Or.inl h
  · obtain ⟨trees, -, rfl⟩ := List.mem_map.mp hgroup
    obtain ⟨tree, -, rfl⟩ := List.mem_map.mp h
    exact Or.inr ⟨tree, rfl⟩

theorem flatMap_lines_closed (groups : List (List (Located Node))) :
    (closed render groups).flatMap Piece.lines = closeGroups (groups.map (List.flatMap render)) := by
  rw [closed, groupPieces, closeGroups, List.flatMap_assoc]
  simp only [List.flatMap_map, List.flatMap_append]
  rfl

theorem flatMap_lines_spaced (groups : List (List (Located Node))) :
    (spaced render groups).flatMap Piece.lines =
      [""].intercalate (groups.map (List.flatMap render)) := by
  cases groups with
  | nil => rfl
  | cons first rest =>
    rw [spaced, groupPieces, List.map_cons, List.map_cons, intercalate_blank_cons,
      intercalate_blank_cons, List.flatMap_append, List.flatMap_assoc]
    simp only [List.flatMap_map, List.flatMap_cons]
    rfl

/-- Closing the groups puts no child on another line than spacing them does. -/
theorem placesFrom_closed (above : Int) (groups : List (List (Located Node))) :
    placesFrom above (closed render groups) = placesFrom above (spaced render groups) := by
  cases groups with
  | nil => rfl
  | cons first rest =>
    rw [closed, spaced, groupPieces, List.map_cons, flatMap_concat_cons, placesFrom_append]
    exact List.append_nil _

/-- A child and the next one of its group: no line is between them. -/
theorem placesFrom_spaced_within (above : Int) (x y : Located Node) (group : List (Located Node))
    (rest : List (List (Located Node))) :
    placesFrom above (spaced render ((x :: y :: group) :: rest)) =
      ⟨x, above + 1, above + height (render x)⟩ ::
        placesFrom (above + height (render x)) (spaced render ((y :: group) :: rest)) := by
  have hsplit : spaced render ((x :: y :: group) :: rest) =
      ⟨some x, render x⟩ :: spaced render ((y :: group) :: rest) := List.intercalate_cons_cons_left
  rw [hsplit]
  rfl

/-- The last child of a group and the first one of the next: one line is between them. -/
theorem placesFrom_spaced_across (above : Int) (x : Located Node) (group : List (Located Node))
    (rest : List (List (Located Node))) :
    placesFrom above (spaced render ([x] :: group :: rest)) =
      ⟨x, above + 1, above + height (render x)⟩ ::
        placesFrom (above + height (render x) + 1) (spaced render (group :: rest)) := by
  have hsplit : spaced render ([x] :: group :: rest) =
      ⟨some x, render x⟩ :: blank :: spaced render (group :: rest) := List.intercalate_cons_cons
  rw [hsplit]
  rfl

/-- The first child of some groups stands right below what is above them. -/
theorem exists_placesFrom_spaced (above : Int) (x : Located Node) (group : List (Located Node))
    (rest : List (List (Located Node))) :
    ∃ places, placesFrom above (spaced render ((x :: group) :: rest)) =
      ⟨x, above + 1, above + height (render x)⟩ :: places := by
  cases group with
  | nil =>
    cases rest with
    | nil => exact ⟨[], rfl⟩
    | cons next rest => exact ⟨_, placesFrom_spaced_across render above x next rest⟩
  | cons y group => exact ⟨_, placesFrom_spaced_within render above x y group rest⟩

/-- The places of some groups are the places of their members. -/
theorem map_tree_placesFrom_spaced (above : Int) (groups : List (List (Located Node))) :
    (placesFrom above (spaced render groups)).map Place.tree = groups.flatten := by
  have hgroup : ∀ group : List (Located Node),
      (group.map fun tree => (⟨some tree, render tree⟩ : Piece)).filterMap Piece.owner = group := by
    intro group
    rw [List.filterMap_map]
    exact List.filterMap_some
  rw [← placesFrom_closed, map_tree_placesFrom, closed, groupPieces, List.filterMap_flatMap,
    List.flatMap_map, ← List.flatMap_id]
  refine congrArg (List.flatMap · groups) (funext fun group => ?_)
  rw [List.filterMap_append, hgroup]
  exact List.append_nil group

end

end Layout

open Layout

namespace Node

/-- The pieces of a module, from the first line to the last. -/
def pieces (m : Node) : List Piece :=
  ⟨none, m.preamble⟩ ::
    (closed importLines (sortedGroups m.imports ++ synthesizedGroups m.imports) ++
      spaced itemLines (partition Located.span m.items))

/-- The places of the children of a module, in the order in which they are laid out. -/
def places (m : Node) : List Place := placesFrom 0 m.pieces

/-- **The pieces of a module are its lines.** -/
theorem flatMap_lines_pieces (m : Node) : m.pieces.flatMap Piece.lines = m.lines := by
  have himports : (closed importLines (sortedGroups m.imports ++
      synthesizedGroups m.imports)).flatMap Piece.lines = closeGroups (importTexts m.imports) := by
    rw [flatMap_lines_closed, importTexts_eq_map]
    exact congrArg (closeGroups <| List.map · _) (funext fun trees => List.flatMap_pure_eq_map _ _)
  rw [pieces, List.flatMap_cons, List.flatMap_append, himports, flatMap_lines_spaced, lines,
    List.append_assoc]
  rfl

end Node
end SourceLayout
