import SourceLayout.Proofs.Layout.Contents

/-! # Depth is indentation

How deep a tree stands shows in nothing but the spaces in front of its lines.

A node by itself is its comment and its text, and both stand as deep as the node
(`Node.linesAt_add`).  When a tree moves, every node of its walk moves by as many levels
(`Node.walk_add`).  A tree is written in the order of its walk, so a tree that stands `k`
levels deeper has the same lines behind `2 * k` more spaces (`Node.treeLines_add`).

The lines can be counted in the tree: there is one for each node, and one for each normal
line of each doc (`Node.length_treeLines`).
-/
namespace SourceLayout

open Layout

namespace Node

/-! ## Moving a tree -/

/-- The lines of a node by itself, `k` levels deeper. -/
theorem linesAt_add (d k : Nat) (node : Node) :
    node.linesAt (d + k) = (node.linesAt d).map (Text.indent k) := by
  rw [linesAt_eq_map_indent, linesAt_eq_map_indent, List.map_map]
  refine List.map_congr_left fun line _ => ?_
  rw [Nat.add_comm d k]
  exact Text.indent_add d k line

mutual
/-- A tree that stands `k` levels deeper has the same nodes in the same order, each of them
`k` levels deeper. -/
theorem walk_add (d k : Nat) : (node : Node) →
    node.walk (d + k) = (node.walk d).map fun place => (place.1 + k, place.2)
  | ⟨_, _, _, children⟩ => by
    -- The children stand one level below their parent, which is at `d + k`.
    have hbelow := forestWalk_add (d + 1) k children
    rw [Nat.add_right_comm] at hbelow
    rw [walk, walk, List.map_cons, hbelow]
termination_by structural node => node

theorem forestWalk_add (d k : Nat) : (forest : List (Located Node)) →
    forestWalk (d + k) forest = (forestWalk d forest).map fun place => (place.1 + k, place.2)
  | [] => rfl
  | ⟨_, node⟩ :: rest => by
    rw [forestWalk, forestWalk, List.map_append, walk_add d k node, forestWalk_add d k rest]
termination_by structural forest => forest
end

theorem treeLines_add (d k : Nat) (node : Node) :
    node.treeLines (d + k) = (node.treeLines d).map (Text.indent k) := by
  rw [treeLines_eq_flatMap_walk, treeLines_eq_flatMap_walk, walk_add, List.flatMap_map,
    List.map_flatMap]
  exact List.flatMap_congr fun place _ => linesAt_add place.1 k place.2

theorem forestLines_add (d k : Nat) (forest : List (Located Node)) :
    forestLines (d + k) forest = (forestLines d forest).map (Text.indent k) := by
  rw [forestLines_eq_flatMap, forestLines_eq_flatMap, List.map_flatMap]
  exact List.flatMap_congr fun tree _ => treeLines_add d k tree.value

/-! ## Counting the lines of a tree -/

/-- The nodes of a tree in preorder. -/
def nodes (node : Node) : List Node := (node.walk 0).map Prod.snd

/-- The docs of the nodes of a tree, in preorder. -/
def docs (node : Node) : List String := node.nodes.filterMap Node.doc

/-- A walk passes the same nodes at whatever depth it starts. -/
theorem map_snd_walk (depth : Nat) (node : Node) : (node.walk depth).map Prod.snd = node.nodes := by
  have hdeeper := walk_add 0 depth node
  rw [Nat.zero_add] at hdeeper
  rw [hdeeper, List.map_map]
  rfl

/-- A node by itself has a line for its text, and one for each normal line of its doc. -/
theorem length_linesAt (depth : Nat) (node : Node) :
    (node.linesAt depth).length = 1 + (node.doc.toList.flatMap DocComment.normalize).length := by
  have hdoc : (docLines 0 node.doc).length =
      (node.doc.toList.flatMap DocComment.normalize).length := by
    cases node.doc with
    | none => rfl
    | some raw =>
      rw [Option.toList_some, List.flatMap_singleton]
      exact DocComment.length_commentLines 0 raw
  rw [linesAt, List.length_map, List.length_append, hdoc, List.length_singleton, Nat.add_comm]

/-- The lines of some nodes, wherever these stand. -/
theorem length_flatMap_linesAt (places : List (Nat × Node)) :
    (places.flatMap fun place => place.2.linesAt place.1).length =
      places.length +
        (((places.map Prod.snd).filterMap Node.doc).flatMap DocComment.normalize).length := by
  rw [List.filterMap_eq_flatMap_toList]
  induction places with
  | nil => rfl
  | cons place rest ih =>
    rw [List.flatMap_cons, List.length_append, ih, length_linesAt, List.map_cons,
      List.flatMap_cons, List.flatMap_append, List.length_append, List.length_cons]
    omega

theorem length_treeLines (depth : Nat) (node : Node) :
    (node.treeLines depth).length =
      node.nodes.length + (node.docs.flatMap DocComment.normalize).length := by
  have hlength : (node.walk depth).length = node.nodes.length := by
    rw [← map_snd_walk depth, List.length_map]
  rw [treeLines_eq_flatMap_walk, length_flatMap_linesAt, hlength, map_snd_walk, docs]

end Node

/-- **Depth is pure indentation.**  A tree that stands `k` levels deeper has the same lines, each
behind `2 * k` more spaces.  It has one line for each node and one for each normal line of each
doc, as many at every depth. -/
theorem treeLines_deeper (tree : Located Node) (d k : Nat) :
    tree.value.treeLines (d + k) =
        (tree.value.treeLines d).map (String.ofList (List.replicate (2 * k) ' ') ++ ·) ∧
      (tree.value.treeLines d).length =
        tree.value.nodes.length + (tree.value.docs.flatMap DocComment.normalize).length ∧
      (tree.value.treeLines (d + k)).length = (tree.value.treeLines d).length := by
  have hlines := tree.value.treeLines_add d k
  refine ⟨?_, tree.value.length_treeLines d, ?_⟩
  · rw [hlines]
    exact List.map_congr_left fun line _ => Text.indent_eq_append k line
  · rw [hlines, List.length_map]

/-- The comment of a nested node stands as deep as the node. -/
example :
    Node.treeLines 1 ⟨.declaration, some "f", some "x",
        [⟨.unknown "", ⟨.expression, some "g", some " y\n\n z", []⟩⟩]⟩ =
      ["  -- | x", "  f", "    -- | y", "    --", "    -- z", "    g"] := by
  decide

end SourceLayout
