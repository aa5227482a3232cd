import Mathlib.Data.List.Forall2
import SourceLayout.Tree.Node

/-! # Properties of every node, relations of corresponding nodes

A property of nodes holds of a whole tree if it holds of every node in it (`Every`), and
two trees correspond under a relation of nodes if they have one shape and the relation
holds of every two nodes in the same place (`Matches`).  Both follow the tree, and both
say the same of a list of trees as of its members one by one.
-/
namespace SourceLayout.Node

/-! ## Every node -/

mutual
/-- Whether `p` holds of a node and of all nodes below it. -/
def Every (p : Node → Prop) : Node → Prop
  | ⟨kind, text, doc, children⟩ => p ⟨kind, text, doc, children⟩ ∧ EveryIn p children
termination_by structural node => node

/-- Whether `p` holds of all nodes of some trees. -/
def EveryIn (p : Node → Prop) : List (Located Node) → Prop
  | [] => True
  | ⟨_, node⟩ :: rest => Every p node ∧ EveryIn p rest
termination_by structural forest => forest
end

theorem everyIn_iff {p : Node → Prop} {forest : List (Located Node)} :
    EveryIn p forest ↔ ∀ tree ∈ forest, tree.value.Every p := by
  induction forest with
  | nil => simp [EveryIn]
  | cons tree rest ih => rw [List.forall_mem_cons, ← ih]; rfl

theorem Every.here {p : Node → Prop} {node : Node} (h : node.Every p) : p node := by
  obtain ⟨kind, text, doc, children⟩ := node
  exact h.1

theorem Every.below {p : Node → Prop} {node : Node} (h : node.Every p) :
    EveryIn p node.children := by
  obtain ⟨kind, text, doc, children⟩ := node
  exact h.2

mutual
theorem Every.imp {p q : Node → Prop} (h : ∀ node, p node → q node) :
    (node : Node) → node.Every p → node.Every q
  | ⟨_, _, _, children⟩, hnode => ⟨h _ hnode.1, EveryIn.imp h children hnode.2⟩
termination_by structural node => node

theorem EveryIn.imp {p q : Node → Prop} (h : ∀ node, p node → q node) :
    (forest : List (Located Node)) → EveryIn p forest → EveryIn q forest
  | [], _ => trivial
  | ⟨_, node⟩ :: rest, hforest => ⟨Every.imp h node hforest.1, EveryIn.imp h rest hforest.2⟩
termination_by structural forest => forest
end

section
variable (p : Node → Prop) [DecidablePred p]

mutual
/-- Whether a property holds of all nodes of a tree can be decided node by node. -/
def decidableEvery : (node : Node) → Decidable (Every p node)
  | ⟨_, _, _, children⟩ => @instDecidableAnd _ _ inferInstance (decidableEveryIn children)
termination_by structural node => node

def decidableEveryIn : (forest : List (Located Node)) → Decidable (EveryIn p forest)
  | [] => isTrue trivial
  | ⟨_, node⟩ :: rest => @instDecidableAnd _ _ (decidableEvery node) (decidableEveryIn rest)
termination_by structural forest => forest
end

instance : DecidablePred (Every p) := decidableEvery p

instance : DecidablePred (EveryIn p) := decidableEveryIn p

end

/-! ## Corresponding nodes -/

mutual
/-- Whether two trees have one shape and `r` holds of every two corresponding nodes. -/
def Matches (r : Node → Node → Prop) : Node → Node → Prop
  | ⟨kind₁, text₁, doc₁, children₁⟩, ⟨kind₂, text₂, doc₂, children₂⟩ =>
    r ⟨kind₁, text₁, doc₁, children₁⟩ ⟨kind₂, text₂, doc₂, children₂⟩ ∧
      MatchesIn r children₁ children₂
termination_by structural node => node

/-- Whether the trees of two lists correspond one by one. -/
def MatchesIn (r : Node → Node → Prop) : List (Located Node) → List (Located Node) → Prop
  | [], [] => True
  | ⟨_, node₁⟩ :: rest₁, ⟨_, node₂⟩ :: rest₂ => Matches r node₁ node₂ ∧ MatchesIn r rest₁ rest₂
  | _, _ => False
termination_by structural forest => forest
end

mutual
/-- Under a reflexive relation every tree corresponds to itself. -/
theorem matches_refl {r : Node → Node → Prop} (h : ∀ node, r node node) :
    (node : Node) → Matches r node node
  | ⟨_, _, _, children⟩ => ⟨h _, matchesIn_refl h children⟩
termination_by structural node => node

theorem matchesIn_refl {r : Node → Node → Prop} (h : ∀ node, r node node) :
    (forest : List (Located Node)) → MatchesIn r forest forest
  | [] => trivial
  | ⟨_, node⟩ :: rest => ⟨matches_refl h node, matchesIn_refl h rest⟩
termination_by structural forest => forest
end

theorem matchesIn_iff {r : Node → Node → Prop} {forest₁ forest₂ : List (Located Node)} :
    MatchesIn r forest₁ forest₂ ↔
      List.Forall₂ (fun a b => a.value.Matches r b.value) forest₁ forest₂ := by
  induction forest₁ generalizing forest₂ with
  | nil => cases forest₂ <;> simp [MatchesIn]
  | cons a rest₁ ih =>
    cases forest₂ with
    | nil => simp [MatchesIn]
    | cons b rest₂ => rw [List.forall₂_cons, ← ih]; rfl

end SourceLayout.Node
