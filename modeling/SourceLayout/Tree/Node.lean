import SourceLayout.Tree.Kind
import SourceLayout.Fault

/-!
# Tree nodes

A syntax tree is built from nodes of one type; what a node is says its kind.  A node
has a text of its own (the head of a declaration, the line of an import), perhaps a
raw doc comment, and located children.

Functions on trees come in pairs, one for a node and one for a list of located
nodes, and both follow the data.

The **outline** of a node shows its kind, its text between quotes and the outlines
of its children in brackets.  Docs and spans have no place in it.
-/

namespace SourceLayout

/-- A node of a syntax tree. -/
structure Node where
  kind : NodeKind
  /-- The rendering of the node itself, without its children. -/
  text : Option String
  /-- The raw text of the attached doc comment, without comment markers. -/
  doc : Option String
  children : List (Located Node)

/-- An argument of an application. -/
inductive Argument where
  /-- A term. -/
  | value (term : Located Node)
  /-- A visible type argument; the span covers its marker. -/
  | type (marker : Span) (body : Located Node)
  /-- A parenthesis around the arguments so far. -/
  | paren (span : Span)

namespace Node

/-! ## Equality -/

mutual
/-- Whether two nodes agree in every part. -/
def same : Node → Node → Bool
  | ⟨kind₁, text₁, doc₁, children₁⟩, ⟨kind₂, text₂, doc₂, children₂⟩ =>
    decide (kind₁ = kind₂) && decide (text₁ = text₂) && decide (doc₁ = doc₂) &&
      sameForest children₁ children₂
termination_by structural a => a

/-- Whether two lists of located nodes are of one length and agree member by
member. -/
def sameForest : List (Located Node) → List (Located Node) → Bool
  | [], [] => true
  | ⟨span₁, node₁⟩ :: rest₁, ⟨span₂, node₂⟩ :: rest₂ =>
    decide (span₁ = span₂) && same node₁ node₂ && sameForest rest₁ rest₂
  | _, _ => false
termination_by structural forest => forest
end

mutual
theorem same_iff : (a b : Node) → (same a b = true ↔ a = b)
  | ⟨_, _, _, children₁⟩, ⟨_, _, _, children₂⟩ => by
    simp [same, sameForest_iff children₁ children₂, and_assoc]
termination_by structural a => a

theorem sameForest_iff : (a b : List (Located Node)) → (sameForest a b = true ↔ a = b)
  | [], b => by cases b <;> simp [sameForest]
  | _ :: _, [] => by simp [sameForest]
  | ⟨_, node₁⟩ :: rest₁, ⟨_, node₂⟩ :: rest₂ => by
    simp [sameForest, same_iff node₁ node₂, sameForest_iff rest₁ rest₂, and_assoc]
termination_by structural a => a
end

instance : DecidableEq Node := fun a b => decidable_of_iff _ (same_iff a b)

/-! ## Outline -/

/-- The kind of a node and, between quotes, its text. -/
def headOutline (kind : NodeKind) (text : Option String) : String :=
  match text with
  | some t => kind.name ++ " " ++ Text.quoted t
  | none => kind.name

mutual
/-- The kind and text of a node and of everything below it. -/
def outline : Node → String
  | ⟨kind, text, _, []⟩ => headOutline kind text
  | ⟨kind, text, _, child :: rest⟩ =>
    headOutline kind text ++ " [" ++ ", ".intercalate (forestOutlines (child :: rest)) ++ "]"
termination_by structural node => node

/-- The outlines of located nodes, in order. -/
def forestOutlines : List (Located Node) → List String
  | [] => []
  | ⟨_, node⟩ :: rest => outline node :: forestOutlines rest
termination_by structural forest => forest
end

theorem forestOutlines_eq_map (forest : List (Located Node)) :
    forestOutlines forest = forest.map fun child => child.value.outline := by
  induction forest with
  | nil => rfl
  | cons child rest ih => simp [forestOutlines, ih]

/-- Whether a node is the root of a whole module. -/
def isModule (node : Node) : Bool := decide (node.kind = .wholeModule)

/-- Whether a node is an import line. -/
def isImport (node : Node) : Bool := decide (node.kind = .importLine)

/-- The text of a node itself; a node without one has an empty text. -/
def ownText (node : Node) : String := node.text.getD ""

end Node

deriving instance DecidableEq for Argument

/-- The tree that an argument stands for when it is read as a type; a parenthesis
has none yet. -/
def Argument.toType : Argument → Except Fault (Located Node)
  | .value term => .ok term
  | .type _ body => .ok body
  | .paren _ => .error (.unsupported "ArgPar")

end SourceLayout
