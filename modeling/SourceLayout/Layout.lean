import SourceLayout.Value
import SourceLayout.DocComment
import SourceLayout.Paragraph

/-!
# The layout of a module

A module is laid out as lines: its doc comment, its header with an empty line below,
its imports, and then everything else in source order.

* **Imports** that were written stay in the groups in which they were written; each
  group is sorted, and an empty line follows it.  Imports that were synthesized have
  no line to be grouped by, so they stand together at the end, as they came.
* **Other items** keep the blank lines that the source had between them.  An item is
  its doc comment, its text, and then its children, one level deeper.

Empty lines at the end are dropped, and a newline ends the text.
-/

namespace SourceLayout

namespace Layout

/-- The comment lines of a doc, if there is one. -/
def docLines (depth : Nat) : Option String → List String
  | some raw => DocComment.commentLines depth raw
  | none => []

/-- The header line of a module with a name, and an empty line below. -/
def headerLines : Option String → List String
  | some name => ["module " ++ name ++ " where", ""]
  | none => []

end Layout

open Layout

/-! ## Trees -/

mutual
/-- The lines of a tree, `depth` levels deep. -/
def Node.treeLines (depth : Nat) : Node → List String
  | ⟨_, text, doc, children⟩ =>
    docLines depth doc ++ Text.indent depth (text.getD "") ::
      Node.forestLines (depth + 1) children
termination_by structural node => node

/-- The lines of a list of trees, one after the other. -/
def Node.forestLines (depth : Nat) : List (Located Node) → List String
  | [] => []
  | ⟨_, node⟩ :: rest => Node.treeLines depth node ++ Node.forestLines depth rest
termination_by structural forest => forest
end

theorem Node.forestLines_eq_flatMap (depth : Nat) (forest : List (Located Node)) :
    Node.forestLines depth forest = forest.flatMap fun tree => tree.value.treeLines depth := by
  induction forest with
  | nil => rfl
  | cons tree rest ih => simp [Node.forestLines, ih]

/-! ## Imports -/

namespace Layout

/-- The texts of trees, in order. -/
def ownTexts (trees : List (Located Node)) : List String :=
  trees.map fun tree => tree.value.ownText

/-- The texts of trees, sorted by code points. -/
def sortedTexts (trees : List (Located Node)) : List String :=
  (ownTexts trees).mergeSort fun a b => decide (a ≤ b)

/-- The imports that have a line in the source. -/
def writtenImports (imports : List (Located Node)) : List (Located Node) :=
  imports.filter fun tree => tree.startLine?.isSome

/-- The imports that have none. -/
def synthesizedImports (imports : List (Located Node)) : List (Located Node) :=
  imports.filter fun tree => tree.startLine?.isNone

/-- The groups of import lines: the written ones by paragraph and sorted, then all
the others as they came. -/
def importGroups (imports : List (Located Node)) : Logged (List (List String)) := do
  let groups ← paragraphs Located.span (writtenImports imports)
  let synthesized := ownTexts (synthesizedImports imports)
  pure (groups.map sortedTexts ++ if synthesized.isEmpty then [] else [synthesized])

/-- The lines of groups, with an empty line below each. -/
def closeGroups (groups : List (List String)) : List String :=
  groups.flatMap fun group => group ++ [""]

/-! ## The whole module -/

/-- Lines without the empty ones at the end. -/
def trimLines (lines : List String) : List String :=
  Text.dropTrailing (fun line => decide (line = "")) lines

/-- Lines as a text: trimmed, and with a newline at the end. -/
def finishedText (lines : List String) : String :=
  "\n".intercalate (trimLines lines) ++ "\n"

end Layout

namespace Node

/-- The children that are imports. -/
def imports (m : Node) : List (Located Node) :=
  m.children.filter fun tree => tree.value.isImport

/-- The children that are not imports. -/
def items (m : Node) : List (Located Node) :=
  m.children.filter fun tree => !tree.value.isImport

/-- The lines above the imports. -/
def preamble (m : Node) : List String :=
  docLines 0 m.doc ++ headerLines m.text

/-- The lines of the imports, with an empty line below each group. -/
def importSection (m : Node) : Logged (List String) := do
  let groups ← importGroups m.imports
  pure (closeGroups groups)

/-- The lines of the items that are not imports. -/
def itemSection (m : Node) : Logged (List String) := do
  let groups ← paragraphs Located.span m.items
  layParagraphs Located.span (fun tree => tree.value.treeLines 0) groups

/-- All lines of a module, empty ones at the end included. -/
def moduleLines (m : Node) : Logged (List String) := do
  Logged.note (.layingOut m.text m.children.length)
  let imports ← m.importSection
  let items ← m.itemSection
  pure (m.preamble ++ imports ++ items)

/-- The text of a module. -/
def moduleText (m : Node) : Logged String := do
  let lines ← m.moduleLines
  pure (finishedText lines)

end Node

/-- The text of a located value, which must be a whole module. -/
def layOut (m : Located Value) : Logged String :=
  match m.value with
  | .node n =>
    if n.isModule then n.moduleText else Logged.breach (.notModule (.node n.kind) m.span)
  | v => Logged.breach (.notModule v.shape m.span)

end SourceLayout
