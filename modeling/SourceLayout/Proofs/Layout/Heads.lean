import SourceLayout.Proofs.Layout.Depth

/-! # Finding the items in a layout

The text of an item is a line of the layout, and a reader who knows the texts looks for them
among the lines.  Other lines could be taken for them.  The lines that a layout adds below the
imports cannot, if the texts are plain: a comment line begins with a marker, and the lines of
a child with spaces (`filter_treeLines`).  So if no line above the items is one of the texts,
the reader finds each item once, and in order (`filter_textLines_eq`).
-/
namespace SourceLayout

open Layout

namespace Layout

/-- All lines of a forest stand as deep as the forest. -/
theorem exists_indent_of_mem_forestLines (depth : Nat) (forest : List (Located Node)) :
    ∀ line ∈ Node.forestLines depth forest, ∃ body, Text.indent depth body = line := by
  intro line hline
  have hlines := Node.forestLines_add 0 depth forest
  rw [Nat.zero_add] at hlines
  rw [hlines] at hline
  obtain ⟨body, -, he⟩ := List.mem_map.mp hline
  exact ⟨body, he⟩

/-- A plain text is not taken for the line of a child. -/
theorem notMem_forestLines_of_plainText {text : String} (h : PlainText text) (depth : Nat)
    (forest : List (Located Node)) : text ∉ Node.forestLines (depth + 1) forest := by
  intro htext
  obtain ⟨body, he⟩ := exists_indent_of_mem_forestLines (depth + 1) forest text htext
  have hne := Text.indent_ne_indent_succ h.no_indent 0 (Text.indent depth body)
  rw [Text.indent_zero, ← Text.indent_add, Nat.zero_add, Nat.add_comm 1 depth] at hne
  exact hne he.symm

/-- A plain text is not taken for a line of a comment. -/
theorem notMem_docLines_of_plainText {text : String} (h : PlainText text) (doc : Option String) :
    text ∉ docLines 0 doc :=
  fun htext => not_isDocLine_indent h 0 (isDocLine_of_mem_docLines text htext)

/-- Among the lines of an item only one is the text of an item. -/
theorem filter_treeLines {texts : List String} (h : ∀ text ∈ texts, PlainText text) {node : Node}
    (hnode : node.ownText ∈ texts) :
    (node.treeLines 0).filter (fun line => decide (line ∈ texts)) = [node.ownText] := by
  obtain ⟨kind, text, doc, children⟩ := node
  have hdoc : (docLines 0 doc).filter (fun line => decide (line ∈ texts)) = [] := by
    refine List.filter_eq_nil_iff.mpr fun line hline hmem => ?_
    exact notMem_docLines_of_plainText (h line (of_decide_eq_true hmem)) doc hline
  have hchildren :
      (Node.forestLines 1 children).filter (fun line => decide (line ∈ texts)) = [] := by
    refine List.filter_eq_nil_iff.mpr fun line hline hmem => ?_
    exact notMem_forestLines_of_plainText (h line (of_decide_eq_true hmem)) 0 children hline
  rw [Node.treeLines, List.filter_append, hdoc, List.nil_append, Text.indent_zero,
    List.filter_cons, hchildren]
  exact if_pos (decide_eq_true hnode)

/-- Empty lines are passed over by who looks for something else. -/
theorem filter_nonblank {p : String → Bool} (hp : p "" = false) (ls : List String) :
    (nonblank ls).filter p = ls.filter p := by
  rw [nonblank, List.filter_filter]
  refine List.filter_congr fun line _ => ?_
  by_cases hline : line = ""
  · rw [hline, hp, Bool.false_and]
  · rw [decide_eq_true hline, Bool.and_true]

end Layout

namespace Node.IsProperModule

variable {m : Node} (h : m.IsProperModule)
include h

/-- **The items of a module are found in its text**, each once and in order, if their texts are
plain and are not found above them. -/
theorem filter_textLines_eq (hplain : ∀ text ∈ ownTexts m.items, PlainText text)
    (habove : ∀ line ∈ m.top ++ ownTexts m.imports, line ∉ ownTexts m.items) :
    (textLines (finishedText m.lines)).filter (fun line => decide (line ∈ ownTexts m.items)) =
      ownTexts m.items := by
  have hempty : decide ("" ∈ ownTexts m.items) = false :=
    decide_eq_false fun hmem => (hplain "" hmem).ne_empty rfl
  have htop : (m.aboveItems (writtenTexts m.imports)).filter
      (fun line => decide (line ∈ ownTexts m.items)) = [] := by
    have himports := ((writtenTexts_perm m.imports).append_right _).trans
      (ownTexts_imports_perm m.imports)
    refine List.filter_eq_nil_iff.mpr fun line hline hmem => ?_
    rw [aboveItems, List.append_assoc, List.mem_append, himports.mem_iff,
      ← List.mem_append] at hline
    exact habove line hline (of_decide_eq_true hmem)
  have hitems : (m.items.flatMap fun tree => tree.value.treeLines 0).filter
      (fun line => decide (line ∈ ownTexts m.items)) = ownTexts m.items := by
    rw [List.filter_flatMap]
    have hone : ∀ tree ∈ m.items, (tree.value.treeLines 0).filter
        (fun line => decide (line ∈ ownTexts m.items)) = [tree.value.ownText] :=
      fun tree htree => filter_treeLines hplain (List.mem_map.mpr ⟨tree, htree, rfl⟩)
    rw [List.flatMap_congr hone, ownTexts, List.map_eq_flatMap]
  have hnonempty : ∀ tree ∈ m.items, ∀ line ∈ tree.value.treeLines 0, line ≠ "" :=
    fun tree htree line hline => (h.properLine_item tree htree line hline).ne_empty
  rw [← filter_nonblank hempty, nonblank_textLines_finishedText h.newline_notMem_lines,
    lines_eq_spacedLines, nonblank_append, h.nonblank_aboveItems,
    nonblank_spacedLines Located.span hnonempty, List.filter_append, htop, hitems]
  rfl

end Node.IsProperModule

end SourceLayout
