import Mathlib.Data.List.Perm.Basic
import SourceLayout.Proofs.Paragraph.Spacing
import SourceLayout.Proofs.Layout.Reading

/-! # What is written in a layout

A layout writes every import and every item of a module once, and adds nothing to them but
comment markers, indentation and empty lines.

The tree of an item is written in **preorder**: each node is its comment and then its text,
two spaces deeper than the node that it is in (`Node.walk`, `Node.linesAt`).  The imports
come above the items, those with a line in the source before the others and in another
order.  An empty line stands between two neighbouring items if a blank line separates them
in the source, and no line if none does (`layOut_contents`).
-/
namespace SourceLayout

open Layout

/-! ## Trees in preorder -/

namespace Node

/-- The lines of a node by itself, `depth` levels deep: its comment and its text, behind two
spaces for each level. -/
def linesAt (depth : Nat) (node : Node) : List String :=
  (docLines 0 node.doc ++ [node.ownText]).map (String.ofList (List.replicate (2 * depth) ' ') ++ ·)

mutual
/-- The nodes of a tree in preorder, each with its depth. -/
def walk (depth : Nat) : Node → List (Nat × Node)
  | ⟨kind, text, doc, children⟩ =>
    (depth, ⟨kind, text, doc, children⟩) :: forestWalk (depth + 1) children
termination_by structural node => node

/-- The nodes of some trees in preorder, one tree after the other. -/
def forestWalk (depth : Nat) : List (Located Node) → List (Nat × Node)
  | [] => []
  | ⟨_, node⟩ :: rest => walk depth node ++ forestWalk depth rest
termination_by structural forest => forest
end

/-- The lines of a tree, node by node. -/
def preorderLines (node : Node) : List String :=
  (node.walk 0).flatMap fun place => place.2.linesAt place.1

theorem linesAt_eq_map_indent (depth : Nat) (node : Node) :
    node.linesAt depth = (docLines 0 node.doc ++ [node.ownText]).map (Text.indent depth) :=
  List.map_congr_left fun line _ => (Text.indent_eq_append depth line).symm

theorem linesAt_eq (depth : Nat) (node : Node) :
    node.linesAt depth = docLines depth node.doc ++ [Text.indent depth node.ownText] := by
  have hdoc : (docLines 0 node.doc).map (Text.indent depth) = docLines depth node.doc := by
    cases node.doc with
    | none => rfl
    | some raw =>
      have hzero : Text.indent 0 = id := funext fun _ => rfl
      rw [docLines, DocComment.commentLines, hzero, List.map_id]
      rfl
  rw [linesAt_eq_map_indent, List.map_append, hdoc]
  rfl

mutual
/-- **A tree is written in preorder.** -/
theorem treeLines_eq_flatMap_walk (depth : Nat) : (node : Node) →
    node.treeLines depth = (node.walk depth).flatMap fun place => place.2.linesAt place.1
  | ⟨_, _, _, children⟩ => by
    rw [treeLines, walk, List.flatMap_cons, linesAt_eq,
      forestLines_eq_flatMap_forestWalk (depth + 1) children, List.append_assoc]
    rfl
termination_by structural node => node

theorem forestLines_eq_flatMap_forestWalk (depth : Nat) : (forest : List (Located Node)) →
    forestLines depth forest =
      (forestWalk depth forest).flatMap fun place => place.2.linesAt place.1
  | [] => rfl
  | ⟨_, node⟩ :: rest => by
    rw [forestLines, forestWalk, List.flatMap_append, treeLines_eq_flatMap_walk depth node,
      forestLines_eq_flatMap_forestWalk depth rest]
termination_by structural forest => forest
end

end Node

/-! ## The lines of a text -/

/-- The lines of a text: what lies between its newlines. -/
def textLines (text : String) : List String := (Text.lines text.toList).map String.ofList

namespace Layout

theorem textLines_intercalate {ls : List String} (hne : ls ≠ [])
    (h : ∀ line ∈ ls, '\n' ∉ line.toList) : textLines ("\n".intercalate ls) = ls := by
  have hlines : Text.lines (['\n'].intercalate (ls.map String.toList)) = ls.map String.toList := by
    refine Text.lines_join (fun he => hne (List.map_eq_nil_iff.mp he)) fun line hline => ?_
    obtain ⟨old, hold, rfl⟩ := List.mem_map.mp hline
    exact h old hold
  rw [textLines, String.toList_intercalate, show "\n".toList = ['\n'] from rfl, hlines,
    List.map_map]
  exact (List.map_congr_left fun _ _ => String.ofList_toList).trans (List.map_id ls)

/-- A newline at the end of a text begins one more line. -/
theorem textLines_append_newline (text : String) :
    textLines (text ++ "\n") = textLines text ++ [""] := by
  rw [textLines, String.toList_append, show "\n".toList = ['\n'] from rfl,
    Text.lines_append_newline, List.map_append]
  rfl

/-- Trimming drops empty lines only. -/
theorem nonblank_trimLines (ls : List String) : nonblank (trimLines ls) = nonblank ls := by
  induction ls using List.reverseRecOn with
  | nil => rfl
  | append_singleton ls line ih =>
    by_cases hline : line = ""
    · rw [hline, trimLines_concat_empty, ih, nonblank_append]
      exact (List.append_nil _).symm
    · rw [trimLines_eq_self]
      intro last hlast
      rw [List.getLast?_concat] at hlast
      rw [← Option.some.inj hlast]
      exact hline

/-- What is left of trimmed lines does not end in an empty one. -/
theorem ne_empty_of_mem_getLast?_trimLines {ls : List String} :
    ∀ line ∈ (trimLines ls).getLast?, line ≠ "" :=
  fun line hline => of_decide_eq_false (Text.getLast?_dropTrailing line hline)

/-- A text of at least one line: its lines, and the empty one behind its last newline. -/
theorem textLines_finishedText_of_ne_nil {ls : List String} (hne : trimLines ls ≠ [])
    (h : ∀ line ∈ ls, '\n' ∉ line.toList) :
    textLines (finishedText ls) = trimLines ls ++ [""] := by
  rw [finishedText, textLines_append_newline,
    textLines_intercalate hne fun line hline => h line (Text.mem_of_mem_dropTrailing hline)]

/-- The lines of a finished text that are not empty are those that it was made of. -/
theorem nonblank_textLines_finishedText {ls : List String}
    (h : ∀ line ∈ ls, '\n' ∉ line.toList) :
    nonblank (textLines (finishedText ls)) = nonblank ls := by
  rw [← nonblank_trimLines ls]
  by_cases hne : trimLines ls = []
  · rw [finishedText, hne]
    rfl
  · rw [textLines_finishedText_of_ne_nil hne h, nonblank_append]
    exact List.append_nil _

/-! ## The sections of a module -/

theorem nonblank_closeGroups {groups : List (List String)}
    (h : ∀ group ∈ groups, ∀ line ∈ group, line ≠ "") :
    nonblank (closeGroups groups) = groups.flatten := by
  induction groups with
  | nil => rfl
  | cons group groups ih =>
    have hrest := ih fun g hg => h g (List.mem_cons_of_mem group hg)
    have hgroup := nonblank_eq_self (h group List.mem_cons_self)
    rw [closeGroups] at hrest ⊢
    rw [List.flatMap_cons, nonblank_append, nonblank_append, hgroup, hrest, List.flatten_cons]
    exact congrArg (· ++ groups.flatten) (List.append_nil group)

/-- The texts of the written imports, in the order in which they are laid out. -/
def writtenTexts (imports : List (Located Node)) : List String :=
  ((partition Located.span (writtenImports imports)).map sortedTexts).flatten

/-- Sorting the paragraphs of imports loses none and adds none. -/
theorem writtenTexts_perm (imports : List (Located Node)) :
    (writtenTexts imports).Perm (ownTexts (writtenImports imports)) := by
  have hsorted : ∀ group ∈ partition Located.span (writtenImports imports),
      (sortedTexts group).Perm (ownTexts group) :=
    fun group _ => List.mergeSort_perm _ _
  have hperm := List.Perm.flatMap_left _ hsorted
  have hflat : (partition Located.span (writtenImports imports)).flatMap ownTexts =
      ownTexts (writtenImports imports) := by
    have hmap := List.map_flatten (f := fun tree : Located Node => tree.value.ownText)
      (L := partition Located.span (writtenImports imports))
    rw [flatten_partition] at hmap
    exact hmap.symm
  rw [writtenTexts, ← List.flatMap_def, ← hflat]
  exact hperm

/-- An import is written or synthesized, and not both. -/
theorem ownTexts_imports_perm (imports : List (Located Node)) :
    (ownTexts (writtenImports imports) ++ ownTexts (synthesizedImports imports)).Perm
      (ownTexts imports) := by
  have hsplit := List.filter_append_perm (fun tree : Located Node => tree.startLine?.isSome) imports
  simp only [Option.not_isSome] at hsplit
  rw [ownTexts, ownTexts, ← List.map_append]
  exact hsplit.map _

theorem flatten_importTexts (imports : List (Located Node)) :
    (importTexts imports).flatten =
      writtenTexts imports ++ ownTexts (synthesizedImports imports) := by
  rw [importTexts, List.flatten_append, writtenTexts]
  split
  · next h => rw [List.isEmpty_iff.mp h]; rfl
  · rw [List.flatten_singleton]

end Layout

/-! ## Whole modules -/

/-- The empty line that is written between two items: one, if both have lines in the source
and at least one whole line lies between them. -/
def Span.emptyLines : Span → Span → List String
  | real a, real b => if 2 ≤ b.start.line - a.stop.line then [""] else []
  | _, _ => []

theorem blankLines_span (x y : Located Node) :
    blankLines Located.span x y = x.span.emptyLines y.span := by
  unfold blankLines
  cases x.span with
  | unknown _ => rfl
  | real a =>
    cases y.span with
    | unknown _ => rfl
    | real b => simp [Span.blankBetween, Span.emptyLines]

namespace Node

/-- A node with a text that is one line, and not an empty one. -/
def HasProperText (node : Node) : Prop := ∃ text, node.text = some text ∧ ProperLine text

/-- A module whose texts are lines. -/
structure IsProperModule (m : Node) : Prop where
  kind : m.kind = .wholeModule
  name : ∀ name ∈ m.text, '\n' ∉ name.toList
  imports : ∀ tree ∈ m.imports, tree.value.HasProperText
  items : ∀ tree ∈ m.items, tree.value.Every HasProperText

/-- The comment of a module and, if the module has a name, its header. -/
def top (m : Node) : List String :=
  docLines 0 m.doc ++ (m.text.map fun name => "module " ++ name ++ " where").toList

/-- What stands above the items of a module apart from empty lines, when its written imports
have the given texts. -/
def aboveItems (m : Node) (written : List String) : List String :=
  m.top ++ written ++ ownTexts (synthesizedImports m.imports)

theorem properLine_of_hasProperText (node : Node) (h : node.HasProperText) :
    ProperLine node.ownText := by
  obtain ⟨text, htext, hproper⟩ := h
  rw [ownText, htext]
  exact hproper

/-- The comment and the header of a module are proper lines if its name is on one line. -/
theorem properLine_of_mem_top {m : Node} (h : ∀ name ∈ m.text, '\n' ∉ name.toList) :
    ∀ line ∈ m.top, ProperLine line := by
  intro line hline
  unfold top at hline
  cases hname : m.text with
  | none =>
    rw [hname, Option.map_none, Option.toList_none, List.append_nil] at hline
    exact properLine_of_mem_docLines line hline
  | some name =>
    rw [hname] at hline
    exact properLine_of_mem_opening (h name hname) line hline

/-- The lines of a module, with its items one by one. -/
theorem lines_eq_spacedLines (m : Node) :
    m.lines = m.preamble ++ closeGroups (importTexts m.imports) ++
      spacedLines Located.span (fun tree => tree.value.treeLines 0) m.items := rfl

/-- The lines of a module that are not empty: those at its top, the texts of its imports, and
those of its items. -/
theorem mem_lines_iff {m : Node} {line : String} (h : line ≠ "") :
    line ∈ m.lines ↔ line ∈ m.top ∨ line ∈ ownTexts m.imports ∨
      ∃ tree ∈ m.items, line ∈ tree.value.treeLines 0 := by
  have hpreamble : line ∈ m.preamble ↔ line ∈ m.top := by
    unfold preamble top
    cases m.text with
    | none => rfl
    | some name => simp [headerLines, h]
  have himports : line ∈ closeGroups (importTexts m.imports) ↔ line ∈ ownTexts m.imports := by
    have hclose : line ∈ closeGroups (importTexts m.imports) ↔
        line ∈ (importTexts m.imports).flatten := by
      simp [closeGroups, h]
    rw [hclose, flatten_importTexts]
    exact (((writtenTexts_perm m.imports).append_right _).trans
      (ownTexts_imports_perm m.imports)).mem_iff
  rw [lines_eq_spacedLines, List.mem_append, List.mem_append, hpreamble, himports,
    mem_spacedLines_iff Located.span h, or_assoc]

/-- The lines of a module with items end with those of the last item. -/
theorem exists_lines_eq (m : Node) (hitems : m.items ≠ []) :
    ∃ above, ∃ last ∈ m.items, m.lines = above ++ last.value.treeLines 0 := by
  obtain ⟨above, hlines⟩ := exists_spacedLines_concat_eq Located.span
    (fun tree => tree.value.treeLines 0) m.items.dropLast (m.items.getLast hitems)
  rw [List.dropLast_concat_getLast] at hlines
  refine ⟨m.preamble ++ closeGroups (importTexts m.imports) ++ above, _,
    List.getLast_mem hitems, ?_⟩
  rw [lines_eq_spacedLines, hlines, List.append_assoc _ above]

namespace IsProperModule

variable {m : Node} (h : m.IsProperModule)
include h

/-- The preamble is the comment, the header if there is one, and an empty line below it. -/
theorem exists_preamble_eq : ∃ below : List String, (∀ line ∈ below, line = "") ∧
    m.preamble = m.top ++ below ∧ ∀ line ∈ m.top, ProperLine line := by
  have htop := properLine_of_mem_top h.name
  unfold preamble
  unfold top at htop ⊢
  cases hname : m.text with
  | none => exact ⟨[], by simp, by simp [headerLines], hname ▸ htop⟩
  | some name => exact ⟨[""], by simp, by simp [headerLines], hname ▸ htop⟩

theorem properLine_item :
    ∀ tree ∈ m.items, ∀ line ∈ tree.value.treeLines 0, ProperLine line := by
  intro tree htree line hline
  exact properLine_of_mem_forestLines properLine_of_hasProperText (everyIn_iff.mpr h.items)
    line (mem_forestLines_iff.mpr ⟨tree, htree, hline⟩)

theorem properLine_import : ∀ group ∈ importTexts m.imports, ∀ line ∈ group, ProperLine line := by
  intro group hgroup line hline
  obtain ⟨tree, htree, rfl⟩ := (ownText_of_mem_importTexts hgroup).2 line hline
  exact properLine_of_hasProperText tree.value (h.imports tree htree)

/-- Apart from empty lines all lines of a proper module are proper. -/
theorem eq_or_properLine : ∀ line ∈ m.lines, line = "" ∨ ProperLine line := by
  intro line hline
  rw [lines_eq_spacedLines, List.mem_append, List.mem_append] at hline
  rcases hline with (hpreamble | himport) | hitem
  · obtain ⟨below, hbelow, hlines, htop⟩ := h.exists_preamble_eq
    rw [hlines, List.mem_append] at hpreamble
    rcases hpreamble with hline | hline
    · exact Or.inr (htop line hline)
    · exact Or.inl (hbelow line hline)
  · obtain ⟨group, hgroup, hline⟩ := List.mem_flatMap.mp himport
    rcases List.mem_append.mp hline with hline | hline
    · exact Or.inr (h.properLine_import group hgroup line hline)
    · exact Or.inl (List.mem_singleton.mp hline)
  · rcases mem_intercalate_blank hitem with hblank | ⟨ls, hls, hline⟩
    · exact Or.inl hblank
    · obtain ⟨group, hgroup, rfl⟩ := List.mem_map.mp hls
      obtain ⟨tree, htree, hline⟩ := List.mem_flatMap.mp hline
      have hmem := mem_of_mem_partition Located.span hgroup htree
      exact Or.inr (h.properLine_item tree hmem line hline)

theorem newline_notMem_lines : ∀ line ∈ m.lines, '\n' ∉ line.toList := by
  intro line hline
  rcases h.eq_or_properLine line hline with rfl | hproper
  · exact List.not_mem_nil
  · exact hproper.no_newline

/-- What stands above the items, apart from empty lines. -/
theorem nonblank_aboveItems :
    nonblank (m.preamble ++ closeGroups (importTexts m.imports)) =
      m.aboveItems (writtenTexts m.imports) := by
  obtain ⟨below, hbelow, hlines, htop⟩ := h.exists_preamble_eq
  have hempty : nonblank below = [] := by
    refine List.filter_eq_nil_iff.mpr fun line hline => ?_
    rw [decide_eq_true_eq, not_not]
    exact hbelow line hline
  have himports := nonblank_closeGroups fun group hgroup line hline =>
    (h.properLine_import group hgroup line hline).ne_empty
  rw [nonblank_append, hlines, nonblank_append, hempty, List.append_nil, himports,
    flatten_importTexts, nonblank_eq_self fun line hline => (htop line hline).ne_empty,
    aboveItems, List.append_assoc]

/-- A module with items does not end in an empty line. -/
theorem trimLines_eq_self (hitems : m.items ≠ []) : trimLines m.lines = m.lines := by
  obtain ⟨above, last, hlast, hlines⟩ := m.exists_lines_eq hitems
  refine Layout.trimLines_eq_self fun line hline => ?_
  rw [hlines, List.getLast?_append_of_ne_nil _ (treeLines_ne_nil 0 last.value)] at hline
  exact (h.properLine_item last hlast line (List.mem_of_getLast? hline)).ne_empty

theorem trimLines_ne_nil (hitems : m.items ≠ []) : trimLines m.lines ≠ [] := by
  obtain ⟨above, last, -, hlines⟩ := m.exists_lines_eq hitems
  rw [h.trimLines_eq_self hitems, hlines]
  exact List.append_ne_nil_of_right_ne_nil _ (treeLines_ne_nil 0 last.value)

/-- The text of a module with items is its lines and an empty line behind them. -/
theorem textLines_finishedText (hitems : m.items ≠ []) :
    textLines (finishedText m.lines) = m.lines ++ [""] := by
  rw [textLines_finishedText_of_ne_nil (h.trimLines_ne_nil hitems) h.newline_notMem_lines,
    h.trimLines_eq_self hitems]

end IsProperModule

end Node

/-- **A layout writes every import and every item once.** -/
theorem layOut_contents {m : Node} (h : m.IsProperModule) (span : Span) :
    ∃ text, (layOut ⟨span, .node m⟩).result = .ok text ∧
      ∃ written : List String, written.Perm (ownTexts (writtenImports m.imports)) ∧
        (written ++ ownTexts (synthesizedImports m.imports)).Perm (ownTexts m.imports) ∧
        nonblank (textLines text) =
          m.aboveItems written ++ m.items.flatMap (fun tree => tree.value.preorderLines) ∧
        ∀ before x y after, m.items = before ++ x :: y :: after →
          ∃ above below,
            textLines text = above ++ x.value.preorderLines ++ x.span.emptyLines y.span ++
              y.value.preorderLines ++ below ∧
            nonblank above = m.aboveItems written ++
              before.flatMap (fun tree => tree.value.preorderLines) ∧
            nonblank below = after.flatMap (fun tree => tree.value.preorderLines) := by
  have hpreorder : ∀ tree : Located Node, tree.value.treeLines 0 = tree.value.preorderLines :=
    fun tree => Node.treeLines_eq_flatMap_walk 0 tree.value
  have hlines := h.newline_notMem_lines
  have hnonempty : ∀ tree ∈ m.items, ∀ line ∈ tree.value.treeLines 0, line ≠ "" :=
    fun tree htree line hline => (h.properLine_item tree htree line hline).ne_empty
  refine ⟨finishedText m.lines, result_layOut h.kind span, writtenTexts m.imports,
    writtenTexts_perm m.imports,
    ((writtenTexts_perm m.imports).append_right _).trans (ownTexts_imports_perm m.imports), ?_, ?_⟩
  · rw [nonblank_textLines_finishedText hlines, Node.lines_eq_spacedLines, nonblank_append,
      h.nonblank_aboveItems, nonblank_spacedLines Located.span hnonempty]
    simp only [hpreorder]
  · intro before x y after hitems
    have hne : m.items ≠ [] := by
      rw [hitems]
      exact List.append_ne_nil_of_right_ne_nil _ (List.cons_ne_nil x _)
    obtain ⟨above, below, hspaced, habove, hbelow⟩ :=
      exists_spacedLines_eq Located.span (hitems ▸ hnonempty)
    refine ⟨m.preamble ++ closeGroups (importTexts m.imports) ++ above, below ++ [""], ?_, ?_, ?_⟩
    · rw [h.textLines_finishedText hne, Node.lines_eq_spacedLines, hitems, hspaced,
        blankLines_span, hpreorder, hpreorder]
      simp only [List.append_assoc]
    · rw [nonblank_append, h.nonblank_aboveItems, habove]
      simp only [hpreorder]
    · rw [nonblank_append, hbelow]
      simp only [hpreorder]
      exact List.append_nil _

theorem isProperModule_nestedModule (doc : String) (line : Int) :
    (nestedModule doc line).IsProperModule where
  kind := rfl
  name := by
    intro name hname
    rw [← Option.some.inj hname]
    decide
  imports := by
    intro tree htree
    rw [List.mem_singleton.mp htree]
    exact ⟨"import A", rfl, by decide, by decide⟩
  items := by
    intro tree htree
    rcases List.mem_cons.mp htree with rfl | htree
    · exact ⟨⟨"f = g", rfl, by decide, by decide⟩,
        ⟨⟨"where g", rfl, by decide, by decide⟩, trivial⟩, trivial⟩
    · rw [List.mem_singleton.mp htree]
      exact ⟨⟨"h", rfl, by decide, by decide⟩, trivial⟩

/-- An import that was synthesized, a comment with an empty line, and an empty line between
two items. -/
theorem layOut_contents_nestedModule :
    (nestedModule "x\n\ny" 3).IsProperModule ∧
      ∃ text, (layOut ⟨.unknown "", .node (nestedModule "x\n\ny" 3)⟩).result = .ok text ∧
        nonblank (textLines text) =
          ["-- | x", "--", "-- y", "module M where", "import A", "-- | x", "--", "-- y", "f = g",
            "  where g", "h"] ∧
        ∃ above below, textLines text =
          above ++ ["-- | x", "--", "-- y", "f = g", "  where g"] ++ [""] ++ ["h"] ++ below := by
  have hproper := isProperModule_nestedModule "x\n\ny" 3
  obtain ⟨text, htext, written, hwritten, -, hlines, hgaps⟩ :=
    layOut_contents hproper (.unknown "")
  obtain rfl : written = [] := hwritten.eq_nil
  obtain ⟨above, below, hgap, -, -⟩ := hgaps [] _ _ [] rfl
  exact ⟨hproper, text, htext, hlines.trans (by decide), above, below, hgap⟩

end SourceLayout
