import SourceLayout.Proofs.DocComment.Rereading
import SourceLayout.Proofs.Layout.Contents

/-! # Blanks at the end of a line

Nothing that a layout adds to the texts of a module ends in a blank: a comment line ends in
its text or in its marker, and the header in a word.  So if no text of a module ends in a
blank, no line of the layout should.

There is one exception.  A node with an empty text, or with none, has a line of its own,
and below the top level this line is indented, which leaves nothing but blanks on it.  The
lines of a layout are stripped exactly if every node below an item has a text that is not
empty (`stripped_layOut_iff`).  A line of blanks is also not taken for an empty line, so it
can be left at the end of a text (`layOut_textlessModule`).
-/
namespace SourceLayout

/-- A line with no blanks at its end. -/
def Stripped (line : String) : Prop := Text.stripEnd line.toList = line.toList

instance : DecidablePred Stripped := fun line =>
  inferInstanceAs (Decidable (Text.stripEnd line.toList = line.toList))

/-- A text on one line, with no blanks at its end. -/
structure TidyText (text : String) : Prop where
  no_newline : '\n' ∉ text.toList
  stripped : Stripped text

instance : DecidablePred TidyText := fun _ =>
  decidable_of_iff (_ ∧ _) ⟨fun h => ⟨h.1, h.2⟩, fun h => ⟨h.no_newline, h.stripped⟩⟩

namespace Node

/-- A node whose text, if it has one, is tidy. -/
def HasTidyText (node : Node) : Prop := ∀ text ∈ node.text, TidyText text

/-- A node with a text that is not empty. -/
def HasText (node : Node) : Prop := node.ownText ≠ ""

/-- A node below which every node has a text. -/
def HasTextBelow (node : Node) : Prop := EveryIn HasText node.children

instance : DecidablePred HasTidyText := fun node =>
  inferInstanceAs (Decidable (∀ text ∈ node.text, TidyText text))

instance : DecidablePred HasText := fun node => inferInstanceAs (Decidable (node.ownText ≠ ""))

instance : DecidablePred HasTextBelow := fun node =>
  inferInstanceAs (Decidable (EveryIn HasText node.children))

end Node

/-! ## Lines -/

theorem stripped_iff {line : String} :
    Stripped line ↔ ∀ c ∈ line.toList.getLast?, Text.isBlank c = false :=
  Text.dropTrailing_eq_self_iff

theorem stripped_empty : Stripped "" := rfl

/-- A text without blanks is tidy. -/
theorem TidyText.of_not_blank {text : String} (h : ∀ c ∈ text.toList, Text.isBlank c = false) :
    TidyText text where
  no_newline := fun hn => absurd (h '\n' hn) (by decide)
  stripped := stripped_iff.mpr fun c hc => h c (List.mem_of_getLast? hc)

/-- Only the end of a text can be untidy, apart from newlines. -/
theorem TidyText.append {a b : String} (ha : '\n' ∉ a.toList) (hb : TidyText b) (hne : b ≠ "") :
    TidyText (a ++ b) where
  no_newline := by
    rw [String.toList_append, List.mem_append, not_or]
    exact ⟨ha, hb.no_newline⟩
  stripped := by
    have hchars : b.toList ≠ [] := fun he => hne (String.toList_eq_nil_iff.mp he)
    rw [stripped_iff, String.toList_append, List.getLast?_append_of_ne_nil _ hchars]
    exact stripped_iff.mp hb.stripped

/-- **Indentation shows on an empty line**, and on no other stripped line. -/
theorem stripped_indent_iff {line : String} (h : Stripped line) (depth : Nat) :
    Stripped (Text.indent depth line) ↔ depth = 0 ∨ line ≠ "" := by
  rw [stripped_iff] at h ⊢
  rw [Text.toList_indent]
  by_cases hline : line = ""
  · -- nothing is left of the line but its indentation
    rw [hline, String.toList_empty, List.append_nil, List.getLast?_replicate]
    constructor
    · intro hlast
      refine Or.inl ?_
      by_contra hdepth
      exact absurd (hlast ' ' (if_neg (by omega))) (by decide)
    · rintro (rfl | hne)
      · simp
      · exact absurd rfl hne
  · have hchars : line.toList ≠ [] := fun he => hline (String.toList_eq_nil_iff.mp he)
    rw [List.getLast?_append_of_ne_nil _ hchars]
    exact iff_of_true h (Or.inr hline)

namespace Layout

theorem stripped_of_mem_docLines {depth : Nat} {doc : Option String} :
    ∀ line ∈ docLines depth doc, Stripped line := by
  intro line hline
  cases doc with
  | none => cases hline
  | some raw =>
    have hcomment : line ∈ DocComment.commentLinesAt (depth : Int) raw := hline
    exact DocComment.stripEnd_commentLinesAt hcomment

end Layout

open Layout

namespace Node

theorem HasTidyText.ownText {node : Node} (h : node.HasTidyText) : TidyText node.ownText := by
  unfold Node.ownText
  cases htext : node.text with
  | none => exact ⟨List.not_mem_nil, stripped_empty⟩
  | some text => exact h text htext

/-- The lines of a forest below the top level are stripped exactly if its nodes have texts.
By induction on the forest: a comment is always stripped, and a text if it is not empty. -/
theorem stripped_forestLines_iff (depth : Nat) :
    (forest : List (Located Node)) → EveryIn HasTidyText forest →
      ((∀ line ∈ forestLines (depth + 1) forest, Stripped line) ↔ EveryIn HasText forest)
  | [], _ => by simp [forestLines, EveryIn]
  | ⟨_, ⟨kind, text, doc, children⟩⟩ :: rest, ⟨⟨hnode, hbelow⟩, hbeside⟩ => by
    have htext : Stripped (Text.indent (depth + 1) (text.getD "")) ↔
        HasText ⟨kind, text, doc, children⟩ :=
      (stripped_indent_iff hnode.ownText.stripped (depth + 1)).trans
        (or_iff_right (Nat.succ_ne_zero depth))
    simp only [forestLines, treeLines, List.forall_mem_append, List.forall_mem_cons, htext,
      stripped_forestLines_iff (depth + 1) children hbelow,
      stripped_forestLines_iff depth rest hbeside]
    exact and_congr_left' (and_iff_right stripped_of_mem_docLines)

/-- The text of an item is not indented, so that only the nodes below it matter. -/
theorem stripped_treeLines_iff {node : Node} (h : node.Every HasTidyText) :
    (∀ line ∈ node.treeLines 0, Stripped line) ↔ node.HasTextBelow := by
  obtain ⟨kind, text, doc, children⟩ := node
  have hnode : Stripped (text.getD "") := h.here.ownText.stripped
  simp only [treeLines, List.forall_mem_append, List.forall_mem_cons, Text.indent_zero]
  rw [and_iff_right stripped_of_mem_docLines, and_iff_right hnode]
  exact stripped_forestLines_iff 0 children h.below

/-! ## Whole modules -/

/-- The comment and the header of a module are always stripped. -/
theorem stripped_of_mem_top {m : Node} : ∀ line ∈ m.top, Stripped line := by
  intro line hline
  rcases List.mem_append.mp hline with hline | hline
  · exact stripped_of_mem_docLines line hline
  · obtain ⟨name, -, rfl⟩ := Option.map_eq_some_iff.mp (Option.mem_toList.mp hline)
    have hlast : " where".toList.getLast? = some 'e' := by decide
    rw [stripped_iff, String.toList_append, List.getLast?_append_of_ne_nil _ (by decide), hlast]
    intro c hc
    rw [← Option.some.inj hc]
    decide

section
variable {m : Node} (h : m.Every HasTidyText)
include h

theorem tidyText_of_mem_imports {line : String} (hline : line ∈ ownTexts m.imports) :
    TidyText line := by
  obtain ⟨tree, htree, rfl⟩ := List.mem_map.mp hline
  exact (everyIn_iff.mp h.below tree (List.mem_of_mem_filter htree)).here.ownText

theorem every_hasTidyText_of_mem_items : ∀ tree ∈ m.items, tree.value.Every HasTidyText :=
  fun tree htree => everyIn_iff.mp h.below tree (List.mem_of_mem_filter htree)

/-- The lines of a module with tidy texts are lines. -/
theorem newline_notMem_lines_of_tidy : ∀ line ∈ m.lines, '\n' ∉ line.toList := by
  intro line hline
  by_cases hne : line = ""
  · rw [hne]
    exact List.not_mem_nil
  · rcases (mem_lines_iff hne).mp hline with htop | himport | ⟨tree, htree, hitem⟩
    · exact (properLine_of_mem_top (fun name hname => (h.here name hname).no_newline)
        line htop).no_newline
    · exact (tidyText_of_mem_imports h himport).no_newline
    · have hforest : line ∈ forestLines 0 m.items :=
        mem_forestLines_iff.mpr ⟨tree, htree, hitem⟩
      obtain ⟨level, body, rfl, hbody | ⟨node, hnode, rfl⟩⟩ := exists_of_mem_forestLines 0 m.items
        (everyIn_iff.mpr (every_hasTidyText_of_mem_items h)) line hforest
      · exact fun hn => hbody.2 (Text.newline_mem_indent.mp hn)
      · exact fun hn => hnode.ownText.no_newline (Text.newline_mem_indent.mp hn)

/-- The lines of a module are stripped exactly if those of its items are. -/
theorem stripped_lines_iff :
    (∀ line ∈ m.lines, Stripped line) ↔ ∀ tree ∈ m.items, tree.value.HasTextBelow := by
  have hitems : (∀ line ∈ m.lines, Stripped line) ↔
      ∀ tree ∈ m.items, ∀ line ∈ tree.value.treeLines 0, Stripped line := by
    constructor
    · intro hlines tree htree line hline
      by_cases hne : line = ""
      · exact hne ▸ stripped_empty
      · exact hlines line ((mem_lines_iff hne).mpr (Or.inr (Or.inr ⟨tree, htree, hline⟩)))
    · intro hitems line hline
      by_cases hne : line = ""
      · exact hne ▸ stripped_empty
      · rcases (mem_lines_iff hne).mp hline with htop | himport | ⟨tree, htree, hitem⟩
        · exact stripped_of_mem_top line htop
        · exact (tidyText_of_mem_imports h himport).stripped
        · exact hitems tree htree line hitem
  rw [hitems]
  exact forall₂_congr fun tree htree =>
    stripped_treeLines_iff (every_hasTidyText_of_mem_items h tree htree)

end

end Node

namespace Layout

/-- A property of empty lines holds of all lines of a text if it holds of the lines that the
text was made of. -/
theorem forall_mem_textLines_iff {ls : List String} {p : String → Prop} (hp : p "")
    (h : ∀ line ∈ ls, '\n' ∉ line.toList) :
    (∀ line ∈ textLines (finishedText ls), p line) ↔ ∀ line ∈ ls, p line := by
  have hnonblank : ∀ lines : List String, (∀ line ∈ nonblank lines, p line) ↔
      ∀ line ∈ lines, p line := by
    intro lines
    constructor
    · intro hall line hline
      by_cases hne : line = ""
      · exact hne ▸ hp
      · exact hall line (List.mem_filter.mpr ⟨hline, decide_eq_true hne⟩)
    · exact fun hall line hline => hall line (List.mem_of_mem_filter hline)
  rw [← hnonblank, nonblank_textLines_finishedText h, hnonblank]

/-- A text without blanks at the ends of its lines does not end in a line of blanks, unless it
has no other line. -/
theorem exists_textLines_eq {ls : List String} (h : ∀ line ∈ ls, '\n' ∉ line.toList)
    (hstripped : ∀ line ∈ ls, Stripped line) : finishedText ls = "\n" ∨
      ∃ above last, textLines (finishedText ls) = above ++ [last, ""] ∧
        Text.stripEnd last.toList ≠ [] := by
  by_cases hne : trimLines ls = []
  · left
    rw [finishedText, hne]
    rfl
  · right
    have hmem := Text.mem_of_mem_dropTrailing (List.getLast_mem hne)
    refine ⟨(trimLines ls).dropLast, (trimLines ls).getLast hne, ?_, ?_⟩
    · rw [textLines_finishedText_of_ne_nil hne h]
      conv_lhs => rw [← List.dropLast_concat_getLast hne]
      simp
    · rw [hstripped _ hmem]
      have hlast := ne_empty_of_mem_getLast?_trimLines _ (List.getLast_mem_getLast? hne)
      exact fun he => hlast (String.toList_eq_nil_iff.mp he)

end Layout

/-- **No line of a layout ends in blanks, exactly if every node below an item has a text.**
The texts of the module are lines without blanks at their ends, where they are present; docs
and spans do not matter.  Then the text does not end in a line of blanks either. -/
theorem stripped_layOut_iff {m : Node} (hm : m.kind = .wholeModule)
    (h : m.Every Node.HasTidyText) (span : Span) :
    ∃ text, (layOut ⟨span, .node m⟩).result = .ok text ∧
      ((∀ line ∈ textLines text, Stripped line) ↔ ∀ tree ∈ m.items, tree.value.HasTextBelow) ∧
      ((∀ tree ∈ m.items, tree.value.HasTextBelow) → text = "\n" ∨
        ∃ above last, textLines text = above ++ [last, ""] ∧ Text.stripEnd last.toList ≠ []) := by
  have hlines := Node.newline_notMem_lines_of_tidy h
  refine ⟨finishedText m.lines, result_layOut hm span, ?_, fun hbelow => ?_⟩
  · rw [forall_mem_textLines_iff stripped_empty hlines, Node.stripped_lines_iff h]
  · exact exists_textLines_eq hlines ((Node.stripped_lines_iff h).mpr hbelow)

/-- A module with an item that has a child without a text. -/
def textlessModule : Node :=
  ⟨.wholeModule, some "M", none, [
    ⟨.real ⟨"M.hs", ⟨3, 1⟩, ⟨4, 3⟩, by decide⟩, ⟨.declaration, some "f", none,
      [⟨.real ⟨"M.hs", ⟨4, 3⟩, ⟨4, 3⟩, by decide⟩, ⟨.expression, none, none, []⟩⟩]⟩⟩]⟩

/-- The line of a node without a text is left as a line of blanks at the end of the text. -/
theorem layOut_textlessModule :
    textlessModule.kind = .wholeModule ∧ textlessModule.Every Node.HasTidyText ∧
      (layOut ⟨.real ⟨"M.hs", ⟨1, 1⟩, ⟨4, 3⟩, by decide⟩, .node textlessModule⟩).result =
        .ok "module M where\n\nf\n  \n" ∧
      ¬ ∀ line ∈ textLines "module M where\n\nf\n  \n", Stripped line :=
  ⟨rfl, by decide, by decide +kernel, by decide +kernel⟩

/-- A module with docs, nested items and an import. -/
theorem stripped_layOut_nestedModule :
    (nestedModule " x \n\n $y" 3).kind = .wholeModule ∧
      (nestedModule " x \n\n $y" 3).Every Node.HasTidyText ∧
      ∃ text, (layOut ⟨.unknown "", .node (nestedModule " x \n\n $y" 3)⟩).result = .ok text ∧
        ∀ line ∈ textLines text, Stripped line := by
  have htidy : (nestedModule " x \n\n $y" 3).Every Node.HasTidyText := by decide
  obtain ⟨text, hok, hstripped, -⟩ := stripped_layOut_iff rfl htidy (.unknown "")
  exact ⟨rfl, htidy, text, hok, hstripped.mpr (by decide)⟩

end SourceLayout
