import SourceLayout.Layout
import SourceLayout.Proofs.Text.Lines
import SourceLayout.Proofs.Paragraph.Neighbours

/-! # The sections of a layout

Laying out a module always succeeds.  Leaving the notes aside, its lines are the
preamble, the import groups with an empty line below each, and the paragraphs of its
items with an empty line between each and the next (`result_moduleLines`).

A layout asks for blank lines in three places: between imports, between items, and again
between paragraphs of items as they are written down.  Only the second leaves notes.
Written imports have spans, and so have two items between which a blank line was seen; so
neither the search among the imports nor the writing of paragraphs has a gap to complain
of.  What is noted is then the layout itself, and each pair of neighbouring items of which
a span is unknown (`notes_layOut`).

A **solid** paragraph has lines, none of them empty.  When the header is there and all
paragraphs are solid, the text is nothing but solid paragraphs with one empty line
between each and the next (`trimLines_closeGroups_append`), and a text tells its lines
(`trimLines_eq_of_finishedText_eq`).
-/
namespace SourceLayout

namespace Layout

/-! ## Results -/

/-- The lines of the import groups: the written imports by paragraph, each paragraph
sorted, and after them the synthesized ones. -/
def importTexts (imports : List (Located Node)) : List (List String) :=
  (partition Located.span (writtenImports imports)).map sortedTexts ++
    if (ownTexts (synthesizedImports imports)).isEmpty then []
    else [ownTexts (synthesizedImports imports)]

/-- Sorting leaves no list empty that was not. -/
theorem mergeSort_ne_nil {α : Type} {le : α → α → Bool} {xs : List α} (h : xs ≠ []) :
    xs.mergeSort le ≠ [] := by
  rw [← List.length_pos_iff, List.length_mergeSort]
  exact List.length_pos_iff.mpr h

/-- Sorted texts are in the order of their code points. -/
theorem pairwise_sortedTexts (trees : List (Located Node)) :
    (sortedTexts trees).Pairwise fun a b => decide (a ≤ b) = true := by
  refine List.pairwise_mergeSort ?_ ?_ _
  · intro a b c hab hbc
    exact decide_eq_true (String.le_trans (of_decide_eq_true hab) (of_decide_eq_true hbc))
  · intro a b
    rw [Bool.or_eq_true, decide_eq_true_eq, decide_eq_true_eq]
    exact String.le_total a b

theorem result_importGroups (imports : List (Located Node)) :
    (importGroups imports).result = .ok (importTexts imports) := by
  rw [importGroups, Logged.bind_of_ok (result_paragraphs Located.span _)]
  rfl

end Layout

open Layout

namespace Node

/-- A tree is written on at least one line, that of its text. -/
theorem treeLines_ne_nil (depth : Nat) (node : Node) : node.treeLines depth ≠ [] := by
  obtain ⟨kind, text, doc, children⟩ := node
  exact List.append_ne_nil_of_right_ne_nil _ (List.cons_ne_nil _ _)

theorem mem_forestLines_iff {depth : Nat} {forest : List (Located Node)} {line : String} :
    line ∈ forestLines depth forest ↔ ∃ tree ∈ forest, line ∈ tree.value.treeLines depth := by
  rw [forestLines_eq_flatMap, List.mem_flatMap]

/-- The lines of each paragraph of items. -/
def itemParagraphs (m : Node) : List (List String) :=
  (partition Located.span m.items).map fun group => group.flatMap fun tree => tree.value.treeLines 0

/-- All lines of a module. -/
def lines (m : Node) : List String :=
  m.preamble ++ closeGroups (importTexts m.imports) ++ [""].intercalate m.itemParagraphs

theorem result_importSection (m : Node) :
    m.importSection.result = .ok (closeGroups (importTexts m.imports)) := by
  rw [importSection, Logged.bind_of_ok (result_importGroups m.imports)]
  rfl

theorem result_itemSection (m : Node) :
    m.itemSection.result = .ok ([""].intercalate m.itemParagraphs) := by
  rw [itemSection, Logged.bind_of_ok (result_paragraphs Located.span m.items),
    layParagraphs_partition]
  rfl

theorem result_moduleLines (m : Node) : m.moduleLines.result = .ok m.lines := by
  rw [moduleLines, Logged.note_bind, Logged.bind_of_ok m.result_importSection,
    Logged.bind_of_ok m.result_itemSection]
  rfl

theorem result_moduleText (m : Node) : m.moduleText.result = .ok (finishedText m.lines) := by
  rw [moduleText, Logged.bind_of_ok m.result_moduleLines]
  rfl

end Node

/-- **Every module has a layout.** -/
theorem result_layOut {m : Node} (h : m.kind = .wholeModule) (span : Span) :
    (layOut ⟨span, .node m⟩).result = .ok (finishedText m.lines) := by
  have hm : m.isModule = true := decide_eq_true h
  rw [layOut]
  simp only [hm, if_true]
  exact m.result_moduleText

/-! ## Notes -/

namespace Node

theorem notes_importSection (m : Node) : m.importSection.notes = [] := by
  have hknown : ∀ tree ∈ writtenImports m.imports, tree.span.extent?.isSome = true := by
    intro tree htree
    have hline := (List.mem_filter.mp htree).2
    rwa [Located.startLine?, Span.startLine?, Option.isSome_map] at hline
  have hparagraphs : (paragraphs Located.span (writtenImports m.imports)).notes = [] := by
    rw [notes_paragraphs, List.flatMap_eq_nil_iff]
    intro p hp
    obtain ⟨hfirst, hsecond⟩ := mem_of_mem_adjacent hp
    exact Span.notes_separated_of_known (hknown _ hfirst) (hknown _ hsecond)
  rw [importSection, Logged.bind_of_ok (result_importGroups m.imports), importGroups,
    Logged.bind_of_ok (result_paragraphs Located.span _), hparagraphs]
  rfl

theorem notes_itemSection (m : Node) :
    m.itemSection.notes =
      (adjacent m.items).flatMap fun p => (p.1.span.separated p.2.span).notes := by
  rw [itemSection, Logged.bind_of_ok (result_paragraphs Located.span m.items),
    layParagraphs_partition, notes_paragraphs]
  exact List.append_nil _

end Node

/-- **What a layout notes**: that it begins, and each pair of neighbouring items of which a
span is unknown. -/
theorem notes_layOut {m : Node} (h : m.kind = .wholeModule) (span : Span) :
    (layOut ⟨span, .node m⟩).notes =
      .layingOut m.text m.children.length ::
        (adjacent m.items).flatMap fun p => (p.1.span.separated p.2.span).notes := by
  have hm : m.isModule = true := decide_eq_true h
  rw [layOut]
  simp only [hm, if_true]
  rw [Node.moduleText, Logged.bind_of_ok m.result_moduleLines, Node.moduleLines, Logged.note_bind,
    Logged.bind_of_ok m.result_importSection, Logged.bind_of_ok m.result_itemSection,
    m.notes_importSection, m.notes_itemSection]
  simp

namespace Layout

/-! ## Texts and lines -/

theorem toList_finishedText (ls : List String) :
    (finishedText ls).toList = ['\n'].intercalate ((trimLines ls).map String.toList) ++ ['\n'] := by
  rw [finishedText, String.toList_append, String.toList_intercalate]
  rfl

theorem trimLines_concat_empty (ls : List String) : trimLines (ls ++ [""]) = trimLines ls :=
  Text.dropTrailing_concat_of_pos (p := fun line => decide (line = "")) (decide_eq_true rfl) ls

theorem trimLines_eq_self {ls : List String} (h : ∀ line ∈ ls.getLast?, line ≠ "") :
    trimLines ls = ls :=
  Text.dropTrailing_eq_self_iff.mpr fun line hline => decide_eq_false (h line hline)

/-- A text tells its lines, if it has any and they hold no newlines. -/
theorem trimLines_eq_of_finishedText_eq {as bs : List String}
    (ha : ∀ line ∈ trimLines as, '\n' ∉ line.toList) (hna : trimLines as ≠ [])
    (hb : ∀ line ∈ trimLines bs, '\n' ∉ line.toList) (hnb : trimLines bs ≠ [])
    (h : finishedText as = finishedText bs) : trimLines as = trimLines bs := by
  have hchars := congrArg String.toList h
  rw [toList_finishedText, toList_finishedText, List.append_cancel_right_eq] at hchars
  -- splitting at newlines gives the joined lines back
  have hlines : ∀ {ls : List String}, (∀ line ∈ ls, '\n' ∉ line.toList) → ls ≠ [] →
      Text.lines (['\n'].intercalate (ls.map String.toList)) = ls.map String.toList := by
    intro ls hls hne
    refine Text.lines_join (fun he => hne (List.map_eq_nil_iff.mp he)) fun line hline => ?_
    obtain ⟨old, hold, rfl⟩ := List.mem_map.mp hline
    exact hls old hold
  have hsplit := congrArg Text.lines hchars
  rw [hlines ha hna, hlines hb hnb] at hsplit
  exact List.map_injective_iff.mpr (fun _ _ => String.toList_injective) hsplit

/-! ## Solid paragraphs -/

/-- A paragraph with lines, none of which is empty. -/
structure Solid (ls : List String) : Prop where
  ne_nil : ls ≠ []
  no_blank : "" ∉ ls

theorem closeGroups_cons (first : List String) (rest : List (List String)) :
    closeGroups (first :: rest) = [""].intercalate (first :: rest) ++ [""] :=
  flatMap_concat_cons "" first rest

/-- A text of solid paragraphs does not end in an empty line. -/
theorem ne_empty_of_mem_getLast?_intercalate {ps : List (List String)}
    (h : ∀ ls ∈ ps, Solid ls) : ∀ line ∈ ([""].intercalate ps).getLast?, line ≠ "" := by
  intro line hline
  induction ps with
  | nil => cases hline
  | cons first rest ih =>
    cases rest with
    | nil =>
      rw [List.intercalate_singleton] at hline
      rintro rfl
      exact (h first List.mem_cons_self).no_blank (List.mem_of_getLast? hline)
    | cons second rest =>
      have hrest : ∀ ls ∈ second :: rest, Solid ls := fun ls hls => h ls (List.mem_cons_of_mem _ hls)
      have hne : [""].intercalate (second :: rest) ≠ [] := by
        rw [intercalate_blank_cons]
        exact List.append_ne_nil_of_left_ne_nil (hrest second List.mem_cons_self).ne_nil _
      rw [List.intercalate_cons_cons, List.getLast?_append_of_ne_nil _ hne] at hline
      exact ih hrest hline

/-- **Solid paragraphs are all that is left of a text**: what stands before the items is
closed by an empty line, which is trimmed if there are no items. -/
theorem trimLines_closeGroups_append {first : List String} {rest items : List (List String)}
    (hrest : ∀ ls ∈ first :: rest, Solid ls) (hitems : ∀ ls ∈ items, Solid ls) :
    trimLines (closeGroups (first :: rest) ++ [""].intercalate items) =
      [""].intercalate (first :: (rest ++ items)) := by
  cases items with
  | nil =>
    -- the empty line below the last import group is the last line
    rw [List.intercalate_nil, List.append_nil, List.append_nil, closeGroups_cons,
      trimLines_concat_empty]
    exact trimLines_eq_self (ne_empty_of_mem_getLast?_intercalate hrest)
  | cons item items =>
    have hall : closeGroups (first :: rest) ++ [""].intercalate (item :: items) =
        [""].intercalate (first :: (rest ++ item :: items)) := by
      rw [closeGroups_cons, intercalate_blank_cons, intercalate_blank_cons,
        intercalate_blank_cons]
      simp
    have hsolid : ∀ ls ∈ first :: (rest ++ item :: items), Solid ls := by
      intro ls hls
      rcases List.mem_cons.mp hls with rfl | hls
      · exact hrest _ List.mem_cons_self
      · rcases List.mem_append.mp hls with hls | hls
        · exact hrest ls (List.mem_cons_of_mem first hls)
        · exact hitems ls hls
    rw [hall]
    exact trimLines_eq_self (ne_empty_of_mem_getLast?_intercalate hsolid)

/-- Solid paragraphs are told apart by the empty lines between them. -/
theorem eq_of_intercalate_blank_eq {ps qs : List (List String)} (hp : ∀ ls ∈ ps, Solid ls)
    (hq : ∀ ls ∈ qs, Solid ls) (hnp : ps ≠ []) (hnq : qs ≠ [])
    (h : [""].intercalate ps = [""].intercalate qs) : ps = qs := by
  have hsplit := congrArg (List.splitOn "") h
  rwa [List.splitOn_intercalate "" (fun ls hls => (hp ls hls).no_blank) hnp,
    List.splitOn_intercalate "" (fun ls hls => (hq ls hls).no_blank) hnq] at hsplit

end Layout
end SourceLayout
