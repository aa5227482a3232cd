import SourceLayout.Proofs.Paragraph.Spacing
import SourceLayout.Proofs.Paragraph.Uniqueness

/-! # Groups do not show in what is written

Groups of items are written with an empty line between two of them only if the source had a
blank line there.  So it does not matter how the items were cut, as long as every blank line
is between two groups: the lines are those of the items in turn, with an empty line before an
item that a blank line separates from the one just before it (`linesInTurn`,
`result_layParagraphs`).  The paragraphs of a list are one such cut, and cutting further
changes nothing.

Empty groups have no last item to ask about, and they are passed over
(`layParagraphs_filter`).
-/
namespace SourceLayout

variable {α : Type} (loc : α → Span) (render : α → List String)

/-- The lines of items one after the other, below the item `previous` if there is one.  An
empty line stands before an item if a blank line separates it from the one just before. -/
def linesInTurn : (previous : Option α) → List α → List String
  | _, [] => []
  | none, x :: rest => render x ++ linesInTurn (some x) rest
  | some previous, x :: rest =>
    blankLines loc previous x ++ render x ++ linesInTurn (some x) rest

/-- The items of an unbroken group are written without an empty line between them, and the next
item is asked about the last of them. -/
theorem linesInTurn_append {x : α} {xs : List α} (h : Unbroken loc (x :: xs)) (rest : List α) :
    linesInTurn loc render (some x) (xs ++ rest) =
      xs.flatMap render ++ linesInTurn loc render (x :: xs).getLast? rest := by
  induction xs generalizing x with
  | nil => rfl
  | cons y xs ih =>
    rw [Unbroken, adjacent_cons_cons, List.forall_mem_cons] at h
    obtain ⟨hgap, hrest⟩ := h
    have hblank : blankLines loc x y = [] := by
      rw [blankLines, (result_separatedGroups_eq_iff loc).mp hgap]
      rfl
    rw [List.cons_append, linesInTurn, hblank, List.nil_append, ih hrest, List.flatMap_cons,
      List.append_assoc, List.getLast?_cons_cons]

/-- Below a group that ends with the item `last`, unbroken groups are written as their items in
turn.  By induction on the groups: an empty one is passed over, and a group with items asks
for a blank line above its first item and hands on its last. -/
theorem result_layFrom {before : List α} {last : α} (hlast : last ∈ before.getLast?)
    {groups : List (List α)} (h : ∀ group ∈ groups, Unbroken loc group) :
    (layFrom loc render before groups).result =
      .ok (linesInTurn loc render (some last) groups.flatten) := by
  fun_induction layFrom loc render before groups generalizing last with
  | case1 before => rfl
  | case2 before groups ih => exact ih hlast fun g hg => h g (List.mem_cons_of_mem _ hg)
  | case3 before x xs groups ih =>
    obtain ⟨hgroup, hgroups⟩ := List.forall_mem_cons.mp h
    obtain ⟨next, hnext⟩ : ∃ next, next ∈ (x :: xs).getLast? :=
      ⟨_, List.getLast_mem_getLast? (List.cons_ne_nil x xs)⟩
    have hask : (separatedGroups loc before (x :: xs)).result =
        .ok ((loc last).blankBetween (loc x)) := by
      rw [separatedGroups, Option.mem_def.mp hlast]
      exact Span.result_separated _ _
    rw [Logged.bind_of_ok hask, Logged.bind_of_ok (ih hnext hgroups), List.flatten_cons,
      List.cons_append, linesInTurn, linesInTurn_append loc render hgroup,
      Option.mem_def.mp hnext, List.flatMap_cons, blankLines]
    simp

/-- **Unbroken groups are written as their items in turn.** -/
theorem result_layParagraphs {groups : List (List α)} (h : ∀ group ∈ groups, Unbroken loc group) :
    (layParagraphs loc render groups).result =
      .ok (linesInTurn loc render none groups.flatten) := by
  fun_induction layParagraphs loc render groups with
  | case1 => rfl
  | case2 groups ih => exact ih fun g hg => h g (List.mem_cons_of_mem _ hg)
  | case3 x xs groups =>
    obtain ⟨hgroup, hgroups⟩ := List.forall_mem_cons.mp h
    obtain ⟨next, hnext⟩ : ∃ next, next ∈ (x :: xs).getLast? :=
      ⟨_, List.getLast_mem_getLast? (List.cons_ne_nil x xs)⟩
    rw [Logged.bind_of_ok (result_layFrom loc render hnext hgroups), List.flatten_cons,
      List.cons_append, linesInTurn, linesInTurn_append loc render hgroup,
      Option.mem_def.mp hnext, List.flatMap_cons]
    simp

/-! ## Empty groups -/

theorem layFrom_filter (before : List α) (groups : List (List α)) :
    layFrom loc render before (groups.filter fun group => !group.isEmpty) =
      layFrom loc render before groups := by
  fun_induction layFrom loc render before groups with
  | case1 before => rfl
  | case2 before groups ih => exact ih
  | case3 before x xs groups ih =>
    rw [List.filter_cons_of_pos rfl, layFrom, ih]

/-- Empty groups leave no trace in the lines or in the notes. -/
theorem layParagraphs_filter (groups : List (List α)) :
    layParagraphs loc render (groups.filter fun group => !group.isEmpty) =
      layParagraphs loc render groups := by
  fun_induction layParagraphs loc render groups with
  | case1 => rfl
  | case2 groups ih => exact ih
  | case3 x xs groups =>
    rw [List.filter_cons_of_pos rfl, layParagraphs, layFrom_filter]

/-- **How items were cut into groups does not show**, if every blank line is between two groups.
Then the groups are written without a fault, as the paragraphs of the items are, and as the
items in turn.  And of any groups those that are empty can be left out, which changes neither
the lines nor the notes. -/
theorem layParagraphs_regrouped :
    (∀ (xs : List α) (groups : List (List α)), groups.flatten = xs →
      (∀ group ∈ groups, Unbroken loc group) →
      (layParagraphs loc render groups).result = .ok (linesInTurn loc render none xs) ∧
      (paragraphs loc xs >>= layParagraphs loc render).result =
        .ok (linesInTurn loc render none xs)) ∧
    ∀ groups : List (List α),
      layParagraphs loc render (groups.filter fun group => !group.isEmpty) =
        layParagraphs loc render groups := by
  refine ⟨?_, layParagraphs_filter loc render⟩
  rintro xs groups rfl hgroups
  refine ⟨result_layParagraphs loc render hgroups, ?_⟩
  have hpart : IsPartition loc groups.flatten (partition loc groups.flatten) :=
    (isPartition_iff loc).mpr rfl
  rw [Logged.bind_of_ok (result_paragraphs loc groups.flatten)]
  exact (result_layParagraphs loc render hpart.unbroken).trans (by rw [hpart.flatten_eq])

/-- One line for an item with a place, and two for one without. -/
def lineMark : Option Int → List String
  | some line => [toString line]
  | none => ["-", "-"]

/-- Items on lines and without a line, with empty groups at both ends and in the middle, and
cut where no blank line is as well. -/
def raggedGroups : List (List (Option Int)) :=
  [[], [some 1, none], [], [], [some 4], [some 5], [some 7, some 3], []]

theorem layParagraphs_raggedGroups :
    raggedGroups.flatten = [some 1, none, some 4, some 5, some 7, some 3] ∧
      (∀ group ∈ raggedGroups, Unbroken lineSpan group) ∧
      (layParagraphs lineSpan lineMark raggedGroups).result =
        .ok ["1", "-", "-", "4", "5", "", "7", "3"] ∧
      (paragraphs lineSpan raggedGroups.flatten >>= layParagraphs lineSpan lineMark).result =
        .ok ["1", "-", "-", "4", "5", "", "7", "3"] ∧
      layParagraphs lineSpan lineMark
          [[some 1, none], [some 4], [some 5], [some 7, some 3]] =
        layParagraphs lineSpan lineMark raggedGroups := by
  obtain ⟨hcut, hfilter⟩ := layParagraphs_regrouped lineSpan lineMark
  have hunbroken : ∀ group ∈ raggedGroups, Unbroken lineSpan group := by decide
  obtain ⟨hlines, hparagraphs⟩ := hcut raggedGroups.flatten raggedGroups rfl hunbroken
  exact ⟨rfl, hunbroken, hlines.trans (by decide), hparagraphs.trans (by decide),
    hfilter raggedGroups⟩

end SourceLayout
