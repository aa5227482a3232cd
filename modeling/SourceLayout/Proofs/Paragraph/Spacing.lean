import SourceLayout.Proofs.Paragraph.Partition

/-! # Paragraphs, written item by item

Written with one empty line between each and the next, the paragraphs of a list are the
lines of its items in order, with an empty line between two neighbours where a blank line
separates them and none elsewhere (`spacedLines_cons_cons`).

Where no item has empty lines of its own, the empty lines can be told from the others: the
lines that are not empty are those of the items (`nonblank_spacedLines`), and the empty
line between two neighbours is found between the lines of what comes before and after
(`exists_spacedLines_eq`).
-/
namespace SourceLayout

/-- The lines that are not empty. -/
def nonblank (lines : List String) : List String := lines.filter fun line => decide (line ≠ "")

@[simp] theorem nonblank_append (as bs : List String) :
    nonblank (as ++ bs) = nonblank as ++ nonblank bs := List.filter_append ..

theorem nonblank_eq_self {lines : List String} (h : ∀ line ∈ lines, line ≠ "") :
    nonblank lines = lines :=
  List.filter_eq_self.mpr fun line hline => decide_eq_true (h line hline)

section
variable {α : Type} (loc : α → Span) (render : α → List String)

/-- The empty line between two neighbours, if a blank line separates them. -/
def blankLines (x y : α) : List String := if (loc x).blankBetween (loc y) then [""] else []

/-- The lines of the paragraphs of a list, with an empty line between each and the next. -/
def spacedLines (xs : List α) : List String :=
  [""].intercalate ((partition loc xs).map fun group => group.flatMap render)

@[simp] theorem nonblank_blankLines (x y : α) : nonblank (blankLines loc x y) = [] := by
  unfold blankLines
  split <;> rfl

@[simp] theorem spacedLines_nil : spacedLines loc render [] = [] := rfl

@[simp] theorem spacedLines_singleton (x : α) : spacedLines loc render [x] = render x := by
  rw [spacedLines, partition_singleton, List.map_singleton, List.intercalate_singleton,
    List.flatMap_singleton]

/-- **Item by item.** -/
theorem spacedLines_cons_cons (x y : α) (rest : List α) :
    spacedLines loc render (x :: y :: rest) =
      render x ++ blankLines loc x y ++ spacedLines loc render (y :: rest) := by
  rw [spacedLines, spacedLines, partition_cons_cons, blankLines]
  obtain ⟨group, groups, hpart⟩ :=
    List.exists_cons_of_ne_nil fun he => List.cons_ne_nil y rest ((partition_eq_nil_iff loc).mp he)
  rw [hpart]
  cases (loc x).blankBetween (loc y) with
  | true =>
    show [""].intercalate (List.map _ ([x] :: group :: groups)) = _
    rw [List.map_cons, List.map_cons, List.intercalate_cons_cons]
    simp
  | false =>
    show [""].intercalate (List.map _ ((x :: group) :: groups)) = _
    rw [List.map_cons, List.map_cons, intercalate_blank_cons, intercalate_blank_cons]
    simp

/-- The lines end with those of the last item. -/
theorem exists_spacedLines_concat_eq (before : List α) (x : α) :
    ∃ above, spacedLines loc render (before ++ [x]) = above ++ render x := by
  induction before with
  | nil => exact ⟨[], spacedLines_singleton loc render x⟩
  | cons z before ih =>
    obtain ⟨above, hlines⟩ := ih
    obtain ⟨t, ts, hts⟩ : ∃ t ts, before ++ [x] = t :: ts := List.exists_cons_of_ne_nil (by simp)
    refine ⟨render z ++ blankLines loc z t ++ above, ?_⟩
    rw [List.cons_append, hts, spacedLines_cons_cons, ← hts, hlines, List.append_assoc _ above]

variable {render}

/-- Items that have lines are written on some. -/
theorem spacedLines_eq_nil_iff {xs : List α} (h : ∀ x, render x ≠ []) :
    spacedLines loc render xs = [] ↔ xs = [] := by
  cases xs with
  | nil => simp
  | cons x rest =>
    cases rest with
    | nil => simp [h x]
    | cons y rest => simp [spacedLines_cons_cons, h x]

/-- The lines that are not empty are those of the items. -/
theorem nonblank_spacedLines {xs : List α} (h : ∀ x ∈ xs, ∀ line ∈ render x, line ≠ "") :
    nonblank (spacedLines loc render xs) = xs.flatMap render := by
  induction xs with
  | nil => rfl
  | cons x rest ih =>
    have hx : nonblank (render x) = render x := nonblank_eq_self (h x List.mem_cons_self)
    cases rest with
    | nil => rw [spacedLines_singleton, List.flatMap_singleton, hx]
    | cons y rest =>
      rw [spacedLines_cons_cons, nonblank_append, nonblank_append, nonblank_blankLines,
        List.append_nil, hx, ih fun z hz => h z (List.mem_cons_of_mem x hz)]
      rfl

/-- A line that is not empty is a line of some item. -/
theorem mem_spacedLines_iff {xs : List α} {line : String} (h : line ≠ "") :
    line ∈ spacedLines loc render xs ↔ ∃ x ∈ xs, line ∈ render x := by
  have hblank : ∀ x y, line ∉ blankLines loc x y := by
    intro x y hline
    unfold blankLines at hline
    split at hline
    · exact h (List.mem_singleton.mp hline)
    · cases hline
  induction xs with
  | nil => simp
  | cons x rest ih =>
    cases rest with
    | nil => simp
    | cons y rest =>
      have hrest : line ∈ spacedLines loc render (x :: y :: rest) ↔
          line ∈ render x ∨ line ∈ spacedLines loc render (y :: rest) := by
        rw [spacedLines_cons_cons, List.mem_append, List.mem_append]
        simp [hblank]
      rw [hrest, List.exists_mem_cons_iff]
      exact or_congr_right ih

/-- The lines begin with those of the first item, and those of the others follow. -/
theorem exists_spacedLines_cons_eq {x : α} {rest : List α}
    (h : ∀ y ∈ rest, ∀ line ∈ render y, line ≠ "") :
    ∃ below, spacedLines loc render (x :: rest) = render x ++ below ∧
      nonblank below = rest.flatMap render := by
  cases rest with
  | nil => exact ⟨[], by simp, rfl⟩
  | cons y rest =>
    refine ⟨blankLines loc x y ++ spacedLines loc render (y :: rest), ?_, ?_⟩
    · rw [spacedLines_cons_cons, List.append_assoc]
    · rw [nonblank_append, nonblank_blankLines, nonblank_spacedLines loc h]
      rfl

/-- **Between two neighbours** there is an empty line, if a blank line separates them, and
nothing else.  By induction on the items before the two. -/
theorem exists_spacedLines_eq {before after : List α} {x y : α}
    (h : ∀ z ∈ before ++ x :: y :: after, ∀ line ∈ render z, line ≠ "") :
    ∃ above below, spacedLines loc render (before ++ x :: y :: after) =
        above ++ render x ++ blankLines loc x y ++ render y ++ below ∧
      nonblank above = before.flatMap render ∧ nonblank below = after.flatMap render := by
  induction before with
  | nil =>
    have hafter : ∀ z ∈ after, ∀ line ∈ render z, line ≠ "" := fun z hz => h z (by simp [hz])
    obtain ⟨below, hlines, hbelow⟩ := exists_spacedLines_cons_eq loc (x := y) hafter
    refine ⟨[], below, ?_, rfl, hbelow⟩
    rw [List.nil_append, spacedLines_cons_cons, hlines, List.nil_append,
      List.append_assoc _ _ below]
  | cons z before ih =>
    have hrest : ∀ t ∈ before ++ x :: y :: after, ∀ line ∈ render t, line ≠ "" :=
      fun t ht => h t (List.mem_cons_of_mem z ht)
    obtain ⟨above, below, hlines, habove, hbelow⟩ := ih hrest
    obtain ⟨t, ts, hts⟩ : ∃ t ts, before ++ x :: y :: after = t :: ts :=
      List.exists_cons_of_ne_nil (by simp)
    refine ⟨render z ++ blankLines loc z t ++ above, below, ?_, ?_, hbelow⟩
    · rw [List.cons_append, hts, spacedLines_cons_cons, ← hts, hlines]
      simp only [List.append_assoc]
    · rw [nonblank_append, nonblank_append, nonblank_blankLines, List.append_nil, habove,
        nonblank_eq_self (h z List.mem_cons_self)]
      rfl

end

end SourceLayout
