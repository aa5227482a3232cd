import SourceLayout.Proofs.Text.Lines

/-! # Text and the blanks around it

Trimming drops from the end of a list what satisfies the test and keeps what does not.  So
it makes no difference whether more of the same stands behind the list
(`dropTrailing_append`), and what fails the test is all kept (`filter_dropTrailing`).

Blanks that are put in before a newline stand at the end of a line.  A text in which some
are put in before the newlines and at the end (`insertAtLineEnds`) therefore has the same
stripped lines as before (`map_stripEnd_lines_insertAtLineEnds`).
-/
namespace SourceLayout.Text

/-! ## What trimming drops -/

section
variable {α : Type} {p : α → Bool}

/-- Members that satisfy the test, put in at the end, are dropped again. -/
theorem dropTrailing_append {xs ys : List α} (h : ∀ y ∈ ys, p y = true) :
    dropTrailing p (xs ++ ys) = dropTrailing p xs := by
  have hback : ∀ y ∈ ys.reverse, p y = true := fun y hy => h y (List.mem_reverse.mp hy)
  unfold dropTrailing
  rw [List.reverse_append, List.dropWhile_append_of_pos hback]

/-- What is dropped stands at the end, and all of it satisfies the test. -/
theorem exists_dropTrailing_append (p : α → Bool) (xs : List α) :
    ∃ ys, dropTrailing p xs ++ ys = xs ∧ ∀ y ∈ ys, p y = true :=
  ⟨xs.rtakeWhile p, List.rdropWhile_append_rtakeWhile, fun _ => List.mem_rtakeWhile_imp⟩

/-- Nothing is left exactly if all members satisfy the test. -/
theorem dropTrailing_eq_nil_iff {xs : List α} :
    dropTrailing p xs = [] ↔ ∀ x ∈ xs, p x = true :=
  List.rdropWhile_eq_nil_iff

/-- The members that fail the test are kept, wherever they stand. -/
theorem filter_dropTrailing (xs : List α) :
    (dropTrailing p xs).filter (fun x => !p x) = xs.filter fun x => !p x := by
  obtain ⟨ys, hsplit, hys⟩ := exists_dropTrailing_append p xs
  have hnone : ys.filter (fun x => !p x) = [] :=
    List.filter_eq_nil_iff.mpr fun y hy => by simp [hys y hy]
  nth_rewrite 2 [← hsplit]
  rw [List.filter_append, hnone, List.append_nil]

/-- Images are dropped as the members are whose images satisfy the test. -/
theorem dropTrailing_map {β : Type} {f : β → α} (xs : List β) :
    dropTrailing p (xs.map f) = (dropTrailing (fun x => p (f x)) xs).map f := by
  unfold dropTrailing
  rw [← List.map_reverse, List.dropWhile_map, ← List.map_reverse]
  rfl

/-- If a member fails the test and none after it does, the list is cut behind it. -/
theorem dropTrailing_eq_take {xs : List α} {k : Nat} {x : α} (hx : xs[k]? = some x)
    (hfail : p x = false) (h : ∀ i, k < i → ∀ y ∈ xs[i]?, p y = true) :
    dropTrailing p xs = xs.take (k + 1) := by
  have hbehind : ∀ y ∈ xs.drop (k + 1), p y = true := by
    intro y hy
    obtain ⟨i, hi⟩ := List.mem_iff_getElem?.mp hy
    rw [List.getElem?_drop] at hi
    exact h (k + 1 + i) (by omega) y hi
  have htake : xs.take (k + 1) = xs.take k ++ [x] := by
    rw [List.take_add_one, hx]
    rfl
  calc dropTrailing p xs
      = dropTrailing p (xs.take (k + 1) ++ xs.drop (k + 1)) := by rw [List.take_append_drop]
    _ = dropTrailing p (xs.take k ++ [x]) := by rw [dropTrailing_append hbehind, htake]
    _ = xs.take (k + 1) := by rw [dropTrailing_concat_of_neg hfail, htake]

end

/-! ## Lines with text -/

/-- Whether there is a character on a line that is not blank. -/
def hasText (line : List Char) : Bool := line.any fun c => !isBlank c

/-- A line without its blanks, wherever they stand. -/
def withoutBlanks (line : List Char) : List Char := line.filter fun c => !isBlank c

theorem withoutBlanks_cons_of_pos {c : Char} (h : isBlank c = true) (line : List Char) :
    withoutBlanks (c :: line) = withoutBlanks line := by
  simp [withoutBlanks, h]

theorem withoutBlanks_cons_of_neg {c : Char} (h : isBlank c = false) (line : List Char) :
    withoutBlanks (c :: line) = c :: withoutBlanks line := by
  simp [withoutBlanks, h]

theorem stripEnd_eq_nil_iff {line : List Char} : stripEnd line = [] ↔ hasText line = false := by
  rw [stripEnd, dropTrailing_eq_nil_iff, hasText, List.any_eq_false]
  simp

theorem stripEnd_ne_nil_iff {line : List Char} : stripEnd line ≠ [] ↔ hasText line = true := by
  rw [ne_eq, stripEnd_eq_nil_iff, Bool.not_eq_false]

theorem stripEnd_prefix (line : List Char) : stripEnd line <+: line := by
  obtain ⟨blanks, hsplit, -⟩ := exists_dropTrailing_append isBlank line
  exact ⟨blanks, hsplit⟩

@[simp] theorem withoutBlanks_stripEnd (line : List Char) :
    withoutBlanks (stripEnd line) = withoutBlanks line :=
  filter_dropTrailing line

/-- The end of a line is stripped without regard to the character in front. -/
theorem stripEnd_cons_stripEnd (c : Char) (line : List Char) :
    stripEnd (c :: stripEnd line) = stripEnd (c :: line) := by
  obtain ⟨blanks, hsplit, hblanks⟩ := exists_dropTrailing_append isBlank line
  have htrim : stripEnd ((c :: stripEnd line) ++ blanks) = stripEnd (c :: stripEnd line) :=
    dropTrailing_append hblanks
  rw [← htrim, List.cons_append]
  exact congrArg (fun rest => stripEnd (c :: rest)) hsplit

/-! ## Blanks at the ends of lines -/

/-- Characters that take up room on a line and leave no mark: blanks that do not end the
line. -/
def IsBlankRun (run : List Char) : Prop := ∀ c ∈ run, isBlank c = true ∧ c ≠ '\n'

instance : DecidablePred IsBlankRun := fun run => List.decidableBAll _ run

/-- A text with something put in at the ends of its lines: the first run before the first
newline, each further one before the next newline, and the one that follows at the end of
the text.  Where no run is left, nothing is put in. -/
def insertAtLineEnds : (runs : List (List Char)) → (text : List Char) → List Char
  | runs, [] => runs.headD []
  | runs, c :: rest =>
    if c = '\n' then runs.headD [] ++ '\n' :: insertAtLineEnds runs.tail rest
    else c :: insertAtLineEnds runs rest

theorem isBlankRun_headD {runs : List (List Char)} (h : ∀ run ∈ runs, IsBlankRun run) :
    IsBlankRun (runs.headD []) := by
  cases runs with
  | nil => exact fun _ hc => absurd hc List.not_mem_nil
  | cons run runs => exact h run List.mem_cons_self

theorem lines_of_isBlankRun {run : List Char} (h : IsBlankRun run) : lines run = [run] :=
  List.splitOn_eq_singleton fun hn => (h '\n' hn).2 rfl

theorem stripEnd_of_isBlankRun {run : List Char} (h : IsBlankRun run) : stripEnd run = [] :=
  dropTrailing_eq_nil_iff.mpr fun c hc => (h c hc).1

/-- **Blanks at the ends of lines are stripped again.**  By induction on the text: a run
before a newline is all that its line has, and any other character stands in front of a
line of which the rest is stripped to the same. -/
theorem map_stripEnd_lines_insertAtLineEnds {runs : List (List Char)}
    (h : ∀ run ∈ runs, IsBlankRun run) (text : List Char) :
    (lines (insertAtLineEnds runs text)).map stripEnd = (lines text).map stripEnd := by
  induction text generalizing runs with
  | nil =>
    have hrun := isBlankRun_headD h
    rw [insertAtLineEnds, lines_of_isBlankRun hrun, List.map_singleton,
      stripEnd_of_isBlankRun hrun]
    rfl
  | cons c rest ih =>
    by_cases hc : c = '\n'
    · have hrun := isBlankRun_headD h
      have htail := ih fun run hmem => h run (List.mem_of_mem_tail hmem)
      have hold : lines ('\n' :: rest) = [[]] ++ lines rest := lines_append_newline [] rest
      rw [insertAtLineEnds, if_pos hc, lines_append_newline, lines_of_isBlankRun hrun,
        hc, hold, List.map_append, List.map_append, htail, List.map_singleton,
        stripEnd_of_isBlankRun hrun]
      rfl
    · obtain ⟨first, others, hrest, hlines⟩ := exists_lines_cons hc rest
      obtain ⟨first', others', hrest', hlines'⟩ :=
        exists_lines_cons hc (insertAtLineEnds runs rest)
      have hstripped := ih h
      rw [hrest, hrest', List.map_cons, List.map_cons] at hstripped
      obtain ⟨hfirst, hothers⟩ := List.cons.inj hstripped
      rw [insertAtLineEnds, if_neg hc, hlines, hlines', List.map_cons, List.map_cons, hothers,
        ← stripEnd_cons_stripEnd, hfirst, stripEnd_cons_stripEnd]

/-- A text with a carriage return before each newline. -/
def withReturns (text : List Char) : List Char :=
  text.flatMap fun c => if c = '\n' then ['\r', '\n'] else [c]

theorem isBlankRun_return : IsBlankRun ['\r'] := by decide

/-- Carriage returns are blanks at the ends of all lines but the last. -/
theorem withReturns_eq_insertAtLineEnds (text : List Char) :
    withReturns text = insertAtLineEnds (List.replicate (text.count '\n') ['\r']) text := by
  induction text with
  | nil => rfl
  | cons c rest ih =>
    rw [withReturns, List.flatMap_cons, ← withReturns, ih, insertAtLineEnds]
    by_cases hc : c = '\n'
    · rw [hc, List.count_cons_self, List.replicate_succ]
      rfl
    · rw [if_neg hc, if_neg hc, List.count_cons_of_ne hc]
      rfl

end SourceLayout.Text
