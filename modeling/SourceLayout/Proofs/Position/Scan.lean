import Mathlib.Data.Int.ModEq
import Mathlib.Data.List.Basic
import Mathlib.Order.Bounds.Basic
import Mathlib.Order.Lattice
import Mathlib.Order.Defs.LinearOrder
import SourceLayout.Position

/-! # Document order, and scanning a text

Any two positions of a text are comparable, and only equal positions are at or before
each other.  So document order is linear, and `min` and `max` on positions have the usual
laws.

A scan visits one position after each character.  What it does to a whole text follows from
what `advance` does with one character: it goes strictly forward (`lt_advance`), it keeps the
order of two positions (`advance_mono`), and it commutes with a shift by whole tab widths
unless the character is a newline (`advance_right_tabs`).  The order is kept, but not
strictly: a tab brings columns together and a newline all of them.

For the tab this rests on three facts about `nextTab`, which divides rounding down and so has
them for all columns, also to the left of the first one.

A newline forgets the column.  So the end of a scan depends on the start only through the
lines that were passed, as soon as there is a newline in the text (`column_after_newline`).
-/
namespace SourceLayout.Position

/-! ## Document order -/

protected theorem le_total (p q : Position) : p ≤ q ∨ q ≤ p := by
  by_cases h : p ≤ q
  · exact Or.inl h
  · exact Or.inr (Position.le_of_not_le h)

protected theorem le_antisymm {p q : Position} (hpq : p ≤ q) (hqp : q ≤ p) : p = q := by
  obtain ⟨pl, pc⟩ := p
  obtain ⟨ql, qc⟩ := q
  simp only [Position.le_def] at hpq hqp
  simp only [Position.mk.injEq]
  omega

protected theorem lt_iff_le_not_ge (p q : Position) : p < q ↔ p ≤ q ∧ ¬ q ≤ p := by
  rw [Position.not_le]
  exact ⟨fun h => ⟨Position.le_of_lt h, h⟩, And.right⟩

/-- Document order, as a linear order. -/
instance : LinearOrder Position where
  le_refl := Position.le_refl
  le_trans _ _ _ := Position.le_trans
  lt_iff_le_not_ge := Position.lt_iff_le_not_ge
  le_antisymm _ _ := Position.le_antisymm
  le_total := Position.le_total
  toDecidableLE := inferInstance
  toDecidableLT := inferInstance
  toDecidableEq := inferInstance
  min_def := Position.min_def
  max_def := Position.max_def

/-! ## Tab columns -/

/-- The next tab column is the least column to the right that is one more than a multiple of
the tab width. -/
theorem isLeast_nextTab (column : Int) :
    IsLeast {c | column < c ∧ c ≡ 1 [ZMOD 8]} (nextTab column) := by
  constructor
  · show column < nextTab column ∧ nextTab column % 8 = 1 % 8
    simp only [nextTab, tabStop]
    omega
  · rintro c ⟨hlt, hmod⟩
    have hmod' : c % 8 = 1 := hmod
    simp only [nextTab, tabStop]
    omega

theorem nextTab_mono {a b : Int} (h : a ≤ b) : nextTab a ≤ nextTab b := by
  simp only [nextTab, tabStop]
  omega

/-- A shift by whole tab widths moves the tab columns onto each other. -/
theorem nextTab_add_tabs (column k : Int) :
    nextTab (column + 8 * k) = nextTab column + 8 * k := by
  simp only [nextTab, tabStop]
  omega

/-! ## One character -/

/-- The three kinds of characters that a scan tells apart. -/
theorem characterCases {motive : Char → Prop} (newline : motive '\n') (tab : motive '\t')
    (other : ∀ c, c ≠ '\n' → c ≠ '\t' → motive c) (c : Char) : motive c := by
  by_cases hn : c = '\n'
  · exact hn ▸ newline
  · by_cases ht : c = '\t'
    · exact ht ▸ tab
    · exact other c hn ht

/-- Every character takes a position forward. -/
theorem lt_advance (p : Position) (c : Char) : p < p.advance c := by
  rw [Position.lt_def]
  cases c using characterCases with
  | newline =>
    left
    show p.line < p.line + 1
    omega
  | tab => exact Or.inr ⟨rfl, (isLeast_nextTab p.column).1.1⟩
  | other c hn ht =>
    right
    rw [advance_of_ne hn ht]
    show p.line = p.line ∧ p.column < p.column + 1
    omega

/-- A character keeps the order of two positions, though it may make them equal. -/
theorem advance_mono {p q : Position} (h : p ≤ q) (c : Char) : p.advance c ≤ q.advance c := by
  cases c using characterCases with
  | newline =>
    simp only [advance_newline, Position.le_def] at h ⊢
    omega
  | tab =>
    rcases h with hline | ⟨hline, hcolumn⟩
    · exact Or.inl hline
    · exact Or.inr ⟨hline, nextTab_mono hcolumn⟩
  | other c hn ht =>
    rw [advance_of_ne hn ht, advance_of_ne hn ht]
    simp only [right, Position.le_def] at h ⊢
    omega

theorem line_advance (p : Position) (c : Char) :
    (p.advance c).line = p.line + if c = '\n' then 1 else 0 := by
  cases c using characterCases with
  | newline => rfl
  | tab => exact (Int.add_zero p.line).symm
  | other c hn ht =>
    rw [advance_of_ne hn ht, if_neg hn]
    exact (Int.add_zero p.line).symm

/-- The line of a position has no part in the column after a character. -/
theorem column_advance_eq {p q : Position} (h : p.column = q.column) (c : Char) :
    (p.advance c).column = (q.advance c).column := by
  cases c using characterCases with
  | newline => rfl
  | tab => exact congrArg nextTab h
  | other c hn ht =>
    rw [advance_of_ne hn ht, advance_of_ne hn ht]
    exact congrArg (· + 1) h

/-- Unless it is a newline, a character keeps a distance of whole tab widths. -/
theorem advance_right_tabs {c : Char} (hn : c ≠ '\n') (p : Position) (k : Int) :
    (p.right (8 * k)).advance c = (p.advance c).right (8 * k) := by
  cases c using characterCases with
  | newline => exact absurd rfl hn
  | tab => exact congrArg (Position.mk p.line) (nextTab_add_tabs p.column k)
  | other c _ ht =>
    rw [advance_of_ne hn ht, advance_of_ne hn ht]
    simp only [right, Position.mk.injEq, true_and]
    omega

/-! ## A whole text -/

@[simp] theorem scan_cons (p : Position) (c : Char) (rest : List Char) :
    p.scan (c :: rest) = p.advance c :: (p.advance c).scan rest := rfl

theorem after_append (p : Position) (a b : List Char) : p.after (a ++ b) = (p.after a).after b :=
  List.foldl_append

theorem right_right (p : Position) (m n : Int) : (p.right m).right n = p.right (m + n) :=
  congrArg (Position.mk p.line) (Int.add_assoc p.column m n)

/-- Spaces take a position to the right, one column each. -/
theorem after_spaces (p : Position) (n : Nat) : p.after (List.replicate n ' ') = p.right n := by
  induction n generalizing p with
  | zero => exact congrArg (Position.mk p.line) (Int.add_zero p.column).symm
  | succ n ih =>
    have hspace : p.advance ' ' = p.right 1 := advance_of_ne (by decide) (by decide) p
    rw [List.replicate_succ, after_cons, hspace, ih, right_right, Int.natCast_succ, Int.add_comm]

/-- The position after a text is the last one that the scan visits. -/
theorem getLast_scan (p : Position) (text : List Char) :
    (p :: p.scan text).getLast (List.cons_ne_nil _ _) = p.after text := by
  induction text generalizing p with
  | nil => rfl
  | cons c rest ih =>
    rw [after_cons, ← ih (p.advance c)]
    exact List.getLast_cons (List.cons_ne_nil _ _)

theorem lt_of_mem_scan {p q : Position} {text : List Char} (h : q ∈ p.scan text) : p < q := by
  induction text generalizing p with
  | nil => cases h
  | cons c rest ih =>
    have hstep := p.lt_advance c
    rcases List.mem_cons.mp h with rfl | h
    · exact hstep
    · exact lt_trans hstep (ih h)

/-- **A scan goes strictly forward** from the position where it starts. -/
theorem pairwise_scan (p : Position) (text : List Char) :
    (p :: p.scan text).Pairwise (· < ·) := by
  induction text generalizing p with
  | nil => exact List.pairwise_singleton _ p
  | cons c rest ih =>
    rw [List.pairwise_cons]
    exact ⟨fun q hq => lt_of_mem_scan hq, ih (p.advance c)⟩

/-- **A text keeps the order of the positions that it is read from.** -/
theorem after_mono {p q : Position} (h : p ≤ q) (text : List Char) : p.after text ≤ q.after text := by
  induction text generalizing p q with
  | nil => exact h
  | cons c rest ih => exact ih (advance_mono h c)

theorem line_after (p : Position) (text : List Char) :
    (p.after text).line = p.line + text.count '\n' := by
  induction text generalizing p with
  | nil => exact (Int.add_zero p.line).symm
  | cons c rest ih =>
    rw [after_cons, ih, line_advance, List.count_cons]
    by_cases hn : c = '\n'
    · simp only [hn, if_true, beq_self_eq_true]
      omega
    · simp only [hn, if_false, beq_iff_eq]
      omega

theorem column_after_eq {p q : Position} (h : p.column = q.column) (text : List Char) :
    (p.after text).column = (q.after text).column := by
  induction text generalizing p q with
  | nil => exact h
  | cons c rest ih => exact ih (column_advance_eq h c)

/-- Behind a newline the column is what the rest of the text makes of the first one. -/
theorem column_after_newline (p : Position) (before rest : List Char) (line : Int) :
    (p.after (before ++ '\n' :: rest)).column = (after ⟨line, 1⟩ rest).column := by
  have hfirst : ((p.after before).advance '\n').column = (⟨line, 1⟩ : Position).column := rfl
  rw [after_append, after_cons, column_after_eq hfirst]

/-- A text with a newline has a last one. -/
theorem exists_last_newline {text : List Char} (h : '\n' ∈ text) :
    ∃ before rest, text = before ++ '\n' :: rest ∧ '\n' ∉ rest := by
  obtain ⟨back, front, hsplit, hback⟩ := List.eq_append_cons_of_mem (List.mem_reverse.mpr h)
  refine ⟨front.reverse, back.reverse, ?_, fun hn => hback (List.mem_reverse.mp hn)⟩
  rw [← List.reverse_reverse text, hsplit]
  simp

/-- **A shift of the start by whole tab widths** shifts what is visited before the first
newline and nothing after it. -/
theorem scan_right_tabs (p : Position) (text : List Char) (k : Int) :
    (p.right (8 * k)).scan text =
      ((p.scan text).take (text.idxOf '\n')).map (·.right (8 * k)) ++
        (p.scan text).drop (text.idxOf '\n') := by
  induction text generalizing p with
  | nil => rfl
  | cons c rest ih =>
    by_cases hn : c = '\n'
    · subst hn
      rw [List.idxOf_cons_self]
      rfl
    · rw [List.idxOf_cons_ne rest hn, scan_cons, scan_cons, advance_right_tabs hn, ih]
      rfl

/-- **Reading a text character by character.**  The scan goes strictly forward and ends at the
position after the text.  It keeps the order of two starts.  It ends as many lines below as
the text has newlines; if there is one, the column is what the rest after the last newline
makes of the first column, wherever the scan started.  A tab goes to the least column to the
right that is one more than a multiple of eight.  And a start that is moved by a multiple of
eight columns moves all positions up to the first newline and none after it. -/
theorem scan_advances (p : Position) (text : List Char) :
    (p :: p.scan text).Pairwise (· < ·) ∧
      (p :: p.scan text).getLast (List.cons_ne_nil _ _) = p.after text ∧
      (∀ q, p ≤ q → p.after text ≤ q.after text) ∧
      (p.after text).line = p.line + text.count '\n' ∧
      ('\n' ∈ text → ∃ before rest, text = before ++ '\n' :: rest ∧ '\n' ∉ rest ∧
        ∀ line, (p.after text).column = (after ⟨line, 1⟩ rest).column) ∧
      (∀ before rest, text = before ++ '\t' :: rest →
        (p.after (before ++ ['\t'])).line = (p.after before).line ∧
          IsLeast {c | (p.after before).column < c ∧ c ≡ 1 [ZMOD 8]}
            (p.after (before ++ ['\t'])).column) ∧
      ∀ k : Int, (p.right (8 * k)).scan text =
        ((p.scan text).take (text.idxOf '\n')).map (·.right (8 * k)) ++
          (p.scan text).drop (text.idxOf '\n') := by
  refine ⟨p.pairwise_scan text, p.getLast_scan text, fun _ h => after_mono h text,
    p.line_after text, fun h => ?_, ?_, p.scan_right_tabs text⟩
  · obtain ⟨before, rest, rfl, hrest⟩ := exists_last_newline h
    exact ⟨before, rest, rfl, hrest, p.column_after_newline before rest⟩
  · rintro before rest -
    rw [after_append]
    exact ⟨rfl, isLeast_nextTab (p.after before).column⟩

/-- Two lines with a tab in each, read from left of the first column and from a later one on
the same line: the first tab goes to the first column, and behind the newline only the second
line counts. -/
theorem scan_advances_tabbedLines :
    let p : Position := ⟨2, -5⟩
    let q : Position := ⟨2, 14⟩
    let text := ['\t', 'x', '\n', 'y', '\t', 'z']
    p ≤ q ∧ p.after text ≤ q.after text ∧
      '\n' ∈ text ∧
      (∃ before rest, text = before ++ '\n' :: rest ∧ '\n' ∉ rest ∧
        ∀ line, (p.after text).column = (after ⟨line, 1⟩ rest).column) ∧
      text = [] ++ '\t' :: text.tail ∧
      IsLeast {c | p.column < c ∧ c ≡ 1 [ZMOD 8]} (p.advance '\t').column ∧
      (p.advance '\t').column = 1 ∧ p.after text = ⟨3, 10⟩ := by
  intro p q text
  have hle : p ≤ q := by decide
  have hmem : '\n' ∈ text := by decide
  obtain ⟨-, -, hmono, -, hlast, htab, -⟩ := scan_advances p text
  exact ⟨hle, hmono q hle, hmem, hlast hmem, rfl, (htab [] text.tail rfl).2, rfl, rfl⟩

end SourceLayout.Position
