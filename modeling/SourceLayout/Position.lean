/-!
# Positions in a source text

A position is a line and a column.  A text counts both from one, but nothing here
depends on it: every pair of integers is a position, and the tab rule is stated so
that it also holds to the left of the first column.

Positions are compared in **document order**, by line and then by column.  Reading
a character moves a position forward (`advance`); reading a text visits one
position after each of its characters (`scan`) and ends at the last of them
(`after`).
-/

namespace SourceLayout

/-- A line and a column. -/
structure Position where
  line : Int
  column : Int
deriving DecidableEq

namespace Position

/-! ## Document order -/

/-- `p < q`: `p` is on an earlier line, or further left on the same one. -/
instance : LT Position :=
  ⟨fun p q => p.line < q.line ∨ (p.line = q.line ∧ p.column < q.column)⟩

/-- `p ≤ q`: `p` is on an earlier line, or on the same one and not further right. -/
instance : LE Position :=
  ⟨fun p q => p.line < q.line ∨ (p.line = q.line ∧ p.column ≤ q.column)⟩

protected theorem lt_def {p q : Position} :
    p < q ↔ p.line < q.line ∨ (p.line = q.line ∧ p.column < q.column) := Iff.rfl

protected theorem le_def {p q : Position} :
    p ≤ q ↔ p.line < q.line ∨ (p.line = q.line ∧ p.column ≤ q.column) := Iff.rfl

instance (p q : Position) : Decidable (p < q) :=
  inferInstanceAs (Decidable (_ ∨ _))

instance (p q : Position) : Decidable (p ≤ q) :=
  inferInstanceAs (Decidable (_ ∨ _))

/-- The earlier of two positions. -/
instance : Min Position := minOfLe

/-- The later of two positions. -/
instance : Max Position := maxOfLe

protected theorem min_def (p q : Position) : min p q = if p ≤ q then p else q := rfl

protected theorem max_def (p q : Position) : max p q = if p ≤ q then q else p := rfl

protected theorem le_refl (p : Position) : p ≤ p := Or.inr ⟨rfl, Int.le_refl _⟩

protected theorem le_trans {p q r : Position} (hpq : p ≤ q) (hqr : q ≤ r) : p ≤ r := by
  simp only [Position.le_def] at *
  omega

protected theorem not_le {p q : Position} : ¬ p ≤ q ↔ q < p := by
  simp only [Position.le_def, Position.lt_def]
  omega

protected theorem le_of_lt {p q : Position} (h : p < q) : p ≤ q := by
  simp only [Position.le_def, Position.lt_def] at *
  omega

protected theorem le_of_not_le {p q : Position} (h : ¬ p ≤ q) : q ≤ p :=
  Position.le_of_lt (Position.not_le.mp h)

protected theorem min_le_left (p q : Position) : min p q ≤ p := by
  rw [Position.min_def]
  split
  · exact Position.le_refl p
  · next h => exact Position.le_of_not_le h

protected theorem le_max_left (p q : Position) : p ≤ max p q := by
  rw [Position.max_def]
  split
  · next h => exact h
  · exact Position.le_refl p

/-- The positions of a list in document order. -/
def inDocumentOrder (ps : List Position) : List Position :=
  ps.mergeSort fun p q => decide (p ≤ q)

/-! ## Moving through a text -/

/-- Tabs advance to the columns that are one more than a multiple of this width. -/
def tabStop : Int := 8

/-- The first tab column to the right of `column`.  The division rounds down, so
the columns below one lie between tab columns as well. -/
def nextTab (column : Int) : Int :=
  ((column - 1) / tabStop + 1) * tabStop + 1

/-- `n` columns further right, on the same line. -/
def right (p : Position) (n : Int) : Position := ⟨p.line, p.column + n⟩

/-- The position after reading `c` at `p`: a newline starts the next line, a tab
goes to the next tab column, and any other character takes one column. -/
def advance (p : Position) (c : Char) : Position :=
  if c = '\n' then ⟨p.line + 1, 1⟩
  else if c = '\t' then ⟨p.line, nextTab p.column⟩
  else p.right 1

/-- The positions after each character of a text that starts at `p`. -/
def scan (p : Position) : List Char → List Position
  | [] => []
  | c :: rest => p.advance c :: (p.advance c).scan rest

/-- The position after the whole of a text that starts at `p`. -/
def after (p : Position) (text : List Char) : Position :=
  text.foldl advance p

@[simp] theorem advance_newline (p : Position) : p.advance '\n' = ⟨p.line + 1, 1⟩ := rfl

@[simp] theorem advance_tab (p : Position) : p.advance '\t' = ⟨p.line, nextTab p.column⟩ := rfl

theorem advance_of_ne {c : Char} (hn : c ≠ '\n') (ht : c ≠ '\t') (p : Position) :
    p.advance c = p.right 1 := by
  simp [advance, hn, ht]

@[simp] theorem after_nil (p : Position) : p.after [] = p := rfl

@[simp] theorem after_cons (p : Position) (c : Char) (rest : List Char) :
    p.after (c :: rest) = (p.advance c).after rest := rfl

end Position

end SourceLayout
