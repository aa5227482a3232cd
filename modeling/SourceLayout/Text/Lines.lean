/-!
# Lines, trailing blanks and indentation

A character class of the Unicode standard is a table of closed ranges of code
points, in ascending order.  Membership reads the table from the front and stops
at the first range that lies beyond the code point (`inRanges`).

A text is a list of characters, and its lines are what lies between its newlines;
no other character ends a line.  Several parts of a layout drop a tail: blanks at
the end of a line, empty lines at the end of a comment or of the whole output.
All of them are `dropTrailing` with a test of their own.

A nested line stands two spaces further right for each level of nesting (`indent`).
-/

namespace SourceLayout.Text

/-! ## Blank characters -/

/-- Whether `n` lies in one of the ranges of an ascending table. -/
def inRanges (n : Nat) : List (Nat × Nat) → Bool
  | [] => false
  | (low, high) :: rest => if n < low then false else decide (n ≤ high) || inRanges n rest

/-- The code points of blank characters: the controls that move the cursor or
separate records, the space, the next-line control, and every space and separator
character of the standard. -/
def blankRanges : List (Nat × Nat) :=
  [(0x9, 0xd), (0x1c, 0x20), (0x85, 0x85), (0xa0, 0xa0), (0x1680, 0x1680), (0x2000, 0x200a),
    (0x2028, 0x2029), (0x202f, 0x202f), (0x205f, 0x205f), (0x3000, 0x3000)]

/-- Whether a character counts as blank at the end of a line. -/
def isBlank (c : Char) : Bool := inRanges c.toNat blankRanges

/-! ## Lines without their ends -/

/-- The list without its longest tail of members that satisfy `p`. -/
def dropTrailing {α : Type} (p : α → Bool) (xs : List α) : List α :=
  (xs.reverse.dropWhile p).reverse

/-- A line without the blanks at its end. -/
def stripEnd (line : List Char) : List Char := dropTrailing isBlank line

/-- The lines of a text: one more than it has newlines. -/
def lines (text : List Char) : List (List Char) := text.splitOn '\n'

/-- The lines of a list that remain when the empty ones at its end are dropped. -/
def dropTrailingEmpty (ls : List (List Char)) : List (List Char) :=
  dropTrailing (fun line => decide (line = [])) ls

@[simp] theorem dropTrailing_nil {α : Type} (p : α → Bool) : dropTrailing p [] = [] := rfl

/-- A last member that fails the test ends the trimming. -/
theorem dropTrailing_concat_of_neg {α : Type} {p : α → Bool} {a : α} (h : p a = false)
    (xs : List α) : dropTrailing p (xs ++ [a]) = xs ++ [a] := by
  simp [dropTrailing, h]

/-- A last member that satisfies the test is dropped. -/
theorem dropTrailing_concat_of_pos {α : Type} {p : α → Bool} {a : α} (h : p a = true)
    (xs : List α) : dropTrailing p (xs ++ [a]) = dropTrailing p xs := by
  simp [dropTrailing, h]

/-! ## Indentation -/

/-- The blanks of one level. -/
def indentUnit : String := "  "

/-- A line, one level deeper. -/
def indentOnce (line : String) : String := indentUnit ++ line

/-- A line, `depth` levels deeper. -/
def indent : Nat → String → String
  | 0, line => line
  | depth + 1, line => indentOnce (indent depth line)

@[simp] theorem indent_zero (line : String) : indent 0 line = line := rfl

@[simp] theorem indent_succ (depth : Nat) (line : String) :
    indent (depth + 1) line = indentOnce (indent depth line) := rfl

theorem indent_add (d k : Nat) (line : String) : indent (k + d) line = indent k (indent d line) := by
  induction k with
  | zero => simp
  | succ k ih => rw [Nat.succ_add, indent_succ, ih, indent_succ]

end SourceLayout.Text
