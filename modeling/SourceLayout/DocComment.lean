import SourceLayout.Text.Lines

/-!
# Doc comments

The raw text of a doc comment is what stood between the comment markers.  Its
**normal lines** are the text with everything accidental removed: blanks at the end
of each line, empty lines at the end of the comment, and the padding space that
separates a marker from its text.  Whether the comment is padded is decided once,
by its first line that is not empty: exactly one space in front is padding, and
deeper indentation is content.

A line that begins with the section marker would be read as the name of a section
when the comment is parsed again, so it is escaped.  A comment without text has one
normal line, which is empty.
-/

namespace SourceLayout.DocComment

/-- A comment line that begins with this character names a section. -/
def sectionMarker : Char := '$'

/-- Stands before a section marker that is meant as text. -/
def escapeMark : Char := '\x5c'

/-! ## Normal lines -/

/-- Whether a line begins with exactly one space. -/
def isPadded : List Char → Bool
  | ' ' :: ' ' :: _ => false
  | ' ' :: _ => true
  | _ => false

/-- A line without the space at its front, if it has one. -/
def dropSpace : List Char → List Char
  | ' ' :: rest => rest
  | line => line

/-- The first line that is not empty. -/
def firstText? (ls : List (List Char)) : Option (List Char) :=
  ls.find? fun line => decide (line ≠ [])

/-- The lines without padding: if the first line with text is padded, every line
that begins with a space gives up one. -/
def unpad (ls : List (List Char)) : List (List Char) :=
  match firstText? ls with
  | some first => if isPadded first then ls.map dropSpace else ls
  | none => ls

/-- A line that is not read as the name of a section. -/
def escapeMarker (line : List Char) : List Char :=
  if line.head? = some sectionMarker then escapeMark :: line else line

/-- A comment has at least one line. -/
def orEmptyLine : List (List Char) → List (List Char)
  | [] => [[]]
  | ls => ls

/-- The lines of a raw text without trailing blanks and trailing empty lines. -/
def strippedLines (raw : List Char) : List (List Char) :=
  Text.dropTrailingEmpty ((Text.lines raw).map Text.stripEnd)

/-- The normal lines of a raw text, as lists of characters. -/
def normalLines (raw : List Char) : List (List Char) :=
  orEmptyLine ((unpad (strippedLines raw)).map escapeMarker)

/-- The normal lines of a raw text. -/
def normalize (raw : String) : List String :=
  (normalLines raw.toList).map String.ofList

@[simp] theorem orEmptyLine_ne_nil (ls : List (List Char)) : orEmptyLine ls ≠ [] := by
  cases ls <;> simp [orEmptyLine]

theorem normalLines_ne_nil (raw : List Char) : normalLines raw ≠ [] := orEmptyLine_ne_nil _

theorem normalize_ne_nil (raw : String) : normalize raw ≠ [] := by
  simpa [normalize] using normalLines_ne_nil raw.toList

/-! ## Comment lines -/

/-- The marker of a comment's first line. -/
def openingMarker : String := "-- |"

/-- The marker of the lines after the first. -/
def furtherMarker : String := "--"

/-- A marker and, after a space, the line that it introduces; an empty line leaves
the marker alone. -/
def marked (marker line : String) : String :=
  if line = "" then marker else marker ++ " " ++ line

/-- Each line behind its marker. -/
def markLines : List String → List String
  | [] => []
  | first :: rest => marked openingMarker first :: rest.map (marked furtherMarker)

/-- The comment that a raw text is written as, `depth` levels deep. -/
def commentLines (depth : Nat) (raw : String) : List String :=
  (markLines (normalize raw)).map (Text.indent depth)

/-- The comment that a raw text is written as, at any level: below zero there is no
indentation. -/
def commentLinesAt (level : Int) (raw : String) : List String :=
  commentLines level.toNat raw

@[simp] theorem length_markLines (ls : List String) : (markLines ls).length = ls.length := by
  cases ls <;> simp [markLines]

/-- A comment has as many lines as the text has normal lines. -/
theorem length_commentLines (depth : Nat) (raw : String) :
    (commentLines depth raw).length = (normalize raw).length := by
  simp [commentLines]

end SourceLayout.DocComment
