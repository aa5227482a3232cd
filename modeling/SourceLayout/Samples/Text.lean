import SourceLayout.Random.Draw

/-!
# Sample identifiers and doc comments

Texts drawn at random, in the variety that the layout has to cope with.  An
identifier begins with a small letter.  A doc comment has up to six lines, which
share one padding: blank lines, lines that begin with a section marker, indented
examples and lines of words, some with something left over at the end; and a few
comments end in empty lines.
-/

namespace SourceLayout.Samples

/-- An identifier: a small letter and up to eight letters, digits, underscores and
primes. -/
def identifier : Draw String := do
  let head ← Draw.oneOf 'a' "bcdefghijklmnopqrstuvwxyz".toList
  let length ← Draw.between 0 8
  let tail ← Draw.times length
    (Draw.oneOf 'a'
      "bcdefghijklmnopqrstuvwxyzABCDEFGHIJKLMNOPQRSTUVWXYZ0123456789_\x27".toList)
  pure (String.ofList (head :: tail))

/-- A word with its first letter large and all others small. -/
def capitalized (word : String) : String :=
  match word.toList with
  | [] => ""
  | first :: rest => String.ofList (first.toUpper :: rest.map Char.toLower)

/-- A module name: one to three capitalized identifiers between dots. -/
def moduleName : Draw String := do
  let count ← Draw.between 1 3
  let parts ← Draw.times count (capitalized <$> identifier)
  pure (".".intercalate parts)

/-- A line of a doc comment behind the given padding. -/
def docLine (padding : String) : Draw String := do
  let t ← Draw.tenths
  if t < 2 then
    Draw.oneOf "" [" ", "   "]
  else if t < 3 then
    let name ← identifier
    pure (padding ++ "$" ++ name)
  else if t < 4 then
    let name ← identifier
    pure (padding ++ "  >>> " ++ name ++ " 1")
  else
    let count ← Draw.between 1 5
    let words ← Draw.times count identifier
    let leftover ← Draw.oneOf "" [" ", "\t", "$"]
    pure (padding ++ " ".intercalate words ++ leftover)

/-- The lines of a doc comment. -/
def docCommentLines : Draw (List String) := do
  let padding ← Draw.oneOf "" [" ", " ", "  ", "\t"]
  let count ← Draw.between 0 6
  let lines ← Draw.times count (docLine padding)
  if ← Draw.chance 3 then
    let empty ← Draw.between 1 3
    pure (lines ++ List.replicate empty "")
  else
    pure lines

/-- The raw text of a doc comment. -/
def docComment : Draw String := do
  let lines ← docCommentLines
  pure ("\n".intercalate lines)

/-- Some doc comments. -/
def docComments (count : Nat) : Draw (List String) := Draw.times count docComment

end SourceLayout.Samples
