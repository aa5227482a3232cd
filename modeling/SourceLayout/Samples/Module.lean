import SourceLayout.Tree.Node
import SourceLayout.Samples.Text
import SourceLayout.Random.Draw

/-!
# Sample spans and sample modules

Extents drawn at random are valid by construction: one that keeps to a line ends no
further left than it starts, and a taller one ends on a later line, wherever the
column is.  A mix of spans has about one unknown span in ten.

Modules are drawn as they could stand in a file.  A module is written from the top
down, and `above` counts the lines that are already taken: the next item starts below
them.  First come some imports, perhaps followed by one that was synthesized, then one
to five declarations; a declaration may have a doc comment, whose lines stand above it,
and a definition of its own on the line below.
-/

namespace SourceLayout.Samples

/-! ## Spans -/

/-- An extent of one line and the given width. -/
def flatExtent (file : String) (line column width : Nat) : Extent :=
  ⟨file, ⟨line, column⟩, ⟨line, column + width⟩,
    Or.inr ⟨rfl, Int.le_add_of_nonneg_right (Int.natCast_nonneg width)⟩⟩

/-- An extent that ends `below + 1` lines below its start. -/
def tallExtent (file : String) (line column below stop : Nat) : Extent :=
  ⟨file, ⟨line, column⟩, ⟨line + (below + 1 : Nat), stop⟩,
    Or.inl (Int.lt_add_of_pos_right _ (Int.natCast_pos.mpr (Nat.succ_pos below)))⟩

/-- An extent that starts on the given line and ends `height` lines below. -/
def extent (file : String) (line height : Nat) : Draw Extent := do
  let column ← Draw.between 1 20
  match height with
  | 0 =>
    let width ← Draw.between 0 40
    pure (flatExtent file line column width)
  | below + 1 =>
    let stop ← Draw.between 1 60
    pure (tallExtent file line column below stop)

/-- A span in a file of 500 lines, or an unknown one. -/
def span (file : String) : Draw Span := do
  if ← Draw.chance 1 then
    pure (.unknown "<generated>")
  else
    let line ← Draw.between 1 500
    let height ← Draw.oneOf 0 [0, 0, 1, 3]
    let e ← extent file line height
    pure (.real e)

/-- The file that sample spans lie in when none is given. -/
def usualFile : String := "corpus.hs"

/-- Some spans, in no particular order. -/
def spans (count : Nat) (file : String) : Draw (List Span) := Draw.times count (span file)

/-! ## Modules -/

/-- Located nodes, and the lines taken once they are written. -/
abbrev Written := List (Located Node) × Nat

/-- A node with a text and nothing else. -/
def leaf (kind : NodeKind) (text : String) : Node := ⟨kind, some text, none, []⟩

/-- How many newlines a text has. -/
def newlines (text : String) : Nat := text.toList.count '\n'

/-- An import below the lines taken. -/
def importItem (file : String) (above : Nat) : Draw (Located Node) := do
  let name ← Draw.oneOf "Data.List"
    ["Data.Maybe", "Data.Text", "Control.Monad", "System.IO", "GHC"]
  let e ← extent file (above + 1) 0
  pure ⟨.real e, leaf .importLine ("import " ++ name)⟩

/-- Imports, one below the other, with an empty line after some. -/
def importItems (file : String) (count above : Nat) : Draw Written :=
  match count with
  | 0 => pure ([], above)
  | count + 1 => do
    let item ← importItem file above
    let lines ← Draw.oneOf 1 [1, 2]
    let (items, above) ← importItems file count (above + lines)
    pure (item :: items, above)

/-- The import that some modules have without writing it. -/
def implicitImport : Draw (List (Located Node)) := do
  if ← Draw.chance 2 then
    pure [⟨.unknown "<implicit import>", leaf .importLine "import Prelude"⟩]
  else
    pure []

/-- The doc comment of some declarations. -/
def someDoc : Draw (Option String) := do
  if ← Draw.chance 4 then
    let doc ← docComment
    pure (some doc)
  else
    pure none

/-- The lines that a doc comment takes. -/
def docHeight : Option String → Nat
  | some doc => newlines doc + 1
  | none => 0

/-- The local definition of some declarations, on the line below the lines taken. -/
def someChild (file : String) (above : Nat) : Draw (List (Located Node)) := do
  if ← Draw.chance 3 then
    let name ← identifier
    let number ← Draw.between 0 99
    let e ← extent file (above + 1) 0
    pure [⟨.real e, leaf .expression ("where " ++ name ++ " = " ++ toString number)⟩]
  else
    pure []

/-- A declaration below the lines taken, and the lines taken once it and the empty
lines after it are written. -/
def declarationItem (file : String) (above : Nat) : Draw (Located Node × Nat) := do
  let doc ← someDoc
  let above := above + docHeight doc
  let name ← identifier
  let children ← someChild file (above + 1)
  let height := children.length
  let body ← identifier
  let e ← extent file (above + 1) height
  let lines ← Draw.oneOf 1 [1, 2, 3]
  pure (⟨.real e, ⟨.declaration, some (name ++ " = " ++ body), doc, children⟩⟩,
    above + height + lines)

/-- Declarations, one below the other. -/
def declarationItems (file : String) (count above : Nat) : Draw Written :=
  match count with
  | 0 => pure ([], above)
  | count + 1 => do
    let (item, above) ← declarationItem file above
    let (items, above) ← declarationItems file count above
    pure (item :: items, above)

/-- The extent of a file from its first line to the start of the line after those
taken. -/
def fileExtent (file : String) (above : Nat) : Extent :=
  ⟨file, ⟨1, 1⟩, ⟨(above + 1 : Nat), 1⟩, by simp only [Position.le_def]; omega⟩

/-- A module in the given file.  Its name stands on the first line. -/
def sampleModule (file : String) : Draw (Located Node) := do
  let name ← moduleName
  let count ← Draw.between 0 4
  let (imports, above) ← importItems file count 2
  let implicit ← implicitImport
  let count ← Draw.between 1 5
  let (declarations, above) ← declarationItems file count (above + 1)
  pure ⟨.real (fileExtent file above),
    ⟨.wholeModule, some name, none, imports ++ implicit ++ declarations⟩⟩

/-- The name of the file of sample module number `n`, which has at least six digits. -/
def fileName (n : Nat) : String :=
  let digits := (toString n).toList
  "case_" ++ String.ofList (List.replicate (6 - digits.length) '0' ++ digits) ++ ".hs"

/-- Modules in files numbered from `first` on. -/
def modulesFrom (first count : Nat) : Draw (List (Located Node)) :=
  match count with
  | 0 => pure []
  | count + 1 => do
    let m ← sampleModule (fileName first)
    let rest ← modulesFrom (first + 1) count
    pure (m :: rest)

/-- Some modules, each in a file of its own. -/
def modules (count : Nat) : Draw (List (Located Node)) := modulesFrom 0 count

end SourceLayout.Samples
