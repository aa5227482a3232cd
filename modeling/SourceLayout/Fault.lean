import SourceLayout.Tree.Kind
import SourceLayout.Span
import SourceLayout.Text.Quoted

/-!
# Faults

Why an operation has no result.  A **breach** is a caller's mistake: the operation
has a precondition and the arguments do not meet it.  Each breach is a constructor
that carries what was wrong; the wording and the span that goes with it are
functions of the breach (`Breach.message`, `Breach.span?`).

A `Violation` is a breach as it is reported, with its wording fixed.  Reports can
be kept and shown like any other value, so they are a type of their own.
-/

namespace SourceLayout

/-- A caller's mistake. -/
inductive Breach where
  /-- The ends of an extent are in the wrong order. -/
  | reversed (start stop : Position)
  /-- A move to the right by a negative number of columns. -/
  | backwards (n : Int)
  /-- A combination of no spans at all. -/
  | noSpans
  /-- A move of an unknown span. -/
  | immovable (reason : String)
  /-- A demand for the lines of an unknown span. -/
  | unplaced (reason : String)
  /-- A question about the blank lines beside an empty group. -/
  | emptyGroup
  /-- A layout of something other than a whole module. -/
  | notModule (found : Shape) (span : Span)
deriving DecidableEq

/-- A breach as it is reported: what was wrong, and where if that is known. -/
structure Violation where
  message : String
  span : Option Span
deriving DecidableEq

/-- Why an operation has no result. -/
inductive Fault where
  /-- The caller broke a precondition. -/
  | breach (b : Breach)
  /-- The construct is known but not supported. -/
  | unsupported (construct : String)
  /-- No node kind has the given name. -/
  | unknownKind (name : String)
  /-- A value of the given shape is not an argument of an application. -/
  | notArgument (found : Shape)
deriving DecidableEq

namespace Breach

/-- The wording of a breach, without its place. -/
def message : Breach → String
  | reversed p q =>
    "span ends before it starts: " ++ toString p.line ++ ":" ++ toString p.column ++
      " > " ++ toString q.line ++ ":" ++ toString q.column
  | backwards n => "cannot move a position backwards (n=" ++ toString n ++ ")"
  | noSpans => "combine_src_spans() requires at least one span"
  | immovable _ => "cannot shift a span without coordinates"
  | unplaced _ => "expected a node with a real span"
  | emptyGroup => "separated_by_blank() requires two non-empty groups"
  | notModule found _ => "format_module() expects a module, got " ++ found.name

/-- The span that a breach is about. -/
def span? : Breach → Option Span
  | immovable reason => some (.unknown reason)
  | unplaced reason => some (.unknown reason)
  | notModule _ span => some span
  | _ => none

/-- The report of a breach. -/
def violation (b : Breach) : Violation := ⟨b.message, b.span?⟩

end Breach

/-- A report in one line: the place, if there is one, and what was wrong. -/
def Violation.text (v : Violation) : String :=
  match v.span with
  | some span => span.location ++ ": " ++ v.message
  | none => v.message

/-- The wording for a construct that is not supported. -/
def unsupportedText (construct : String) : String := "not implemented yet: " ++ construct

/-- The wording of a fault.  `describe` says how a shape is spelled when a value
that is no argument is reported. -/
def Fault.message (describe : Shape → String) : Fault → String
  | breach b => b.violation.text
  | unsupported construct => unsupportedText construct
  | unknownKind name => Text.quoted name ++ " is not a valid NodeKind"
  | notArgument found => "not a type argument: " ++ describe found

/-- An extent from its two ends, which must be in document order. -/
def Extent.between (file : String) (start stop : Position) : Except Fault Extent :=
  if h : start ≤ stop then .ok ⟨file, start, stop, h⟩
  else .error (.breach (.reversed start stop))

/-- The kind with the given written name. -/
def NodeKind.ofName (name : String) : Except Fault NodeKind :=
  match NodeKind.ofName? name with
  | some k => .ok k
  | none => .error (.unknownKind name)

/-- Every extent is what its ends give. -/
@[simp] theorem Extent.between_ends (e : Extent) : between e.file e.start e.stop = .ok e := by
  simp [between, e.start_le_stop]

end SourceLayout
