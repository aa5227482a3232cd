import SourceLayout.Position

/-!
# Spans

A syntax tree remembers where its parts were written.  An `Extent` is a stretch of
a named file, closed at both ends, which never ends before it starts: that is a
field of the type, so every extent has it.  A `Span` is either an extent or
**unknown**: a synthesized part has no coordinates, only a reason.

Spans are written in two ways.  The location (`Span.location`) names the file and
the start, and opens an error message; the outline (`Span.outline`) adds the end,
and leaves out the end's line when it is the line of the start.
-/

namespace SourceLayout

/-- A closed stretch of the file `file`. -/
structure Extent where
  file : String
  start : Position
  stop : Position
  /-- An extent does not end before it starts. -/
  start_le_stop : start ≤ stop
deriving DecidableEq

/-- Where a part of a tree was written: in a stretch of a file, or nowhere that is
known, for the given reason. -/
inductive Span where
  | real (extent : Extent)
  | unknown (reason : String)
deriving DecidableEq

/-- A payload together with the span that it was read from. -/
structure Located (α : Type) where
  span : Span
  value : α
deriving DecidableEq

namespace Extent

/-- `file:line:column` of the start. -/
def location (e : Extent) : String :=
  e.file ++ ":" ++ toString e.start.line ++ ":" ++ toString e.start.column

/-- The location, a dash, and the end: only its column when the extent keeps to one
line. -/
def outline (e : Extent) : String :=
  if e.start.line = e.stop.line then
    e.location ++ "-" ++ toString e.stop.column
  else
    e.location ++ "-" ++ toString e.stop.line ++ ":" ++ toString e.stop.column

end Extent

namespace Span

/-- The coordinates of a span, if it has any. -/
def extent? : Span → Option Extent
  | real e => some e
  | unknown _ => none

/-- The start of the span in the form that opens an error message; for an unknown
span the reason. -/
def location : Span → String
  | real e => e.location
  | unknown reason => reason

/-- The whole span, for diagnostics; for an unknown span the reason. -/
def outline : Span → String
  | real e => e.outline
  | unknown reason => reason

/-- The line that the span starts on. -/
def startLine? (s : Span) : Option Int := s.extent?.map (·.start.line)

@[simp] theorem extent?_real (e : Extent) : (real e).extent? = some e := rfl

@[simp] theorem extent?_unknown (reason : String) : (unknown reason).extent? = none := rfl

@[simp] theorem startLine?_real (e : Extent) : (real e).startLine? = some e.start.line := rfl

@[simp] theorem startLine?_unknown (reason : String) : (unknown reason).startLine? = none := rfl

/-- A span with coordinates is known by them. -/
theorem extent?_eq_some_iff {s : Span} {e : Extent} : s.extent? = some e ↔ s = real e := by
  cases s <;> simp

end Span

/-- The line that a located value starts on. -/
def Located.startLine? {α : Type} (l : Located α) : Option Int := l.span.startLine?

end SourceLayout
