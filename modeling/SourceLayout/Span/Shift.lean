import SourceLayout.Fault

/-!
# Moving spans to the right

Text inserted before a span moves both of its ends by as many columns.  A position
never moves backwards, and a span without coordinates cannot move at all; of these
two mistakes the second is the one reported.
-/

namespace SourceLayout

/-- `n` columns further right, where `n` is not negative. -/
def Position.moveRight (p : Position) (n : Int) : Except Fault Position :=
  if n < 0 then .error (.breach (.backwards n)) else .ok (p.right n)

theorem Position.right_le_right {p q : Position} (h : p ≤ q) (n : Int) : p.right n ≤ q.right n := by
  simp only [Position.le_def, Position.right] at *
  omega

/-- Both ends `n` columns further right. -/
def Extent.right (e : Extent) (n : Int) : Extent :=
  ⟨e.file, e.start.right n, e.stop.right n, Position.right_le_right e.start_le_stop n⟩

/-- The extent of a span, moved `n` columns to the right. -/
def Span.moveRight (s : Span) (n : Int) : Except Fault Extent :=
  match s with
  | .unknown reason => .error (.breach (.immovable reason))
  | .real e => if n < 0 then .error (.breach (.backwards n)) else .ok (e.right n)

namespace Located

variable {α : Type}

/-- How far a located value is moved when nothing else is said. -/
def usualShift : Int := 100

/-- A located value, moved to the right with its payload kept. -/
def moveRight (l : Located α) (n : Int) : Except Fault (Located α) :=
  match l.span.moveRight n with
  | .ok e => .ok ⟨.real e, l.value⟩
  | .error f => .error f

/-- The extent of a value that must have one. -/
def requireExtent (l : Located α) : Except Fault Extent :=
  match l.span with
  | .real e => .ok e
  | .unknown reason => .error (.breach (.unplaced reason))

/-- The line that a placed value starts on. -/
def startLine (l : Located α) : Except Fault Int :=
  match l.requireExtent with
  | .ok e => .ok e.start.line
  | .error f => .error f

/-- The line that a placed value ends on. -/
def endLine (l : Located α) : Except Fault Int :=
  match l.requireExtent with
  | .ok e => .ok e.stop.line
  | .error f => .error f

end Located

theorem Position.moveRight_of_neg {n : Int} (h : n < 0) (p : Position) :
    p.moveRight n = .error (.breach (.backwards n)) := if_pos h

theorem Position.moveRight_of_nonneg {n : Int} (h : 0 ≤ n) (p : Position) :
    p.moveRight n = .ok (p.right n) := if_neg (Int.not_lt.mpr h)

theorem Span.moveRight_real_of_neg {n : Int} (h : n < 0) (e : Extent) :
    (Span.real e).moveRight n = .error (.breach (.backwards n)) := if_pos h

@[simp] theorem Span.moveRight_real_of_nonneg {n : Int} (h : 0 ≤ n) (e : Extent) :
    (Span.real e).moveRight n = .ok (e.right n) := by
  simp [Span.moveRight, Int.not_lt.mpr h]

end SourceLayout
