import SourceLayout.Logged

/-!
# Paragraphs

A writer separates what does not belong together by blank lines.  Given items in
source order and a way to see where each was written, `paragraphs` finds the groups
between which the source had a blank line, and `layParagraphs` writes groups of
items with an empty line wherever the source had one.

Two items are separated when the second starts at least two lines below the end of
the first.  Where a span is unknown nothing can be seen: the items then count as not
separated, and a note says so.
-/

namespace SourceLayout

namespace Span

/-- How many lines below the end of `a` the start of `b` is. -/
def gap? : Span → Span → Option Int
  | real a, real b => some (b.start.line - a.stop.line)
  | _, _ => none

/-- Whether there is a whole line between the end of `a` and the start of `b`. -/
def blankBetween (a b : Span) : Bool :=
  match gap? a b with
  | some lines => decide (2 ≤ lines)
  | none => false

/-- Whether a blank line separates two spans, with a note when one is unknown. -/
def separated (a b : Span) : Logged Bool :=
  match gap? a b with
  | some lines => pure (decide (2 ≤ lines))
  | none => do
    Logged.note .gapUnknown
    pure false

@[simp] theorem gap?_real (a b : Extent) :
    gap? (real a) (real b) = some (b.start.line - a.stop.line) := rfl

@[simp] theorem gap?_unknown_left (reason : String) (b : Span) :
    gap? (unknown reason) b = none := rfl

@[simp] theorem gap?_unknown_right (a : Span) (reason : String) :
    gap? a (unknown reason) = none := by
  cases a <;> rfl

/-- The question always has an answer. -/
@[simp] theorem result_separated (a b : Span) :
    (separated a b).result = .ok (blankBetween a b) := by
  unfold separated blankBetween
  cases gap? a b <;> rfl

/-- A note is left exactly when the gap cannot be seen. -/
theorem notes_separated (a b : Span) :
    (separated a b).notes = if (gap? a b).isNone then [.gapUnknown] else [] := by
  unfold separated
  cases gap? a b <;> rfl

end Span

section

variable {α : Type} (loc : α → Span)

/-- Whether a blank line separates two groups: the last item of the first group from
the first item of the second.  Both groups must have items. -/
def separatedGroups (a b : List α) : Logged Bool :=
  match a.getLast?, b.head? with
  | some x, some y => (loc x).separated (loc y)
  | _, _ => Logged.breach .emptyGroup

/-- Put an item before the first of some groups: into it, or, if a blank line
separates them, as a group of its own. -/
def placeBefore (x : α) (separate : Bool) : List (List α) → List (List α)
  | [] => [[x]]
  | group :: groups => if separate then [x] :: group :: groups else (x :: group) :: groups

/-- The items in groups, cut wherever the source had a blank line between
neighbours. -/
def paragraphs : List α → Logged (List (List α))
  | [] => pure []
  | [x] => pure [[x]]
  | x :: y :: rest => do
    let separate ← separatedGroups loc [x] [y]
    let groups ← paragraphs (y :: rest)
    pure (placeBefore x separate groups)

/-- The lines of groups that follow the group `before`: an empty line wherever a blank
line separates a group from the one before it.  Empty groups are passed over. -/
def layFrom (render : α → List String) (before : List α) :
    List (List α) → Logged (List String)
  | [] => pure []
  | [] :: groups => layFrom render before groups
  | (x :: xs) :: groups => do
    let separate ← separatedGroups loc before (x :: xs)
    let rest ← layFrom render (x :: xs) groups
    pure ((if separate then [""] else []) ++ (x :: xs).flatMap render ++ rest)

/-- The lines of groups of items, with an empty line wherever a blank line separates
one group from the next. -/
def layParagraphs (render : α → List String) : List (List α) → Logged (List String)
  | [] => pure []
  | [] :: groups => layParagraphs render groups
  | (x :: xs) :: groups => do
    let rest ← layFrom loc render (x :: xs) groups
    pure ((x :: xs).flatMap render ++ rest)

@[simp] theorem separatedGroups_singleton (x y : α) :
    separatedGroups loc [x] [y] = (loc x).separated (loc y) := rfl

end

end SourceLayout
