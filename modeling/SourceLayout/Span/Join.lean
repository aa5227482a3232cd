import SourceLayout.Logged

/-!
# Joining spans

The join of two spans is the smallest span that encloses both.  An unknown span has
no extent, so the join with it is the other span; two extents in different files
have no span in common, so their join is unknown, and a note says which files met.

A list of spans is joined from the left (`Span.joinAll`).  Where files differ this
depends on the order: what was joined before the difference is forgotten.
-/

namespace SourceLayout

/-- The smallest extent of `a`'s file that reaches from the earlier of the two
starts to the later of the two ends. -/
def Extent.hull (a b : Extent) : Extent :=
  ⟨a.file, min a.start b.start, max a.stop b.stop,
    Position.le_trans (Position.min_le_left _ _)
      (Position.le_trans a.start_le_stop (Position.le_max_left _ _))⟩

namespace Span

/-- The span that stands for extents of different files. -/
def filesDiffer : Span := unknown "<combine_spans: files differ>"

/-- The smallest span enclosing both, with a note when there is none. -/
def join : Span → Span → Logged Span
  | a, unknown _ => pure a
  | unknown _, real b => pure (real b)
  | real a, real b =>
    if a.file = b.file then pure (real (a.hull b))
    else do
      Logged.note (.filesDiffer a.file b.file)
      pure filesDiffer

/-- A non-empty list of spans, joined from the left. -/
def joinFrom (first : Span) (rest : List Span) : Logged Span :=
  rest.foldlM join first

/-- The spans of a list, joined from the left; there must be at least one. -/
def joinAll : List Span → Logged Span
  | [] => Logged.breach .noSpans
  | first :: rest => joinFrom first rest

@[simp] theorem join_unknown_right (a : Span) (reason : String) :
    a.join (unknown reason) = pure a := by
  cases a <;> rfl

@[simp] theorem join_unknown_left (reason : String) (b : Extent) :
    (unknown reason).join (real b) = pure (real b) := rfl

theorem join_real_of_eq {a b : Extent} (h : a.file = b.file) :
    (real a).join (real b) = pure (real (a.hull b)) := by
  simp [join, h]

theorem join_real_of_ne {a b : Extent} (h : a.file ≠ b.file) :
    (real a).join (real b) = ⟨[.filesDiffer a.file b.file], .ok filesDiffer⟩ := by
  simp [join, h]

@[simp] theorem joinFrom_nil (first : Span) : joinFrom first [] = pure first := rfl

@[simp] theorem joinFrom_cons (first s : Span) (rest : List Span) :
    joinFrom first (s :: rest) = first.join s >>= fun t => joinFrom t rest := rfl

end Span

end SourceLayout
