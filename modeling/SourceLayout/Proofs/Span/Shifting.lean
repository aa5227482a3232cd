import SourceLayout.Span.Shift
import SourceLayout.Span.Join
import SourceLayout.Proofs.Position.Scan

/-! # Moving spans to the right

A move to the right is as many steps over a space.  Steps add up, so moves of extents do, and
spans that cannot move are left alone: the moves by natural numbers **act** on spans
(`right_right`).

A move keeps the file of an extent and the order of positions.  So it commutes with the hull
of two extents, and two spans are joined after a move as before it, with the same note
(`exists_join_right`).  A list is joined by joining two spans again and again, and whatever
map of spans is compatible with one join is compatible with all of them
(`exists_joinFrom_map`).
-/
namespace SourceLayout

namespace Position

/-- A move to the right, one space after the other. -/
def stepRight (p : Position) (n : Int) : Except Fault Position :=
  if n < 0 then .error (.breach (.backwards n)) else .ok (p.after (List.replicate n.toNat ' '))

theorem stepRight_eq_moveRight (p : Position) (n : Int) : p.stepRight n = p.moveRight n := by
  unfold stepRight moveRight
  split
  · rfl
  · next hn => rw [after_spaces, Int.toNat_of_nonneg (Int.not_lt.mp hn)]

theorem monotone_right (n : Int) : Monotone fun p : Position => p.right n :=
  fun _ _ h => right_le_right h n

end Position

namespace Extent

theorem right_right (e : Extent) (m n : Int) : (e.right m).right n = e.right (m + n) := by
  simp only [right, Extent.mk.injEq, true_and]
  exact ⟨Position.right_right _ m n, Position.right_right _ m n⟩

theorem hull_right (a b : Extent) (n : Int) : (a.right n).hull (b.right n) = (a.hull b).right n := by
  simp only [hull, right, Extent.mk.injEq, true_and]
  exact ⟨((Position.monotone_right n).map_min).symm, ((Position.monotone_right n).map_max).symm⟩

end Extent

namespace Span

/-- A span with both ends `n` columns further right, if it has ends. -/
def right (s : Span) (n : Int) : Span :=
  match s with
  | real e => real (e.right n)
  | unknown reason => unknown reason

/-- A span moved to the right if it can be moved, and left alone if it cannot. -/
def shifted (s : Span) (n : Int) : Except Fault Span :=
  match s with
  | real e => real <$> (real e).moveRight n
  | unknown reason => .ok (unknown reason)

theorem shifted_of_nonneg {n : Int} (h : 0 ≤ n) (s : Span) : s.shifted n = .ok (s.right n) := by
  cases s with
  | real e =>
    rw [shifted, moveRight_real_of_nonneg h]
    rfl
  | unknown reason => rfl

/-- **Moves add up.** -/
theorem right_right (s : Span) (m n : Int) : (s.right m).right n = s.right (m + n) := by
  cases s with
  | real e => exact congrArg real (e.right_right m n)
  | unknown reason => rfl

/-! ## Joining moved spans -/

/-- **One step.**  Moved spans are joined to the moved join, with the same notes. -/
theorem exists_join_right (n : Int) (a b : Span) : ∃ notes s,
    a.join b = ⟨notes, .ok s⟩ ∧ (a.right n).join (b.right n) = ⟨notes, .ok (s.right n)⟩ := by
  cases b with
  | unknown reason => exact ⟨[], a, join_unknown_right a reason, join_unknown_right _ reason⟩
  | real b =>
    cases a with
    | unknown reason => exact ⟨[], real b, rfl, rfl⟩
    | real a =>
      by_cases hfile : a.file = b.file
      · refine ⟨[], real (a.hull b), join_real_of_eq hfile, ?_⟩
        rw [right, right, join_real_of_eq (show (a.right n).file = (b.right n).file from hfile),
          Extent.hull_right]
        rfl
      · exact ⟨[.filesDiffer a.file b.file], filesDiffer, join_real_of_ne hfile,
          join_real_of_ne (a := a.right n) (b := b.right n) hfile⟩

/-- **All steps.**  What is compatible with the join of two spans is compatible with the join
of a list.  By induction from the left: the notes and the result so far correspond. -/
theorem exists_joinFrom_map {β : Type} {f : Span → β} {op : β → β → Logged β}
    (h : ∀ a b, ∃ notes s, a.join b = ⟨notes, .ok s⟩ ∧ op (f a) (f b) = ⟨notes, .ok (f s)⟩)
    (first : Span) (rest : List Span) : ∃ notes s,
      joinFrom first rest = ⟨notes, .ok s⟩ ∧
        (rest.map f).foldlM op (f first) = ⟨notes, .ok (f s)⟩ := by
  induction rest generalizing first with
  | nil => exact ⟨[], first, rfl, rfl⟩
  | cons next rest ih =>
    obtain ⟨notes, s, hjoin, hop⟩ := h first next
    obtain ⟨notes', t, hjoin', hop'⟩ := ih s
    refine ⟨notes ++ notes', t, ?_, ?_⟩
    · rw [joinFrom_cons, hjoin, Logged.bind_of_ok rfl, hjoin']
    · rw [List.map_cons, List.foldlM_cons, hop, Logged.bind_of_ok rfl, hop']

/-- A list of spans is joined to the same notes when all of it is moved, and to the moved
span. -/
theorem exists_joinAll_right (n : Int) {spans : List Span} (hne : spans ≠ []) : ∃ notes s,
    joinAll spans = ⟨notes, .ok s⟩ ∧ joinAll (spans.map (·.right n)) = ⟨notes, .ok (s.right n)⟩ := by
  obtain ⟨first, rest, rfl⟩ := List.exists_cons_of_ne_nil hne
  exact exists_joinFrom_map (exists_join_right n) first rest

theorem mapM_shifted {n : Int} (h : 0 ≤ n) (spans : List Span) :
    spans.mapM (·.shifted n) = .ok (spans.map (·.right n)) := by
  rw [funext (shifted_of_nonneg h)]
  exact List.mapM_pure

end Span

/-! ## Located values -/

namespace Located

variable {α : Type} {l : Located α} {n : Int}

theorem moveRight_of_unknown {reason : String} (h : l.span = .unknown reason) (n : Int) :
    l.moveRight n = .error (.breach (.immovable reason)) := by
  rw [moveRight, h]
  rfl

theorem moveRight_of_neg {e : Extent} (h : l.span = .real e) (hn : n < 0) :
    l.moveRight n = .error (.breach (.backwards n)) := by
  rw [moveRight, h, Span.moveRight_real_of_neg hn]

theorem moveRight_of_nonneg {e : Extent} (h : l.span = .real e) (hn : 0 ≤ n) :
    l.moveRight n = .ok ⟨.real (e.right n), l.value⟩ := by
  rw [moveRight, h, Span.moveRight_real_of_nonneg hn]

/-- A located value cannot be moved if it has no coordinates, or if it would go to the left. -/
theorem moveRight_fails_iff (l : Located α) (n : Int) :
    (∃ f, l.moveRight n = .error f) ↔ l.span.extent? = none ∨ n < 0 := by
  cases hspan : l.span with
  | unknown reason => exact ⟨fun _ => Or.inl rfl, fun _ => ⟨_, moveRight_of_unknown hspan n⟩⟩
  | real e =>
    by_cases hn : n < 0
    · exact ⟨fun _ => Or.inr hn, fun _ => ⟨_, moveRight_of_neg hspan hn⟩⟩
    · simp [moveRight_of_nonneg hspan (Int.not_lt.mp hn), hn]

end Located

/-- **Moves to the right act on spans, and joins commute with them.**  Two moves one after the
other are one move by the sum.  Joining spans after a move gives the moved join with the same
notes, whatever files meet.

A located value is moved unless it has no coordinates, which is what is reported first and
with its span, or the distance is negative.  Otherwise its value, file and lines stay, and
both columns grow by the distance: the ends are where that many spaces lead. -/
theorem Span.shifted_acts :
    (∀ m n : Int, 0 ≤ m → 0 ≤ n →
      (∀ s : Span, ∃ t u, s.shifted n = .ok t ∧ t.shifted m = .ok u ∧ s.shifted (m + n) = .ok u) ∧
      ∀ spans : List Span, spans ≠ [] → ∃ moved notes s t,
        spans.mapM (·.shifted n) = .ok moved ∧ joinAll spans = ⟨notes, .ok s⟩ ∧
          s.shifted n = .ok t ∧ joinAll moved = ⟨notes, .ok t⟩) ∧
      ∀ {α : Type} (l : Located α) (n : Int),
        ((∃ f, l.moveRight n = .error f) ↔ l.span.extent? = none ∨ n < 0) ∧
        (∀ reason, l.span = unknown reason → ∃ b, l.moveRight n = .error (.breach b) ∧
          b.violation = ⟨"cannot shift a span without coordinates", some l.span⟩) ∧
        (∀ e, l.span = real e → n < 0 → ∃ b, l.moveRight n = .error (.breach b) ∧
          b.violation = ⟨"cannot move a position backwards (n=" ++ toString n ++ ")", none⟩) ∧
        ∀ e, l.span = real e → 0 ≤ n → ∃ e', l.moveRight n = .ok ⟨real e', l.value⟩ ∧
          e'.file = e.file ∧ e'.start = ⟨e.start.line, e.start.column + n⟩ ∧
          e'.stop = ⟨e.stop.line, e.stop.column + n⟩ ∧
          e.start.stepRight n = .ok e'.start ∧ e.stop.stepRight n = .ok e'.stop := by
  refine ⟨fun m n hm hn => ⟨fun s => ?_, fun spans hne => ?_⟩, fun l n => ⟨?_, ?_, ?_, ?_⟩⟩
  · refine ⟨s.right n, s.right (m + n), shifted_of_nonneg hn s, ?_,
      shifted_of_nonneg (Int.add_nonneg hm hn) s⟩
    rw [shifted_of_nonneg hm, right_right, Int.add_comm]
  · obtain ⟨notes, s, hjoin, hmoved⟩ := exists_joinAll_right n hne
    exact ⟨spans.map (·.right n), notes, s, s.right n, mapM_shifted hn spans, hjoin,
      shifted_of_nonneg hn s, hmoved⟩
  · exact l.moveRight_fails_iff n
  · intro reason hspan
    refine ⟨_, Located.moveRight_of_unknown hspan n, ?_⟩
    rw [hspan]
    rfl
  · exact fun e hspan hn => ⟨_, Located.moveRight_of_neg hspan hn, rfl⟩
  · intro e hspan hn
    have hstep : ∀ p : Position, p.stepRight n = .ok (p.right n) :=
      fun p => (p.stepRight_eq_moveRight n).trans (Position.moveRight_of_nonneg hn p)
    exact ⟨e.right n, Located.moveRight_of_nonneg hspan hn, rfl, rfl, rfl, hstep _, hstep _⟩

/-- Extents of two files with an unknown span between them, moved by five columns: the files
meet as before, and the last extent is left.  A value at the unknown span is not moved by minus
one column, for want of coordinates; a value at an extent is not moved to the left, but it is
moved to the right. -/
theorem Span.shifted_acts_twoFiles :
    let a : Extent := ⟨"a", ⟨1, 3⟩, ⟨2, 1⟩, by decide⟩
    let b : Extent := ⟨"b", ⟨4, -7⟩, ⟨4, 0⟩, by decide⟩
    let spans := [real a, unknown "none", real b, real a]
    let m : Int := 2
    let n : Int := 5
    0 ≤ m ∧ 0 ≤ n ∧ spans ≠ [] ∧
      (∃ t u, (real b).shifted n = .ok t ∧ t.shifted m = .ok u ∧ (real b).shifted (m + n) = .ok u) ∧
      (∃ moved notes s t, spans.mapM (·.shifted n) = .ok moved ∧ joinAll spans = ⟨notes, .ok s⟩ ∧
        s.shifted n = .ok t ∧ joinAll moved = ⟨notes, .ok t⟩) ∧
      joinAll spans = ⟨[.filesDiffer "a" "b"], .ok (real a)⟩ ∧
      (∃ c, (⟨unknown "none", 1⟩ : Located Nat).moveRight (-1) = .error (.breach c) ∧
        c.violation = ⟨"cannot shift a span without coordinates", some (unknown "none")⟩) ∧
      (∃ c, (⟨real b, 1⟩ : Located Nat).moveRight (-1) = .error (.breach c) ∧
        c.violation = ⟨"cannot move a position backwards (n=" ++ toString (-1 : Int) ++ ")", none⟩) ∧
      ∃ e, (⟨real b, 1⟩ : Located Nat).moveRight n = .ok ⟨real e, 1⟩ ∧
        e.start = ⟨4, -7 + n⟩ ∧ e.stop = ⟨4, 0 + n⟩ := by
  intro a b spans m n
  have hm : 0 ≤ m := by decide
  have hn : 0 ≤ n := by decide
  have hne : spans ≠ [] := List.cons_ne_nil _ _
  obtain ⟨hact, hmove⟩ := shifted_acts
  obtain ⟨hadd, hjoin⟩ := hact m n hm hn
  obtain ⟨-, hunknown, -, -⟩ := hmove (⟨unknown "none", 1⟩ : Located Nat) (-1)
  obtain ⟨-, -, hleft, -⟩ := hmove (⟨real b, 1⟩ : Located Nat) (-1)
  obtain ⟨-, -, -, hright⟩ := hmove (⟨real b, 1⟩ : Located Nat) n
  obtain ⟨e, he, -, hstart, hstop, -, -⟩ := hright b rfl hn
  exact ⟨hm, hn, hne, hadd (real b), hjoin spans hne, rfl, hunknown "none" rfl,
    hleft b rfl (by decide), e, he, hstart, hstop⟩

end SourceLayout
