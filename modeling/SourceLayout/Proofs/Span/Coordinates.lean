import Mathlib.Data.Set.List
import SourceLayout.Fault
import SourceLayout.Proofs.Span.Shifting

/-! # Spans as plain coordinates

The order of an extent's ends is a field of its type, and each operation on spans gives a proof
of it.  Where spans are plain coordinates there is no such field, only a check: whatever makes
a span out of two ends compares them and refuses those in the wrong order.  Here the operations
are done on plain coordinates.  Ends are minima, maxima and positions reached one space after
the other, and every result goes through the check (`RawSpan.build`).

On coordinates of spans these operations do what the operations on spans do
(`exists_join_raw`, `moveRight_raw`), so a check that follows an operation on ordered spans
never fails.  That all spans in hand are ordered is therefore an **invariant**: one operation
keeps it (`Step.outcome`), and so does any sequence of operations, each on results of earlier
ones (`Run.outcome`).  All that such a sequence can come up against is an unknown span that is
to be moved, or a move to the left.
-/
namespace SourceLayout

/-- The check passes exactly the ends that are in document order. -/
theorem Extent.exists_between_eq_iff {file : String} {start stop : Position} :
    (∃ e, between file start stop = .ok e) ↔ start ≤ stop := by
  constructor
  · rintro ⟨e, he⟩
    by_contra hlt
    rw [between, dif_neg hlt] at he
    cases he
  · intro hle
    exact ⟨⟨file, start, stop, hle⟩, dif_pos hle⟩

/-- A span as plain coordinates: two ends in a file, in whatever order, or the reason why there
are none. -/
inductive RawSpan where
  | real (file : String) (start stop : Position)
  | unknown (reason : String)

/-- The coordinates of a span. -/
def Span.raw : Span → RawSpan
  | real e => .real e.file e.start e.stop
  | unknown reason => .unknown reason

namespace RawSpan

/-! ## Operations on coordinates -/

/-- A span from two ends, which are compared. -/
def build (file : String) (start stop : Position) : Except Fault RawSpan :=
  (fun e => (Span.real e).raw) <$> Extent.between file start stop

/-- The smallest span enclosing both, built from the earlier start and the later end. -/
def join : RawSpan → RawSpan → Logged RawSpan
  | a, unknown _ => pure a
  | unknown _, real file start stop => pure (real file start stop)
  | real file₁ start₁ stop₁, real file₂ start₂ stop₂ =>
    if file₁ = file₂ then Logged.ofExcept (build file₁ (min start₁ start₂) (max stop₁ stop₂))
    else do
      Logged.note (.filesDiffer file₁ file₂)
      pure (unknown "<combine_spans: files differ>")

/-- The spans of a list, joined from the left; there must be at least one. -/
def joinAll : List RawSpan → Logged RawSpan
  | [] => Logged.breach .noSpans
  | first :: rest => rest.foldlM join first

/-- Both ends `n` spaces further right, and built again. -/
def moveRight (s : RawSpan) (n : Int) : Except Fault RawSpan :=
  match s with
  | unknown reason => .error (.breach (.immovable reason))
  | real file start stop => do
    let start' ← start.stepRight n
    let stop' ← stop.stepRight n
    build file start' stop'

/-- A value and its span, moved to the right with the value kept. -/
def moveValueRight {α : Type} (l : RawSpan × α) (n : Int) : Except Fault (RawSpan × α) := do
  let s ← l.1.moveRight n
  pure (s, l.2)

/-! ## Coordinates of spans -/

/-- The first end is not behind the second, if there are ends. -/
def IsOrdered : RawSpan → Prop
  | real _ start stop => start ≤ stop
  | unknown _ => True

/-- Ordered coordinates are those of spans. -/
theorem isOrdered_iff {r : RawSpan} : r.IsOrdered ↔ ∃ s : Span, s.raw = r := by
  constructor
  · intro h
    cases r with
    | real file start stop => exact ⟨.real ⟨file, start, stop, h⟩, rfl⟩
    | unknown reason => exact ⟨.unknown reason, rfl⟩
  · rintro ⟨s, rfl⟩
    cases s with
    | real e => exact e.start_le_stop
    | unknown reason => exact True.intro

/-- The check passes the ends of an extent. -/
theorem build_ends (e : Extent) : build e.file e.start e.stop = .ok (Span.real e).raw := by
  rw [build, Extent.between_ends]
  rfl

/-- Coordinates are joined as spans are, and the check in between passes. -/
theorem exists_join_raw (a b : Span) : ∃ notes s,
    a.join b = ⟨notes, .ok s⟩ ∧ a.raw.join b.raw = ⟨notes, .ok s.raw⟩ := by
  cases b with
  | unknown reason => exact ⟨[], a, Span.join_unknown_right a reason, by cases a <;> rfl⟩
  | real b =>
    cases a with
    | unknown reason => exact ⟨[], .real b, rfl, rfl⟩
    | real a =>
      by_cases hfile : a.file = b.file
      · refine ⟨[], .real (a.hull b), Span.join_real_of_eq hfile, ?_⟩
        rw [Span.raw, Span.raw, join, if_pos hfile, ← build_ends (a.hull b)]
        rfl
      · refine ⟨[.filesDiffer a.file b.file], Span.filesDiffer, Span.join_real_of_ne hfile, ?_⟩
        rw [Span.raw, Span.raw, join, if_neg hfile]
        rfl

theorem exists_joinAll_raw {spans : List Span} (hne : spans ≠ []) : ∃ notes s,
    Span.joinAll spans = ⟨notes, .ok s⟩ ∧ joinAll (spans.map Span.raw) = ⟨notes, .ok s.raw⟩ := by
  obtain ⟨first, rest, rfl⟩ := List.exists_cons_of_ne_nil hne
  exact Span.exists_joinFrom_map exists_join_raw first rest

/-- Coordinates are moved as spans are, and the check at the end passes. -/
theorem moveRight_raw (s : Span) (n : Int) :
    s.raw.moveRight n = (fun e => (Span.real e).raw) <$> s.moveRight n := by
  cases s with
  | unknown reason => rfl
  | real e =>
    rw [Span.raw, moveRight, Position.stepRight_eq_moveRight, Position.stepRight_eq_moveRight]
    by_cases hn : n < 0
    · rw [Position.moveRight_of_neg hn, Span.moveRight_real_of_neg hn]
      rfl
    · rw [Position.moveRight_of_nonneg (Int.not_lt.mp hn),
        Position.moveRight_of_nonneg (Int.not_lt.mp hn),
        Span.moveRight_real_of_nonneg (Int.not_lt.mp hn)]
      exact build_ends (e.right n)

theorem moveValueRight_raw {α : Type} (l : Located α) (n : Int) :
    moveValueRight (l.span.raw, l.value) n =
      (fun moved => (moved.span.raw, moved.value)) <$> l.moveRight n := by
  rw [moveValueRight, moveRight_raw, Located.moveRight]
  cases l.span.moveRight n <;> rfl

/-! ## Sequences of operations -/

/-- What one operation on spans in hand comes to. -/
inductive Step (inHand : List RawSpan) : Logged RawSpan → Prop
  | join {a b : RawSpan} (ha : a ∈ inHand) (hb : b ∈ inHand) : Step inHand (a.join b)
  | joinAll {spans : List RawSpan} (hne : spans ≠ []) (h : ∀ s ∈ spans, s ∈ inHand) :
      Step inHand (joinAll spans)
  | moveRight {s : RawSpan} (hs : s ∈ inHand) (n : Int) :
      Step inHand (Logged.ofExcept (s.moveRight n))
  | moveValueRight {α : Type} {s : RawSpan} (hs : s ∈ inHand) (value : α) (n : Int) :
      Step inHand (Logged.ofExcept (Prod.fst <$> moveValueRight (s, value) n))

/-- The spans in hand and the faults met after a sequence of operations.  A result is in hand
from then on; a fault leaves things as they are. -/
inductive Run (given : List RawSpan) : List RawSpan → List Fault → Prop
  | start : Run given given []
  | result {inHand : List RawSpan} {faults : List Fault} {outcome : Logged RawSpan} {s : RawSpan}
      (h : Run given inHand faults) (hstep : Step inHand outcome)
      (hs : outcome.result = .ok s) : Run given (s :: inHand) faults
  | fault {inHand : List RawSpan} {faults : List Fault} {outcome : Logged RawSpan} {f : Fault}
      (h : Run given inHand faults) (hstep : Step inHand outcome)
      (hf : outcome.result = .error f) : Run given inHand (f :: faults)

/-- A fault that comes of moving an unknown span, or of moving to the left. -/
def IsMoveFault (inHand : List RawSpan) (f : Fault) : Prop :=
  (∃ reason, unknown reason ∈ inHand ∧ f = .breach (.immovable reason)) ∨
    ∃ n < 0, f = .breach (.backwards n)

theorem IsMoveFault.cons {inHand : List RawSpan} {f : Fault} (h : IsMoveFault inHand f)
    (s : RawSpan) : IsMoveFault (s :: inHand) f := by
  rcases h with ⟨reason, hmem, hf⟩ | h
  · exact .inl ⟨reason, List.mem_cons_of_mem s hmem, hf⟩
  · exact .inr h

/-- A move of a span in hand gives an ordered span or a fault of a move. -/
theorem moveRight_outcome {inHand : List RawSpan} {s : RawSpan} (hs : s ∈ inHand)
    (hordered : s.IsOrdered) (n : Int) :
    (∃ t, s.moveRight n = .ok t ∧ t.IsOrdered) ∨
      ∃ f, s.moveRight n = .error f ∧ IsMoveFault inHand f := by
  obtain ⟨s, rfl⟩ := isOrdered_iff.mp hordered
  rw [moveRight_raw]
  cases s with
  | unknown reason => exact .inr ⟨_, rfl, .inl ⟨reason, hs, rfl⟩⟩
  | real e =>
    by_cases hn : n < 0
    · rw [Span.moveRight_real_of_neg hn]
      exact .inr ⟨_, rfl, .inr ⟨n, hn, rfl⟩⟩
    · rw [Span.moveRight_real_of_nonneg (Int.not_lt.mp hn)]
      exact .inl ⟨_, rfl, isOrdered_iff.mpr ⟨_, rfl⟩⟩

/-- **One operation** on ordered spans results in an ordered span, or in a fault of a move. -/
theorem Step.outcome {inHand : List RawSpan} {outcome : Logged RawSpan}
    (h : Step inHand outcome) (hordered : ∀ s ∈ inHand, s.IsOrdered) :
    (∃ s, outcome.result = .ok s ∧ s.IsOrdered) ∨
      ∃ f, outcome.result = .error f ∧ IsMoveFault inHand f := by
  cases h with
  | @join a b ha hb =>
    obtain ⟨a, rfl⟩ := isOrdered_iff.mp (hordered a ha)
    obtain ⟨b, rfl⟩ := isOrdered_iff.mp (hordered b hb)
    obtain ⟨notes, s, -, hjoin⟩ := exists_join_raw a b
    exact .inl ⟨s.raw, congrArg Logged.result hjoin, isOrdered_iff.mpr ⟨s, rfl⟩⟩
  | @joinAll raws hne hmem =>
    -- the list is the coordinates of spans, since each of its members is
    obtain ⟨spans, rfl⟩ : raws ∈ Set.range (List.map Span.raw) := by
      rw [Set.range_list_map]
      exact fun r hr => isOrdered_iff.mp (hordered r (hmem r hr))
    obtain ⟨notes, s, -, hjoin⟩ := exists_joinAll_raw fun h => hne (congrArg (List.map Span.raw) h)
    exact .inl ⟨s.raw, congrArg Logged.result hjoin, isOrdered_iff.mpr ⟨s, rfl⟩⟩
  | @moveRight s hs n => exact moveRight_outcome hs (hordered s hs) n
  | @moveValueRight α s hs value n =>
    rcases moveRight_outcome hs (hordered s hs) n with ⟨t, ht, hord⟩ | ⟨f, hf, hfault⟩
    · exact .inl ⟨t, by rw [RawSpan.moveValueRight, ht]; rfl, hord⟩
    · exact .inr ⟨f, by rw [RawSpan.moveValueRight, hf]; rfl, hfault⟩

/-- **Any sequence of operations** that starts with ordered spans keeps to ordered spans, and
meets with faults of moves only.  By induction along the sequence, from `Step.outcome`. -/
theorem Run.outcome {given inHand : List RawSpan} {faults : List Fault}
    (h : Run given inHand faults) (hgiven : ∀ s ∈ given, s.IsOrdered) :
    (∀ s ∈ inHand, s.IsOrdered) ∧ ∀ f ∈ faults, IsMoveFault inHand f := by
  induction h with
  | start => exact ⟨hgiven, fun _ hf => nomatch hf⟩
  | @result inHand faults outcome s _ hstep hs ih =>
    obtain ⟨hordered, hfaults⟩ := ih
    rcases hstep.outcome hordered with ⟨t, ht, hord⟩ | ⟨f, hf, -⟩
    · obtain rfl := Except.ok.inj (hs.symm.trans ht)
      exact ⟨List.forall_mem_cons.mpr ⟨hord, hordered⟩, fun f hf => (hfaults f hf).cons s⟩
    · cases hs.symm.trans hf
  | @fault inHand faults outcome f _ hstep hf ih =>
    obtain ⟨hordered, hfaults⟩ := ih
    rcases hstep.outcome hordered with ⟨t, ht, -⟩ | ⟨g, hg, hfault⟩
    · cases hf.symm.trans ht
    · obtain rfl := Except.error.inj (hf.symm.trans hg)
      exact ⟨hordered, List.forall_mem_cons.mpr ⟨hfault, hfaults⟩⟩

/-- **No operation on spans upsets the order of their ends.**  On the coordinates of spans the
operations that build and check do what the operations on spans do.  And any sequence of them,
started with spans that pass the check and each applied to results of earlier ones, has ordered
spans as results.  It meets with two faults only, a move of an unknown span and a move to the
left, and never with ends in the wrong order. -/
theorem run_in_order :
    (∀ a b : Span, ∃ notes s,
      a.join b = ⟨notes, .ok s⟩ ∧ a.raw.join b.raw = ⟨notes, .ok s.raw⟩) ∧
      (∀ spans : List Span, spans ≠ [] → ∃ notes s,
        Span.joinAll spans = ⟨notes, .ok s⟩ ∧ joinAll (spans.map Span.raw) = ⟨notes, .ok s.raw⟩) ∧
      (∀ (s : Span) (n : Int),
        s.raw.moveRight n = (fun e => (Span.real e).raw) <$> s.moveRight n) ∧
      (∀ {α : Type} (l : Located α) (n : Int), moveValueRight (l.span.raw, l.value) n =
        (fun moved => (moved.span.raw, moved.value)) <$> l.moveRight n) ∧
      ∀ {given inHand : List RawSpan} {faults : List Fault},
        (∀ file start stop, real file start stop ∈ given →
          ∃ e, Extent.between file start stop = .ok e) →
        Run given inHand faults →
          (∀ file start stop, real file start stop ∈ inHand → start ≤ stop) ∧
          (∀ f ∈ faults, (∃ reason, unknown reason ∈ inHand ∧ f = .breach (.immovable reason)) ∨
            ∃ n < 0, f = .breach (.backwards n)) ∧
          ∀ start stop, .breach (.reversed start stop) ∉ faults := by
  refine ⟨exists_join_raw, fun _ hne => exists_joinAll_raw hne, moveRight_raw,
    fun l n => moveValueRight_raw l n, fun {given inHand faults} hgiven hrun => ?_⟩
  have hstart : ∀ s ∈ given, s.IsOrdered := by
    intro s hs
    cases s with
    | real file start stop => exact Extent.exists_between_eq_iff.mp (hgiven file start stop hs)
    | unknown reason => exact True.intro
  obtain ⟨hordered, hfaults⟩ := hrun.outcome hstart
  refine ⟨fun file start stop hs => hordered _ hs, hfaults, fun start stop hmem => ?_⟩
  rcases hfaults _ hmem with ⟨reason, -, h⟩ | ⟨n, -, h⟩
  · cases h
  · cases h

/-- Extents of two files.  Their join is unknown and cannot be moved; the first of them cannot be
moved to the left; and it is joined with itself, moved, to an extent that reaches further. -/
theorem run_in_order_twoFiles :
    let a := real "M" ⟨1, 1⟩ ⟨1, 5⟩
    let b := real "N" ⟨-3, 0⟩ ⟨-3, 0⟩
    let clash := unknown "<combine_spans: files differ>"
    let moved := real "M" ⟨1, 4⟩ ⟨1, 8⟩
    let wide := real "M" ⟨1, 1⟩ ⟨1, 8⟩
    let inHand := [wide, moved, clash, a, b]
    let faults := [.breach (.backwards (-1)), .breach (.immovable "<combine_spans: files differ>")]
    (∀ file start stop, real file start stop ∈ [a, b] →
      ∃ e, Extent.between file start stop = .ok e) ∧
      Run [a, b] inHand faults ∧
      (∀ file start stop, real file start stop ∈ inHand → start ≤ stop) ∧
      ∀ start stop, .breach (.reversed start stop) ∉ faults := by
  intro a b clash moved wide inHand faults
  have hgiven : ∀ file start stop, real file start stop ∈ [a, b] →
      ∃ e, Extent.between file start stop = .ok e := by
    intro file start stop h
    simp only [a, b, List.mem_cons, List.not_mem_nil, or_false, real.injEq] at h
    rcases h with ⟨rfl, rfl, rfl⟩ | ⟨rfl, rfl, rfl⟩
    · exact Extent.exists_between_eq_iff.mpr (by decide)
    · exact Extent.exists_between_eq_iff.mpr (by decide)
  have hclash : Run [a, b] [clash, a, b] [] :=
    Run.start.result (.join (a := a) (b := b) (by simp) (by simp)) rfl
  have hstuck : Run [a, b] [clash, a, b] [.breach (.immovable "<combine_spans: files differ>")] :=
    hclash.fault (.moveRight (s := clash) (by simp) 4) rfl
  have hback : Run [a, b] [clash, a, b] faults :=
    hstuck.fault (.moveValueRight (s := a) (by simp) () (-1)) rfl
  have hmoved : Run [a, b] [moved, clash, a, b] faults :=
    hback.result (.moveRight (s := a) (by simp) 3) rfl
  have hall : Step [moved, clash, a, b] (joinAll [clash, a, moved]) :=
    .joinAll (by simp) (by simp)
  have hrun : Run [a, b] inHand faults := hmoved.result hall rfl
  obtain ⟨-, -, -, -, hruns⟩ := run_in_order
  obtain ⟨hordered, -, hnever⟩ := hruns hgiven hrun
  exact ⟨hgiven, hrun, hordered, hnever⟩

end RawSpan
end SourceLayout
