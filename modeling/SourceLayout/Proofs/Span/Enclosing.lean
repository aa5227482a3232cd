import Mathlib.Data.List.Forall2
import SourceLayout.Proofs.Span.Blocks

/-! # The least enclosing span of one file

While all known spans lie in one file, a join leaves no note and forgets nothing: the join
of two spans is their **union**, and the union is associative.  So a list of spans has one
union, in whatever way it is cut into parts or put in brackets (`Bracketing`).

Where at least one span is known the union is the least extent that **encloses** all known
ones, and there is only one such extent; so the order of the list does not matter either.
Where none is known the union is the first span, and order does matter.
-/
namespace SourceLayout

/-! ## Enclosing -/

namespace Extent

/-- `e` reaches at least as far as `x` to both sides, in the same file. -/
structure Encloses (e x : Extent) : Prop where
  file_eq : x.file = e.file
  start_le : e.start ≤ x.start
  le_stop : x.stop ≤ e.stop

theorem IsHullOf.encloses {e : Extent} {run : List Extent} (h : e.IsHullOf run) :
    ∀ x ∈ run, e.Encloses x :=
  fun x hx => ⟨h.file_eq x hx, h.start_le x hx, h.le_stop x hx⟩

/-- What encloses all of a run encloses its hull, since the ends of the hull are ends of
members. -/
theorem IsHullOf.enclosed {e g : Extent} {run : List Extent} (h : e.IsHullOf run)
    (hg : ∀ x ∈ run, g.Encloses x) : g.Encloses e := by
  obtain ⟨x, hx, hstart⟩ := h.start_mem
  obtain ⟨y, hy, hstop⟩ := h.stop_mem
  refine ⟨?_, ?_, ?_⟩
  · rw [← h.file_eq x hx]
    exact (hg x hx).file_eq
  · rw [← hstart]
    exact (hg x hx).start_le
  · rw [← hstop]
    exact (hg y hy).le_stop

theorem Encloses.antisymm {a b : Extent} (hab : a.Encloses b) (hba : b.Encloses a) : a = b := by
  obtain ⟨file, start, stop, _⟩ := a
  obtain ⟨file', start', stop', _⟩ := b
  obtain rfl : file' = file := hab.file_eq
  obtain rfl : start = start' := le_antisymm hab.start_le hba.start_le
  obtain rfl : stop = stop' := le_antisymm hba.le_stop hab.le_stop
  rfl

/-- The members of a run determine its hull. -/
theorem IsHullOf.eq_of_mem_iff {a b : Extent} {xs ys : List Extent} (ha : a.IsHullOf xs)
    (hb : b.IsHullOf ys) (h : ∀ x, x ∈ xs ↔ x ∈ ys) : a = b := by
  apply Encloses.antisymm
  · exact hb.enclosed fun y hy => ha.encloses y ((h y).mpr hy)
  · exact ha.enclosed fun x hx => hb.encloses x ((h x).mp hx)

theorem hull_assoc (a b c : Extent) : (a.hull b).hull c = a.hull (b.hull c) := by
  simp only [hull, Extent.mk.injEq, true_and]
  exact ⟨min_assoc _ _ _, max_assoc _ _ _⟩

end Extent

namespace Span

/-! ## The union -/

/-- The smallest span of one file that encloses both. -/
def union : Span → Span → Span
  | a, unknown _ => a
  | unknown _, real b => real b
  | real a, real b => real (a.hull b)

theorem union_assoc (a b c : Span) : (a.union b).union c = a.union (b.union c) := by
  rcases c with c | _
  · rcases b with b | _
    · rcases a with a | _
      · exact congrArg real (Extent.hull_assoc a b c)
      · rfl
    · cases a <;> rfl
  · cases b <;> rfl

instance : Std.Associative union := ⟨union_assoc⟩

/-- Whether a span lies in a file, or in none. -/
def InFile (file : String) (s : Span) : Prop := ∀ e ∈ s.extent?, e.file = file

variable {file : String}

theorem InFile.union {a b : Span} (ha : a.InFile file) (hb : b.InFile file) :
    (a.union b).InFile file := by
  rcases b with b | _
  · rcases a with a | _
    · intro e he
      rw [← Option.some.inj he]
      exact ha a rfl
    · exact hb
  · cases a <;> exact ha

/-- **In one file the join is the union**, and leaves no note. -/
theorem join_eq_union {a b : Span} (ha : a.InFile file) (hb : b.InFile file) :
    a.join b = pure (a.union b) := by
  rcases b with b | _
  · rcases a with a | _
    · exact join_real_of_eq ((ha a rfl).trans (hb b rfl).symm)
    · rfl
  · cases a <;> rfl

theorem inFile_of_real_mem {spans : List Span} (h : ∀ x, real x ∈ spans → x.file = file) :
    ∀ s ∈ spans, s.InFile file := by
  intro s hs e he
  exact h e (extent?_eq_some_iff.mp he ▸ hs)

/-- A list of one file is joined to the union of its members.  By induction from the left:
what was joined so far stays in the file. -/
theorem joinFrom_eq_foldl {first : Span} {rest : List Span} (hfirst : first.InFile file)
    (hrest : ∀ s ∈ rest, s.InFile file) : joinFrom first rest = pure (rest.foldl union first) := by
  induction rest generalizing first with
  | nil => rfl
  | cons s rest ih =>
    have hs := hrest s List.mem_cons_self
    rw [joinFrom_cons, join_eq_union hfirst hs, Logged.pure_bind, List.foldl_cons]
    exact ih (hfirst.union hs) fun t ht => hrest t (List.mem_cons_of_mem s ht)

/-- A list of one file is joined without a note, to a span of the file. -/
theorem exists_joinAll_eq {spans : List Span} (hne : spans ≠ []) (h : ∀ s ∈ spans, s.InFile file) :
    ∃ s, joinAll spans = pure s ∧ s.InFile file := by
  obtain ⟨first, rest, rfl⟩ := List.exists_cons_of_ne_nil hne
  have hfirst := h first List.mem_cons_self
  have hrest : ∀ s ∈ rest, s.InFile file := fun s hs => h s (List.mem_cons_of_mem first hs)
  refine ⟨rest.foldl union first, joinFrom_eq_foldl hfirst hrest, ?_⟩
  exact List.foldlRecOn rest union hfirst fun s hs t ht => hs.union (hrest t ht)

/-- **Two lists of one file, one after the other**, are joined to the union of what they are
joined to. -/
theorem joinAll_append {xs ys : List Span} {a b : Span} (hxs : ∀ s ∈ xs, s.InFile file)
    (hys : ∀ s ∈ ys, s.InFile file) (ha : joinAll xs = pure a) (hb : joinAll ys = pure b) :
    joinAll (xs ++ ys) = pure (a.union b) := by
  cases xs with
  | nil => cases congrArg Logged.result ha
  | cons x xs =>
    cases ys with
    | nil => cases congrArg Logged.result hb
    | cons y ys =>
      have hx := hxs x List.mem_cons_self
      have hxs' : ∀ s ∈ xs, s.InFile file := fun s hs => hxs s (List.mem_cons_of_mem x hs)
      have hy := hys y List.mem_cons_self
      have hys' : ∀ s ∈ ys, s.InFile file := fun s hs => hys s (List.mem_cons_of_mem y hs)
      have hall : ∀ s ∈ xs ++ y :: ys, s.InFile file := by
        intro s hs
        rcases List.mem_append.mp hs with hs | hs
        · exact hxs' s hs
        · exact hys s hs
      have hleft := congrArg Logged.result ((joinFrom_eq_foldl hx hxs').symm.trans ha)
      have hright := congrArg Logged.result ((joinFrom_eq_foldl hy hys').symm.trans hb)
      obtain rfl : xs.foldl union x = a := Except.ok.inj hleft
      obtain rfl : ys.foldl union y = b := Except.ok.inj hright
      have hfold : (xs ++ y :: ys).foldl union x = (xs.foldl union x).union (ys.foldl union y) := by
        rw [List.foldl_append, List.foldl_cons, List.foldl_assoc]
      exact (joinFrom_eq_foldl hx hall).trans (congrArg pure hfold)

/-! ## Parts and brackets -/

/-- The parts of a list of one file can be joined first.  By induction on the parts: the
first one is joined before the others as its union would be. -/
theorem exists_joinAll_flatten {parts : List (List Span)} (hne : parts ≠ [])
    (hparts : ∀ part ∈ parts, part ≠ []) (h : ∀ s ∈ parts.flatten, s.InFile file) :
    ∃ joined, List.Forall₂ (fun part s => joinAll part = pure s) parts joined ∧
      (∀ s ∈ joined, s.InFile file) ∧ joinAll joined = joinAll parts.flatten := by
  induction parts with
  | nil => exact absurd rfl hne
  | cons part parts ih =>
    rw [List.flatten_cons] at h ⊢
    have hpart : ∀ s ∈ part, s.InFile file := fun s hs => h s (List.mem_append_left _ hs)
    have hrest : ∀ s ∈ parts.flatten, s.InFile file := fun s hs => h s (List.mem_append_right _ hs)
    obtain ⟨a, ha, hafile⟩ := exists_joinAll_eq (hparts part List.mem_cons_self) hpart
    have hsingle : ∀ s ∈ [a], s.InFile file := fun s hs => List.mem_singleton.mp hs ▸ hafile
    cases parts with
    | nil =>
      refine ⟨[a], List.Forall₂.cons ha List.Forall₂.nil, hsingle, ?_⟩
      rw [List.flatten_nil, List.append_nil, ha]
      rfl
    | cons next parts =>
      have hne' : ∀ p ∈ next :: parts, p ≠ [] := fun p hp => hparts p (List.mem_cons_of_mem part hp)
      have hflat : (next :: parts).flatten ≠ [] :=
        List.append_ne_nil_of_left_ne_nil (hne' next List.mem_cons_self) _
      obtain ⟨joined, hjoined, hfile, heq⟩ := ih (List.cons_ne_nil next parts) hne' hrest
      obtain ⟨b, hb, -⟩ := exists_joinAll_eq hflat hrest
      refine ⟨a :: joined, List.Forall₂.cons ha hjoined, ?_, ?_⟩
      · exact List.forall_mem_cons.mpr ⟨hafile, hfile⟩
      · rw [joinAll_append hpart hrest ha hb]
        exact joinAll_append hsingle hfile rfl (heq.trans hb)

/-- A way to put a list of spans in brackets, two by two. -/
inductive Bracketing where
  | leaf (s : Span)
  | pair (left right : Bracketing)

namespace Bracketing

/-- The spans between the brackets, from left to right. -/
def leaves : Bracketing → List Span
  | leaf s => [s]
  | pair left right => left.leaves ++ right.leaves

/-- The spans, joined as the brackets say. -/
def joined : Bracketing → Logged Span
  | leaf s => pure s
  | pair left right => do
    let a ← left.joined
    let b ← right.joined
    a.join b

theorem leaves_ne_nil (t : Bracketing) : t.leaves ≠ [] := by
  induction t with
  | leaf s => exact List.cons_ne_nil s []
  | pair left right ihl _ => exact List.append_ne_nil_of_left_ne_nil ihl _

/-- **Brackets do not matter** in one file. -/
theorem joined_eq_joinAll (t : Bracketing) (h : ∀ s ∈ t.leaves, s.InFile file) :
    t.joined = joinAll t.leaves := by
  induction t with
  | leaf s => rfl
  | pair left right ihl ihr =>
    have hl : ∀ s ∈ left.leaves, s.InFile file := fun s hs => h s (List.mem_append_left _ hs)
    have hr : ∀ s ∈ right.leaves, s.InFile file := fun s hs => h s (List.mem_append_right _ hs)
    obtain ⟨a, ha, hafile⟩ := exists_joinAll_eq left.leaves_ne_nil hl
    obtain ⟨b, hb, hbfile⟩ := exists_joinAll_eq right.leaves_ne_nil hr
    rw [joined, ihl hl, ihr hr, ha, hb, Logged.pure_bind, Logged.pure_bind,
      join_eq_union hafile hbfile]
    exact (joinAll_append hl hr ha hb).symm

end Bracketing

/-! ## The least enclosing span -/

theorem mem_extents {spans : List Span} {e : Extent} : e ∈ extents spans ↔ real e ∈ spans := by
  rw [extents, List.mem_filterMap]
  constructor
  · rintro ⟨s, hs, he⟩
    exact extent?_eq_some_iff.mp he ▸ hs
  · exact fun he => ⟨real e, he, rfl⟩

/-- A list of one file with a known span is joined to the hull of its known spans. -/
theorem exists_isHullOf_extents {spans : List Span} (h : ∀ x, real x ∈ spans → x.file = file)
    (hknown : ∃ x, real x ∈ spans) :
    ∃ e, joinAll spans = pure (real e) ∧ e.IsHullOf (extents spans) := by
  obtain ⟨x, hx⟩ := hknown
  have hne := List.ne_nil_of_mem (mem_extents.mpr hx)
  obtain ⟨first, more, hes⟩ := List.exists_cons_of_ne_nil hne
  have hfile : ∀ e ∈ more, e.file = first.file := by
    intro e he
    have hmem : ∀ y ∈ first :: more, y.file = file := fun y hy => h y (mem_extents.mp (hes ▸ hy))
    rw [hmem e (List.mem_cons_of_mem first he), hmem first List.mem_cons_self]
  refine ⟨more.foldl Extent.hull first, ?_, ?_⟩
  · -- all known spans are one open block
    rw [joinAll_extents hne, joinAll_map_real hne, hes, Block.cut_run hfile]
    rfl
  · rw [hes]
    exact (Extent.isHullOf_singleton first).foldl_hull hfile

/-- **Within one file a join is the least enclosing span**, in whatever order, parts or
brackets it is taken.  If a span is known, the result is the least extent that encloses all
known spans, without a note and for every order of the list.  Known or not, joining the
parts of a list first, or joining two by two, results in the same. -/
theorem joinAll_one_file {spans : List Span} (hne : spans ≠ [])
    (h : ∀ x, real x ∈ spans → x.file = file) :
    ((∃ x, real x ∈ spans) → ∃ e,
      joinAll spans = ⟨[], .ok (real e)⟩ ∧ e.file = file ∧
        (∀ x, real x ∈ spans → e.Encloses x) ∧
        (∀ g : Extent, (∀ x, real x ∈ spans → g.Encloses x) → g.Encloses e) ∧
        ∀ others, others.Perm spans → joinAll others = joinAll spans) ∧
      (∀ parts : List (List Span), (∀ part ∈ parts, part ≠ []) → parts.flatten = spans →
        ∃ joined, List.Forall₂ (fun part s => joinAll part = pure s) parts joined ∧
          joinAll joined = joinAll spans) ∧
      ∀ t : Bracketing, t.leaves = spans → t.joined = joinAll spans := by
  refine ⟨fun hknown => ?_, ?_, ?_⟩
  · obtain ⟨e, hjoin, hhull⟩ := exists_isHullOf_extents h hknown
    obtain ⟨x, hx⟩ := hknown
    refine ⟨e, hjoin, ?_, ?_, ?_, ?_⟩
    · rw [← hhull.file_eq x (mem_extents.mpr hx)]
      exact h x hx
    · exact fun y hy => hhull.encloses y (mem_extents.mpr hy)
    · exact fun g hg => hhull.enclosed fun y hy => hg y (mem_extents.mp hy)
    · intro others hperm
      have hmem : ∀ y, y ∈ extents others ↔ y ∈ extents spans := by
        intro y
        rw [mem_extents, mem_extents, hperm.mem_iff]
      obtain ⟨e', hjoin', hhull'⟩ := exists_isHullOf_extents
        (fun y hy => h y (hperm.mem_iff.mp hy)) ⟨x, hperm.mem_iff.mpr hx⟩
      rw [hjoin, hjoin', hhull'.eq_of_mem_iff hhull hmem]
  · rintro parts hparts rfl
    have hnil : parts ≠ [] := by
      rintro rfl
      exact hne rfl
    obtain ⟨joined, hjoined, -, heq⟩ :=
      exists_joinAll_flatten hnil hparts (inFile_of_real_mem h)
    exact ⟨joined, hjoined, heq⟩
  · rintro t rfl
    exact t.joined_eq_joinAll (inFile_of_real_mem h)

/-- Two extents that overlap, between unknown spans: their union reaches from the start of
the second to the end of the first, also for the turned list and for other brackets. -/
theorem joinAll_overlapping :
    let a : Extent := ⟨"M", ⟨2, 5⟩, ⟨9, 1⟩, by decide⟩
    let b : Extent := ⟨"M", ⟨2, 1⟩, ⟨4, 80⟩, by decide⟩
    let spans := [unknown "first", real a, unknown "second", real b]
    spans ≠ [] ∧ (∀ x, real x ∈ spans → x.file = "M") ∧
      (joinAll spans).result = .ok (real ⟨"M", ⟨2, 1⟩, ⟨9, 1⟩, by decide⟩) ∧
      joinAll [real b, unknown "second", real a, unknown "first"] = joinAll spans ∧
      (Bracketing.pair (.leaf (unknown "first")) (.pair (.pair (.leaf (real a))
        (.leaf (unknown "second"))) (.leaf (real b)))).joined = joinAll spans := by
  intro a b spans
  have hne : spans ≠ [] := List.cons_ne_nil _ _
  have hfile : ∀ x, real x ∈ spans → x.file = "M" := by
    intro x hx
    have hab : x = a ∨ x = b := by simpa [spans] using hx
    rcases hab with rfl | rfl <;> rfl
  obtain ⟨hknown, -, hbrackets⟩ := joinAll_one_file hne hfile
  obtain ⟨e, -, -, -, -, horder⟩ := hknown ⟨a, by simp [spans]⟩
  exact ⟨hne, hfile, rfl, horder _ (List.reverse_perm spans), hbrackets _ rfl⟩

end Span
end SourceLayout
