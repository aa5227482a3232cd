import Mathlib.Data.List.TakeWhile
import Mathlib.Order.MinMax
import SourceLayout.Span.Join
import SourceLayout.Proofs.Position.Scan

/-! # Joining spans of several files

A join over a list of spans forgets what it had whenever two files meet.  What it keeps
is told by **blocks**.  Drop the unknown spans; a block is then a run of extents of one
file together with the extent, of another file, that closes it.  The next block begins
after that, so a closing extent counts for neither of its neighbours, and only the last
block of a list can be left open (`Block.cut`).

Joining a list leaves one note for each closed block, and its result is the hull of the
last block if that is open, and unknown if it is closed (`joinAll_blocks`).
-/
namespace SourceLayout

/-! ## Hulls of runs -/

/-- `e` is the least extent that encloses all of `run`: it lies in their file, starts
where the first of them starts and stops where the last of them stops. -/
structure Extent.IsHullOf (e : Extent) (run : List Extent) : Prop where
  file_eq : ∀ x ∈ run, x.file = e.file
  start_le : ∀ x ∈ run, e.start ≤ x.start
  start_mem : ∃ x ∈ run, x.start = e.start
  le_stop : ∀ x ∈ run, x.stop ≤ e.stop
  stop_mem : ∃ x ∈ run, x.stop = e.stop

namespace Extent

@[simp] theorem file_hull (a b : Extent) : (a.hull b).file = a.file := rfl

@[simp] theorem start_hull (a b : Extent) : (a.hull b).start = min a.start b.start := rfl

@[simp] theorem stop_hull (a b : Extent) : (a.hull b).stop = max a.stop b.stop := rfl

theorem file_foldl_hull (e : Extent) (run : List Extent) : (run.foldl hull e).file = e.file := by
  induction run generalizing e with
  | nil => rfl
  | cons x run ih => rw [List.foldl_cons, ih, file_hull]

theorem isHullOf_singleton (e : Extent) : e.IsHullOf [e] where
  file_eq := by simp
  start_le := by simp
  start_mem := ⟨e, List.mem_singleton_self e, rfl⟩
  le_stop := by simp
  stop_mem := ⟨e, List.mem_singleton_self e, rfl⟩

/-- A run grows by an extent of its file as its hull does. -/
theorem IsHullOf.concat {e x : Extent} {run : List Extent} (h : e.IsHullOf run)
    (hx : x.file = e.file) : (e.hull x).IsHullOf (run ++ [x]) where
  file_eq := by
    intro y hy
    rcases List.mem_append.mp hy with hy | hy
    · exact h.file_eq y hy
    · rw [List.mem_singleton.mp hy]
      exact hx
  start_le := by
    intro y hy
    rcases List.mem_append.mp hy with hy | hy
    · exact le_trans (min_le_left _ _) (h.start_le y hy)
    · rw [List.mem_singleton.mp hy]
      exact min_le_right _ _
  start_mem := by
    rw [start_hull]
    rcases min_choice e.start x.start with hmin | hmin
    · obtain ⟨y, hy, hstart⟩ := h.start_mem
      exact ⟨y, List.mem_append_left _ hy, hstart.trans hmin.symm⟩
    · exact ⟨x, List.mem_append_right _ (List.mem_singleton_self x), hmin.symm⟩
  le_stop := by
    intro y hy
    rcases List.mem_append.mp hy with hy | hy
    · exact le_trans (h.le_stop y hy) (le_max_left _ _)
    · rw [List.mem_singleton.mp hy]
      exact le_max_right _ _
  stop_mem := by
    rw [stop_hull]
    rcases max_choice e.stop x.stop with hmax | hmax
    · obtain ⟨y, hy, hstop⟩ := h.stop_mem
      exact ⟨y, List.mem_append_left _ hy, hstop.trans hmax.symm⟩
    · exact ⟨x, List.mem_append_right _ (List.mem_singleton_self x), hmax.symm⟩

theorem IsHullOf.foldl_hull {e : Extent} {run : List Extent} (h : e.IsHullOf run)
    {more : List Extent} (hmore : ∀ x ∈ more, x.file = e.file) :
    (more.foldl hull e).IsHullOf (run ++ more) := by
  induction more generalizing e run with
  | nil => simpa using h
  | cons x more ih =>
    have hx := h.concat (hmore x List.mem_cons_self)
    rw [List.foldl_cons, List.append_cons]
    exact ih hx fun y hy => hmore y (List.mem_cons_of_mem x hy)

end Extent

/-! ## Blocks -/

/-- A run of extents of one file, and the extent of another file that closes it. -/
structure Block where
  first : Extent
  /-- The extents of the run after the first. -/
  more : List Extent
  /-- The extent after the run, unless the run is the end of the list. -/
  closing : Option Extent
  same_file : ∀ e ∈ more, e.file = first.file
  other_file : ∀ e ∈ closing, e.file ≠ first.file

namespace Block

/-- The extents of the run. -/
def run (b : Block) : List Extent := b.first :: b.more

/-- The extents that a block takes up, its closing one included. -/
def members (b : Block) : List Extent := b.run ++ b.closing.toList

/-- The note that a closed block leaves. -/
def note? (b : Block) : Option Note :=
  b.closing.map fun e => .filesDiffer b.first.file e.file

/-- Whether `e` lies in the file of `first`. -/
def sameFile (first e : Extent) : Bool := decide (e.file = first.file)

theorem file_of_mem_takeWhile {first e : Extent} {rest : List Extent}
    (h : e ∈ rest.takeWhile (sameFile first)) : e.file = first.file :=
  of_decide_eq_true (p := e.file = first.file) (List.mem_takeWhile_imp (p := sameFile first) h)

theorem file_ne_of_dropWhile {first e : Extent} {rest after : List Extent}
    (h : rest.dropWhile (sameFile first) = e :: after) : e.file ≠ first.file := by
  intro he
  have hne : rest.dropWhile (sameFile first) ≠ [] := by rw [h]; exact List.cons_ne_nil _ _
  have := List.head_dropWhile_not (sameFile first) hne
  simp [h, sameFile, he] at this

theorem length_after_lt {first e : Extent} {rest after : List Extent}
    (h : rest.dropWhile (sameFile first) = e :: after) :
    after.length < (first :: rest).length := by
  have := (List.dropWhile_suffix (sameFile first) (l := rest)).length_le
  rw [h] at this
  simp only [List.length_cons] at this ⊢
  omega

/-- Extents cut into blocks from the left: each block takes the longest run of one file
and then the extent after it. -/
def cut : List Extent → List Block
  | [] => []
  | first :: rest =>
    match h : rest.dropWhile (sameFile first) with
    | [] =>
      [⟨first, rest.takeWhile (sameFile first), none,
        fun _ => file_of_mem_takeWhile, fun _ he => nomatch he⟩]
    | closing :: after =>
      ⟨first, rest.takeWhile (sameFile first), some closing,
        fun _ => file_of_mem_takeWhile,
        fun _ he => Option.some.inj he ▸ file_ne_of_dropWhile h⟩ :: cut after
termination_by es => es.length
decreasing_by exact length_after_lt h

/-- Nothing is lost in the cut. -/
theorem flatMap_members_cut (es : List Extent) : (cut es).flatMap members = es := by
  fun_induction cut es with
  | case1 => rfl
  | case2 first rest h =>
    have hrun := List.takeWhile_append_dropWhile (p := sameFile first) (l := rest)
    rw [h, List.append_nil] at hrun
    simp [members, run, hrun]
  | case3 first rest closing after h ih =>
    have hrun := List.takeWhile_append_dropWhile (p := sameFile first) (l := rest)
    rw [h] at hrun
    simp [members, run, ih, hrun]

theorem cut_ne_nil {es : List Extent} (h : es ≠ []) : cut es ≠ [] := by
  intro hcut
  have hes := flatMap_members_cut es
  rw [hcut] at hes
  exact h hes.symm

/-- Only the last block can be open. -/
theorem closing_isSome_of_mem_dropLast {es : List Extent} {b : Block}
    (h : b ∈ (cut es).dropLast) : b.closing.isSome := by
  fun_induction cut es with
  | case1 => cases h
  | case2 => cases h
  | case3 first rest closing after hdrop ih =>
    cases hcut : cut after with
    | nil =>
      rw [hcut] at h
      cases h
    | cons next blocks =>
      rw [hcut, List.dropLast_cons_cons] at h
      rw [hcut] at ih
      rcases List.mem_cons.mp h with rfl | h
      · rfl
      · exact ih h

/-- A run that ends the list is one open block. -/
theorem cut_run {first : Extent} {more : List Extent} (h : ∀ e ∈ more, e.file = first.file) :
    cut (first :: more) =
      [⟨first, more, none, h, fun _ he => nomatch he⟩] := by
  have hall : ∀ e ∈ more, sameFile first e = true := fun e he => decide_eq_true (h e he)
  have htake : more.takeWhile (sameFile first) = more := List.takeWhile_eq_self_iff.mpr hall
  have hdrop : more.dropWhile (sameFile first) = [] := List.dropWhile_eq_nil_iff.mpr hall
  rw [cut]
  split
  · simp only [htake]
  · next hne =>
    rw [hdrop] at hne
    cases hne

/-- A run before another file is one closed block. -/
theorem cut_run_append {first closing : Extent} {more : List Extent}
    (h : ∀ e ∈ more, e.file = first.file) (hclosing : ∀ e ∈ some closing, e.file ≠ first.file)
    (after : List Extent) :
    cut (first :: (more ++ closing :: after)) =
      ⟨first, more, some closing, h, hclosing⟩ :: cut after := by
  have hall : ∀ e ∈ more, sameFile first e = true := fun e he => decide_eq_true (h e he)
  have hstop : ¬ sameFile first closing = true :=
    fun he => hclosing closing rfl (of_decide_eq_true he)
  have htake : (more ++ closing :: after).takeWhile (sameFile first) = more := by
    rw [List.takeWhile_append_of_pos hall, List.takeWhile_cons_of_neg hstop, List.append_nil]
  have hdrop : (more ++ closing :: after).dropWhile (sameFile first) = closing :: after := by
    rw [List.dropWhile_append_of_pos hall, List.dropWhile_cons_of_neg hstop]
  rw [cut]
  split
  · next hnil =>
    rw [hdrop] at hnil
    cases hnil
  · next heq =>
    rw [hdrop] at heq
    obtain ⟨rfl, rfl⟩ := List.cons.inj heq
    simp only [htake]

/-- The cut is the only way to write a list as blocks of which all but the last are
closed. -/
theorem cut_flatMap_members {bs : List Block} (h : ∀ b ∈ bs.dropLast, b.closing.isSome) :
    cut (bs.flatMap members) = bs := by
  induction bs with
  | nil => rw [List.flatMap_nil, cut]
  | cons b bs ih =>
    obtain ⟨first, more, closing, hmore, hclosing⟩ := b
    have hrest : ∀ b ∈ bs.dropLast, b.closing.isSome := by
      cases bs with
      | nil => exact fun _ hb => nomatch hb
      | cons next bs => exact fun b hb => h b (List.mem_cons_of_mem _ hb)
    cases closing with
    | none =>
      cases bs with
      | nil =>
        rw [List.flatMap_singleton, members, Option.toList_none, List.append_nil]
        exact cut_run hmore
      | cons next bs => exact absurd (h _ List.mem_cons_self) Bool.false_ne_true
    | some closing =>
      rw [List.flatMap_cons, members, Option.toList_some, List.append_assoc,
        List.singleton_append]
      rw [show run ⟨first, more, some closing, hmore, hclosing⟩ = first :: more from rfl,
        List.cons_append, cut_run_append hmore hclosing, ih hrest]

/-- **The cut is the greedy one**: its blocks are the list, all but the last are closed, and no
other blocks are so. -/
theorem eq_cut_iff {bs : List Block} {es : List Extent} :
    bs = cut es ↔ bs.flatMap members = es ∧ ∀ b ∈ bs.dropLast, b.closing.isSome := by
  constructor
  · rintro rfl
    exact ⟨flatMap_members_cut es, fun _ => closing_isSome_of_mem_dropLast⟩
  · rintro ⟨rfl, hclosed⟩
    exact (cut_flatMap_members hclosed).symm

end Block

/-! ## Joining along the blocks -/

namespace Span

/-- Unknown spans behind the first do not matter to a join. -/
theorem joinFrom_filterMap (s : Span) (rest : List Span) :
    joinFrom s rest = joinFrom s ((rest.filterMap extent?).map real) := by
  induction rest generalizing s with
  | nil => rfl
  | cons t rest ih =>
    cases t with
    | unknown reason =>
      rw [joinFrom_cons, join_unknown_right, Logged.pure_bind, ih]
      rfl
    | real e =>
      rw [joinFrom_cons, funext ih]
      rfl

/-- A run of one file is joined to its hull, without a note. -/
theorem joinFrom_run {e : Extent} {run : List Extent} (h : ∀ x ∈ run, x.file = e.file)
    (after : List Span) :
    joinFrom (real e) (run.map real ++ after) =
      joinFrom (real (run.foldl Extent.hull e)) after := by
  induction run generalizing e with
  | nil => rfl
  | cons x run ih =>
    rw [List.map_cons, List.cons_append, joinFrom_cons,
      join_real_of_eq (h x List.mem_cons_self).symm, Logged.pure_bind, List.foldl_cons]
    exact ih fun y hy => h y (List.mem_cons_of_mem x hy)

/-- A list of extents is joined run by run. -/
theorem joinAll_run (first : Extent) (rest : List Extent) :
    joinAll ((first :: rest).map real) =
      joinFrom (real ((rest.takeWhile (Block.sameFile first)).foldl Extent.hull first))
        ((rest.dropWhile (Block.sameFile first)).map real) := by
  rw [← joinFrom_run (fun _ => Block.file_of_mem_takeWhile), ← List.map_append,
    List.takeWhile_append_dropWhile]
  rfl

/-- An unknown span in front of extents does not matter to a join. -/
theorem joinFrom_unknown {es : List Extent} (h : es ≠ []) (reason : String) :
    joinFrom (unknown reason) (es.map real) = joinAll (es.map real) := by
  cases es with
  | nil => exact absurd rfl h
  | cons e es =>
    rw [List.map_cons, joinFrom_cons, join_unknown_left, Logged.pure_bind]
    rfl

/-- What blocks are joined to: the hull of the last one, if it is open. -/
def ofBlocks (bs : List Block) : Span :=
  match bs.getLast? with
  | some b => if b.closing.isSome then filesDiffer else real (b.more.foldl Extent.hull b.first)
  | none => filesDiffer

/-- A closed block before others is forgotten. -/
theorem ofBlocks_cons {b : Block} (h : b.closing.isSome) (bs : List Block) :
    ofBlocks (b :: bs) = ofBlocks bs := by
  unfold ofBlocks
  cases bs with
  | nil => simp [h]
  | cons c bs => rw [List.getLast?_cons_cons]

/-- **Joining extents along their blocks.**  By induction along the cut: the run of the
first block is joined to its hull, the extent that closes it leaves a note, and the
unknown span that this results in is absorbed by the next block. -/
theorem joinAll_map_real {es : List Extent} (h : es ≠ []) :
    joinAll (es.map real) =
      ⟨(Block.cut es).filterMap Block.note?, .ok (ofBlocks (Block.cut es))⟩ := by
  fun_induction Block.cut es with
  | case1 => exact absurd rfl h
  | case2 first rest hdrop =>
    rw [joinAll_run, hdrop]
    rfl
  | case3 first rest closing after hdrop ih =>
    have hne : ((rest.takeWhile (Block.sameFile first)).foldl Extent.hull first).file ≠
        closing.file := by
      rw [Extent.file_foldl_hull]
      exact (Block.file_ne_of_dropWhile hdrop).symm
    -- what follows is joined from an unknown span, as if nothing came before
    have hafter : joinFrom filesDiffer (after.map real) =
        ⟨(Block.cut after).filterMap Block.note?, .ok (ofBlocks (Block.cut after))⟩ := by
      by_cases hnil : after = []
      · rw [hnil, Block.cut]
        rfl
      · rw [filesDiffer, joinFrom_unknown hnil, ih hnil]
    rw [joinAll_run, hdrop, List.map_cons, joinFrom_cons, join_real_of_ne hne,
      Logged.bind_of_ok rfl, Extent.file_foldl_hull, ofBlocks_cons rfl, hafter]
    rfl

/-! ## Joining any spans -/

/-- The extents among spans. -/
def extents (spans : List Span) : List Extent := spans.filterMap extent?

/-- Unknown spans do not matter to a join of which at least one span is known. -/
theorem joinAll_extents {spans : List Span} (h : extents spans ≠ []) :
    joinAll spans = joinAll ((extents spans).map real) := by
  cases spans with
  | nil => exact absurd rfl h
  | cons first rest =>
    show joinFrom first rest = _
    rw [joinFrom_filterMap]
    cases first with
    | unknown reason => exact joinFrom_unknown h reason
    | real e => rfl

/-- Where no span is known, the first is the join. -/
theorem joinAll_of_extents_eq_nil {spans : List Span} (h : extents spans = [])
    (hne : spans ≠ []) : joinAll spans = pure (spans.head hne) := by
  cases spans with
  | nil => exact absurd rfl hne
  | cons first rest =>
    have hrest : rest.filterMap extent? = [] := by
      rw [List.filterMap_eq_nil_iff]
      exact fun s hs => List.filterMap_eq_nil_iff.mp h s (List.mem_cons_of_mem first hs)
    show joinFrom first rest = _
    rw [joinFrom_filterMap, hrest]
    rfl

/-- **The exact meaning of a join across files.**  The extents among the spans are cut into
blocks from the left: the blocks are these extents, and all but the last are closed, which
leaves no other cut.  Without a known span the result is the first span.  Otherwise there is a
last block, and the result is its hull if it is open and unknown if it is closed.  The notes
are one for each closed block, in order.  Unknown spans change neither. -/
theorem joinAll_blocks (spans : List Span) (hne : spans ≠ []) :
    (∀ bs, bs = Block.cut (extents spans) ↔
        bs.flatMap Block.members = extents spans ∧ ∀ b ∈ bs.dropLast, b.closing.isSome) ∧
      (extents spans = [] → (joinAll spans).result = .ok (spans.head hne)) ∧
      (extents spans ≠ [] → ∃ b ∈ (Block.cut (extents spans)).getLast?,
        (b.closing = none →
          ∃ e, (joinAll spans).result = .ok (real e) ∧ e.IsHullOf b.run) ∧
        (b.closing ≠ none →
          (joinAll spans).result = .ok (unknown "<combine_spans: files differ>"))) ∧
      (joinAll spans).notes = (Block.cut (extents spans)).filterMap Block.note? ∧
      ∀ others, extents others = extents spans → extents spans ≠ [] →
        joinAll others = joinAll spans := by
  refine ⟨fun _ => Block.eq_cut_iff, ?_⟩
  by_cases hnone : extents spans = []
  · have hjoin := joinAll_of_extents_eq_nil hnone hne
    rw [hnone, Block.cut, hjoin]
    exact ⟨fun _ => rfl, fun h => absurd rfl h, rfl, fun _ _ h => absurd rfl h⟩
  · have hjoin := (joinAll_extents hnone).trans (joinAll_map_real hnone)
    refine ⟨fun h => absurd h hnone, fun _ => ?_, congrArg Logged.notes hjoin,
      fun others hothers _ => ?_⟩
    · have hblocks := Block.cut_ne_nil hnone
      have hlast := List.getLast_mem_getLast? hblocks
      have hresult : (joinAll spans).result = .ok (ofBlocks (Block.cut (extents spans))) :=
        congrArg Logged.result hjoin
      refine ⟨(Block.cut (extents spans)).getLast hblocks, hlast, ?_⟩
      rw [hresult, ofBlocks, Option.mem_def.mp hlast]
      generalize (Block.cut (extents spans)).getLast hblocks = b
      constructor
      · intro hopen
        refine ⟨b.more.foldl Extent.hull b.first, by simp [hopen], ?_⟩
        exact (Extent.isHullOf_singleton b.first).foldl_hull b.same_file
      · intro hclosed
        simp [Option.isSome_iff_ne_none.mpr hclosed, filesDiffer]
    · rw [joinAll_extents (hothers ▸ hnone), hothers, ← joinAll_extents hnone]

/-- Extents of two files close a block, and the third file is joined by itself. -/
theorem joinAll_three_files :
    let a : Extent := ⟨"a", ⟨1, 1⟩, ⟨1, 9⟩, by decide⟩
    let b : Extent := ⟨"b", ⟨4, 1⟩, ⟨5, 2⟩, by decide⟩
    let c : Extent := ⟨"c", ⟨7, 3⟩, ⟨7, 8⟩, by decide⟩
    let spans := [unknown "", real a, real b, unknown "none", real c]
    spans ≠ [] ∧
      Block.cut (extents spans) =
        [⟨a, [], some b, by decide, by decide⟩, ⟨c, [], none, by decide, by decide⟩] ∧
      (joinAll spans).notes = [.filesDiffer "a" "b"] ∧
      joinAll [real a, real b, real c] = joinAll spans ∧
      (joinAll spans).result = .ok (real c) := by
  intro a b c spans
  have hne : spans ≠ [] := List.cons_ne_nil _ _
  obtain ⟨hcut, -, -, hnotes, hunknown⟩ := joinAll_blocks spans hne
  have hblocks := ((hcut [⟨a, [], some b, by decide, by decide⟩,
    ⟨c, [], none, by decide, by decide⟩]).mpr ⟨rfl, by decide⟩).symm
  refine ⟨hne, hblocks, ?_, hunknown [real a, real b, real c] rfl (List.cons_ne_nil _ _), rfl⟩
  rw [hnotes, hblocks]
  rfl

end Span
end SourceLayout
