import SourceLayout.Proofs.Paragraph.Neighbours

/-! # Paragraphs are determined by the blank lines

The paragraphs of a list are the only way to cut it so that no blank line is inside a group
and one is between each group and the next (`IsPartition`, `isPartition_iff`).

They can be found from either end.  `paragraphs` begins with the last item and puts each item
before the groups of those behind it.  A reader of a text begins with the first item and keeps
the groups of what was read: the next item joins the last of them, or opens a new one
(`placeAfter`).  What is kept is at every moment the partition of what was read
(`placeAfter_partition`), so in the end the groups are the same, and so are the notes
(`foldlM_placeAfter`).
-/
namespace SourceLayout

variable {α : Type} (loc : α → Span)

/-- A group with no blank line inside. -/
def Unbroken (group : List α) : Prop :=
  ∀ p ∈ adjacent group, (separatedGroups loc [p.1] [p.2]).result = .ok false

instance (group : List α) : Decidable (Unbroken loc group) :=
  inferInstanceAs (Decidable (∀ p ∈ adjacent group, _))

/-- A blank line is between two groups: between the last item of the first and the first item
of the second. -/
def BrokenBetween (a b : List α) : Prop :=
  ∃ x ∈ a.getLast?, ∃ y ∈ b.head?, (separatedGroups loc [x] [y]).result = .ok true

/-- A cut of a list into groups that are not empty, with a blank line between each and the
next and none inside a group. -/
structure IsPartition (xs : List α) (groups : List (List α)) : Prop where
  flatten_eq : groups.flatten = xs
  ne_nil : ∀ group ∈ groups, group ≠ []
  unbroken : ∀ group ∈ groups, Unbroken loc group
  broken_between : ∀ p ∈ adjacent groups, BrokenBetween loc p.1 p.2

theorem result_separatedGroups_eq_iff {x y : α} {b : Bool} :
    (separatedGroups loc [x] [y]).result = .ok b ↔ (loc x).blankBetween (loc y) = b := by
  rw [separatedGroups_singleton, Span.result_separated]
  exact ⟨Except.ok.inj, congrArg Except.ok⟩

theorem unbroken_iff {group : List α} :
    Unbroken loc group ↔ group.IsChain fun x y => !(loc x).blankBetween (loc y) := by
  rw [isChain_iff_forall_mem_adjacent, Unbroken]
  simp only [result_separatedGroups_eq_iff, Bool.not_eq_true']

/-- In these words neighbouring paragraphs were found to be apart. -/
theorem brokenBetween_iff_apart {a b : List α} : BrokenBetween loc a b ↔ Apart loc a b := by
  unfold BrokenBetween Apart
  simp only [result_separatedGroups_eq_iff]

/-- **There is one such cut**, and it is the partition. -/
theorem isPartition_iff {xs : List α} {groups : List (List α)} :
    IsPartition loc xs groups ↔ groups = partition loc xs := by
  constructor
  · rintro ⟨rfl, hne, hunbroken, hbroken⟩
    refine (List.splitBy_flatten (fun hnil => hne [] hnil rfl) (fun group hgroup => ?_) ?_).symm
    · exact (unbroken_iff loc).mp (hunbroken group hgroup)
    · rw [isChain_iff_forall_mem_adjacent]
      intro p hp
      obtain ⟨x, hx, y, hy, h⟩ := (brokenBetween_iff_apart loc).mp (hbroken p hp)
      obtain ⟨ha, rfl⟩ := List.mem_getLast?_eq_getLast hx
      have hb : p.2 ≠ [] := fun he => by rw [he] at hy; cases hy
      rw [← List.head_of_mem_head? hy] at h
      exact ⟨ha, hb, (Bool.not_eq_false' _).mpr h⟩
  · rintro rfl
    refine ⟨flatten_partition loc xs, fun group => ne_nil_of_mem_partition loc,
      fun group hgroup => (unbroken_iff loc).mpr (List.isChain_of_mem_splitBy hgroup), ?_⟩
    intro p hp
    exact (brokenBetween_iff_apart loc).mpr
      (isChain_iff_forall_mem_adjacent.mp (isChain_apart_partition loc xs) p hp)

instance [DecidableEq α] (xs : List α) (groups : List (List α)) :
    Decidable (IsPartition loc xs groups) :=
  decidable_of_iff _ (isPartition_iff loc).symm

/-! ## From the first item to the last -/

/-- Groups with one more item behind them: in the last group, or, if a blank line separates it
from that group, in a group of its own. -/
def placeAfter (groups : List (List α)) (y : α) : Logged (List (List α)) :=
  match groups.getLast? with
  | none => pure [[y]]
  | some last => do
    let separate ← separatedGroups loc last [y]
    pure (if separate then groups ++ [[y]] else groups.dropLast ++ [last ++ [y]])

/-- The last paragraph ends with the last item. -/
theorem exists_partition_eq {xs : List α} {x : α} (hx : x ∈ xs.getLast?) :
    ∃ before last, partition loc xs = before ++ [last] ∧ x ∈ last.getLast? := by
  rcases List.eq_nil_or_concat' (partition loc xs) with hnil | ⟨before, last, hpart⟩
  · rw [(partition_eq_nil_iff loc).mp hnil] at hx
    cases hx
  · have hlast : last ≠ [] := ne_nil_of_mem_partition loc (hpart ▸ List.mem_concat_self)
    refine ⟨before, last, hpart, ?_⟩
    rwa [← flatten_partition loc xs, hpart, List.flatten_concat,
      List.getLast?_append_of_ne_nil _ hlast] at hx

/-- Where a blank line separates them, a further item opens a paragraph of its own. -/
theorem partition_concat_of_blankBetween {xs : List α} {x y : α} (hx : x ∈ xs.getLast?)
    (h : (loc x).blankBetween (loc y) = true) :
    partition loc (xs ++ [y]) = partition loc xs ++ [[y]] := by
  refine List.splitBy_append fun z hz w hw => ?_
  obtain rfl := Option.mem_unique hx hz
  obtain rfl := Option.some.inj hw
  exact (Bool.not_eq_false' _).mpr h

/-- Elsewhere it joins the last paragraph. -/
theorem partition_concat_of_not_blankBetween {xs last : List α} {before : List (List α)}
    {x y : α} (hpart : partition loc xs = before ++ [last]) (hx : x ∈ last.getLast?)
    (h : (loc x).blankBetween (loc y) = false) :
    partition loc (xs ++ [y]) = before ++ [last ++ [y]] := by
  obtain ⟨hflat, hne, hunbroken, hbroken⟩ := (isPartition_iff loc).mpr hpart.symm
  have hlast : last ≠ [] := fun he => by rw [he] at hx; cases hx
  rw [eq_comm, ← isPartition_iff]
  refine ⟨?_, ?_, ?_, ?_⟩
  · rw [← hflat]
    simp
  · intro group hgroup
    rcases List.mem_append.mp hgroup with hgroup | hgroup
    · exact hne group (List.mem_append_left _ hgroup)
    · rw [List.mem_singleton.mp hgroup]
      exact List.append_ne_nil_of_right_ne_nil last (List.cons_ne_nil y [])
  · intro group hgroup
    rcases List.mem_append.mp hgroup with hgroup | hgroup
    · exact hunbroken group (List.mem_append_left _ hgroup)
    · have hchain := (unbroken_iff loc).mp (hunbroken last List.mem_concat_self)
      rw [List.mem_singleton.mp hgroup, unbroken_iff]
      refine hchain.append (List.isChain_singleton y) fun z hz w hw => ?_
      obtain rfl := Option.mem_unique hx hz
      obtain rfl := Option.some.inj hw
      rw [h]
      rfl
  · -- the last group still begins with the item that it began with
    rw [← isChain_iff_forall_mem_adjacent (r := BrokenBetween loc), List.isChain_append] at hbroken ⊢
    obtain ⟨hbefore, -, hbetween⟩ := hbroken
    refine ⟨hbefore, List.isChain_singleton _, fun a ha b hb => ?_⟩
    obtain rfl := Option.some.inj hb
    obtain ⟨z, hz, w, hw, hzw⟩ := hbetween a ha last rfl
    exact ⟨z, hz, w, List.mem_head?_append_of_mem_head? hw, hzw⟩

/-- **One more item.**  Groups that are the partition of what was read become the partition of
what was read and the next item. -/
theorem placeAfter_partition (xs : List α) (y : α) :
    placeAfter loc (partition loc xs) y =
      ⟨(adjacent (xs.getLast?.toList ++ [y])).flatMap
          fun p => ((loc p.1).separated (loc p.2)).notes,
        .ok (partition loc (xs ++ [y]))⟩ := by
  cases hx : xs.getLast? with
  | none =>
    rw [List.getLast?_eq_none_iff.mp hx]
    rfl
  | some x =>
    obtain ⟨before, last, hpart, hlast⟩ := exists_partition_eq loc hx
    have hask : separatedGroups loc last [y] = (loc x).separated (loc y) := by
      rw [separatedGroups, Option.mem_def.mp hlast]
      rfl
    rw [placeAfter, hpart, List.getLast?_concat, List.dropLast_concat]
    simp only
    rw [hask, Logged.bind_of_ok (Span.result_separated _ _)]
    cases hblank : (loc x).blankBetween (loc y) with
    | true =>
      rw [partition_concat_of_blankBetween loc hx hblank, hpart]
      simp
    | false =>
      rw [partition_concat_of_not_blankBetween loc hpart hlast hblank]
      simp

/-- Reading on from the partition of what was read. -/
theorem foldlM_placeAfter_partition (xs ys : List α) :
    ys.foldlM (placeAfter loc) (partition loc xs) =
      ⟨(adjacent (xs.getLast?.toList ++ ys)).flatMap
          fun p => ((loc p.1).separated (loc p.2)).notes,
        .ok (partition loc (xs ++ ys))⟩ := by
  induction ys generalizing xs with
  | nil =>
    rw [List.append_nil, List.append_nil]
    cases xs.getLast? <;> rfl
  | cons y ys ih =>
    have hstep := placeAfter_partition loc xs y
    rw [List.foldlM_cons, hstep, Logged.bind_of_ok rfl, ih (xs ++ [y]), List.append_assoc,
      List.getLast?_concat]
    cases xs.getLast? with
    | none => rfl
    | some x => simp

/-- **Reading from the first item on finds the paragraphs**, and notes the same. -/
theorem foldlM_placeAfter (xs : List α) : xs.foldlM (placeAfter loc) [] = paragraphs loc xs := by
  have hread := foldlM_placeAfter_partition loc [] xs
  apply Logged.ext
  · exact (congrArg Logged.notes hread).trans (notes_paragraphs loc xs).symm
  · exact (congrArg Logged.result hread).trans (result_paragraphs loc xs).symm

/-- **The paragraphs of a list are the one partition of it at its blank lines.**  The search for
them cannot fail, reading the items from the first on comes to the same groups, and one note
is left for each pair of neighbours with an unknown span. -/
theorem paragraphs_unique (xs : List α) :
    (∃ groups, (paragraphs loc xs).result = .ok groups ∧
        ∀ other, IsPartition loc xs other ↔ other = groups) ∧
      (paragraphs loc xs).notes = List.replicate (unseenGaps loc xs) .gapUnknown ∧
      xs.foldlM (placeAfter loc) [] = paragraphs loc xs :=
  ⟨⟨partition loc xs, result_paragraphs loc xs, fun _ => isPartition_iff loc⟩,
    notes_paragraphs_eq_replicate loc xs, foldlM_placeAfter loc xs⟩

/-- A column of a file for each line number, and no place without one. -/
def lineSpan : Option Int → Span
  | some line => .real ⟨"M", ⟨line, 1⟩, ⟨line, 1⟩, Or.inr ⟨rfl, Int.le_refl 1⟩⟩
  | none => .unknown ""

/-- An item without a place belongs to its neighbours, and so does one further up. -/
theorem paragraphs_unique_scatteredItems :
    (paragraphs lineSpan [some 1, none, some 9, some 3, some 5, some 6, none]).result =
        .ok [[some 1, none, some 9, some 3], [some 5, some 6, none]] ∧
      (paragraphs lineSpan [some 1, none, some 9, some 3, some 5, some 6, none]).notes =
        [.gapUnknown, .gapUnknown, .gapUnknown] := by
  obtain ⟨⟨groups, hgroups, hunique⟩, hnotes, -⟩ :=
    paragraphs_unique lineSpan [some 1, none, some 9, some 3, some 5, some 6, none]
  have heq := (hunique [[some 1, none, some 9, some 3], [some 5, some 6, none]]).mp (by decide)
  exact ⟨heq ▸ hgroups, hnotes⟩

end SourceLayout
