import SourceLayout.Random.Twister

/-! # What can be drawn

A result is possible if some answers lead to it, each within the range that was asked for.
`Draw.answered` runs a computation on a given list of answers, and `possible_iff_answered`
says that the two notions are one.  So a law of the possible results is a law of every
sequence of draws; the draws of a seeded generator are one of them (`possible_seeded`).

A composite is inverted part by part: each result of it comes from results of its parts
(`possible_map`, `possible_times`).
-/
namespace SourceLayout.Draw

variable {α β : Type}

/-- Go on with the first answer, if there is one and it is below the bound. -/
def withFirst (bound : Nat) (next : Fin bound → List Nat → Option α) : List Nat → Option α
  | [] => none
  | i :: rest => if h : i < bound then next ⟨i, h⟩ rest else none

/-- The result of a computation when its draws are answered from a list, if the list is long
enough and every answer is in range. -/
def answered : Draw α → List Nat → Option α
  | done a => fun _ => some a
  | index bound _ next => withFirst bound fun i => (next i).answered
  | fraction next => withFirst fractionSteps fun i => (next i).answered

theorem exists_withFirst_iff {bound : Nat} {next : Fin bound → List Nat → Option α} {a : α} :
    (∃ answers, withFirst bound next answers = some a) ↔ ∃ i answers, next i answers = some a := by
  constructor
  · rintro ⟨_ | ⟨i, rest⟩, h⟩
    · cases h
    · rw [withFirst] at h
      split at h
      · next hi => exact ⟨⟨i, hi⟩, rest, h⟩
      · cases h
  · rintro ⟨i, answers, h⟩
    exact ⟨i.val :: answers, (dif_pos i.isLt).trans h⟩

/-- **A result is possible exactly if some answers in range lead to it.** -/
theorem possible_iff_answered {x : Draw α} {a : α} :
    x.Possible a ↔ ∃ answers, x.answered answers = some a := by
  induction x with
  | done b =>
    constructor
    · rintro rfl
      exact ⟨[], rfl⟩
    · rintro ⟨answers, h⟩
      exact (Option.some.inj h).symm
  | index bound pos next ih =>
    rw [answered, exists_withFirst_iff]
    exact exists_congr ih
  | fraction next ih =>
    rw [answered, exists_withFirst_iff]
    exact exists_congr ih

/-- What a seeded generator draws is possible. -/
theorem possible_seeded (x : Draw α) (seed : Int) : x.Possible (x.seeded seed) :=
  Twister.possible_run x (Twister.ofSeed seed)

theorem map_eq_bind (f : α → β) (x : Draw α) : f <$> x = x >>= fun a => pure (f a) := rfl

theorem possible_map {f : α → β} {x : Draw α} {b : β} :
    (f <$> x).Possible b ↔ ∃ a, x.Possible a ∧ b = f a := by
  rw [map_eq_bind, possible_bind]
  rfl

/-- The results of a repeated computation are as many as it was repeated. -/
theorem possible_times {n : Nat} {x : Draw α} {as : List α} :
    (times n x).Possible as ↔ as.length = n ∧ ∀ a ∈ as, x.Possible a := by
  induction n generalizing as with
  | zero =>
    rw [times, possible_pure, List.length_eq_zero_iff]
    exact ⟨by rintro rfl; simp, And.left⟩
  | succ n ih =>
    simp only [times, possible_bind, possible_pure, ih]
    constructor
    · rintro ⟨a, ha, rest, ⟨hlength, hrest⟩, rfl⟩
      exact ⟨congrArg (· + 1) hlength, List.forall_mem_cons.mpr ⟨ha, hrest⟩⟩
    · rintro ⟨hlength, has⟩
      obtain ⟨a, rest, rfl⟩ := List.exists_cons_of_length_eq_add_one hlength
      obtain ⟨ha, hrest⟩ := List.forall_mem_cons.mp has
      exact ⟨a, ha, rest, ⟨Nat.succ.inj hlength, hrest⟩, rfl⟩

end SourceLayout.Draw
