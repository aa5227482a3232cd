/-!
# Computations that draw at random

A random computation is a tree of choices: it is done, or it draws an index below a
bound, or a fraction between zero and one, and goes on from there.  The tree does
not say where the draws come from.  A generator runs it by answering each draw
(`Random.Twister`); and `Possible` says which results it has when every draw in
range is allowed, so what holds of the possible results holds for every generator.

A fraction is drawn as a number of equal steps, and only its whole tenths are used.
-/

namespace SourceLayout

/-- How many steps a fraction has: two to the power 53. -/
abbrev fractionSteps : Nat := 9007199254740992

/-- A computation that draws at random. -/
inductive Draw (α : Type) where
  /-- Nothing is left to draw. -/
  | done (a : α)
  /-- Draw an index below the bound. -/
  | index (bound : Nat) (pos : 0 < bound) (next : Fin bound → Draw α)
  /-- Draw the numerator of a fraction with the denominator `fractionSteps`. -/
  | fraction (next : Fin fractionSteps → Draw α)

namespace Draw

variable {α β : Type}

/-- Go on with the result of a computation. -/
def bind (x : Draw α) (f : α → Draw β) : Draw β :=
  match x with
  | done a => f a
  | index bound pos next => index bound pos fun i => (next i).bind f
  | fraction next => fraction fun i => (next i).bind f

instance : Monad Draw where
  pure := done
  bind := bind

/-! ## The draws that are used -/

/-- A number from `low` to `high`, both included. -/
def between (low high : Nat) : Draw Nat :=
  index (high - low + 1) (Nat.succ_pos _) fun i => done (low + i.val)

/-- One of the given alternatives. -/
def oneOf (first : α) (others : List α) : Draw α :=
  index (first :: others).length (Nat.succ_pos _) fun i => done (first :: others)[i]

/-- A fraction in whole tenths, rounded down. -/
def tenths : Draw Nat :=
  fraction fun i => done (10 * i.val / fractionSteps)

/-- Whether a fraction is less than `n` tenths. -/
def chance (n : Nat) : Draw Bool := do
  let t ← tenths
  pure (decide (t < n))

/-- A computation `n` times over, and all of its results in order. -/
def times (n : Nat) (x : Draw α) : Draw (List α) :=
  match n with
  | 0 => pure []
  | n + 1 => do
    let a ← x
    let rest ← times n x
    pure (a :: rest)

/-! ## Possible results -/

/-- Whether some draws in range lead to the result `b`. -/
def Possible : Draw α → α → Prop
  | done a, b => b = a
  | index _ _ next, b => ∃ i, (next i).Possible b
  | fraction next, b => ∃ i, (next i).Possible b

theorem pure_def (a : α) : (pure a : Draw α) = done a := rfl

theorem bind_def (x : Draw α) (f : α → Draw β) : x >>= f = x.bind f := rfl

@[simp] theorem possible_pure {a b : α} : (pure a : Draw α).Possible b ↔ b = a := Iff.rfl

/-- A result of a composite is a result of its second part after one of its first. -/
@[simp] theorem possible_bind {x : Draw α} {f : α → Draw β} {b : β} :
    (x >>= f).Possible b ↔ ∃ a, x.Possible a ∧ (f a).Possible b := by
  rw [bind_def]
  induction x with
  | done a => simp [bind, Possible]
  | index bound pos next ih =>
    simp only [bind, Possible, ih]
    exact ⟨fun ⟨i, a, h⟩ => ⟨a, ⟨i, h.1⟩, h.2⟩, fun ⟨a, ⟨i, h⟩, hb⟩ => ⟨i, a, h, hb⟩⟩
  | fraction next ih =>
    simp only [bind, Possible, ih]
    exact ⟨fun ⟨i, a, h⟩ => ⟨a, ⟨i, h.1⟩, h.2⟩, fun ⟨a, ⟨i, h⟩, hb⟩ => ⟨i, a, h, hb⟩⟩

/-- The possible numbers are those in range. -/
theorem possible_between {low high n : Nat} (h : low ≤ high) :
    (between low high).Possible n ↔ low ≤ n ∧ n ≤ high := by
  simp only [between, Possible]
  constructor
  · rintro ⟨i, rfl⟩
    omega
  · intro hn
    exact ⟨⟨n - low, by omega⟩, by simp; omega⟩

/-- The possible alternatives are those given. -/
theorem possible_oneOf {first a : α} {others : List α} :
    (oneOf first others).Possible a ↔ a ∈ first :: others := by
  simp only [oneOf, Possible]
  constructor
  · rintro ⟨i, rfl⟩
    exact List.getElem_mem _
  · intro h
    obtain ⟨i, hi, rfl⟩ := List.getElem_of_mem h
    exact ⟨⟨i, hi⟩, rfl⟩

end Draw

end SourceLayout
