import Mathlib.Logic.Function.Basic
import SourceLayout.Proofs.Text.Lines

/-! # Decimal numerals

The numeral of an integer is made of digits, with a minus sign in front if the integer is
negative.  So different integers have different numerals, and the only place for a dash in a
numeral is the first one.  A dash that stands behind a numeral is therefore told from the
sign of a numeral.
-/
namespace SourceLayout.Text

/-- The characters of the numeral of an integer. -/
def numeral (n : Int) : List Char := (toString n).toList

theorem numeral_ofNat (n : Nat) : numeral (Int.ofNat n) = Nat.toDigits 10 n := Nat.toList_repr

theorem numeral_negSucc (n : Nat) : numeral (Int.negSucc n) = '-' :: Nat.toDigits 10 (n + 1) :=
  (String.toList_append).trans (congrArg (['-'] ++ ·) Nat.toList_repr)

/-! ## Digits -/

theorem notMem_toDigits {c : Char} (h : c.isDigit = false) (n : Nat) : c ∉ Nat.toDigits 10 n := by
  intro hc
  have hdigit := Nat.isDigit_of_mem_toDigits (by decide) (by decide) hc
  rw [h] at hdigit
  cases hdigit

theorem toDigits_injective : Function.Injective (Nat.toDigits 10) := by
  intro m n h
  have hvalue := congrArg (fun digits => Nat.ofDigitChars 10 digits 0) h
  simpa only [Nat.ofDigitChars_ten_toDigits] using hvalue

/-! ## Signs -/

theorem numeral_injective : Function.Injective numeral := by
  have hsign : ∀ m n : Nat, numeral (Int.ofNat m) ≠ numeral (Int.negSucc n) := by
    intro m n h
    rw [numeral_ofNat, numeral_negSucc] at h
    exact notMem_toDigits (c := '-') (by decide) m (h ▸ List.mem_cons_self)
  intro m n h
  cases m with
  | ofNat m =>
    cases n with
    | ofNat n =>
      rw [numeral_ofNat, numeral_ofNat] at h
      exact congrArg Int.ofNat (toDigits_injective h)
    | negSucc n => exact absurd h (hsign m n)
  | negSucc m =>
    cases n with
    | ofNat n => exact absurd h.symm (hsign n m)
    | negSucc n =>
      rw [numeral_negSucc, numeral_negSucc] at h
      exact congrArg Int.negSucc (Nat.succ.inj (toDigits_injective (List.cons.inj h).2))

theorem colon_notMem_numeral (n : Int) : ':' ∉ numeral n := by
  cases n with
  | ofNat n =>
    rw [numeral_ofNat]
    exact notMem_toDigits (by decide) n
  | negSucc n =>
    rw [numeral_negSucc, List.mem_cons, not_or]
    exact ⟨by decide, notMem_toDigits (by decide) (n + 1)⟩

/-- A numeral has a first character, and no dash behind it. -/
theorem exists_numeral_eq_cons (n : Int) : ∃ c rest, numeral n = c :: rest ∧ '-' ∉ rest := by
  cases n with
  | ofNat n =>
    obtain ⟨c, rest, hdigits⟩ := List.exists_cons_of_ne_nil (Nat.toDigits_ne_nil (n := n) (b := 10))
    have hdash : '-' ∉ c :: rest := hdigits ▸ notMem_toDigits (by decide) n
    exact ⟨c, rest, (numeral_ofNat n).trans hdigits, fun h => hdash (List.mem_cons_of_mem c h)⟩
  | negSucc n => exact ⟨'-', _, numeral_negSucc n, notMem_toDigits (by decide) (n + 1)⟩

/-- A dash ends a numeral. -/
theorem numeral_append_dash_inj {m n : Int} {r s : List Char}
    (h : numeral m ++ '-' :: r = numeral n ++ '-' :: s) : m = n ∧ r = s := by
  obtain ⟨c, restM, hm, hdashM⟩ := exists_numeral_eq_cons m
  obtain ⟨d, restN, hn, hdashN⟩ := exists_numeral_eq_cons n
  rw [hm, hn, List.cons_append, List.cons_append] at h
  obtain ⟨hfirst, hrest⟩ := List.cons.inj h
  obtain ⟨hrest, hbehind⟩ := append_cons_inj_of_notMem hdashM hdashN hrest
  refine ⟨numeral_injective ?_, hbehind⟩
  rw [hm, hn, hfirst, hrest]

/-- A numeral has no dash behind a numeral in it. -/
theorem numeral_append_dash_ne (m n : Int) (r : List Char) : numeral m ++ '-' :: r ≠ numeral n := by
  intro h
  obtain ⟨c, restM, hm, -⟩ := exists_numeral_eq_cons m
  obtain ⟨d, restN, hn, hdashN⟩ := exists_numeral_eq_cons n
  rw [hm, hn, List.cons_append] at h
  apply hdashN
  rw [← (List.cons.inj h).2, List.mem_append]
  exact Or.inr List.mem_cons_self

end SourceLayout.Text
