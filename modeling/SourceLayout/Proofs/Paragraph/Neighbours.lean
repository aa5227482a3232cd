import SourceLayout.Proofs.Paragraph.Partition

/-! # Neighbours in a list

Whether a blank line separates two items is only ever asked of **neighbours**, items of
which one follows the other (`adjacent`).  The search for paragraphs asks it once of each
two of them, from the first to the last, and notes what the questions note
(`notes_paragraphs`): one remark for each two neighbours with an unknown span
(`notes_paragraphs_eq_replicate`).
-/
namespace SourceLayout

section
variable {α : Type}

/-- The pairs of neighbours in a list. -/
def adjacent (xs : List α) : List (α × α) := xs.zip xs.tail

@[simp] theorem adjacent_nil : adjacent ([] : List α) = [] := rfl

@[simp] theorem adjacent_singleton (x : α) : adjacent [x] = [] := rfl

@[simp] theorem adjacent_cons_cons (x y : α) (rest : List α) :
    adjacent (x :: y :: rest) = (x, y) :: adjacent (y :: rest) := rfl

theorem adjacent_map {β : Type} (f : α → β) (xs : List α) :
    adjacent (xs.map f) = (adjacent xs).map (Prod.map f f) := by
  rw [adjacent, adjacent, ← List.map_tail, List.zip_map]

theorem mem_of_mem_adjacent {xs : List α} {x y : α} (h : (x, y) ∈ adjacent xs) :
    x ∈ xs ∧ y ∈ xs :=
  ⟨(List.of_mem_zip h).1, List.mem_of_mem_tail (List.of_mem_zip h).2⟩

/-- A chain is a list of which every two neighbours are related. -/
theorem isChain_iff_forall_mem_adjacent {r : α → α → Prop} {xs : List α} :
    xs.IsChain r ↔ ∀ p ∈ adjacent xs, r p.1 p.2 := by
  induction xs with
  | nil => simp
  | cons x xs ih =>
    cases xs with
    | nil => simp
    | cons y rest => rw [List.isChain_cons_cons, ih, adjacent_cons_cons, List.forall_mem_cons]

end

/-! ## What is noted about neighbours -/

namespace Span

/-- A gap is seen if both spans beside it are known. -/
theorem isNone_gap? (a b : Span) :
    (gap? a b).isNone = (a.extent?.isNone || b.extent?.isNone) := by
  cases a <;> cases b <;> rfl

/-- Nothing is noted about two known spans. -/
theorem notes_separated_of_known {a b : Span} (ha : a.extent?.isSome = true)
    (hb : b.extent?.isSome = true) : (a.separated b).notes = [] := by
  obtain ⟨x, hx⟩ := Option.isSome_iff_exists.mp ha
  obtain ⟨y, hy⟩ := Option.isSome_iff_exists.mp hb
  rw [extent?_eq_some_iff.mp hx, extent?_eq_some_iff.mp hy]
  rfl

end Span

theorem flatMap_ite_eq_replicate {α β : Type} (p : α → Bool) (b : β) (xs : List α) :
    (xs.flatMap fun x => if p x then [b] else []) = List.replicate (xs.countP p) b := by
  induction xs with
  | nil => rfl
  | cons x xs ih =>
    rw [List.flatMap_cons, ih, List.countP_cons]
    by_cases h : p x = true
    · rw [if_pos h, if_pos h, List.replicate_succ]
      rfl
    · rw [if_neg h, if_neg h]
      rfl

section
variable {α : Type} (loc : α → Span)

/-- How many pairs of neighbours have an unknown span. -/
def unseenGaps (xs : List α) : Nat :=
  (adjacent xs).countP fun p => (loc p.1).extent?.isNone || (loc p.2).extent?.isNone

/-- The search for paragraphs notes what each question about two neighbours notes. -/
theorem notes_paragraphs (xs : List α) :
    (paragraphs loc xs).notes =
      (adjacent xs).flatMap fun p => ((loc p.1).separated (loc p.2)).notes := by
  fun_induction paragraphs loc xs with
  | case1 => rfl
  | case2 x => rfl
  | case3 x y rest ih =>
    rw [separatedGroups_singleton, Logged.bind_of_ok (Span.result_separated _ _),
      Logged.bind_of_ok (result_paragraphs loc (y :: rest)), ih, adjacent_cons_cons,
      List.flatMap_cons]
    exact congrArg (_ ++ ·) (List.append_nil _)

/-- It leaves one note for each pair of neighbours with an unknown span. -/
theorem notes_paragraphs_eq_replicate (xs : List α) :
    (paragraphs loc xs).notes = List.replicate (unseenGaps loc xs) .gapUnknown := by
  rw [notes_paragraphs, unseenGaps, ← flatMap_ite_eq_replicate]
  refine congrArg (List.flatMap · _) (funext fun p => ?_)
  rw [Span.notes_separated, Span.isNone_gap?]

end

end SourceLayout
