import Mathlib.Data.List.SplitBy
import SourceLayout.Paragraph

/-! # Paragraphs as a partition

Leaving the notes aside, the paragraphs of a list are its runs of neighbours that no
blank line separates: `partition` says so with `List.splitBy`, and `result_paragraphs`
that this is what the search for paragraphs results in, for all items.  The same
partition is found item by item from the end (`partition_cons_cons`), which is the form
that inductions over the items use.

Since neighbouring paragraphs are always separated, writing them down puts exactly one
empty line between each and the next (`layParagraphs_partition`).
-/
namespace SourceLayout

/-- Where a blank line is seen, nothing is noted. -/
theorem Span.separated_of_blankBetween {a b : Span} (h : a.blankBetween b = true) :
    a.separated b = pure true := by
  unfold Span.blankBetween at h
  unfold Span.separated
  cases hgap : a.gap? b with
  | none =>
    rw [hgap] at h
    cases h
  | some lines =>
    rw [hgap] at h
    exact congrArg pure h

theorem map_placeBefore {α β : Type} (f : α → β) (x : α) (separate : Bool)
    (groups : List (List α)) :
    (placeBefore x separate groups).map (List.map f) =
      placeBefore (f x) separate (groups.map (List.map f)) := by
  cases groups with
  | nil => rfl
  | cons group groups => cases separate <;> rfl

variable {α : Type} (loc : α → Span)

/-- The items in runs of neighbours without a blank line between them. -/
def partition (xs : List α) : List (List α) :=
  xs.splitBy fun x y => !(loc x).blankBetween (loc y)

@[simp] theorem partition_singleton (x : α) : partition loc [x] = [[x]] := rfl

@[simp] theorem flatten_partition (xs : List α) : (partition loc xs).flatten = xs :=
  List.flatten_splitBy _ xs

theorem ne_nil_of_mem_partition {xs group : List α} (h : group ∈ partition loc xs) :
    group ≠ [] :=
  List.ne_nil_of_mem_splitBy h

theorem partition_eq_nil_iff {xs : List α} : partition loc xs = [] ↔ xs = [] :=
  List.splitBy_eq_nil

theorem mem_of_mem_partition {xs group : List α} {x : α} (hg : group ∈ partition loc xs)
    (hx : x ∈ group) : x ∈ xs := by
  rw [← flatten_partition loc xs]
  exact List.mem_flatten.mpr ⟨group, hg, hx⟩

/-- Whether a blank line separates the last item of one group from the first of another. -/
def Apart (a b : List α) : Prop :=
  ∃ x ∈ a.getLast?, ∃ y ∈ b.head?, (loc x).blankBetween (loc y) = true

/-- Neighbouring paragraphs are separated. -/
theorem isChain_apart_partition (xs : List α) : (partition loc xs).IsChain (Apart loc) := by
  refine (List.isChain_getLast_head_splitBy _ xs).imp fun a b ⟨ha, hb, h⟩ => ?_
  exact ⟨a.getLast ha, List.getLast_mem_getLast? ha, b.head hb, List.head_mem_head? hb,
    Bool.not_eq_false' _ |>.mp h⟩

/-- The first item joins the paragraph of the second, unless a blank line separates the
two. -/
theorem partition_cons_cons (x y : α) (rest : List α) :
    partition loc (x :: y :: rest) =
      placeBefore x ((loc x).blankBetween (loc y)) (partition loc (y :: rest)) := by
  cases hpart : partition loc (y :: rest) with
  | nil => exact absurd ((partition_eq_nil_iff loc).mp hpart) (List.cons_ne_nil y rest)
  | cons group groups =>
    obtain ⟨hflat, hnil, hchain, hapart⟩ := List.splitBy_eq_iff.mp hpart
    cases group with
    | nil => exact absurd List.mem_cons_self hnil
    | cons z group =>
      -- the first paragraph begins with the first item
      rw [List.flatten_cons, List.cons_append] at hflat
      obtain ⟨rfl, hrest⟩ := List.cons.inj hflat
      cases hsep : (loc x).blankBetween (loc y) with
      | true =>
        have hsplit := List.splitBy_append (l := [x]) (m := y :: rest)
          (r := fun x y => !(loc x).blankBetween (loc y)) (by simpa using hsep)
        exact hsplit.trans (congrArg ([x] :: ·) hpart)
      | false =>
        show partition loc (x :: y :: rest) = (x :: y :: group) :: groups
        refine List.splitBy_eq_iff.mpr ⟨by simp [hrest], ?_, ?_, ?_⟩
        · simpa using hnil
        · intro g hg
          rcases List.mem_cons.mp hg with rfl | hg
          · exact List.IsChain.cons_cons (by simp [hsep]) (hchain _ List.mem_cons_self)
          · exact hchain g (List.mem_cons_of_mem _ hg)
        · rw [List.isChain_cons] at hapart ⊢
          refine ⟨fun b hb => ?_, hapart.2⟩
          obtain ⟨ha, hne, h⟩ := hapart.1 b hb
          refine ⟨List.cons_ne_nil _ _, hne, ?_⟩
          rw [List.getLast_cons ha]
          exact h

/-- **The search for paragraphs finds the partition**, whatever the spans are. -/
theorem result_paragraphs (xs : List α) : (paragraphs loc xs).result = .ok (partition loc xs) := by
  fun_induction paragraphs loc xs with
  | case1 => rfl
  | case2 x => rfl
  | case3 x y rest ih =>
    rw [separatedGroups_singleton, Logged.bind_of_ok (Span.result_separated _ _),
      Logged.bind_of_ok ih, partition_cons_cons]
    rfl

/-! ## Writing paragraphs down -/

variable (render : α → List String)

/-- Groups of which each is separated from the one before it, and none is empty, are
written with an empty line before each.  No note is left: where a blank line is seen, both
spans are known. -/
theorem layFrom_eq_pure {before : List α} {groups : List (List α)}
    (hne : ∀ group ∈ groups, group ≠ []) (h : (before :: groups).IsChain (Apart loc)) :
    layFrom loc render before groups =
      pure (groups.flatMap fun group => "" :: group.flatMap render) := by
  fun_induction layFrom loc render before groups with
  | case1 => rfl
  | case2 before groups ih => exact absurd rfl (hne [] List.mem_cons_self)
  | case3 before x xs groups ih =>
    obtain ⟨⟨a, ha, b, hb, hsep⟩, hrest⟩ := List.isChain_cons_cons.mp h
    have hgroups := ih (fun group hg => hne group (List.mem_cons_of_mem _ hg)) hrest
    have hsepr : separatedGroups loc before (x :: xs) = pure true := by
      rw [separatedGroups, Option.mem_def.mp ha, Option.mem_def.mp hb]
      exact Span.separated_of_blankBetween hsep
    rw [hsepr, Logged.pure_bind, hgroups, Logged.pure_bind]
    rfl

/-- Groups with a member between each and the next, read from the first group on. -/
theorem intercalate_blank_cons {β : Type} (blank : β) (first : List β) (rest : List (List β)) :
    [blank].intercalate (first :: rest) = first ++ rest.flatMap (blank :: ·) := by
  induction rest generalizing first with
  | nil => simp
  | cons second rest ih => rw [List.intercalate_cons_cons, ih]; simp

theorem mem_intercalate_blank {β : Type} {blank x : β} {groups : List (List β)}
    (h : x ∈ [blank].intercalate groups) : x = blank ∨ ∃ group ∈ groups, x ∈ group := by
  cases groups with
  | nil => cases h
  | cons first rest =>
    rw [intercalate_blank_cons, List.mem_append, List.mem_flatMap] at h
    rcases h with h | ⟨group, hgroup, h⟩
    · exact Or.inr ⟨first, List.mem_cons_self, h⟩
    · rcases List.mem_cons.mp h with rfl | h
      · exact Or.inl rfl
      · exact Or.inr ⟨group, List.mem_cons_of_mem first hgroup, h⟩

/-- Closing each group with a member is putting it between the groups and after the
last. -/
theorem flatMap_concat_cons {β : Type} (blank : β) (first : List β) (rest : List (List β)) :
    (first :: rest).flatMap (· ++ [blank]) = [blank].intercalate (first :: rest) ++ [blank] := by
  induction rest generalizing first with
  | nil => simp
  | cons second rest ih => rw [List.flatMap_cons, ih, List.intercalate_cons_cons]; simp

/-- **The paragraphs of a list are written with one empty line between each and the
next**, and without a note. -/
theorem layParagraphs_partition (xs : List α) :
    layParagraphs loc render (partition loc xs) =
      pure ([""].intercalate ((partition loc xs).map fun group => group.flatMap render)) := by
  cases hpart : partition loc xs with
  | nil => rfl
  | cons group groups =>
    have hne : ∀ g ∈ group :: groups, g ≠ [] :=
      fun g hg => ne_nil_of_mem_partition loc (hpart ▸ hg)
    cases group with
    | nil => exact absurd rfl (hne [] List.mem_cons_self)
    | cons x group =>
      have hlay := layFrom_eq_pure loc render
        (fun g hg => hne g (List.mem_cons_of_mem _ hg)) (hpart ▸ isChain_apart_partition loc xs)
      rw [layParagraphs, hlay, Logged.pure_bind, List.map_cons, intercalate_blank_cons,
        List.flatMap_map]

end SourceLayout
