import Mathlib.Data.List.DropRight
import SourceLayout.Text.Lines

/-! # Cutting, joining and trimming lines, and indentation

Where two texts are equal as a whole, so are their parts, if both are cut at the same
place.  The place can be told by a property that the characters in front of it have and
the next one has not, or by the first or the last occurrence of a delimiter.

Splitting a text at its newlines and joining lines with newlines undo each other, as
long as no line holds a newline itself; and no line of a split text does.

A trimmed list ends in a member that fails the test, or is empty, and a list of this
form is left alone.  Both are facts about `List.rdropWhile`, which `dropTrailing` is.

An indented line is the line behind two spaces for each level, so indentation can be
taken off again, and an indented line shows how deep it is unless the line itself
begins with a space.
-/
namespace SourceLayout

/-! ## Cutting a list at a delimiter -/

section
variable {α : Type} {d : α} {as bs r s : List α}

/-- Lists are cut at the same place where their members stop having a property. -/
theorem append_inj_of_forall {p : α → Prop}
    (ha : ∀ a ∈ as, p a) (hr : ∀ x ∈ r.head?, ¬ p x) (hb : ∀ b ∈ bs, p b)
    (hs : ∀ x ∈ s.head?, ¬ p x) (h : as ++ r = bs ++ s) : as = bs ∧ r = s := by
  induction as generalizing bs with
  | nil =>
    cases bs with
    | nil => exact ⟨rfl, h⟩
    | cons b bs =>
      exact absurd (hb b List.mem_cons_self) (hr b (by rw [← List.nil_append r, h]; rfl))
  | cons a as ih =>
    cases bs with
    | nil => exact absurd (ha a List.mem_cons_self) (hs a (by rw [← List.nil_append s, ← h]; rfl))
    | cons b bs =>
      obtain ⟨rfl, htail⟩ := List.cons.inj h
      obtain ⟨rfl, hrest⟩ := ih (fun c hc => ha c (List.mem_cons_of_mem a hc))
        (fun c hc => hb c (List.mem_cons_of_mem a hc)) htail
      exact ⟨rfl, hrest⟩

/-- The first occurrence of a delimiter cuts a list in one way. -/
theorem append_cons_inj_of_notMem (ha : d ∉ as) (hb : d ∉ bs) (h : as ++ d :: r = bs ++ d :: s) :
    as = bs ∧ r = s := by
  have hstop : ∀ rest : List α, ∀ x ∈ (d :: rest).head?, ¬ x ≠ d :=
    fun _ x hx hne => hne (Option.some.inj hx).symm
  obtain ⟨hfront, hback⟩ := append_inj_of_forall (fun a hmem => ne_of_mem_of_not_mem hmem ha)
    (hstop r) (fun b hmem => ne_of_mem_of_not_mem hmem hb) (hstop s) h
  exact ⟨hfront, (List.cons.inj hback).2⟩

/-- So does the last occurrence. -/
theorem append_cons_inj_of_notMem_right (hr : d ∉ r) (hs : d ∉ s)
    (h : as ++ d :: r = bs ++ d :: s) : as = bs ∧ r = s := by
  have hback : r.reverse ++ d :: as.reverse = s.reverse ++ d :: bs.reverse := by
    have hreverse := congrArg List.reverse h
    simpa using hreverse
  obtain ⟨hrest, hfront⟩ := append_cons_inj_of_notMem (fun hmem => hr (List.mem_reverse.mp hmem))
    (fun hmem => hs (List.mem_reverse.mp hmem)) hback
  exact ⟨List.reverse_injective hfront, List.reverse_injective hrest⟩

end

namespace Text

/-! ## Trimmed lists -/

section
variable {α : Type} {p : α → Bool}

theorem dropTrailing_eq_rdropWhile (p : α → Bool) (xs : List α) :
    dropTrailing p xs = xs.rdropWhile p := rfl

/-- Trimming leaves a list alone exactly if its last member fails the test. -/
theorem dropTrailing_eq_self_iff {xs : List α} :
    dropTrailing p xs = xs ↔ ∀ x ∈ xs.getLast?, p x = false := by
  rw [dropTrailing_eq_rdropWhile, List.rdropWhile_eq_self_iff]
  constructor
  · intro h x hx
    obtain ⟨hne, rfl⟩ := List.mem_getLast?_eq_getLast hx
    exact (Bool.not_eq_true _).mp (h hne)
  · intro h hne
    rw [h _ (List.getLast_mem_getLast? hne)]
    exact Bool.false_ne_true

@[simp] theorem dropTrailing_dropTrailing (xs : List α) :
    dropTrailing p (dropTrailing p xs) = dropTrailing p xs :=
  List.rdropWhile_idempotent p xs

/-- What is left ends in a member that fails the test. -/
theorem getLast?_dropTrailing {xs : List α} :
    ∀ x ∈ (dropTrailing p xs).getLast?, p x = false :=
  dropTrailing_eq_self_iff.mp (dropTrailing_dropTrailing xs)

theorem mem_of_mem_dropTrailing {xs : List α} {x : α} (h : x ∈ dropTrailing p xs) : x ∈ xs :=
  (List.rdropWhile_prefix p xs).subset h

end

@[simp] theorem stripEnd_stripEnd (line : List Char) : stripEnd (stripEnd line) = stripEnd line :=
  dropTrailing_dropTrailing line

@[simp] theorem stripEnd_nil : stripEnd [] = [] := rfl

/-- A line is stripped if the rest of it is, unless it is a lone blank. -/
theorem stripEnd_cons_eq_self_iff {c : Char} {rest : List Char} :
    stripEnd (c :: rest) = c :: rest ↔
      stripEnd rest = rest ∧ (rest = [] → isBlank c = false) := by
  unfold stripEnd
  rw [dropTrailing_eq_self_iff, dropTrailing_eq_self_iff]
  cases rest with
  | nil => simp
  | cons d rest => simp [List.getLast?_cons_cons]

/-! ## Splitting and joining -/

/-- A newline ends a line. -/
theorem lines_append_newline (a b : List Char) : lines (a ++ '\n' :: b) = lines a ++ lines b :=
  List.splitOn_append_cons_self a b

/-- A character that is no newline stands in front of the first line. -/
theorem exists_lines_cons {c : Char} (hc : c ≠ '\n') (text : List Char) :
    ∃ first rest, lines text = first :: rest ∧ lines (c :: text) = (c :: first) :: rest := by
  obtain ⟨first, rest, hsplit⟩ := List.exists_cons_of_ne_nil (List.splitOn_ne_nil '\n' text)
  refine ⟨first, rest, hsplit, ?_⟩
  rw [lines, List.splitOn_cons_eq_if_modifyHead, if_neg (by simpa using hc), hsplit]
  rfl

/-- A line of a text has the characters of the text, apart from newlines. -/
theorem mem_of_mem_lines {text line : List Char} (h : line ∈ lines text) :
    ∀ c ∈ line, c ∈ text ∧ c ≠ '\n' := by
  induction text generalizing line with
  | nil =>
    rw [List.mem_singleton.mp h]
    exact fun _ hc => absurd hc List.not_mem_nil
  | cons d text ih =>
    have hrest : ∀ line ∈ lines text, ∀ c ∈ line, c ∈ d :: text ∧ c ≠ '\n' :=
      fun line hline c hc => ⟨List.mem_cons_of_mem d (ih hline c hc).1, (ih hline c hc).2⟩
    by_cases hd : d = '\n'
    · subst hd
      rw [← List.nil_append ('\n' :: text), lines_append_newline] at h
      rcases List.mem_cons.mp h with rfl | h
      · exact fun _ hc => absurd hc List.not_mem_nil
      · exact hrest line h
    · obtain ⟨first, rest, hlines, hcons⟩ := exists_lines_cons hd text
      rw [hcons] at h
      rw [hlines] at hrest
      rcases List.mem_cons.mp h with rfl | h
      · exact List.forall_mem_cons.mpr ⟨⟨List.mem_cons_self, hd⟩, hrest first List.mem_cons_self⟩
      · exact hrest line (List.mem_cons_of_mem first h)

/-- No line of a text holds a newline. -/
theorem newline_notMem_lines {text line : List Char} (h : line ∈ lines text) : '\n' ∉ line :=
  fun hn => (mem_of_mem_lines h '\n' hn).2 rfl

/-- Joined lines are split where they were joined. -/
theorem lines_join {ls : List (List Char)} (hne : ls ≠ []) (h : ∀ line ∈ ls, '\n' ∉ line) :
    lines (['\n'].intercalate ls) = ls :=
  List.splitOn_intercalate '\n' h hne

/-- The lines of a joined text are the lines of its parts. -/
theorem lines_intercalate {parts : List (List Char)} (hne : parts ≠ []) :
    lines (['\n'].intercalate parts) = parts.flatMap lines := by
  induction parts with
  | nil => exact absurd rfl hne
  | cons first rest ih =>
    cases rest with
    | nil => rw [List.intercalate_singleton, List.flatMap_singleton]
    | cons second rest =>
      rw [List.intercalate_cons_cons, List.flatMap_cons, ← ih (List.cons_ne_nil _ _),
        List.append_assoc, List.singleton_append, lines_append_newline]

/-! ## Indentation -/

theorem toList_indent (depth : Nat) (line : String) :
    (indent depth line).toList = List.replicate (2 * depth) ' ' ++ line.toList := by
  induction depth with
  | zero => rfl
  | succ depth ih =>
    rw [indent_succ, indentOnce, String.toList_append, ih]
    rfl

theorem indent_eq_append (depth : Nat) (line : String) :
    indent depth line = String.ofList (List.replicate (2 * depth) ' ') ++ line := by
  rw [← String.toList_inj, String.toList_append, String.toList_ofList, toList_indent]

theorem indent_inj {depth : Nat} {a b : String} : indent depth a = indent depth b ↔ a = b := by
  rw [← String.toList_inj, toList_indent, toList_indent, List.append_cancel_left_eq,
    String.toList_inj]

theorem newline_mem_indent {depth : Nat} {line : String} :
    '\n' ∈ (indent depth line).toList ↔ '\n' ∈ line.toList := by
  rw [toList_indent, List.mem_append]
  simp [List.mem_replicate]

theorem indent_ne_empty {line : String} (h : line ≠ "") (depth : Nat) : indent depth line ≠ "" := by
  intro he
  have hchars := congrArg String.toList he
  rw [toList_indent, String.toList_empty, List.append_eq_nil_iff] at hchars
  exact h (String.toList_eq_nil_iff.mp hchars.2)

/-- A line that does not begin with a space is not taken for a deeper one. -/
theorem indent_ne_indent_succ {line : String} (h : line.toList.head? ≠ some ' ') (depth : Nat)
    (other : String) : indent depth line ≠ indent (depth + 1) other := by
  rw [indent_add 1 depth other, ne_eq, indent_inj]
  rintro rfl
  exact h (by rw [toList_indent]; rfl)

end Text

end SourceLayout
