import SourceLayout.Proofs.Span.Enclosing

/-! # Where the brackets of a join matter

Within one file the join of spans is their union, and unions are associative.  Where files
meet, the join is an unknown span, and the next join absorbs it: of three spans the one that
is joined last is left over, and which one that is depends on the brackets.

So there are few other ways for both bracketings to agree (`joined_assoc_iff`).  An unknown
span in the middle or at the end goes away in both.  An unknown span in front goes away only
if the bracket behind it is known; if it is not, the span in front is left, and agrees with
the other bracketing if it is itself what a meeting of files leaves behind.  And of three
extents with another file in the middle, the last is left on the one side and the first on
the other.
-/
namespace SourceLayout.Span

/-! ## The result of a join -/

/-- What two spans are joined to. -/
def joined : Span → Span → Span
  | a, unknown _ => a
  | unknown _, real b => real b
  | real a, real b => if a.file = b.file then real (a.hull b) else filesDiffer

/-- The join of two spans has a result, whatever is noted. -/
theorem result_join (a b : Span) : (a.join b).result = .ok (a.joined b) := by
  cases b with
  | unknown reason => rw [join_unknown_right, joined, Logged.result_pure]
  | real b =>
    cases a with
    | unknown reason => rfl
    | real a =>
      by_cases hfile : a.file = b.file
      · rw [join_real_of_eq hfile, joined, if_pos hfile, Logged.result_pure]
      · rw [join_real_of_ne hfile, joined, if_neg hfile]

@[simp] theorem joined_unknown_right (a : Span) (reason : String) :
    a.joined (unknown reason) = a := by
  cases a <;> rfl

@[simp] theorem joined_unknown_left (reason : String) (b : Extent) :
    (unknown reason).joined (real b) = real b := rfl

@[simp] theorem joined_filesDiffer_right (a : Span) : a.joined filesDiffer = a :=
  a.joined_unknown_right _

@[simp] theorem joined_filesDiffer_left (b : Extent) : filesDiffer.joined (real b) = real b := rfl

theorem joined_of_eq {a b : Extent} (h : a.file = b.file) :
    (real a).joined (real b) = real (a.hull b) := if_pos h

theorem joined_of_ne {a b : Extent} (h : a.file ≠ b.file) :
    (real a).joined (real b) = filesDiffer := if_neg h

theorem real_ne_filesDiffer (a : Extent) : real a ≠ filesDiffer := Span.noConfusion

/-! ## Three spans -/

/-- An unknown span at the end goes away, wherever the brackets are. -/
theorem joined_joined_unknown (a b : Span) (reason : String) :
    (a.joined b).joined (unknown reason) = a.joined (b.joined (unknown reason)) := by
  rw [joined_unknown_right, joined_unknown_right]

/-- An unknown span in the middle goes away, wherever the brackets are. -/
theorem joined_unknown_joined (a c : Span) (reason : String) :
    (a.joined (unknown reason)).joined c = a.joined ((unknown reason).joined c) := by
  cases c with
  | unknown reason' => exact joined_joined_unknown a (unknown reason) reason'
  | real c => rw [joined_unknown_right, joined_unknown_left]

/-- An unknown span in front of two extents goes away on the left.  On the right it is left
over if their files differ. -/
theorem unknown_joined_joined_iff (reason : String) (b c : Extent) :
    ((unknown reason).joined (real b)).joined (real c) =
        (unknown reason).joined ((real b).joined (real c)) ↔
      b.file = c.file ∨ unknown reason = filesDiffer := by
  rw [joined_unknown_left]
  by_cases hbc : b.file = c.file
  · rw [joined_of_eq hbc, joined_unknown_left]
    exact iff_of_true rfl (Or.inl hbc)
  · rw [joined_of_ne hbc, joined_filesDiffer_right, eq_comm]
    exact ⟨Or.inr, fun h => h.resolve_left hbc⟩

/-- Three extents.  Where only one neighbour is of another file, one side is left with an extent
and the other with nothing; where both are, the last extent stands against the first. -/
theorem real_joined_joined_iff (a b c : Extent) :
    ((real a).joined (real b)).joined (real c) = (real a).joined ((real b).joined (real c)) ↔
      (a.file = b.file ∧ b.file = c.file) ∨ (a = c ∧ b.file ≠ a.file) := by
  by_cases hab : a.file = b.file
  · rw [joined_of_eq hab]
    by_cases hbc : b.file = c.file
    · rw [joined_of_eq hbc, joined_of_eq (show (a.hull b).file = c.file from hab.trans hbc),
        joined_of_eq (show a.file = (b.hull c).file from hab), Extent.hull_assoc]
      exact iff_of_true rfl (Or.inl ⟨hab, hbc⟩)
    · -- the last is of another file: nothing is left on the left side, and `a` on the right
      rw [joined_of_ne hbc, joined_filesDiffer_right,
        joined_of_ne (show (a.hull b).file ≠ c.file from fun h => hbc (hab.symm.trans h))]
      refine iff_of_false (real_ne_filesDiffer a).symm ?_
      rintro (⟨-, h⟩ | ⟨-, h⟩)
      · exact hbc h
      · exact h hab.symm
  · rw [joined_of_ne hab, joined_filesDiffer_left]
    by_cases hbc : b.file = c.file
    · -- the first is of another file: `c` is left on the left side, and nothing on the right
      rw [joined_of_eq hbc, joined_of_ne (show a.file ≠ (b.hull c).file from hab)]
      refine iff_of_false (real_ne_filesDiffer c) ?_
      rintro (⟨h, -⟩ | ⟨rfl, h⟩)
      · exact hab h
      · exact h hbc
    · rw [joined_of_ne hbc, joined_filesDiffer_right, real.injEq, eq_comm]
      constructor
      · exact fun h => Or.inr ⟨h, Ne.symm hab⟩
      · rintro (⟨h, -⟩ | ⟨h, -⟩)
        · exact absurd h hab
        · exact h

theorem inFile_real_iff {file : String} {e : Extent} : (real e).InFile file ↔ e.file = file :=
  ⟨fun h => h e rfl, fun h _ hx => Option.some.inj hx ▸ h⟩

theorem inFile_unknown (file reason : String) : (unknown reason).InFile file := nofun

/-- The two bracketings of three spans agree in five cases and no others. -/
theorem joined_assoc_iff (a b c : Span) :
    (a.joined b).joined c = a.joined (b.joined c) ↔
      (∃ file, a.InFile file ∧ b.InFile file ∧ c.InFile file) ∨
        b.extent? = none ∨ c.extent? = none ∨
        (a = filesDiffer ∧ ∃ e f, b = real e ∧ c = real f ∧ e.file ≠ f.file) ∨
        ∃ e f, a = real e ∧ b = real f ∧ c = real e ∧ f.file ≠ e.file := by
  cases c with
  | unknown reason => exact iff_of_true (joined_joined_unknown a b reason) (.inr (.inr (.inl rfl)))
  | real c =>
    cases b with
    | unknown reason =>
      exact iff_of_true (joined_unknown_joined a (real c) reason) (.inr (.inl rfl))
    | real b =>
      cases a with
      | unknown reason =>
        rw [unknown_joined_joined_iff]
        constructor
        · intro h
          by_cases hbc : b.file = c.file
          · exact .inl ⟨b.file, inFile_unknown _ _, inFile_real_iff.mpr rfl,
              inFile_real_iff.mpr hbc.symm⟩
          · exact .inr (.inr (.inr (.inl ⟨h.resolve_left hbc, b, c, rfl, rfl, hbc⟩)))
        · rintro (⟨file, -, hb, hc⟩ | h | h | ⟨h, -⟩ | ⟨e, f, h, -⟩)
          · exact .inl ((inFile_real_iff.mp hb).trans (inFile_real_iff.mp hc).symm)
          · cases h
          · cases h
          · exact .inr h
          · cases h
      | real a =>
        rw [real_joined_joined_iff]
        constructor
        · rintro (⟨hab, hbc⟩ | ⟨rfl, hba⟩)
          · exact .inl ⟨b.file, inFile_real_iff.mpr hab, inFile_real_iff.mpr rfl,
              inFile_real_iff.mpr hbc.symm⟩
          · exact .inr (.inr (.inr (.inr ⟨a, b, rfl, rfl, rfl, hba⟩)))
        · rintro (⟨file, ha, hb, hc⟩ | h | h | ⟨h, -⟩ | ⟨e, f, he, hf, hc, hne⟩)
          · rw [inFile_real_iff] at ha hb hc
            exact .inl ⟨ha.trans hb.symm, hb.trans hc.symm⟩
          · cases h
          · cases h
          · cases h
          · obtain rfl := real.inj he
            obtain rfl := real.inj hf
            exact .inr ⟨(real.inj hc).symm, hne⟩

/-- Two parts of one file with a part of another between them: the later one is left over if
the brackets are in front, and the earlier one if they are behind. -/
example :
    let early := real ⟨"A", ⟨1, 1⟩, ⟨1, 5⟩, by decide⟩
    let other := real ⟨"B", ⟨2, 1⟩, ⟨2, 5⟩, by decide⟩
    let late := real ⟨"A", ⟨9, 1⟩, ⟨9, 5⟩, by decide⟩
    (early.joined other).joined late = late ∧ early.joined (other.joined late) = early := by
  decide

/-- **When a join of three spans is associative.**  Both bracketings have a result.  The results
are equal exactly if the known spans all lie in one file, or the second or the third span is
unknown, or the first is the unknown span that a meeting of files leaves behind and files meet
in the other two, or the first and the third are one extent and the second is an extent of
another file. -/
theorem join_assoc_iff (a b c : Span) :
    ∃ left right, (a.join b >>= fun ab => ab.join c).result = .ok left ∧
      (b.join c >>= fun bc => a.join bc).result = .ok right ∧
      (left = right ↔
        (∃ file, a.InFile file ∧ b.InFile file ∧ c.InFile file) ∨
          b.extent? = none ∨ c.extent? = none ∨
          (a = unknown "<combine_spans: files differ>" ∧
            ∃ e f, b = real e ∧ c = real f ∧ e.file ≠ f.file) ∨
          ∃ e f, a = real e ∧ b = real f ∧ c = real e ∧ f.file ≠ e.file) := by
  refine ⟨(a.joined b).joined c, a.joined (b.joined c), ?_, ?_, joined_assoc_iff a b c⟩
  · rw [Logged.bind_of_ok (result_join a b)]
    exact result_join _ c
  · rw [Logged.bind_of_ok (result_join b c)]
    exact result_join a _

end SourceLayout.Span
