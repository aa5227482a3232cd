import SourceLayout.Proofs.DocComment.NormalForm

/-! # Comment lines tell the normal lines

Every line of a written comment begins, behind its indentation, with a marker.  Since a
marker and the line behind it can be told apart, a comment has the normal lines of the
text that it was written from, and no others.
-/
namespace SourceLayout.DocComment

theorem marked_empty (marker : String) : marked marker "" = marker := rfl

theorem marked_of_ne {line : String} (h : line ≠ "") (marker : String) :
    marked marker line = marker ++ " " ++ line :=
  if_neg h

/-- A marker by itself is shorter than a marker and its space. -/
theorem marker_ne_append (marker line : String) : marker ≠ marker ++ " " ++ line := by
  intro he
  have hlength := congrArg (fun s : String => s.toList.length) he
  simp only [String.toList_append, List.length_append] at hlength
  have hspace : (" ".toList).length = 1 := rfl
  omega

theorem marked_inj {marker a b : String} : marked marker a = marked marker b ↔ a = b := by
  refine ⟨fun h => ?_, fun h => h ▸ rfl⟩
  by_cases ha : a = ""
  · by_cases hb : b = ""
    · rw [ha, hb]
    · rw [ha, marked_empty, marked_of_ne hb] at h
      exact absurd h (marker_ne_append marker b)
  · by_cases hb : b = ""
    · rw [hb, marked_empty, marked_of_ne ha] at h
      exact absurd h.symm (marker_ne_append marker a)
    · rw [marked_of_ne ha, marked_of_ne hb] at h
      exact (String.append_right_inj _).mp h

theorem map_marked_injective (marker : String) : Function.Injective (List.map (marked marker)) :=
  List.map_injective_iff.mpr fun _ _ => marked_inj.mp

theorem markLines_injective : Function.Injective markLines := by
  intro as bs h
  cases as with
  | nil =>
    cases bs with
    | nil => rfl
    | cons b bs => cases h
  | cons a as =>
    cases bs with
    | nil => cases h
    | cons b bs =>
      obtain ⟨hfirst, hrest⟩ := List.cons.inj h
      rw [marked_inj.mp hfirst, map_marked_injective furtherMarker hrest]

/-- A comment tells the normal lines of its text. -/
theorem normalize_eq_of_commentLines_eq {depth : Nat} {a b : String}
    (h : commentLines depth a = commentLines depth b) : normalize a = normalize b := by
  have hindent : Function.Injective (List.map (Text.indent depth)) :=
    List.map_injective_iff.mpr fun _ _ => Text.indent_inj.mp
  exact markLines_injective (hindent h)

theorem commentLines_ne_nil (depth : Nat) (raw : String) : commentLines depth raw ≠ [] := by
  intro h
  have hlength := length_commentLines depth raw
  rw [h, List.length_nil] at hlength
  exact normalize_ne_nil raw (List.eq_nil_of_length_eq_zero hlength.symm)

/-! ## What a comment line looks like -/

/-- A line as comments have them, before indentation: a marker in front, and no
newline. -/
def IsMarked (line : String) : Prop :=
  ['-', '-'] <+: line.toList ∧ '\n' ∉ line.toList

theorem IsMarked.append {marker : String} (h : IsMarked marker) {rest : String}
    (hrest : '\n' ∉ rest.toList) : IsMarked (marker ++ rest) := by
  rw [IsMarked, String.toList_append, List.mem_append, not_or]
  exact ⟨h.1.trans (List.prefix_append _ _), h.2, hrest⟩

theorem isMarked_marked {marker line : String} (hm : IsMarked marker)
    (hline : '\n' ∉ line.toList) : IsMarked (marked marker line) := by
  by_cases h : line = ""
  · rw [h, marked_empty]
    exact hm
  · rw [marked_of_ne h]
    exact (hm.append (by decide)).append hline

theorem isMarked_openingMarker : IsMarked openingMarker := ⟨by decide, by decide⟩

theorem isMarked_furtherMarker : IsMarked furtherMarker := ⟨by decide, by decide⟩

theorem isMarked_of_mem_markLines {ls : List String} (h : ∀ line ∈ ls, '\n' ∉ line.toList) :
    ∀ line ∈ markLines ls, IsMarked line := by
  intro line hline
  cases ls with
  | nil => cases hline
  | cons first rest =>
    rcases List.mem_cons.mp hline with rfl | hline
    · exact isMarked_marked isMarked_openingMarker (h first List.mem_cons_self)
    · obtain ⟨old, hold, rfl⟩ := List.mem_map.mp hline
      exact isMarked_marked isMarked_furtherMarker (h old (List.mem_cons_of_mem first hold))

/-- Every line of a comment is an indented line behind a marker. -/
theorem exists_of_mem_commentLines {depth : Nat} {raw line : String}
    (h : line ∈ commentLines depth raw) :
    ∃ body, IsMarked body ∧ Text.indent depth body = line := by
  obtain ⟨body, hbody, rfl⟩ := List.mem_map.mp h
  exact ⟨body, isMarked_of_mem_markLines (fun _ => newline_notMem_normalize) body hbody, rfl⟩

end SourceLayout.DocComment
