import SourceLayout.Proofs.DocComment.Comment

/-! # Reading a comment back

A lexer takes the indentation and the markers off a comment and hands back what is left
(`rawText`).  A normal line with text then stands behind a space, the one that was written
after its marker, and an empty line is empty (`spaced`).

Normalizing this text removes the spaces again, if they are taken for padding.  They are
not if the first line with text begins with spaces of its own: the one in front of them
makes its indentation deeper.  So a comment is read back as it was written exactly if its
first line with text is **flush** (`commentLines_reread`).
-/
namespace SourceLayout.DocComment

/-! ## What stands behind the markers -/

/-- What a comment line begins with, at any level: two spaces for each level above zero and
a marker. -/
def front (level : Int) (marker : String) : List Char :=
  List.replicate (2 * level.toNat) ' ' ++ marker.toList

/-- A line without its indentation and its marker. -/
def dropFront (level : Int) (marker line : String) : List Char :=
  line.toList.drop (front level marker).length

/-- The lines of a comment without their indentation and their markers: a marker with a bar
on the first line, and one without on the others. -/
def bareLines (level : Int) : List String → List (List Char)
  | [] => []
  | first :: rest => dropFront level "-- |" first :: rest.map (dropFront level "--")

/-- The raw text that is left of a comment when indentation and markers are taken off. -/
def rawText (level : Int) (comment : List String) : String :=
  String.ofList (['\n'].intercalate (bareLines level comment))

/-- A line behind a space; an empty line stays empty. -/
def spaced : List Char → List Char
  | [] => []
  | c :: rest => ' ' :: c :: rest

/-- Whether the first line with text, if there is one, does not begin with a space. -/
def IsFlush (ls : List String) : Prop :=
  ∀ first ∈ ls.find? fun line => decide (line ≠ ""), ¬ [' '] <+: first.toList

instance (ls : List String) : Decidable (IsFlush ls) :=
  inferInstanceAs <| Decidable <|
    ∀ first ∈ ls.find? fun line => decide (line ≠ ""), ¬ [' '] <+: first.toList

@[simp] theorem spaced_nil : spaced [] = [] := rfl

theorem spaced_of_ne_nil {line : List Char} (h : line ≠ []) : spaced line = ' ' :: line := by
  cases line with
  | nil => exact absurd rfl h
  | cons c rest => rfl

theorem spaced_eq_nil_iff {line : List Char} : spaced line = [] ↔ line = [] := by
  cases line <;> simp [spaced]

theorem toList_marked (marker line : String) :
    (marked marker line).toList = marker.toList ++ spaced line.toList := by
  by_cases h : line = ""
  · rw [h, marked_empty]
    exact (List.append_nil _).symm
  · have hchars : line.toList ≠ [] := fun he => h (String.toList_eq_nil_iff.mp he)
    rw [marked_of_ne h, String.toList_append, String.toList_append, spaced_of_ne_nil hchars,
      List.append_assoc]
    rfl

/-- **A comment line is its front and a spaced line.** -/
theorem toList_indent_marked (level : Int) (marker line : String) :
    (Text.indent level.toNat (marked marker line)).toList =
      front level marker ++ spaced line.toList := by
  rw [Text.toList_indent, toList_marked, front, List.append_assoc]

theorem dropFront_indent_marked (level : Int) (marker line : String) :
    dropFront level marker (Text.indent level.toNat (marked marker line)) =
      spaced line.toList := by
  rw [dropFront, toList_indent_marked, List.drop_left]

/-- A comment is made of its first normal line behind the opening marker and of the others
behind the further one. -/
theorem exists_commentLinesAt_eq (level : Int) (raw : String) :
    ∃ first rest, normalize raw = first :: rest ∧
      commentLinesAt level raw = Text.indent level.toNat (marked openingMarker first) ::
        rest.map fun line => Text.indent level.toNat (marked furtherMarker line) := by
  obtain ⟨first, rest, hnormal⟩ := List.exists_cons_of_ne_nil (normalize_ne_nil raw)
  refine ⟨first, rest, hnormal, ?_⟩
  rw [commentLinesAt, commentLines, hnormal, markLines, List.map_cons, List.map_map]
  rfl

theorem bareLines_commentLinesAt (level : Int) (raw : String) :
    bareLines level (commentLinesAt level raw) = (normalLines raw.toList).map spaced := by
  obtain ⟨first, rest, hnormal, hcomment⟩ := exists_commentLinesAt_eq level raw
  rw [hcomment, bareLines, List.map_map, ← map_toList_normalize, hnormal, List.map_map]
  refine congrArg₂ (· :: ·) ?_ (List.map_congr_left fun line _ => ?_)
  · exact dropFront_indent_marked level openingMarker first
  · exact dropFront_indent_marked level furtherMarker line

/-! ## The form of a comment line -/

/-- Every comment line is the front of some marker and a spaced normal line. -/
theorem exists_of_mem_commentLinesAt {level : Int} {raw line : String}
    (h : line ∈ commentLinesAt level raw) :
    ∃ marker normal, (marker = openingMarker ∨ marker = furtherMarker) ∧ normal ∈ normalize raw ∧
      line.toList = front level marker ++ spaced normal.toList := by
  obtain ⟨first, rest, hnormal, hcomment⟩ := exists_commentLinesAt_eq level raw
  rw [hcomment] at h
  rw [hnormal]
  rcases List.mem_cons.mp h with rfl | h
  · exact ⟨openingMarker, first, Or.inl rfl, List.mem_cons_self, toList_indent_marked _ _ _⟩
  · obtain ⟨old, hold, rfl⟩ := List.mem_map.mp h
    exact ⟨furtherMarker, old, Or.inr rfl, List.mem_cons_of_mem first hold,
      toList_indent_marked _ _ _⟩

/-- A spaced line behind a marker ends in text: in that of the line, or in the marker. -/
theorem stripEnd_front_append (level : Int) {marker : String} {line : List Char}
    (hm : marker = openingMarker ∨ marker = furtherMarker) (h : Text.stripEnd line = line) :
    Text.stripEnd (front level marker ++ spaced line) = front level marker ++ spaced line := by
  unfold Text.stripEnd at h ⊢
  rw [Text.dropTrailing_eq_self_iff] at h ⊢
  intro c hc
  rcases line with _ | ⟨d, rest⟩
  · have hmarker : marker.toList.getLast? = some c := by
      rw [spaced_nil, List.append_nil, front] at hc
      rw [← List.getLast?_append_of_ne_nil (List.replicate (2 * level.toNat) ' ')]
      · exact hc
      · rcases hm with rfl | rfl <;> decide
    rcases hm with rfl | rfl
    · rw [← Option.some.inj (show some '|' = some c from hmarker)]
      decide
    · rw [← Option.some.inj (show some '-' = some c from hmarker)]
      decide
  · apply h c
    rwa [spaced, List.getLast?_append_of_ne_nil _ (List.cons_ne_nil _ _),
      List.getLast?_cons_cons] at hc

/-- A line that does not begin with a section marker does not read as the name of a section
behind a comment marker. -/
theorem not_sectionFront_prefix (level : Int) {marker : String} {line : List Char}
    (hm : marker = openingMarker ∨ marker = furtherMarker) (h : line.head? ≠ some '$') :
    ¬ front level "-- $" <+: front level marker ++ spaced line := by
  rw [front, front, List.append_assoc, List.prefix_append_right_inj]
  rcases hm with rfl | rfl
  · -- the opening marker has a bar where the section marker would be
    show ¬ ['-', '-', ' ', '$'] <+: '-' :: '-' :: ' ' :: '|' :: spaced line
    simp [List.cons_prefix_cons]
  · show ¬ ['-', '-', ' ', '$'] <+: '-' :: '-' :: spaced line
    cases line with
    | nil => simp [List.cons_prefix_cons]
    | cons c rest =>
      simp only [spaced, List.cons_prefix_cons, true_and, not_and]
      rintro rfl
      exact absurd rfl h

section
variable {level : Int} {raw line : String}

theorem newline_notMem_commentLinesAt (h : line ∈ commentLinesAt level raw) :
    '\n' ∉ line.toList := by
  obtain ⟨body, hbody, rfl⟩ := exists_of_mem_commentLines h
  exact fun hn => hbody.2 (Text.newline_mem_indent.mp hn)

theorem stripEnd_commentLinesAt (h : line ∈ commentLinesAt level raw) :
    Text.stripEnd line.toList = line.toList := by
  obtain ⟨marker, normal, hmarker, hmem, hline⟩ := exists_of_mem_commentLinesAt h
  rw [hline]
  exact stripEnd_front_append level hmarker
    ((isNormal_normalize raw).stripped _ (List.mem_map_of_mem hmem))

theorem not_sectionFront_prefix_commentLinesAt (h : line ∈ commentLinesAt level raw) :
    ¬ front level "-- $" <+: line.toList := by
  obtain ⟨marker, normal, hmarker, hmem, hline⟩ := exists_of_mem_commentLinesAt h
  rw [hline]
  exact not_sectionFront_prefix level hmarker
    ((isNormal_normalize raw).unmarked _ (List.mem_map_of_mem hmem))

end

/-! ## Normalizing spaced lines -/

theorem dropSpace_spaced (line : List Char) : dropSpace (spaced line) = line := by
  cases line <;> rfl

theorem stripEnd_spaced {line : List Char} (h : Text.stripEnd line = line) :
    Text.stripEnd (spaced line) = spaced line := by
  cases line with
  | nil => rfl
  | cons c rest =>
    exact Text.stripEnd_cons_eq_self_iff.mpr ⟨h, fun he => absurd he (List.cons_ne_nil c rest)⟩

/-- A spaced line with text is padded unless its text begins with a space. -/
theorem isPadded_spaced {line : List Char} (h : line ≠ []) :
    isPadded (spaced line) = true ↔ ¬ [' '] <+: line := by
  cases line with
  | nil => exact absurd rfl h
  | cons c rest =>
    by_cases hc : c = ' '
    · simp [spaced, isPadded, hc]
    · simp [spaced, isPadded, hc, Ne.symm hc]

theorem head?_spaced_ne (line : List Char) : (spaced line).head? ≠ some '$' := by
  cases line with
  | nil => simp
  | cons c rest =>
    rw [spaced, List.head?_cons]
    decide

theorem newline_mem_spaced {line : List Char} : '\n' ∈ spaced line ↔ '\n' ∈ line := by
  cases line <;> simp [spaced]

/-- Trimmed lines have a first line with text, if they are lines at all. -/
theorem Trimmed.exists_firstText?_eq {ls : List (List Char)} (h : Trimmed ls) (hne : ls ≠ []) :
    ∃ first, firstText? ls = some first ∧ first ≠ [] := by
  have hlast : ls.getLast hne ≠ [] := by
    intro he
    exact h.last_ne_nil (he ▸ List.getLast_mem_getLast? hne)
  unfold firstText?
  cases hfirst : ls.find? fun line => decide (line ≠ []) with
  | none =>
    have hempty := List.find?_eq_none.mp hfirst (ls.getLast hne) (List.getLast_mem hne)
    exact absurd (decide_eq_true hlast) hempty
  | some first => exact ⟨first, rfl, of_decide_eq_true (List.find?_some hfirst :)⟩

/-- The spaces in front of the lines are taken for padding if the one in front of the first
line with text is. -/
theorem unpad_map_spaced {ls : List (List Char)} {first : List Char}
    (hfirst : firstText? ls = some first) :
    unpad (ls.map spaced) = if isPadded (spaced first) then ls else ls.map spaced := by
  have hspaced : firstText? (ls.map spaced) = some (spaced first) := by
    rw [firstText?_map fun _ _ => spaced_eq_nil_iff, hfirst]
    rfl
  have hdrop : (ls.map spaced).map dropSpace = ls := by
    rw [List.map_map]
    exact (List.map_congr_left fun line _ => dropSpace_spaced line).trans (List.map_id ls)
  rw [unpad, hspaced]
  simp only [hdrop]

/-- **A normal form with a space in front of each line with text** is normalized to the form
that it was, if the spaces are taken for padding, and else to itself. -/
theorem normalLines_join_spaced {ls : List (List Char)} {first : List Char} (h : IsNormal ls)
    (hn : ∀ line ∈ ls, '\n' ∉ line) (htext : ls ≠ [[]]) (hfirst : firstText? ls = some first) :
    normalLines (['\n'].intercalate (ls.map spaced)) =
      if isPadded (spaced first) then ls else ls.map spaced := by
  have htrim : Trimmed (ls.map spaced) :=
    (h.trimmed htext).map (fun _ => stripEnd_spaced) fun _ _ => spaced_eq_nil_iff
  have hne : ls.map spaced ≠ [] := fun he => h.ne_nil (List.map_eq_nil_iff.mp he)
  have hlines : ∀ line ∈ ls.map spaced, '\n' ∉ line := by
    intro line hline
    obtain ⟨old, hold, rfl⟩ := List.mem_map.mp hline
    exact fun he => hn old hold (newline_mem_spaced.mp he)
  have hunmarked : ∀ line ∈ ls.map spaced, line.head? ≠ some '$' := by
    intro line hline
    obtain ⟨old, -, rfl⟩ := List.mem_map.mp hline
    exact head?_spaced_ne old
  rw [normalLines, strippedLines_join htrim hne hlines, unpad_map_spaced hfirst]
  split
  · rw [map_escapeMarker_of_unmarked h.unmarked, orEmptyLine_of_ne_nil h.ne_nil]
  · rw [map_escapeMarker_of_unmarked hunmarked, orEmptyLine_of_ne_nil hne]

/-! ## Comments -/

theorem firstText?_map_toList (ls : List String) :
    firstText? (ls.map String.toList) =
      (ls.find? fun line => decide (line ≠ "")).map String.toList := by
  unfold firstText?
  rw [List.find?_map]
  refine congrArg (Option.map String.toList) (List.find?_congr fun line _ => ?_)
  simp [String.toList_eq_nil_iff]

theorem isFlush_iff {ls : List String} :
    IsFlush ls ↔ ∀ first ∈ firstText? (ls.map String.toList), ¬ [' '] <+: first := by
  rw [firstText?_map_toList, IsFlush]
  cases ls.find? fun line => decide (line ≠ "") with
  | none => simp
  | some first => simp

/-- The normal lines of what is left of a comment: those of the comment, if its first line
with text is flush, and else those behind a space. -/
theorem normalLines_rawText (level : Int) (raw : String) :
    (IsFlush (normalize raw) →
      normalLines (rawText level (commentLinesAt level raw)).toList = normalLines raw.toList) ∧
    (¬ IsFlush (normalize raw) →
      normalLines (rawText level (commentLinesAt level raw)).toList =
        (normalLines raw.toList).map spaced) := by
  have hnormal := isNormal_normalLines raw.toList
  rw [isFlush_iff, map_toList_normalize, rawText, String.toList_ofList, bareLines_commentLinesAt]
  by_cases htext : normalLines raw.toList = [[]]
  · rw [htext]
    exact ⟨fun _ => rfl, fun _ => rfl⟩
  · obtain ⟨first, hfirst, hne⟩ := (hnormal.trimmed htext).exists_firstText?_eq hnormal.ne_nil
    have hflush : (∀ line ∈ firstText? (normalLines raw.toList), ¬ [' '] <+: line) ↔
        isPadded (spaced first) = true := by
      rw [hfirst, isPadded_spaced hne]
      simp
    rw [normalLines_join_spaced hnormal (fun _ => newline_notMem_normalLines) htext hfirst, hflush]
    exact ⟨fun h => if_pos h, fun h => if_neg h⟩

theorem ofList_spaced (line : List Char) :
    String.ofList (spaced line) =
      if String.ofList line = "" then "" else " " ++ String.ofList line := by
  rw [← String.toList_inj]
  cases line with
  | nil => rfl
  | cons c rest =>
    have hne : String.ofList (c :: rest) ≠ "" := by
      rw [ne_eq, String.ofList_eq_empty_iff]
      exact List.cons_ne_nil c rest
    rw [if_neg hne, String.toList_append]
    simp [spaced]

theorem normalize_rawText_of_isFlush {raw : String} (h : IsFlush (normalize raw)) (level : Int) :
    normalize (rawText level (commentLinesAt level raw)) = normalize raw :=
  congrArg (List.map String.ofList) ((normalLines_rawText level raw).1 h)

/-- If the first line with text is not flush, each line with text grows by one space. -/
theorem normalize_rawText_of_not_isFlush {raw : String} (h : ¬ IsFlush (normalize raw))
    (level : Int) :
    normalize (rawText level (commentLinesAt level raw)) =
      (normalize raw).map fun line => if line = "" then "" else " " ++ line := by
  rw [normalize, (normalLines_rawText level raw).2 h, normalize, List.map_map, List.map_map]
  exact List.map_congr_left fun line _ => ofList_spaced line

theorem normalize_rawText_eq_iff (level : Int) (raw : String) :
    normalize (rawText level (commentLinesAt level raw)) = normalize raw ↔
      IsFlush (normalize raw) := by
  refine ⟨fun heq => ?_, fun h => normalize_rawText_of_isFlush h level⟩
  by_contra h
  -- no line with text is the line that it grows to
  rw [normalize_rawText_of_not_isFlush h] at heq
  apply h
  intro first hfirst
  have hne : first ≠ "" := of_decide_eq_true (List.find?_some hfirst :)
  have hgrown := List.map_inj_left.mp (heq.trans (List.map_id _).symm) first
    (List.mem_of_find?_eq_some hfirst)
  rw [if_neg hne] at hgrown
  have hlength := congrArg (fun line : String => line.toList.length) hgrown
  simp [String.toList_append] at hlength

/-- **A comment is read back as it was written exactly if its first line with text is
flush.**  Every comment line begins with its indentation and its marker, holds no newline,
has no blanks at its end and does not read as the name of a section.  What is left of the
lines without indentation and markers has the normal lines that the comment was written
from, and is written as the same comment at every level, if and only if the first of these
lines with text does not begin with a space; otherwise each of them that has text grows by
one space. -/
theorem commentLines_reread (raw : String) (level : Int) :
    (∀ line ∈ (commentLinesAt level raw).head?, front level "-- |" <+: line.toList) ∧
      (∀ line ∈ (commentLinesAt level raw).tail, front level "--" <+: line.toList) ∧
      (∀ line ∈ commentLinesAt level raw, '\n' ∉ line.toList ∧
        Text.stripEnd line.toList = line.toList ∧ ¬ front level "-- $" <+: line.toList) ∧
      (normalize (rawText level (commentLinesAt level raw)) = normalize raw ↔
        IsFlush (normalize raw)) ∧
      (∀ other : Int, commentLinesAt other (rawText level (commentLinesAt level raw)) =
        commentLinesAt other raw ↔ IsFlush (normalize raw)) ∧
      (¬ IsFlush (normalize raw) →
        normalize (rawText level (commentLinesAt level raw)) =
          (normalize raw).map fun line => if line = "" then "" else " " ++ line) := by
  obtain ⟨first, rest, hnormal, hcomment⟩ := exists_commentLinesAt_eq level raw
  refine ⟨?_, ?_, ?_, normalize_rawText_eq_iff level raw, fun other => ?_,
    fun h => normalize_rawText_of_not_isFlush h level⟩
  · intro line hline
    rw [hcomment] at hline
    rw [← Option.some.inj hline, toList_indent_marked]
    exact List.prefix_append _ _
  · intro line hline
    rw [hcomment] at hline
    obtain ⟨old, -, rfl⟩ := List.mem_map.mp hline
    rw [toList_indent_marked]
    exact List.prefix_append _ _
  · exact fun line hline => ⟨newline_notMem_commentLinesAt hline, stripEnd_commentLinesAt hline,
      not_sectionFront_prefix_commentLinesAt hline⟩
  · rw [← normalize_rawText_eq_iff level raw]
    exact ⟨normalize_eq_of_commentLines_eq, fun h => by rw [commentLinesAt, commentLines, h]; rfl⟩

/-- A comment whose first line is indented deeper than padding, and one whose first line with
text is padded. -/
theorem commentLines_reread_indented :
    ¬ IsFlush (normalize "  f\n\n$g") ∧
      normalize (rawText 1 (commentLinesAt 1 "  f\n\n$g")) = ["   f", "", " \x5c$g"] ∧
      IsFlush (normalize "\n f\n   $g") ∧
      normalize (rawText 1 (commentLinesAt 1 "\n f\n   $g")) = ["", "f", "  $g"] := by
  have hdeep : ¬ IsFlush (normalize "  f\n\n$g") := by decide
  have hflush : IsFlush (normalize "\n f\n   $g") := by decide
  obtain ⟨-, -, -, -, -, hgrown⟩ := commentLines_reread "  f\n\n$g" 1
  obtain ⟨-, -, -, hsame, -, -⟩ := commentLines_reread "\n f\n   $g" 1
  exact ⟨hdeep, (hgrown hdeep).trans (by decide), hflush, (hsame.mpr hflush).trans (by decide)⟩

end SourceLayout.DocComment
