import SourceLayout.Proofs.DocComment.Rereading
import SourceLayout.Proofs.Text.Blanks

/-! # Differences that cannot be seen

Two raw texts that look the same are normalized to the same lines.  Blanks at the ends of
lines and lines of nothing but blanks at the end of the text are gone after the first pass
(`strippedLines_insertAtLineEnds`), which makes line ends with a carriage return as good as
those without.

The padding of a comment cannot be told from its indentation, but the first line with text
shows which it is.  If that line does not begin with a space, the text is not padded, and
padding all lines with text gives each of them a space that normalization takes away again
(`unpad_padText`).
-/
namespace SourceLayout.DocComment

open Text (hasText)

/-! ## Blanks at the ends of lines and of the text -/

/-- Blanks at the ends of lines and blank lines at the end of the text are stripped. -/
theorem strippedLines_insertAtLineEnds {runs more : List (List Char)}
    (hruns : ∀ run ∈ runs, Text.IsBlankRun run) (hmore : ∀ line ∈ more, Text.IsBlankRun line)
    (raw : List Char) :
    strippedLines (['\n'].intercalate (Text.insertAtLineEnds runs raw :: more)) =
      strippedLines raw := by
  have hlines : more.flatMap Text.lines = more := by
    rw [List.flatMap_congr fun line hline => Text.lines_of_isBlankRun (hmore line hline)]
    exact List.flatMap_singleton' more
  have hempty : ∀ line ∈ more.map Text.stripEnd, decide (line = []) = true := by
    intro line hline
    obtain ⟨old, hold, rfl⟩ := List.mem_map.mp hline
    exact decide_eq_true (Text.stripEnd_of_isBlankRun (hmore old hold))
  rw [strippedLines, Text.lines_intercalate (List.cons_ne_nil _ _), List.flatMap_cons, hlines,
    List.map_append, Text.map_stripEnd_lines_insertAtLineEnds hruns, Text.dropTrailingEmpty,
    Text.dropTrailing_append hempty]
  rfl

/-! ## Padding -/

/-- A line behind a space, if it has text. -/
def padLine (line : List Char) : List Char := if hasText line then ' ' :: line else line

/-- A raw text with a space in front of every line that has text. -/
def padText (raw : String) : String :=
  String.ofList (['\n'].intercalate ((Text.lines raw.toList).map padLine))

theorem newline_mem_padLine {line : List Char} : '\n' ∈ padLine line ↔ '\n' ∈ line := by
  unfold padLine
  split
  · simp
  · rfl

theorem stripEnd_padLine (line : List Char) :
    Text.stripEnd (padLine line) = spaced (Text.stripEnd line) := by
  unfold padLine
  split
  · next h =>
    have hspaced := spaced_of_ne_nil (Text.stripEnd_ne_nil_iff.mpr h)
    rw [← Text.stripEnd_cons_stripEnd, ← hspaced, stripEnd_spaced (Text.stripEnd_stripEnd line)]
  · next h =>
    rw [Text.stripEnd_eq_nil_iff.mpr ((Bool.not_eq_true _).mp h)]
    rfl

/-- The lines of a padded text are the lines of the text, those with text behind a space. -/
theorem strippedLines_padText (raw : String) :
    strippedLines (padText raw).toList = (strippedLines raw.toList).map spaced := by
  have hne : (Text.lines raw.toList).map padLine ≠ [] := by
    rw [ne_eq, List.map_eq_nil_iff]
    exact List.splitOn_ne_nil '\n' raw.toList
  have hnewline : ∀ line ∈ (Text.lines raw.toList).map padLine, '\n' ∉ line := by
    intro line hline
    obtain ⟨old, hold, rfl⟩ := List.mem_map.mp hline
    exact fun hn => Text.newline_notMem_lines hold (newline_mem_padLine.mp hn)
  have hstrip : (Text.lines raw.toList).map (Text.stripEnd ∘ padLine) =
      ((Text.lines raw.toList).map Text.stripEnd).map spaced := by
    rw [List.map_map]
    exact List.map_congr_left fun line _ => stripEnd_padLine line
  rw [strippedLines, padText, String.toList_ofList, Text.lines_join hne hnewline, List.map_map,
    hstrip, Text.dropTrailingEmpty, Text.dropTrailing_map]
  simp only [spaced_eq_nil_iff]
  rfl

/-- The first stripped line with text is the first line with text, stripped. -/
theorem firstText?_strippedLines (raw : List Char) :
    firstText? (strippedLines raw) = ((Text.lines raw).find? hasText).map Text.stripEnd := by
  obtain ⟨empties, hsplit, hempties⟩ := Text.exists_dropTrailing_append
    (fun line => decide (line = [])) ((Text.lines raw).map Text.stripEnd)
  have hnone : firstText? empties = none :=
    List.find?_eq_none.mpr fun line hline => by simpa using hempties line hline
  have hfirst : firstText? (strippedLines raw ++ empties) = firstText? (strippedLines raw) := by
    unfold firstText? at hnone ⊢
    rw [List.find?_append, hnone, Option.or_none]
  rw [← hfirst, strippedLines, Text.dropTrailingEmpty, hsplit, firstText?, List.find?_map]
  refine congrArg (Option.map Text.stripEnd) (List.find?_congr fun line _ => ?_)
  rw [Function.comp_apply, Bool.eq_iff_iff, decide_eq_true_iff, Text.stripEnd_ne_nil_iff]

/-- If the first line with text does not begin with a space, the spaces that are put in
front of lines are taken for padding. -/
theorem unpad_padText {raw : String}
    (h : ∀ first ∈ (Text.lines raw.toList).find? hasText, ¬ [' '] <+: first) :
    unpad (strippedLines (padText raw).toList) = unpad (strippedLines raw.toList) := by
  have hflush : ∀ first ∈ firstText? (strippedLines raw.toList), ¬ [' '] <+: first := by
    rw [firstText?_strippedLines]
    intro first hfirst hspace
    obtain ⟨old, hold, rfl⟩ := Option.map_eq_some_iff.mp hfirst
    exact h old hold (hspace.trans (Text.stripEnd_prefix old))
  have hunpadded : unpad (strippedLines raw.toList) = strippedLines raw.toList :=
    unpad_of_unpadded fun first hfirst =>
      (isPadded_eq_false_iff first).mpr fun hspace => absurd hspace (hflush first hfirst)
  rw [strippedLines_padText, hunpadded]
  by_cases hnone : strippedLines raw.toList = []
  · rw [hnone]
    rfl
  · obtain ⟨first, hfirst, hne⟩ :=
      (trimmed_strippedLines raw.toList).exists_firstText?_eq hnone
    rw [unpad_map_spaced hfirst, if_pos ((isPadded_spaced hne).mpr (hflush first hfirst))]

/-! ## Texts that look the same -/

/-- Raw texts of the same stripped lines, padding aside, have the same normal lines. -/
theorem normalize_eq_of_unpad_eq {a b : String}
    (h : unpad (strippedLines a.toList) = unpad (strippedLines b.toList)) :
    normalize a = normalize b := by
  rw [normalize, normalLines, h]
  rfl

/-- **Differences that cannot be seen do not matter.**  A raw text has the same normal lines
when runs of blanks are put in at the ends of its lines and lines of blanks at its end, for
instance when every newline becomes a carriage return and a newline.  If its first line with
text does not begin with a space, it also has the same normal lines when every line with
text is put behind a space. -/
theorem normalize_ignoresBlanks (raw : String) :
    (∀ runs more : List (List Char), (∀ run ∈ runs, Text.IsBlankRun run) →
      (∀ line ∈ more, Text.IsBlankRun line) →
      normalize (String.ofList
        (['\n'].intercalate (Text.insertAtLineEnds runs raw.toList :: more))) = normalize raw) ∧
      normalize (String.ofList (Text.withReturns raw.toList)) = normalize raw ∧
      ((∀ first ∈ (Text.lines raw.toList).find? hasText, ¬ [' '] <+: first) →
        normalize (padText raw) = normalize raw) := by
  have hblanks : ∀ runs more : List (List Char), (∀ run ∈ runs, Text.IsBlankRun run) →
      (∀ line ∈ more, Text.IsBlankRun line) →
      normalize (String.ofList
        (['\n'].intercalate (Text.insertAtLineEnds runs raw.toList :: more))) = normalize raw := by
    intro runs more hruns hmore
    apply normalize_eq_of_unpad_eq
    rw [String.toList_ofList, strippedLines_insertAtLineEnds hruns hmore]
  refine ⟨hblanks, ?_, fun h => normalize_eq_of_unpad_eq (unpad_padText h)⟩
  have hreturns : ∀ run ∈ List.replicate (raw.toList.count '\n') ['\r'], Text.IsBlankRun run :=
    fun run hrun => (List.eq_of_mem_replicate hrun) ▸ Text.isBlankRun_return
  have hnone : ∀ line ∈ ([] : List (List Char)), Text.IsBlankRun line := List.forall_mem_nil _
  rw [Text.withReturns_eq_insertAtLineEnds, ← hblanks _ [] hreturns hnone,
    List.intercalate_singleton]

/-- Three lines, the first without text, of which the second begins with a tab and the third
with a space: with blanks at the ends of the lines and two blank lines after them, and with
padding in front of the second line and the third. -/
theorem normalize_ignoresBlanks_tabbed :
    let raw := "\n\tf\n $g"
    let runs := [['\t'], [' ', '\u00a0'], ['\r']]
    let more := [[' '], []]
    (∀ run ∈ runs, Text.IsBlankRun run) ∧ (∀ line ∈ more, Text.IsBlankRun line) ∧
      String.ofList (['\n'].intercalate (Text.insertAtLineEnds runs raw.toList :: more)) =
        "\t\n\tf \u00a0\n $g\r\n \n" ∧
      normalize "\t\n\tf \u00a0\n $g\r\n \n" = normalize raw ∧
      (∀ first ∈ (Text.lines raw.toList).find? hasText, ¬ [' '] <+: first) ∧
      padText raw = "\n \tf\n  $g" ∧ normalize "\n \tf\n  $g" = normalize raw := by
  intro raw runs more
  have hruns : ∀ run ∈ runs, Text.IsBlankRun run := by decide
  have hmore : ∀ line ∈ more, Text.IsBlankRun line := by decide
  have hflush : ∀ first ∈ (Text.lines raw.toList).find? hasText, ¬ [' '] <+: first := by decide
  have hinserted :
      String.ofList (['\n'].intercalate (Text.insertAtLineEnds runs raw.toList :: more)) =
        "\t\n\tf \u00a0\n $g\r\n \n" := by decide
  have hpadded : padText raw = "\n \tf\n  $g" := by decide
  obtain ⟨hblanks, -, hpad⟩ := normalize_ignoresBlanks raw
  exact ⟨hruns, hmore, hinserted, hinserted ▸ hblanks runs more hruns hmore, hflush, hpadded,
    hpadded ▸ hpad hflush⟩

end SourceLayout.DocComment
