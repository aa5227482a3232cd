import Mathlib.Data.List.Find
import Mathlib.Tactic.TFAE
import SourceLayout.DocComment
import SourceLayout.Proofs.Text.Lines

/-! # The normal forms of doc comments

Normalizing a raw text strips its lines, drops the empty lines at its end, removes the
padding, and escapes section markers.  A later pass could undo an earlier one: removing
padding could empty a line or uncover a marker or another padding space.  It does not,
and `IsNormal` says what holds after all four:

* every line is stripped and none begins with a section marker;
* there is a line, and the last one has text unless it is the only one;
* the first line with text is not padded.

Each pass is shown to keep what the passes before it reached (`trimmed_strippedLines`,
`trimmed_unpad`, `trimmed_escape`).  Conversely every pass leaves a normal form alone
(`normalLines_join`), so the normal forms are exactly the results of normalization, and
each of them is its own (`normalize_normalForms`).
-/
namespace SourceLayout.DocComment

/-- The form of the lines of a comment after normalization. -/
structure IsNormal (ls : List (List Char)) : Prop where
  ne_nil : ls ≠ []
  /-- No line has blanks at its end. -/
  stripped : ∀ line ∈ ls, Text.stripEnd line = line
  /-- No line reads as the name of a section. -/
  unmarked : ∀ line ∈ ls, line.head? ≠ some '$'
  /-- Only a comment without text ends in an empty line. -/
  last_ne_nil : [] ∈ ls.getLast? → ls = [[]]
  /-- The first line with text begins with no space or with several. -/
  unpadded : ∀ line ∈ firstText? ls, [' '] <+: line → [' ', ' '] <+: line

/-- The lines of a raw text after its first pass: stripped, and not ending in an empty
line.  The lines between may be empty. -/
structure Trimmed (ls : List (List Char)) : Prop where
  stripped : ∀ line ∈ ls, Text.stripEnd line = line
  last_ne_nil : [] ∉ ls.getLast?

/-! ## What the passes do to a line -/

/-- A line is not padded if it begins with no space, or with another one after it. -/
theorem isPadded_eq_false_iff (line : List Char) :
    isPadded line = false ↔ ([' '] <+: line → [' ', ' '] <+: line) := by
  rcases line with _ | ⟨c, _ | ⟨d, rest⟩⟩
  · simp [isPadded]
  · by_cases hc : c = ' '
    · simp [isPadded, hc]
    · simp [isPadded, hc, Ne.symm hc]
  · by_cases hc : c = ' '
    · by_cases hd : d = ' '
      · simp [isPadded, hc, hd]
      · simp [isPadded, hc, hd, Ne.symm hd]
    · simp [isPadded, hc, Ne.symm hc]

/-- The space that a stripped line gives up has text behind it. -/
theorem dropSpace_eq_nil_iff {line : List Char} (h : Text.stripEnd line = line) :
    dropSpace line = [] ↔ line = [] := by
  unfold dropSpace
  split
  · next rest =>
    have hrest := (Text.stripEnd_cons_eq_self_iff.mp h).2
    constructor
    · intro he
      exact absurd (hrest he) (by decide)
    · exact fun he => absurd he (List.cons_ne_nil _ _)
  · rfl

theorem stripEnd_dropSpace {line : List Char} (h : Text.stripEnd line = line) :
    Text.stripEnd (dropSpace line) = dropSpace line := by
  unfold dropSpace
  split
  · exact (Text.stripEnd_cons_eq_self_iff.mp h).1
  · exact h

/-- A padded line begins with no space once it has given up the one that it has. -/
theorem isPadded_dropSpace {line : List Char} (h : isPadded line = true) :
    isPadded (dropSpace line) = false := by
  rcases line with _ | ⟨c, _ | ⟨d, rest⟩⟩
  · rfl
  · by_cases hc : c = ' ' <;> simp_all [isPadded, dropSpace]
  · by_cases hc : c = ' '
    · by_cases hd : d = ' ' <;> simp_all [isPadded, dropSpace]
    · simp_all [isPadded]

theorem escapeMarker_of_ne {line : List Char} (h : line.head? ≠ some '$') :
    escapeMarker line = line :=
  if_neg h

theorem escapeMarker_eq_nil_iff {line : List Char} : escapeMarker line = [] ↔ line = [] := by
  unfold escapeMarker
  split
  · next h =>
    constructor
    · exact fun he => absurd he (List.cons_ne_nil _ _)
    · rintro rfl
      exact absurd h (by simp)
  · rfl

theorem stripEnd_escapeMarker {line : List Char} (h : Text.stripEnd line = line) :
    Text.stripEnd (escapeMarker line) = escapeMarker line := by
  unfold escapeMarker
  split
  · exact Text.stripEnd_cons_eq_self_iff.mpr ⟨h, fun _ => by decide⟩
  · exact h

theorem head?_escapeMarker (line : List Char) : (escapeMarker line).head? ≠ some '$' := by
  unfold escapeMarker
  split
  · rw [List.head?_cons]
    decide
  · next h => exact h

/-- Escaping does not touch the front of a line that begins with a space. -/
theorem isPadded_escapeMarker {line : List Char} (h : isPadded line = false) :
    isPadded (escapeMarker line) = false := by
  unfold escapeMarker
  split
  · rfl
  · exact h

/-! ## What each pass keeps -/

/-- Trimmed lines stay trimmed when each is changed into a stripped line, and no line
with text into an empty one. -/
theorem Trimmed.map {ls : List (List Char)} {f : List Char → List Char} (h : Trimmed ls)
    (hs : ∀ line, Text.stripEnd line = line → Text.stripEnd (f line) = f line)
    (hne : ∀ line, Text.stripEnd line = line → (f line = [] ↔ line = [])) :
    Trimmed (ls.map f) where
  stripped := by
    intro line hline
    obtain ⟨old, hold, rfl⟩ := List.mem_map.mp hline
    exact hs old (h.stripped old hold)
  last_ne_nil := by
    rw [List.getLast?_map]
    intro hlast
    obtain ⟨old, hold, he⟩ := Option.map_eq_some_iff.mp hlast
    have hmem := List.mem_of_getLast? hold
    rw [(hne old (h.stripped old hmem)).mp he] at hold
    exact h.last_ne_nil hold

/-- The first line with text stays in its place. -/
theorem firstText?_map {ls : List (List Char)} {f : List Char → List Char}
    (hne : ∀ line ∈ ls, f line = [] ↔ line = []) :
    firstText? (ls.map f) = (firstText? ls).map f := by
  unfold firstText?
  rw [List.find?_map]
  refine congrArg (Option.map f) (List.find?_congr fun line hline => ?_)
  simp [hne line hline]

theorem trimmed_strippedLines (raw : List Char) : Trimmed (strippedLines raw) where
  stripped := by
    intro line hline
    obtain ⟨old, -, rfl⟩ := List.mem_map.mp (Text.mem_of_mem_dropTrailing hline)
    exact Text.stripEnd_stripEnd old
  last_ne_nil := by
    intro hlast
    have := Text.getLast?_dropTrailing [] hlast
    simp at this

theorem trimmed_unpad {ls : List (List Char)} (h : Trimmed ls) : Trimmed (unpad ls) := by
  unfold unpad
  split
  · split
    · exact h.map (fun _ => stripEnd_dropSpace) (fun _ => dropSpace_eq_nil_iff)
    · exact h
  · exact h

theorem trimmed_escape {ls : List (List Char)} (h : Trimmed ls) :
    Trimmed (ls.map escapeMarker) :=
  h.map (fun _ => stripEnd_escapeMarker) (fun _ _ => escapeMarker_eq_nil_iff)

/-- After the padding is gone, the first line with text is not padded. -/
theorem firstText?_unpad {ls : List (List Char)} (h : Trimmed ls) :
    ∀ line ∈ firstText? (unpad ls), isPadded line = false := by
  intro line hline
  unfold unpad at hline
  split at hline
  · next first hfirst =>
    split at hline
    · next hpad =>
      -- the line that gave up its space is still the first one with text
      rw [firstText?_map fun line hline => dropSpace_eq_nil_iff (h.stripped line hline),
        hfirst] at hline
      rw [← Option.some.inj hline]
      exact isPadded_dropSpace hpad
    · next hpad =>
      rw [hfirst] at hline
      rw [← Option.some.inj hline]
      exact (Bool.not_eq_true _).mp hpad
  · next hnone =>
    rw [hnone] at hline
    cases hline

/-- Normalization results in a normal form. -/
theorem isNormal_normalLines (raw : List Char) : IsNormal (normalLines raw) := by
  have hpad := trimmed_unpad (trimmed_strippedLines raw)
  have hfirst := firstText?_unpad (trimmed_strippedLines raw)
  have hesc := trimmed_escape hpad
  have hunpad : ∀ line ∈ firstText? ((unpad (strippedLines raw)).map escapeMarker),
      isPadded line = false := by
    rw [firstText?_map fun _ _ => escapeMarker_eq_nil_iff]
    intro line hline
    obtain ⟨old, hold, rfl⟩ := Option.map_eq_some_iff.mp hline
    exact isPadded_escapeMarker (hfirst old hold)
  have hmark : ∀ line ∈ (unpad (strippedLines raw)).map escapeMarker,
      line.head? ≠ some '$' := by
    intro line hline
    obtain ⟨old, -, rfl⟩ := List.mem_map.mp hline
    exact head?_escapeMarker old
  unfold normalLines
  cases hls : (unpad (strippedLines raw)).map escapeMarker with
  -- nothing but blanks: the lone empty line is put in at the end
  | nil => exact ⟨by simp [orEmptyLine], by simp [orEmptyLine], by simp [orEmptyLine],
      fun _ => rfl, by simp [orEmptyLine, firstText?]⟩
  | cons first rest =>
    rw [hls] at hesc hunpad hmark
    exact ⟨List.cons_ne_nil _ _, hesc.stripped, hmark, fun h => absurd h hesc.last_ne_nil,
      fun line hline => (isPadded_eq_false_iff line).mp (hunpad line hline)⟩

/-! ## What each pass leaves alone -/

theorem unpad_of_unpadded {ls : List (List Char)}
    (h : ∀ line ∈ firstText? ls, isPadded line = false) : unpad ls = ls := by
  unfold unpad
  split
  · next first hfirst =>
    rw [h first hfirst]
    rfl
  · rfl

theorem map_escapeMarker_of_unmarked {ls : List (List Char)}
    (h : ∀ line ∈ ls, line.head? ≠ some '$') : ls.map escapeMarker = ls := by
  refine (List.map_congr_left fun line hline => ?_).trans (List.map_id ls)
  exact escapeMarker_of_ne (h line hline)

theorem orEmptyLine_of_ne_nil {ls : List (List Char)} (h : ls ≠ []) : orEmptyLine ls = ls := by
  cases ls with
  | nil => exact absurd rfl h
  | cons _ _ => rfl

/-- Trimmed lines, written out with newlines, are stripped to themselves. -/
theorem strippedLines_join {ls : List (List Char)} (h : Trimmed ls) (hne : ls ≠ [])
    (hn : ∀ line ∈ ls, '\n' ∉ line) : strippedLines (['\n'].intercalate ls) = ls := by
  have hstrip : ls.map Text.stripEnd = ls :=
    (List.map_congr_left h.stripped).trans (List.map_id ls)
  unfold strippedLines
  rw [Text.lines_join hne hn, hstrip]
  refine Text.dropTrailing_eq_self_iff.mpr fun line hline => ?_
  rw [decide_eq_false_iff_not]
  rintro rfl
  exact h.last_ne_nil hline

/-- A normal form is trimmed, unless it is the comment without text. -/
theorem IsNormal.trimmed {ls : List (List Char)} (h : IsNormal ls) (htext : ls ≠ [[]]) :
    Trimmed ls :=
  ⟨h.stripped, fun hlast => htext (h.last_ne_nil hlast)⟩

/-- A normal form, written out with newlines, is normalized to itself. -/
theorem normalLines_join {ls : List (List Char)} (h : IsNormal ls)
    (hn : ∀ line ∈ ls, '\n' ∉ line) : normalLines (['\n'].intercalate ls) = ls := by
  by_cases htext : ls = [[]]
  · -- the comment without text: its only line is trimmed away and put back
    rw [htext]
    rfl
  · unfold normalLines
    rw [strippedLines_join (h.trimmed htext) h.ne_nil hn,
      unpad_of_unpadded fun line hline =>
        (isPadded_eq_false_iff line).mpr (h.unpadded line hline),
      map_escapeMarker_of_unmarked h.unmarked, orEmptyLine_of_ne_nil h.ne_nil]

/-! ## Lines stay lines -/

theorem mem_of_mem_dropSpace {line : List Char} {c : Char} (h : c ∈ dropSpace line) :
    c ∈ line := by
  unfold dropSpace at h
  split at h
  · exact List.mem_cons_of_mem _ h
  · exact h

section
variable {p : Char → Prop}

theorem forall_mem_strippedLines {raw : List Char} (h : ∀ c ∈ raw, c ≠ '\n' → p c) :
    ∀ line ∈ strippedLines raw, ∀ c ∈ line, p c := by
  intro line hline c hc
  obtain ⟨old, hold, rfl⟩ := List.mem_map.mp (Text.mem_of_mem_dropTrailing hline)
  obtain ⟨hraw, hne⟩ := Text.mem_of_mem_lines hold c (Text.mem_of_mem_dropTrailing hc)
  exact h c hraw hne

theorem forall_mem_unpad {ls : List (List Char)} (h : ∀ line ∈ ls, ∀ c ∈ line, p c) :
    ∀ line ∈ unpad ls, ∀ c ∈ line, p c := by
  intro line hline
  unfold unpad at hline
  split at hline
  · split at hline
    · obtain ⟨old, hold, rfl⟩ := List.mem_map.mp hline
      exact fun c hc => h old hold c (mem_of_mem_dropSpace hc)
    · exact h line hline
  · exact h line hline

theorem forall_mem_escapeMarker (hp : p escapeMark) {line : List Char} (h : ∀ c ∈ line, p c) :
    ∀ c ∈ escapeMarker line, p c := by
  unfold escapeMarker
  split
  · exact List.forall_mem_cons.mpr ⟨hp, h⟩
  · exact h

/-- Normal lines have the characters of the raw text, and escape marks. -/
theorem forall_mem_normalLines (hp : p escapeMark) {raw : List Char}
    (h : ∀ c ∈ raw, c ≠ '\n' → p c) : ∀ line ∈ normalLines raw, ∀ c ∈ line, p c := by
  have hescaped : ∀ line ∈ (unpad (strippedLines raw)).map escapeMarker, ∀ c ∈ line, p c := by
    intro line hline
    obtain ⟨old, hold, rfl⟩ := List.mem_map.mp hline
    exact forall_mem_escapeMarker hp (forall_mem_unpad (forall_mem_strippedLines h) old hold)
  intro line hline
  unfold normalLines at hline
  cases hls : (unpad (strippedLines raw)).map escapeMarker with
  | nil =>
    rw [hls] at hline
    rw [List.mem_singleton.mp hline]
    exact fun _ hc => absurd hc List.not_mem_nil
  | cons first rest =>
    rw [hls] at hline hescaped
    exact hescaped line hline

end

/-- Normal lines hold no newline. -/
theorem newline_notMem_normalLines {raw line : List Char} (h : line ∈ normalLines raw) :
    '\n' ∉ line := by
  have hall : ∀ line ∈ normalLines raw, ∀ c ∈ line, c ≠ '\n' :=
    forall_mem_normalLines (by decide) fun _ _ hne => hne
  exact fun hn => hall line h '\n' hn rfl

/-! ## Texts -/

theorem newline_notMem_normalize {raw line : String} (h : line ∈ normalize raw) :
    '\n' ∉ line.toList := by
  obtain ⟨chars, hchars, rfl⟩ := List.mem_map.mp h
  rw [String.toList_ofList]
  exact newline_notMem_normalLines hchars

theorem map_toList_normalize (raw : String) :
    (normalize raw).map String.toList = normalLines raw.toList := by
  unfold normalize
  rw [List.map_map]
  exact (List.map_congr_left fun _ _ => String.toList_ofList).trans (List.map_id _)

theorem isNormal_normalize (raw : String) : IsNormal ((normalize raw).map String.toList) := by
  rw [map_toList_normalize]
  exact isNormal_normalLines raw.toList

/-- A normal form is its own. -/
theorem normalize_join {ls : List String} (h : IsNormal (ls.map String.toList))
    (hn : ∀ line ∈ ls, '\n' ∉ line.toList) : normalize ("\n".intercalate ls) = ls := by
  have hchars : ∀ line ∈ ls.map String.toList, '\n' ∉ line := by
    intro line hline
    obtain ⟨old, hold, rfl⟩ := List.mem_map.mp hline
    exact hn old hold
  have hjoin : ("\n".intercalate ls).toList = ['\n'].intercalate (ls.map String.toList) :=
    String.toList_intercalate
  unfold normalize
  rw [hjoin, normalLines_join h hchars, List.map_map]
  exact (List.map_congr_left fun _ _ => String.ofList_toList).trans (List.map_id _)

/-- **Normalization results in exactly the normal forms, and fixes each of them.**  For
lines without newlines it is the same to be the normal lines of some text, to be one's
own normal lines, and to have the form `IsNormal`.  All normal lines are lines without
newlines, so normalizing twice is normalizing once. -/
theorem normalize_normalForms :
    (∀ ls : List String, (∀ line ∈ ls, '\n' ∉ line.toList) →
      List.TFAE [
        ∃ raw, normalize raw = ls,
        ls ≠ [] ∧ normalize ("\n".intercalate ls) = ls,
        IsNormal (ls.map String.toList)]) ∧
    ∀ raw : String,
      (∀ line ∈ normalize raw, '\n' ∉ line.toList) ∧
        normalize ("\n".intercalate (normalize raw)) = normalize raw := by
  constructor
  · intro ls hn
    tfae_have 1 → 3 := by
      rintro ⟨raw, rfl⟩
      exact isNormal_normalize raw
    tfae_have 3 → 2 := fun h => ⟨fun he => h.ne_nil (by rw [he]; rfl), normalize_join h hn⟩
    tfae_have 2 → 1 := fun h => ⟨_, h.2⟩
    tfae_finish
  · intro raw
    have hn : ∀ line ∈ normalize raw, '\n' ∉ line.toList := fun _ => newline_notMem_normalize
    exact ⟨hn, normalize_join (isNormal_normalize raw) hn⟩

/-- A comment that begins with an empty line and an indented one, above an escaped marker
and a line behind one space, is its own normal form. -/
theorem normalize_indented :
    (∀ line ∈ ["", "  f 1", "\x5c$x", " y"], '\n' ∉ line.toList) ∧
      normalize ("\n".intercalate ["", "  f 1", "\x5c$x", " y"]) =
        ["", "  f 1", "\x5c$x", " y"] := by
  have hn : ∀ line ∈ ["", "  f 1", "\x5c$x", " y"], '\n' ∉ line.toList := by decide
  have hnormal : IsNormal (["", "  f 1", "\x5c$x", " y"].map String.toList) :=
    ⟨by decide, by decide, by decide, by decide, by decide⟩
  have hfixed : ["", "  f 1", "\x5c$x", " y"] ≠ [] ∧
      normalize ("\n".intercalate ["", "  f 1", "\x5c$x", " y"]) =
        ["", "  f 1", "\x5c$x", " y"] :=
    ((normalize_normalForms.1 _ hn).out 2 1).mp hnormal
  exact ⟨hn, hfixed.2⟩

end SourceLayout.DocComment
