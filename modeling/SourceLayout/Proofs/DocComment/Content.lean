import SourceLayout.Proofs.DocComment.NormalForm
import SourceLayout.Proofs.Text.Blanks

/-! # Normalization keeps the text

The normal lines of a raw text are its lines up to the last one that has text.  Each is
changed by itself and all in the same way: it is stripped, gives up the space in front of
it or keeps it, and is escaped (`exists_normalLines_eq_map`).  Only the first line with
text has a say in what the others do, and it decides no more than whether the space is
given up.

So the characters that are not blank are those of the raw text, apart from an escape mark
in front of a line that would begin with a section marker.  And lines that begin with a
space stay aligned, since all of them lose as many spaces, one or none
(`normalize_keepsText`).
-/
namespace SourceLayout.DocComment

open Text (hasText withoutBlanks)

/-- Whether the line at place `k` is the last one with text. -/
def IsLastText (ls : List (List Char)) (k : Nat) : Prop :=
  (∃ line, ls[k]? = some line ∧ hasText line = true) ∧
    ∀ i, k < i → ∀ line, ls[i]? = some line → hasText line = false

/-- The lines of a raw text before section markers are escaped. -/
def plainLines (raw : List Char) : List (List Char) := unpad (strippedLines raw)

/-- The number of spaces in front of a line. -/
def leadingSpaces (line : List Char) : Nat := (line.takeWhile fun c => decide (c = ' ')).length

/-- A line that has text and begins with a space. -/
structure IsIndented (line : List Char) : Prop where
  hasText : hasText line = true
  indented : [' '] <+: line

/-! ## The lines that are kept -/

/-- Unless all lines are without text, there is a last one that has some. -/
theorem exists_isLastText (ls : List (List Char)) :
    (∀ line ∈ ls, hasText line = false) ∨ ∃ k, IsLastText ls k := by
  induction ls with
  | nil => exact Or.inl fun _ hline => absurd hline List.not_mem_nil
  | cons first rest ih =>
    rcases ih with hnone | ⟨k, hlast, hbehind⟩
    · cases hfirst : hasText first with
      | false => exact Or.inl (List.forall_mem_cons.mpr ⟨hfirst, hnone⟩)
      | true =>
        refine Or.inr ⟨0, ⟨first, rfl, hfirst⟩, fun i hi line hline => ?_⟩
        obtain ⟨i, rfl⟩ := Nat.exists_eq_add_of_lt hi
        exact hnone line (List.mem_of_getElem? hline)
    · refine Or.inr ⟨k + 1, hlast, fun i hi line hline => ?_⟩
      obtain ⟨i, rfl⟩ := Nat.exists_eq_add_of_lt (Nat.zero_lt_of_lt hi)
      exact hbehind (0 + i) (by omega) line hline

theorem IsLastText.lt_length {ls : List (List Char)} {k : Nat} (h : IsLastText ls k) :
    k < ls.length := by
  obtain ⟨⟨line, hline, -⟩, -⟩ := h
  exact (List.getElem?_eq_some_iff.mp hline).1

/-- A line with text does not stand behind the last one. -/
theorem IsLastText.le_of_hasText {ls : List (List Char)} {k i : Nat} (h : IsLastText ls k)
    {line : List Char} (hline : ls[i]? = some line) (htext : hasText line = true) : i ≤ k := by
  by_contra hi
  have hnone := h.2 i (by omega) line hline
  rw [htext] at hnone
  cases hnone

/-- The lines behind the last one with text are dropped, and no others. -/
theorem strippedLines_eq_map_take {raw : List Char} {k : Nat} (h : IsLastText (Text.lines raw) k) :
    strippedLines raw = ((Text.lines raw).take (k + 1)).map Text.stripEnd := by
  obtain ⟨⟨line, hline, htext⟩, hbehind⟩ := h
  have hlast : ((Text.lines raw).map Text.stripEnd)[k]? = some (Text.stripEnd line) := by
    rw [List.getElem?_map, hline]
    rfl
  rw [strippedLines, Text.dropTrailingEmpty, Text.dropTrailing_eq_take hlast, List.map_take]
  · exact decide_eq_false (Text.stripEnd_ne_nil_iff.mpr htext)
  · intro i hi stripped hstripped
    rw [List.getElem?_map] at hstripped
    obtain ⟨old, hold, rfl⟩ := Option.map_eq_some_iff.mp hstripped
    exact decide_eq_true (Text.stripEnd_eq_nil_iff.mpr (hbehind i hi old hold))

/-- A raw text without text has one normal line, which is empty. -/
theorem normalLines_of_no_text {raw : List Char}
    (h : ∀ line ∈ Text.lines raw, hasText line = false) : normalLines raw = [[]] := by
  have hnone : strippedLines raw = [] := by
    refine Text.dropTrailing_eq_nil_iff.mpr fun stripped hstripped => ?_
    obtain ⟨old, hold, rfl⟩ := List.mem_map.mp hstripped
    exact decide_eq_true (Text.stripEnd_eq_nil_iff.mpr (h old hold))
  rw [normalLines, hnone]
  rfl

/-- Either all lines keep the space in front of them, or all give it up. -/
theorem exists_unpad_eq_map (ls : List (List Char)) :
    ∃ f, (f = id ∨ f = dropSpace) ∧ unpad ls = ls.map f := by
  have hkeep : ls = ls.map id := (List.map_id ls).symm
  unfold unpad
  split
  · split
    · exact ⟨dropSpace, Or.inr rfl, rfl⟩
    · exact ⟨id, Or.inl rfl, hkeep⟩
  · exact ⟨id, Or.inl rfl, hkeep⟩

/-- **Every line is changed by itself, and all in the same way.** -/
theorem exists_normalLines_eq_map {raw : List Char} {k : Nat} (h : IsLastText (Text.lines raw) k) :
    ∃ f, (f = id ∨ f = dropSpace) ∧
      plainLines raw = ((Text.lines raw).take (k + 1)).map (fun line => f (Text.stripEnd line)) ∧
      normalLines raw =
        ((Text.lines raw).take (k + 1)).map fun line => escapeMarker (f (Text.stripEnd line)) := by
  obtain ⟨f, hf, hunpad⟩ := exists_unpad_eq_map (strippedLines raw)
  have hplain : plainLines raw =
      ((Text.lines raw).take (k + 1)).map fun line => f (Text.stripEnd line) := by
    rw [plainLines, hunpad, strippedLines_eq_map_take h, List.map_map]
    rfl
  refine ⟨f, hf, hplain, ?_⟩
  have hne : (Text.lines raw).take (k + 1) ≠ [] := by
    rw [← List.length_pos_iff, List.length_take]
    have := h.lt_length
    omega
  rw [normalLines, ← plainLines, hplain, List.map_map,
    orEmptyLine_of_ne_nil fun he => hne (List.map_eq_nil_iff.mp he)]
  rfl

theorem length_normalLines {raw : List Char} {k : Nat} (h : IsLastText (Text.lines raw) k) :
    (normalLines raw).length = k + 1 := by
  obtain ⟨f, -, -, hnormal⟩ := exists_normalLines_eq_map h
  rw [hnormal, List.length_map, List.length_take]
  have := h.lt_length
  omega

/-! ## What is kept of a line -/

@[simp] theorem withoutBlanks_dropSpace (line : List Char) :
    withoutBlanks (dropSpace line) = withoutBlanks line := by
  unfold dropSpace
  split
  · next rest => exact (Text.withoutBlanks_cons_of_pos (by decide) rest).symm
  · rfl

/-- Escaping adds a mark in front of a section marker and nothing else. -/
theorem withoutBlanks_escapeMarker (line : List Char) :
    withoutBlanks (escapeMarker line) =
      if line.head? = some '$' then '\x5c' :: withoutBlanks line else withoutBlanks line := by
  rw [escapeMarker, sectionMarker, escapeMark]
  split
  · exact Text.withoutBlanks_cons_of_neg (by decide) line
  · rfl

theorem leadingSpaces_dropSpace {line : List Char} (h : [' '] <+: line) :
    leadingSpaces (dropSpace line) + 1 = leadingSpaces line := by
  obtain ⟨rest, rfl⟩ := h
  rfl

/-- A line that begins with a section marker has no spaces in front, with an escape mark or
without. -/
theorem leadingSpaces_escapeMarker (line : List Char) :
    leadingSpaces (escapeMarker line) = leadingSpaces line := by
  unfold escapeMarker
  split
  · next h =>
    obtain ⟨rest, rfl⟩ := List.head?_eq_some_iff.mp h
    rfl
  · rfl

/-- The spaces in front of text do not stand at the end of the line. -/
theorem leadingSpaces_stripEnd {line : List Char} (h : hasText line = true) :
    leadingSpaces (Text.stripEnd line) = leadingSpaces line := by
  obtain ⟨blanks, hsplit, -⟩ := Text.exists_dropTrailing_append Text.isBlank line
  have hline : Text.stripEnd line ++ blanks = line := hsplit
  obtain ⟨c, hc, htext⟩ := List.any_eq_true.mp h
  have hkept : c ∈ Text.stripEnd line := by
    have hmem : c ∈ withoutBlanks (Text.stripEnd line) := by
      rw [Text.withoutBlanks_stripEnd]
      exact List.mem_filter.mpr ⟨hc, htext⟩
    exact List.mem_of_mem_filter hmem
  have hspace : c ≠ ' ' := by
    rintro rfl
    exact absurd htext (by decide)
  -- the spaces end before `c`, which is not dropped
  have hshort : ((Text.stripEnd line).takeWhile fun c => decide (c = ' ')).length ≠
      (Text.stripEnd line).length := by
    intro hall
    have hwhole := (List.takeWhile_prefix _).eq_of_length hall
    rw [← hwhole] at hkept
    exact hspace (of_decide_eq_true (List.mem_takeWhile_imp hkept :))
  unfold leadingSpaces
  nth_rewrite 2 [← hline]
  rw [List.takeWhile_append, if_neg hshort]

theorem IsIndented.stripEnd {line : List Char} (h : IsIndented line) :
    [' '] <+: Text.stripEnd line := by
  have hprefix := Text.stripEnd_prefix line
  have hne := List.length_pos_iff.mpr (Text.stripEnd_ne_nil_iff.mpr h.hasText)
  exact List.prefix_of_prefix_length_le h.indented hprefix hne

/-- **All indented lines lose as many spaces.** -/
theorem exists_leadingSpaces_add_eq (raw : List Char) :
    ∃ lost, ∀ (i : Nat) line, (Text.lines raw)[i]? = some line → IsIndented line →
      ∃ normal, (normalLines raw)[i]? = some normal ∧
        leadingSpaces normal + lost = leadingSpaces line := by
  rcases exists_isLastText (Text.lines raw) with hnone | ⟨k, hlast⟩
  · refine ⟨0, fun i line hline h => ?_⟩
    have htext := hnone line (List.mem_of_getElem? hline)
    rw [h.hasText] at htext
    cases htext
  · obtain ⟨f, hf, -, hnormal⟩ := exists_normalLines_eq_map hlast
    have hplace : ∀ (i : Nat) line, (Text.lines raw)[i]? = some line → IsIndented line →
        (normalLines raw)[i]? = some (escapeMarker (f (Text.stripEnd line))) := by
      intro i line hline h
      have hi := hlast.le_of_hasText hline h.hasText
      rw [hnormal, List.getElem?_map, List.getElem?_take_of_lt (Nat.lt_succ_of_le hi), hline]
      rfl
    rcases hf with rfl | rfl
    · refine ⟨0, fun i line hline h => ⟨_, hplace i line hline h, ?_⟩⟩
      rw [leadingSpaces_escapeMarker]
      exact leadingSpaces_stripEnd h.hasText
    · refine ⟨1, fun i line hline h => ⟨_, hplace i line hline h, ?_⟩⟩
      rw [leadingSpaces_escapeMarker, leadingSpaces_dropSpace h.stripEnd,
        leadingSpaces_stripEnd h.hasText]

/-- A normal line has the text of the line that it comes from, and an escape mark if it
would begin with a section marker. -/
theorem exists_withoutBlanks_eq {raw : List Char} {k i : Nat} (h : IsLastText (Text.lines raw) k)
    (hi : i ≤ k) :
    ∃ old plain normal, (Text.lines raw)[i]? = some old ∧ (plainLines raw)[i]? = some plain ∧
      (normalLines raw)[i]? = some normal ∧
      withoutBlanks normal =
        if plain.head? = some '$' then '\x5c' :: withoutBlanks old else withoutBlanks old := by
  obtain ⟨f, hf, hplain, hnormal⟩ := exists_normalLines_eq_map h
  obtain ⟨old, hold⟩ : ∃ old, (Text.lines raw)[i]? = some old :=
    ⟨_, List.getElem?_eq_getElem (Nat.lt_of_le_of_lt hi h.lt_length)⟩
  have htext : withoutBlanks (f (Text.stripEnd old)) = withoutBlanks old := by
    rcases hf with rfl | rfl <;> simp
  refine ⟨old, f (Text.stripEnd old), escapeMarker (f (Text.stripEnd old)), hold, ?_, ?_, ?_⟩
  · rw [hplain, List.getElem?_map, List.getElem?_take_of_lt (Nat.lt_succ_of_le hi), hold]
    rfl
  · rw [hnormal, List.getElem?_map, List.getElem?_take_of_lt (Nat.lt_succ_of_le hi), hold]
    rfl
  · rw [withoutBlanks_escapeMarker, htext]

/-! ## Texts -/

theorem getElem?_normalize (raw : String) (i : Nat) :
    (normalize raw)[i]? = (normalLines raw.toList)[i]?.map String.ofList :=
  List.getElem?_map

/-- **Normalization keeps the text of a comment and the alignment of its lines.**  A raw text
has a normal line for each of its lines up to the last one with text, or an empty line if it
has no text.  Without its blanks, a normal line is the raw line without blanks, behind an
escape mark exactly if the line as it was before escaping begins with a section marker; no
normal line begins with one.  And of any two lines with text that begin with a space, one
stands as many spaces deeper than the other as it did before. -/
theorem normalize_keepsText (raw : String) :
    ((∀ line ∈ Text.lines raw.toList, hasText line = false) ∧ normalize raw = [""] ∨
      ∃ k, IsLastText (Text.lines raw.toList) k ∧ (normalize raw).length = k + 1 ∧
        ∀ i ≤ k, ∃ old plain normal, (Text.lines raw.toList)[i]? = some old ∧
          (plainLines raw.toList)[i]? = some plain ∧ (normalize raw)[i]? = some normal ∧
          withoutBlanks normal.toList =
            if plain.head? = some '$' then '\x5c' :: withoutBlanks old else withoutBlanks old) ∧
      (∀ line ∈ normalize raw, line.toList.head? ≠ some '$') ∧
      ∀ (i j : Nat) a b, (Text.lines raw.toList)[i]? = some a →
        (Text.lines raw.toList)[j]? = some b → IsIndented a → IsIndented b →
        ∃ a' b', (normalize raw)[i]? = some a' ∧ (normalize raw)[j]? = some b' ∧
          (leadingSpaces a'.toList : Int) - leadingSpaces b'.toList =
            leadingSpaces a - leadingSpaces b := by
  refine ⟨?_, ?_, ?_⟩
  · rcases exists_isLastText (Text.lines raw.toList) with hnone | ⟨k, hlast⟩
    · refine Or.inl ⟨hnone, ?_⟩
      rw [normalize, normalLines_of_no_text hnone]
      rfl
    · refine Or.inr ⟨k, hlast, ?_, fun i hi => ?_⟩
      · rw [normalize, List.length_map, length_normalLines hlast]
      · obtain ⟨old, plain, normal, hold, hplain, hnormal, htext⟩ :=
          exists_withoutBlanks_eq hlast hi
        refine ⟨old, plain, String.ofList normal, hold, hplain, ?_, ?_⟩
        · rw [getElem?_normalize, hnormal]
          rfl
        · rw [String.toList_ofList, htext]
  · exact fun line hline => (isNormal_normalize raw).unmarked _ (List.mem_map_of_mem hline)
  · intro i j a b ha hb hindentA hindentB
    obtain ⟨lost, hlost⟩ := exists_leadingSpaces_add_eq raw.toList
    obtain ⟨normalA, hnormalA, hspacesA⟩ := hlost i a ha hindentA
    obtain ⟨normalB, hnormalB, hspacesB⟩ := hlost j b hb hindentB
    refine ⟨String.ofList normalA, String.ofList normalB, ?_, ?_, ?_⟩
    · rw [getElem?_normalize, hnormalA]
      rfl
    · rw [getElem?_normalize, hnormalB]
      rfl
    · rw [String.toList_ofList, String.toList_ofList]
      omega

/-- A padded comment with a section marker behind the padding and one behind a tab, and with
lines of blanks at its end.  The third line stands three spaces deeper than the first. -/
theorem normalize_keepsText_padded :
    let raw := " $a\u00a0\n\t$b\n    c \n \n"
    let a := [' ', '$', 'a', '\u00a0']
    let b := [' ', ' ', ' ', ' ', 'c', ' ']
    normalize raw = ["\x5c$a", "\t$b", "   c"] ∧
      (Text.lines raw.toList)[0]? = some a ∧ (Text.lines raw.toList)[2]? = some b ∧
      IsIndented a ∧ IsIndented b ∧
      ∃ a' b', (normalize raw)[0]? = some a' ∧ (normalize raw)[2]? = some b' ∧
        (leadingSpaces a'.toList : Int) - leadingSpaces b'.toList =
          leadingSpaces a - leadingSpaces b := by
  intro raw a b
  have ha : (Text.lines raw.toList)[0]? = some a := by decide
  have hb : (Text.lines raw.toList)[2]? = some b := by decide
  have hindentA : IsIndented a := ⟨by decide, by decide⟩
  have hindentB : IsIndented b := ⟨by decide, by decide⟩
  obtain ⟨-, -, haligned⟩ := normalize_keepsText raw
  exact ⟨by decide, ha, hb, hindentA, hindentB, haligned 0 2 a b ha hb hindentA hindentB⟩

end SourceLayout.DocComment
