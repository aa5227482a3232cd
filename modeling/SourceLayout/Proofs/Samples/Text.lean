import SourceLayout.Samples.Text
import SourceLayout.Proofs.Random.Draw
import SourceLayout.Proofs.Paragraph.Partition
import SourceLayout.Proofs.Layout.TrailingBlanks
import SourceLayout.Proofs.Layout.Characters

/-! # What sample texts look like

Identifiers are words: they are not empty, and have only letters, digits, underscores and
primes.  No such character is a blank, or one by which a layout tells one kind of line from
another.  So a text that begins with a word is plain, and one that ends in a word is a line.  A
capitalized word is a word, a number is one, and a module name is made of words with dots
between them.

Docs have blanks in them, but among these no line break other than the newline.
-/
namespace SourceLayout

/-- A text that is a line for every reader, not empty, and without blanks at its end. -/
structure IsLine (text : String) : Prop extends TidyText text where
  ne_empty : text ≠ ""
  flat : Flat text

instance : DecidablePred IsLine := fun _ =>
  decidable_of_iff (_ ∧ _ ∧ _) ⟨fun h => ⟨h.1, h.2.1, h.2.2⟩,
    fun h => ⟨h.toTidyText, h.ne_empty, h.flat⟩⟩

/-- Whatever is on one line can stand before a line. -/
theorem IsLine.append {a b : String} (ha : Flat a) (hb : IsLine b) : IsLine (a ++ b) where
  toTidyText :=
    TidyText.append (fun hn => absurd (ha '\n' hn) (by decide)) hb.toTidyText hb.ne_empty
  ne_empty := fun he => hb.ne_empty (String.append_eq_empty_iff.mp he).2
  flat := ha.append hb.flat

namespace Samples

open Draw

/-! ## Words -/

/-- The characters of identifiers: letters, digits, underscores and primes. -/
def isNameChar (c : Char) : Bool := c.isAlphanum || c == '_' || c == '\x27'

/-- A text of such characters, and not an empty one. -/
structure IsWord (text : String) : Prop where
  ne_empty : text ≠ ""
  isNameChar : ∀ c ∈ text.toList, isNameChar c = true

theorem isNameChar_of_isDigit {c : Char} (h : c.isDigit = true) : isNameChar c = true := by
  rw [isNameChar, Char.isAlphanum, h, Bool.or_true]
  rfl

/-- The bounds of a class of characters, as code points. -/
theorem val_between_iff (low high c : Char) : (low.val ≤ c.val ∧ c.val ≤ high.val) ↔
    low.toNat ≤ c.toNat ∧ c.toNat ≤ high.toNat := by
  simp only [UInt32.le_iff_toNat_le, Char.toNat_val]

theorem isUpper_iff {c : Char} : c.isUpper = true ↔ 65 ≤ c.toNat ∧ c.toNat ≤ 90 := by
  show decide ('A'.val ≤ c.val ∧ c.val ≤ 'Z'.val) = true ↔ _
  rw [decide_eq_true_eq, val_between_iff]
  rfl

theorem isLower_iff {c : Char} : c.isLower = true ↔ 97 ≤ c.toNat ∧ c.toNat ≤ 122 := by
  show (decide ('a'.val ≤ c.val) && decide (c.val ≤ 'z'.val)) = true ↔ _
  rw [Bool.and_eq_true, decide_eq_true_eq, decide_eq_true_eq, val_between_iff]
  rfl

theorem isDigit_iff {c : Char} : c.isDigit = true ↔ 48 ≤ c.toNat ∧ c.toNat ≤ 57 := by
  show (decide ('0'.val ≤ c.val) && decide (c.val ≤ '9'.val)) = true ↔ _
  rw [Bool.and_eq_true, decide_eq_true_eq, decide_eq_true_eq, val_between_iff]
  rfl

/-- The code points of the characters of identifiers. -/
theorem isNameChar_iff {c : Char} :
    isNameChar c = true ↔ (65 ≤ c.toNat ∧ c.toNat ≤ 90) ∨ (97 ≤ c.toNat ∧ c.toNat ≤ 122) ∨
      (48 ≤ c.toNat ∧ c.toNat ≤ 57) ∨ c.toNat = 95 ∨ c.toNat = 39 := by
  show (((c.isUpper || c.isLower) || c.isDigit) || c == '_' || c == '\x27') = true ↔ _
  simp only [Bool.or_eq_true, isUpper_iff, isLower_iff, isDigit_iff, beq_iff_eq, ← Char.toNat_inj,
    Char.reduceToNat, or_assoc]

/-- Only small letters change when a character is made large. -/
theorem toNat_toUpper (c : Char) : c.toUpper.toNat =
    if 97 ≤ c.toNat ∧ c.toNat ≤ 122 then c.toNat - 32 else c.toNat := by
  by_cases h : 97 ≤ c.toNat ∧ c.toNat ≤ 122
  · have hlarge : c.toUpper = _ := dif_pos ((val_between_iff 'a' 'z' c).mpr h)
    rw [if_pos h, hlarge]
    show (c.val + ('A'.val - 'a'.val)).toNat = _
    -- the difference is negative, and adding it wraps around
    have hdiff : ('A'.val - 'a'.val).toNat = 4294967264 := by decide
    rw [UInt32.toNat_add, hdiff, Char.toNat_val]
    omega
  · rw [if_neg h]
    exact congrArg Char.toNat (dif_neg (mt (val_between_iff 'a' 'z' c).mp h))

/-- Only large letters change when it is made small. -/
theorem toNat_toLower (c : Char) : c.toLower.toNat =
    if 65 ≤ c.toNat ∧ c.toNat ≤ 90 then c.toNat + 32 else c.toNat := by
  by_cases h : 65 ≤ c.toNat ∧ c.toNat ≤ 90
  · have hsmall : c.toLower = _ := dif_pos ((val_between_iff 'A' 'Z' c).mpr h)
    rw [if_pos h, hsmall]
    show (c.val + ('a'.val - 'A'.val)).toNat = _
    have hdiff : ('a'.val - 'A'.val).toNat = 32 := by decide
    rw [UInt32.toNat_add, hdiff, Char.toNat_val]
    omega
  · rw [if_neg h]
    exact congrArg Char.toNat (dif_neg (mt (val_between_iff 'A' 'Z' c).mp h))

theorem isNameChar_toUpper {c : Char} (h : isNameChar c = true) : isNameChar c.toUpper = true := by
  rw [isNameChar_iff] at h ⊢
  rw [toNat_toUpper]
  split <;> omega

theorem isNameChar_toLower {c : Char} (h : isNameChar c = true) : isNameChar c.toLower = true := by
  rw [isNameChar_iff] at h ⊢
  rw [toNat_toLower]
  split <;> omega

theorem isBlank_eq_false_of_isNameChar {c : Char} (h : isNameChar c = true) :
    Text.isBlank c = false := by
  rw [isNameChar_iff] at h
  simp only [Text.isBlank, Text.blankRanges, Text.inRanges, Bool.if_false_left, Bool.or_false,
    Bool.and_eq_false_imp, Bool.or_eq_false_iff, Bool.not_eq_eq_eq_not, Bool.not_true,
    decide_eq_false_iff_not]
  omega

namespace IsWord

variable {text : String} (h : IsWord text)
include h

theorem isBlank_eq_false : ∀ c ∈ text.toList, Text.isBlank c = false :=
  fun c hc => isBlank_eq_false_of_isNameChar (h.isNameChar c hc)

theorem isLine : IsLine text where
  toTidyText := TidyText.of_not_blank h.isBlank_eq_false
  ne_empty := h.ne_empty
  flat := fun c hc => isLineBreak_eq_false_of_not_blank (h.isBlank_eq_false c hc)

theorem exists_cons : ∃ c rest, text.toList = c :: rest ∧ Samples.isNameChar c = true ∧
    ∀ d ∈ rest, Samples.isNameChar d = true := by
  obtain ⟨c, rest, hchars⟩ :=
    List.exists_cons_of_ne_nil fun he => h.ne_empty (String.toList_eq_nil_iff.mp he)
  have hall := h.isNameChar
  rw [hchars, List.forall_mem_cons] at hall
  exact ⟨c, rest, hchars, hall⟩

end IsWord

theorem isWord_ofList_cons {c : Char} {rest : List Char} (hc : isNameChar c = true)
    (hrest : ∀ d ∈ rest, isNameChar d = true) : IsWord (String.ofList (c :: rest)) where
  ne_empty := by
    rw [← String.toList_inj.ne, String.toList_ofList]
    exact List.cons_ne_nil c rest
  isNameChar := by
    rw [String.toList_ofList]
    exact List.forall_mem_cons.mpr ⟨hc, hrest⟩

theorem IsWord.capitalized {text : String} (h : IsWord text) : IsWord (capitalized text) := by
  obtain ⟨c, rest, hchars, hc, hrest⟩ := h.exists_cons
  rw [Samples.capitalized, hchars]
  refine isWord_ofList_cons (isNameChar_toUpper hc) fun d hd => ?_
  obtain ⟨e, he, rfl⟩ := List.mem_map.mp hd
  exact isNameChar_toLower (hrest e he)

/-- Numbers are written with digits. -/
theorem isWord_toString (number : Nat) : IsWord (toString number) where
  ne_empty := by
    rw [Nat.toString_eq_ofList_toDigits, ← String.toList_inj.ne, String.toList_ofList]
    exact Nat.toDigits_ne_nil
  isNameChar := by
    rw [Nat.toString_eq_ofList_toDigits, String.toList_ofList]
    exact fun c hc => isNameChar_of_isDigit (Nat.isDigit_of_mem_toDigits (by omega) (by omega) hc)

/-! ## Drawn words -/

theorem possible_identifier {name : String} (h : identifier.Possible name) : IsWord name := by
  simp only [identifier, possible_bind, possible_pure, possible_oneOf, possible_times] at h
  obtain ⟨head, hhead, length, -, tail, ⟨-, htail⟩, rfl⟩ := h
  have hsmall : ('a' :: "bcdefghijklmnopqrstuvwxyz".toList).all isNameChar = true := by
    decide +kernel
  have hany : ('a' ::
      "bcdefghijklmnopqrstuvwxyzABCDEFGHIJKLMNOPQRSTUVWXYZ0123456789_\x27".toList).all
        isNameChar = true := by
    decide +kernel
  exact isWord_ofList_cons (List.all_eq_true.mp hsmall head hhead)
    fun c hc => List.all_eq_true.mp hany c (htail c hc)

/-- A module name is made of words and dots. -/
theorem possible_moduleName {name : String} (h : moduleName.Possible name) :
    ∀ c ∈ name.toList, c = '.' ∨ isNameChar c = true := by
  simp only [moduleName, possible_bind, possible_pure, possible_times, possible_map] at h
  obtain ⟨count, -, parts, ⟨-, hparts⟩, rfl⟩ := h
  intro c hc
  rw [String.toList_intercalate, show ".".toList = ['.'] from rfl] at hc
  rcases mem_intercalate_blank hc with hdot | ⟨part, hpart, hc⟩
  · exact Or.inl hdot
  · obtain ⟨word, hword, rfl⟩ := List.mem_map.mp hpart
    obtain ⟨name, hname, rfl⟩ := hparts word hword
    exact Or.inr ((possible_identifier hname).capitalized.isNameChar c hc)

/-! ## Docs -/

/-- A line of a doc is a line for every reader. -/
theorem possible_docLine {padding line : String} (hpadding : Flat padding)
    (h : (docLine padding).Possible line) : Flat line := by
  simp only [docLine, possible_bind] at h
  obtain ⟨t, -, h⟩ := h
  split at h
  · have hblank : ∀ text ∈ ["", " ", "   "], Flat text := by decide
    exact hblank line (possible_oneOf.mp h)
  split at h
  · simp only [possible_bind, possible_pure] at h
    obtain ⟨name, hname, rfl⟩ := h
    have hmarker : Flat "$" := by decide
    exact (hpadding.append hmarker).append (possible_identifier hname).isLine.flat
  split at h
  · simp only [possible_bind, possible_pure] at h
    obtain ⟨name, hname, rfl⟩ := h
    have hprompt : Flat "  >>> " := by decide
    have hargument : Flat " 1" := by decide
    have hword := (possible_identifier hname).isLine.flat
    exact ((hpadding.append hprompt).append hword).append hargument
  · simp only [possible_bind, possible_pure, possible_times, possible_oneOf] at h
    obtain ⟨count, -, words, ⟨-, hwords⟩, leftover, hleftover, rfl⟩ := h
    have hends : ∀ text ∈ ["", " ", "\t", "$"], Flat text := by decide
    have hline : Flat (" ".intercalate words) := by
      refine WrittenIn.intercalate ' ' (by decide) fun word hword => ?_
      exact (possible_identifier (hwords word hword)).isLine.flat
    exact (hpadding.append hline).append (hends leftover hleftover)

theorem possible_docCommentLines {lines : List String} (h : docCommentLines.Possible lines) :
    ∀ line ∈ lines, Flat line := by
  simp only [docCommentLines, possible_bind, possible_oneOf, possible_times] at h
  obtain ⟨padding, hpadding, count, -, lines, ⟨-, hlines⟩, empty, -, h⟩ := h
  have hpaddings : ∀ text ∈ ["", " ", " ", "  ", "\t"], Flat text := by decide
  have hflat : ∀ line ∈ lines, Flat line :=
    fun line hline => possible_docLine (hpaddings padding hpadding) (hlines line hline)
  split at h
  · simp only [possible_bind, possible_pure] at h
    obtain ⟨count, -, rfl⟩ := h
    refine List.forall_mem_append.mpr ⟨hflat, fun line hline => ?_⟩
    rw [(List.mem_replicate.mp hline).2]
    decide
  · rw [possible_pure] at h
    rw [h]
    exact hflat

/-- **A doc has no line breaks but newlines.** -/
theorem possible_docComment {raw : String} (h : docComment.Possible raw) :
    WrittenIn (fun c => c ≠ '\n' → isLineBreak c = false) raw := by
  simp only [docComment, possible_bind, possible_pure] at h
  obtain ⟨lines, hlines, rfl⟩ := h
  refine WrittenIn.intercalate '\n' (fun hne => absurd rfl hne) fun line hline c hc _ => ?_
  exact possible_docCommentLines hlines line hline c hc

/-! ## The texts of a module -/

/-- The name of a module is on one line, and has no equals sign. -/
theorem text_of_module {name : String} (h : moduleName.Possible name) :
    TidyText name ∧ Flat name ∧ '=' ∉ name.toList := by
  have hblank : ∀ c ∈ name.toList, Text.isBlank c = false := by
    intro c hc
    rcases possible_moduleName h c hc with rfl | hchar
    · decide
    · exact isBlank_eq_false_of_isNameChar hchar
  refine ⟨TidyText.of_not_blank hblank,
    fun c hc => isLineBreak_eq_false_of_not_blank (hblank c hc), fun hequals => ?_⟩
  rcases possible_moduleName h '=' hequals with he | hchar
  · exact absurd he (by decide)
  · exact absurd hchar (by decide)

/-- The text of a declaration: a name, and its definition behind an equals sign. -/
theorem text_of_declaration {name body : String} (hname : IsWord name) (hbody : IsWord body) :
    IsLine (name ++ " = " ++ body) ∧ PlainText (name ++ " = " ++ body) ∧
      '=' ∈ (name ++ " = " ++ body).toList := by
  obtain ⟨c, rest, hchars, hc, -⟩ := hname.exists_cons
  have htext : (name ++ " = " ++ body).toList = c :: (rest ++ " = ".toList ++ body.toList) := by
    rw [String.toList_append, String.toList_append, hchars]
    rfl
  have hequals : Flat " = " := by decide
  have hline := IsLine.append (hname.isLine.flat.append hequals) hbody.isLine
  refine ⟨hline, ⟨hline.ne_empty, hline.no_newline, ?_, ?_⟩, ?_⟩
  · rw [htext]
    rintro ⟨⟩
    exact absurd hc (by decide)
  · rw [htext]
    rintro ⟨_, he⟩
    obtain ⟨rfl, -⟩ := List.cons.inj he
    exact absurd hc (by decide)
  · rw [htext]
    simp

/-- The text of a local definition. -/
theorem text_of_child {name : String} (hname : IsWord name) (number : Nat) :
    IsLine ("where " ++ name ++ " = " ++ toString number) := by
  have hwhere : Flat "where " := by decide
  have hequals : Flat " = " := by decide
  exact IsLine.append ((WrittenIn.append hwhere hname.isLine.flat).append hequals)
    (isWord_toString number).isLine

end Samples

end SourceLayout
