import Mathlib.Algebra.Group.Nat.Defs
import SourceLayout.Text.Quoted

/-! # Quoted texts can be read back

A character of a quoted text is written as itself or as an escape, which begins with a
backslash and tells by the character behind it how long it is.  So one character after the
other can be read back (`readChar`), without regard to what follows.

No character is written with the quote in front.  So the quote that follows the characters of
a text is the first one that is not part of them, and a quoted text tells its characters and
where it ends (`quotedChars_append_inj`).
-/
namespace SourceLayout.Text

theorem toList_quoted (text : String) : (quoted text).toList = quotedChars text.toList :=
  String.toList_ofList

/-! ## Hexadecimal numbers -/

/-- The value of a hexadecimal digit. -/
def digitValue (c : Char) : Nat := if c.isDigit then c.toNat - 48 else c.toNat - 87

/-- The number that hexadecimal digits stand for. -/
def hexValue (digits : List Char) : Nat := digits.foldl (fun n c => 16 * n + digitValue c) 0

theorem digitValue_digitChar {n : Nat} (h : n < 16) : digitValue (Nat.digitChar n) = n := by
  have hall : ∀ i : Fin 16, digitValue (Nat.digitChar i) = i := by decide
  exact hall ⟨n, h⟩

theorem hexValue_hexDigits {width n : Nat} (h : n < 16 ^ width) :
    hexValue (hexDigits width n) = n := by
  induction width generalizing n with
  | zero =>
    rw [Nat.pow_zero] at h
    exact (Nat.lt_one_iff.mp h).symm
  | succ width ih =>
    have hfront : n / 16 < 16 ^ width :=
      Nat.div_lt_of_lt_mul (by rwa [Nat.mul_comm, ← Nat.pow_succ])
    have hlast := digitValue_digitChar (Nat.mod_lt n (show 0 < 16 by decide))
    rw [hexDigits, hexValue, List.foldl_append, ← hexValue, ih hfront, List.foldl_cons,
      List.foldl_nil, hlast, Nat.div_add_mod]

/-! ## Reading a character -/

/-- The character of the code point that is given by the first `width` digits, and what is
left. -/
def readCodePoint (width : Nat) (text : List Char) : Char × List Char :=
  (Char.ofNat (hexValue (text.take width)), text.drop width)

/-- The first character of a quoted text, and what is left. -/
def readChar : List Char → Option (Char × List Char)
  | '\x5c' :: 't' :: rest => some ('\t', rest)
  | '\x5c' :: 'n' :: rest => some ('\n', rest)
  | '\x5c' :: 'r' :: rest => some ('\r', rest)
  | '\x5c' :: 'x' :: rest => some (readCodePoint 2 rest)
  | '\x5c' :: 'u' :: rest => some (readCodePoint 4 rest)
  | '\x5c' :: 'U' :: rest => some (readCodePoint 8 rest)
  | '\x5c' :: c :: rest => some (c, rest)
  | c :: rest => some (c, rest)
  | [] => none

/-- The two characters that a text can be quoted with. -/
def IsQuote (quote : Char) : Prop := quote = '\x27' ∨ quote = '\x22'

theorem isQuote_quoteFor (text : List Char) : IsQuote (quoteFor text) := by
  unfold quoteFor
  split
  · exact Or.inr rfl
  · exact Or.inl rfl

theorem readCodePoint_hexDigits (width : Nat) {c : Char} (h : c.toNat < 16 ^ width)
    (rest : List Char) : readCodePoint width (hexDigits width c.toNat ++ rest) = (c, rest) := by
  have hlength := length_hexDigits width c.toNat
  rw [readCodePoint, List.take_left' hlength, List.drop_left' hlength, hexValue_hexDigits h,
    Char.ofNat_toNat]

/-- A code point is written with as many digits as it needs. -/
theorem readChar_codePointEscape (c : Char) (rest : List Char) :
    readChar (codePointEscape c ++ rest) = some (c, rest) := by
  unfold codePointEscape
  split
  · next h => exact congrArg some (readCodePoint_hexDigits 2 h rest)
  · split
    · next h => exact congrArg some (readCodePoint_hexDigits 4 h rest)
    · exact congrArg some (readCodePoint_hexDigits 8 c.val.toNat_lt rest)

theorem readChar_cons_of_ne {c : Char} (h : c ≠ '\x5c') (rest : List Char) :
    readChar (c :: rest) = some (c, rest) := by
  unfold readChar
  split <;> simp_all

/-- **A character is read back as it was written.** -/
theorem readChar_quotedChar {quote : Char} (hquote : IsQuote quote) (c : Char) (rest : List Char) :
    readChar (quotedChar quote c ++ rest) = some (c, rest) := by
  unfold quotedChar
  split
  · next h =>
    -- a backslash or the quote, none of which names an escape
    rcases h with rfl | rfl
    · rfl
    · rcases hquote with rfl | rfl <;> rfl
  · next h =>
    split
    · next ht => rw [ht]; rfl
    · split
      · next hn => rw [hn]; rfl
      · split
        · next hr => rw [hr]; rfl
        · split
          · exact readChar_cons_of_ne (fun hc => h (Or.inl hc)) rest
          · exact readChar_codePointEscape c rest

/-! ## Reading a text -/

/-- A character is written as itself, and is not the quote, or as an escape. -/
theorem quotedChar_cases (quote c : Char) :
    (quotedChar quote c = [c] ∧ c ≠ quote) ∨ ∃ rest, quotedChar quote c = '\x5c' :: rest := by
  unfold quotedChar
  split
  · exact Or.inr ⟨_, rfl⟩
  · next h =>
    split
    · exact Or.inr ⟨_, rfl⟩
    · split
      · exact Or.inr ⟨_, rfl⟩
      · split
        · exact Or.inr ⟨_, rfl⟩
        · split
          · exact Or.inl ⟨rfl, fun hc => h (Or.inr hc)⟩
          · unfold codePointEscape
            split
            · exact Or.inr ⟨_, rfl⟩
            · split
              · exact Or.inr ⟨_, rfl⟩
              · exact Or.inr ⟨_, rfl⟩

/-- No character is written with the quote in front. -/
theorem quote_cons_ne_quotedChar_append {quote : Char} (hquote : IsQuote quote) (c : Char)
    (rest after : List Char) : quote :: after ≠ quotedChar quote c ++ rest := by
  intro h
  rcases quotedChar_cases quote c with ⟨hself, hne⟩ | ⟨escape, hescape⟩
  · rw [hself, List.singleton_append] at h
    exact hne (List.cons.inj h).1.symm
  · rw [hescape, List.cons_append] at h
    have hmark := (List.cons.inj h).1
    rcases hquote with rfl | rfl <;> exact absurd hmark (by decide)

/-- The characters of a text that is followed by the quote are read back one by one. -/
theorem flatMap_quotedChar_append_inj {quote : Char} (hquote : IsQuote quote)
    {a b r s : List Char}
    (h : a.flatMap (quotedChar quote) ++ quote :: r = b.flatMap (quotedChar quote) ++ quote :: s) :
    a = b ∧ r = s := by
  induction a generalizing b with
  | nil =>
    cases b with
    | nil => exact ⟨rfl, (List.cons.inj h).2⟩
    | cons d b =>
      rw [List.flatMap_cons, List.append_assoc] at h
      exact absurd h (quote_cons_ne_quotedChar_append hquote d _ r)
  | cons c a ih =>
    cases b with
    | nil =>
      rw [List.flatMap_cons, List.append_assoc] at h
      exact absurd h.symm (quote_cons_ne_quotedChar_append hquote c _ s)
    | cons d b =>
      have hread := congrArg readChar h
      rw [List.flatMap_cons, List.flatMap_cons, List.append_assoc, List.append_assoc,
        readChar_quotedChar hquote, readChar_quotedChar hquote] at hread
      obtain ⟨rfl, hrest⟩ := Prod.mk.inj (Option.some.inj hread)
      obtain ⟨rfl, hbehind⟩ := ih hrest
      exact ⟨rfl, hbehind⟩

/-- **A quoted text tells the text and where it ends.** -/
theorem quotedChars_append_inj {a b r s : List Char}
    (h : quotedChars a ++ r = quotedChars b ++ s) : a = b ∧ r = s := by
  simp only [quotedChars, List.cons_append, List.append_assoc, List.nil_append] at h
  obtain ⟨hquote, hrest⟩ := List.cons.inj h
  rw [← hquote] at hrest
  exact flatMap_quotedChar_append_inj (isQuote_quoteFor a) hrest

end SourceLayout.Text
