import SourceLayout.Random.Draw

/-!
# The Mersenne twister

The generator keeps 624 words of 32 bits.  Its words are handed out in order, each
one tempered; when all are used, every word is replaced, in place and in order, by a
mixture of itself, its successor and the word 397 places further on.

A seed is any integer.  Its absolute value, cut into words, is stirred into a fixed
initial state, so that every bit of the seed has a part in every word.

An index below a bound is drawn by trial: as many high bits of a word as the bound
has, until the number they form is below the bound.
-/

namespace SourceLayout

/-- The state of the generator. -/
structure Twister where
  words : Vector UInt32 624
  /-- How many of the words have been handed out. -/
  used : Nat

namespace Twister

/-! ## Words -/

/-- The top bit of one word and the other bits of the next, shifted and, if the last
bit was set, combined with the matrix constant. -/
def twisted (upper lower : UInt32) : UInt32 :=
  let joined := (upper &&& 0x80000000) ||| (lower &&& 0x7fffffff)
  (joined >>> 1) ^^^ (if joined &&& 1 = 1 then 0x9908b0df else 0)

/-- The word `n` places after word `i`, counting on from the first after the last. -/
def wordAfter (words : Vector UInt32 624) (i n : Nat) : UInt32 :=
  words.get ⟨(i + n) % 624, Nat.mod_lt _ (by decide)⟩

/-- All words replaced, in order, each from the words as they then are. -/
def regenerate (words : Vector UInt32 624) : Vector UInt32 624 :=
  Nat.fold 624 (fun i hi words =>
    words.set i (wordAfter words i 397 ^^^ twisted words[i] (wordAfter words i 1))) words

/-- A word as it is handed out. -/
def tempered (word : UInt32) : UInt32 :=
  let a := word ^^^ (word >>> 11)
  let b := a ^^^ ((a <<< 7) &&& 0x9d2c5680)
  let c := b ^^^ ((b <<< 15) &&& 0xefc60000)
  c ^^^ (c >>> 18)

/-- The next word, and the state after it. -/
def next (t : Twister) : UInt32 × Twister :=
  if h : t.used < 624 then
    (tempered t.words[t.used], ⟨t.words, t.used + 1⟩)
  else
    let words := regenerate t.words
    (tempered words[0], ⟨words, 1⟩)

/-! ## Seeds -/

/-- The words of a number, the lowest first; at least one. -/
def wordsOf (n : Nat) : List UInt32 :=
  if n < UInt32.size then [UInt32.ofNat n]
  else UInt32.ofNat n :: wordsOf (n / UInt32.size)
termination_by n
decreasing_by
  have large : UInt32.size ≤ n := Nat.not_lt.mp ‹_›
  have pos : 0 < UInt32.size := by decide
  exact Nat.div_lt_self (Nat.lt_of_lt_of_le pos large) (by decide)

/-- A word combined with its own high bits. -/
def folded (word : UInt32) : UInt32 := word ^^^ (word >>> 30)

/-- The state that every seed starts from. -/
def initialWords : Vector UInt32 624 :=
  Nat.fold 623 (fun i hi words =>
    words.set (i + 1) (1812433253 * folded words[i] + UInt32.ofNat (i + 1)))
    (Vector.replicate 624 19650218)

/-- Replace the word after the given one; the last word is also put in the first
place, from which the next round starts. -/
def replaceAfter (words : Vector UInt32 624) (i : Nat) (hi : i < 623) (word : UInt32) :
    Vector UInt32 624 :=
  let words := words.set (i + 1) word
  if i = 622 then words.set 0 word else words

/-- Step `step` of the first pass, which stirs in the key. -/
def stirKey (key : List UInt32) (words : Vector UInt32 624) (step : Nat) : Vector UInt32 624 :=
  let i := step % 623
  have hi : i < 623 := Nat.mod_lt _ (by decide)
  let j := step % key.length
  replaceAfter words i hi
    ((words[i + 1] ^^^ (folded words[i] * 1664525)) + key.getD j 0 + UInt32.ofNat j)

/-- Step `step` of the second pass, which stirs the words among themselves. -/
def stirWords (words : Vector UInt32 624) (step : Nat) : Vector UInt32 624 :=
  let i := step % 623
  have hi : i < 623 := Nat.mod_lt _ (by decide)
  replaceAfter words i hi
    ((words[i + 1] ^^^ (folded words[i] * 1566083941)) - UInt32.ofNat (i + 1))

/-- The generator for a key. -/
def ofKey (key : List UInt32) : Twister :=
  let steps := max 624 key.length
  let first := (List.range steps).foldl (stirKey key) initialWords
  let second := (List.range 623).foldl (fun words step => stirWords words (steps + step)) first
  ⟨second.set 0 0x80000000, 624⟩

/-- The generator for a seed; the sign of the seed has no part in it. -/
def ofSeed (seed : Int) : Twister := ofKey (wordsOf seed.natAbs)

/-! ## Draws -/

/-- How many trials a draw of an index may take.  Each one succeeds more often than
not, so the last of them is not reached. -/
def trials : Nat := 1024

/-- An index below the bound, by trial. -/
def drawIndex (bound : Nat) (pos : 0 < bound) : (trials : Nat) → Twister → Fin bound × Twister
  | 0, t => (⟨0, pos⟩, t)
  | trials + 1, t =>
    let (word, t) := t.next
    let i := word.toNat >>> (32 - (bound.log2 + 1))
    if h : i < bound then (⟨i, h⟩, t) else drawIndex bound pos trials t

/-- The numerator of a fraction: 27 high bits of one word and 26 of the next. -/
def numerator (a b : UInt32) : Fin fractionSteps :=
  ⟨a.toNat / 32 * 67108864 + b.toNat / 64, by
    have ha := a.toNat_lt_size
    have hb := b.toNat_lt_size
    have hs : fractionSteps = 9007199254740992 := rfl
    simp only [UInt32.size] at ha hb
    omega⟩

/-- Run a random computation with the draws of the generator. -/
def run {α : Type} : Draw α → Twister → α × Twister
  | .done a, t => (a, t)
  | .index bound pos next, t =>
    let (i, t) := drawIndex bound pos trials t
    run (next i) t
  | .fraction next, t =>
    let (a, t) := t.next
    let (b, t) := t.next
    run (next (numerator a b)) t

/-- What a generator draws is possible. -/
theorem possible_run {α : Type} (x : Draw α) (t : Twister) : x.Possible (run x t).1 := by
  induction x generalizing t with
  | done a => rfl
  | index bound pos next ih => exact ⟨_, ih _ _⟩
  | fraction next ih => exact ⟨_, ih _ _⟩

end Twister

/-- The result of a random computation under the generator for a seed. -/
def Draw.seeded {α : Type} (x : Draw α) (seed : Int) : α :=
  (Twister.run x (Twister.ofSeed seed)).1

end SourceLayout
