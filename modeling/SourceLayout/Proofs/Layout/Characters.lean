import SourceLayout.Proofs.Layout.Contents

/-! # The characters of a layout

A layout has few characters of its own: those of the header, of comment markers and escape
marks, and the space.  All others come from the texts and docs of the module.  So what holds
of the characters of these and of its own (`ownCharacters`) holds of every character of the
layout but the newlines (`Node.forall_mem_finishedText`).

By this a layout has no other line breaks than newlines, unless it was given some.
-/
namespace SourceLayout

open Layout

/-- The characters that a layout adds to the texts of a module, apart from newlines. -/
def ownCharacters : String := "module where-|\x5c"

/-- A text whose characters all have a property. -/
def WrittenIn (p : Char → Prop) (text : String) : Prop := ∀ c ∈ text.toList, p c

instance (p : Char → Prop) [DecidablePred p] : DecidablePred (WrittenIn p) := fun text =>
  List.decidableBAll p text.toList

variable {p : Char → Prop}

theorem WrittenIn.append {a b : String} (ha : WrittenIn p a) (hb : WrittenIn p b) :
    WrittenIn p (a ++ b) := by
  rw [WrittenIn, String.toList_append]
  exact List.forall_mem_append.mpr ⟨ha, hb⟩

/-- Parts are joined by a separator of one character. -/
theorem WrittenIn.intercalate (sep : Char) (hsep : p sep) {parts : List String}
    (h : ∀ part ∈ parts, WrittenIn p part) :
    WrittenIn p ((String.singleton sep).intercalate parts) := by
  intro c hc
  rw [String.toList_intercalate, String.toList_singleton] at hc
  rcases mem_intercalate_blank hc with rfl | ⟨chars, hchars, hc⟩
  · exact hsep
  · obtain ⟨part, hpart, rfl⟩ := List.mem_map.mp hchars
    exact h part hpart c hc

/-- The characters at which a reader may break a text into lines: the newline and the controls
like it, the next-line control, and the separators of lines and paragraphs. -/
def isLineBreak (c : Char) : Bool :=
  Text.inRanges c.toNat [(0xa, 0xd), (0x1c, 0x1e), (0x85, 0x85), (0x2028, 0x2029)]

/-- A text that is on one line for every reader. -/
def Flat (text : String) : Prop := WrittenIn (fun c => isLineBreak c = false) text

instance : DecidablePred Flat := fun text =>
  inferInstanceAs (Decidable (WrittenIn (fun c => isLineBreak c = false) text))

/-- Every line break is a blank. -/
theorem isLineBreak_eq_false_of_not_blank {c : Char} (h : Text.isBlank c = false) :
    isLineBreak c = false := by
  simp only [isLineBreak, Text.isBlank, Text.blankRanges, Text.inRanges, Bool.if_false_left,
    Bool.or_false, Bool.and_eq_false_imp, Bool.or_eq_false_iff, Bool.not_eq_eq_eq_not,
    Bool.not_true, decide_eq_false_iff_not] at h ⊢
  omega

/-- A node whose text has only characters with a property, and whose doc has no others but
newlines. -/
structure Node.IsWrittenIn (p : Char → Prop) (node : Node) : Prop where
  text : WrittenIn p node.ownText
  doc : ∀ raw ∈ node.doc, WrittenIn (fun c => c ≠ '\n' → p c) raw

namespace Layout

variable (hp : WrittenIn p ownCharacters)
include hp

theorem writtenIn_of_own {text : String} (h : WrittenIn (· ∈ ownCharacters.toList) text) :
    WrittenIn p text :=
  fun c hc => hp c (h c hc)

theorem writtenIn_indent {line : String} (h : WrittenIn p line) (depth : Nat) :
    WrittenIn p (Text.indent depth line) := by
  rw [WrittenIn, Text.toList_indent]
  refine List.forall_mem_append.mpr ⟨fun c hc => ?_, h⟩
  rw [(List.mem_replicate.mp hc).2]
  exact hp ' ' (by decide)

theorem writtenIn_marked {marker line : String}
    (hmarker : WrittenIn (· ∈ ownCharacters.toList) marker) (h : WrittenIn p line) :
    WrittenIn p (DocComment.marked marker line) := by
  have hfront := writtenIn_of_own hp hmarker
  unfold DocComment.marked
  split
  · exact hfront
  · exact (hfront.append (writtenIn_of_own hp (by decide))).append h

theorem writtenIn_of_mem_markLines {ls : List String} (h : ∀ line ∈ ls, WrittenIn p line) :
    ∀ line ∈ DocComment.markLines ls, WrittenIn p line := by
  intro line hline
  cases ls with
  | nil => cases hline
  | cons first rest =>
    rcases List.mem_cons.mp hline with rfl | hline
    · exact writtenIn_marked hp (by decide) (h first List.mem_cons_self)
    · obtain ⟨old, hold, rfl⟩ := List.mem_map.mp hline
      exact writtenIn_marked hp (by decide) (h old (List.mem_cons_of_mem first hold))

theorem writtenIn_of_mem_docLines {depth : Nat} {doc : Option String}
    (h : ∀ raw ∈ doc, WrittenIn (fun c => c ≠ '\n' → p c) raw) :
    ∀ line ∈ docLines depth doc, WrittenIn p line := by
  intro line hline
  cases doc with
  | none => cases hline
  | some raw =>
    have hnormal : ∀ body ∈ DocComment.normalize raw, WrittenIn p body := by
      intro body hbody
      obtain ⟨chars, hchars, rfl⟩ := List.mem_map.mp hbody
      rw [WrittenIn, String.toList_ofList]
      exact DocComment.forall_mem_normalLines (hp _ (by decide)) (h raw rfl) chars hchars
    obtain ⟨body, hbody, rfl⟩ := List.mem_map.mp hline
    exact writtenIn_indent hp (writtenIn_of_mem_markLines hp hnormal body hbody) depth

theorem writtenIn_of_mem_forestLines (depth : Nat) (forest : List (Located Node))
    (h : Node.EveryIn (Node.IsWrittenIn p) forest) :
    ∀ line ∈ Node.forestLines depth forest, WrittenIn p line :=
  forall_mem_forestLines (fun _ _ hnode => writtenIn_of_mem_docLines hp hnode.doc)
    (fun level _ hnode => writtenIn_indent hp hnode.text level) depth forest h

end Layout

namespace Node

variable (hp : WrittenIn p ownCharacters) {m : Node} (h : m.Every (IsWrittenIn p))
include hp h

theorem writtenIn_of_mem_lines : ∀ line ∈ m.lines, WrittenIn p line := by
  intro line hline
  by_cases hne : line = ""
  · rw [hne]
    exact fun _ hc => absurd hc List.not_mem_nil
  · rcases (mem_lines_iff hne).mp hline with htop | himport | ⟨tree, htree, hitem⟩
    · rcases List.mem_append.mp htop with hdoc | hheader
      · exact writtenIn_of_mem_docLines hp h.here.doc line hdoc
      · obtain ⟨name, hname, rfl⟩ := Option.map_eq_some_iff.mp (Option.mem_toList.mp hheader)
        have htext := h.here.text
        rw [ownText, hname] at htext
        exact ((writtenIn_of_own hp (by decide)).append htext).append
          (writtenIn_of_own hp (by decide))
    · obtain ⟨tree, htree, rfl⟩ := List.mem_map.mp himport
      exact (everyIn_iff.mp h.below tree (List.mem_of_mem_filter htree)).here.text
    · have hforest : line ∈ forestLines 0 m.items :=
        mem_forestLines_iff.mpr ⟨tree, htree, hitem⟩
      refine writtenIn_of_mem_forestLines hp 0 m.items (everyIn_iff.mpr fun item hmem => ?_) line
        hforest
      exact everyIn_iff.mp h.below item (List.mem_of_mem_filter hmem)

/-- **What holds of the characters of a module** and of those that a layout adds holds of the
characters of the layout, apart from newlines. -/
theorem forall_mem_finishedText : ∀ c ∈ (finishedText m.lines).toList, c = '\n' ∨ p c := by
  intro c hc
  rw [toList_finishedText, List.mem_append] at hc
  rcases hc with hc | hc
  · rcases mem_intercalate_blank hc with hnewline | ⟨chars, hchars, hc⟩
    · exact Or.inl hnewline
    · obtain ⟨line, hline, rfl⟩ := List.mem_map.mp hchars
      have hmem := Text.mem_of_mem_dropTrailing hline
      exact Or.inr (writtenIn_of_mem_lines hp h line hmem c hc)
  · exact Or.inl (List.mem_singleton.mp hc)

end Node

end SourceLayout
