import SourceLayout.Proofs.Layout.Contents

/-! # Empty lines in a layout

Three rules put an empty line into a layout: one stands below the header, one below each
group of imports, and one between paragraphs of items.  Each of them follows a line with
text, so two of them never meet, and a layout does not begin with one.  Such lines are
**single-spaced**, and single-spaced parts can be put one after the other
(`SingleSpaced.append`).

Trimming takes away the empty line at the end.  So in the text of single-spaced lines no
three newlines follow each other, it does not begin with a newline, and one newline ends it.
The one exception is a lone newline, the text of a module with nothing to write.
-/
namespace SourceLayout

/-- Lines that do not begin with an empty line and have no two in a row. -/
structure SingleSpaced (ls : List String) : Prop where
  head_ne : ∀ line ∈ ls.head?, line ≠ ""
  chain : ls.IsChain fun a b => a ≠ "" ∨ b ≠ ""

namespace SingleSpaced

theorem nil : SingleSpaced [] := ⟨fun _ h => absurd h (Option.not_mem_none _), List.IsChain.nil⟩

theorem append {as bs : List String} (ha : SingleSpaced as) (hb : SingleSpaced bs) :
    SingleSpaced (as ++ bs) where
  head_ne := by
    cases as with
    | nil => exact hb.head_ne
    | cons a as => exact ha.head_ne
  chain := ha.chain.append hb.chain fun _ _ y hy => Or.inr (hb.head_ne y hy)

theorem of_prefix {as bs : List String} (hb : SingleSpaced bs) (h : as <+: bs) :
    SingleSpaced as where
  head_ne := by
    obtain ⟨rest, rfl⟩ := h
    intro line hline
    exact hb.head_ne line (List.mem_head?_append_of_mem_head? hline)
  chain := hb.chain.prefix h

theorem of_forall_ne {ls : List String} (h : ∀ line ∈ ls, line ≠ "") : SingleSpaced ls where
  head_ne := fun line hline => h line (List.mem_of_mem_head? hline)
  chain := by
    induction ls with
    | nil => exact List.IsChain.nil
    | cons line ls ih =>
      exact (ih fun l hl => h l (List.mem_cons_of_mem line hl)).cons
        fun _ _ => Or.inl (h line List.mem_cons_self)

/-- Trimming only takes lines from the end. -/
theorem trimLines {ls : List String} (h : SingleSpaced ls) : SingleSpaced (Layout.trimLines ls) :=
  h.of_prefix (List.rdropWhile_prefix _ ls)

/-- An empty line can follow lines with text. -/
theorem concat_empty {ls : List String} (hne : ls ≠ []) (h : ∀ line ∈ ls, line ≠ "") :
    SingleSpaced (ls ++ [""]) where
  head_ne := by
    obtain ⟨line, rest, rfl⟩ := List.exists_cons_of_ne_nil hne
    exact fun l hl => Option.some.inj hl ▸ h line List.mem_cons_self
  chain := (of_forall_ne h).chain.append (List.isChain_singleton "")
    fun x hx _ _ => Or.inl (h x (List.mem_of_getLast? hx))

end SingleSpaced

/-! ## The sections of a module -/

theorem Layout.singleSpaced_closeGroups {groups : List (List String)}
    (h : ∀ group ∈ groups, group ≠ [] ∧ ∀ line ∈ group, line ≠ "") :
    SingleSpaced (Layout.closeGroups groups) := by
  induction groups with
  | nil => exact SingleSpaced.nil
  | cons group groups ih =>
    obtain ⟨hne, htext⟩ := h group List.mem_cons_self
    have hrest := ih fun g hg => h g (List.mem_cons_of_mem group hg)
    exact (SingleSpaced.concat_empty hne htext).append hrest

theorem singleSpaced_spacedLines {α : Type} (loc : α → Span) {render : α → List String}
    {xs : List α} (h : ∀ x ∈ xs, render x ≠ [] ∧ ∀ line ∈ render x, line ≠ "") :
    SingleSpaced (spacedLines loc render xs) := by
  induction xs with
  | nil => exact SingleSpaced.nil
  | cons x rest ih =>
    obtain ⟨hne, htext⟩ := h x List.mem_cons_self
    cases rest with
    | nil =>
      rw [spacedLines_singleton]
      exact SingleSpaced.of_forall_ne htext
    | cons y rest =>
      have hx : SingleSpaced (render x ++ blankLines loc x y) := by
        unfold blankLines
        split
        · exact SingleSpaced.concat_empty hne htext
        · rw [List.append_nil]
          exact SingleSpaced.of_forall_ne htext
      rw [spacedLines_cons_cons]
      exact hx.append (ih fun z hz => h z (List.mem_cons_of_mem x hz))

open Layout

namespace Node.IsProperModule

variable {m : Node} (h : m.IsProperModule)
include h

theorem singleSpaced_preamble : SingleSpaced m.preamble := by
  have htop := properLine_of_mem_top h.name
  unfold preamble
  unfold top at htop
  cases hname : m.text with
  | none =>
    rw [headerLines, List.append_nil]
    exact SingleSpaced.of_forall_ne fun line hline =>
      (properLine_of_mem_docLines line hline).ne_empty
  | some name =>
    rw [hname] at htop
    have hheader : docLines 0 m.doc ++ headerLines (some name) =
        (docLines 0 m.doc ++ ["module " ++ name ++ " where"]) ++ [""] := by
      simp [headerLines]
    rw [hheader]
    exact SingleSpaced.concat_empty (by simp) fun line hline => (htop line hline).ne_empty

/-- **The lines of a module are single-spaced.** -/
theorem singleSpaced_lines : SingleSpaced m.lines := by
  have himports : SingleSpaced (closeGroups (importTexts m.imports)) :=
    singleSpaced_closeGroups fun group hgroup => ⟨(ownText_of_mem_importTexts hgroup).1,
      fun line hline => (h.properLine_import group hgroup line hline).ne_empty⟩
  have hitems : SingleSpaced
      (spacedLines Located.span (fun tree => tree.value.treeLines 0) m.items) :=
    singleSpaced_spacedLines Located.span fun tree htree => ⟨treeLines_ne_nil 0 tree.value,
      fun line hline => (h.properLine_item tree htree line hline).ne_empty⟩
  rw [lines_eq_spacedLines]
  exact (h.singleSpaced_preamble.append himports).append hitems

end Node.IsProperModule

/-! ## Newlines in a text -/

namespace Layout

theorem textLines_of_toList_eq {text : String} {above below : List Char}
    (h : text.toList = above ++ '\n' :: below) :
    textLines text = textLines (String.ofList above) ++ textLines (String.ofList below) := by
  rw [textLines, h, Text.lines_append_newline, List.map_append, textLines, textLines,
    String.toList_ofList, String.toList_ofList]

theorem textLines_ne_nil (text : String) : textLines text ≠ [] := by
  rw [textLines, ne_eq, List.map_eq_nil_iff]
  exact List.splitOn_ne_nil '\n' text.toList

/-- Three newlines in a row are two empty lines in a row, with lines above and below. -/
theorem exists_textLines_of_infix {text : String} (h : ['\n', '\n', '\n'] <:+: text.toList) :
    ∃ above below, textLines text = above ++ ["", ""] ++ below ∧ below ≠ [] := by
  obtain ⟨u, v, huv⟩ := h
  have hchars : text.toList = u ++ '\n' :: ([] ++ '\n' :: ([] ++ '\n' :: v)) := by
    rw [← huv]
    simp
  refine ⟨textLines (String.ofList u), textLines (String.ofList v), ?_, textLines_ne_nil _⟩
  rw [textLines_of_toList_eq hchars, textLines_of_toList_eq String.toList_ofList,
    textLines_of_toList_eq String.toList_ofList, List.append_assoc]
  rfl

/-- Two newlines at the end are two empty lines at the end. -/
theorem exists_textLines_of_suffix {text : String} (h : ['\n', '\n'] <:+ text.toList) :
    ∃ above, textLines text = above ++ ["", ""] := by
  obtain ⟨u, hu⟩ := h
  have hchars : text.toList = u ++ '\n' :: ([] ++ '\n' :: []) := hu.symm
  refine ⟨textLines (String.ofList u), ?_⟩
  rw [textLines_of_toList_eq hchars, textLines_of_toList_eq String.toList_ofList]
  rfl

theorem newline_suffix_finishedText (ls : List String) :
    ['\n'] <:+ (finishedText ls).toList := by
  rw [toList_finishedText]
  exact List.suffix_append _ _

section
variable {ls : List String} (hs : SingleSpaced ls) (hn : ∀ line ∈ ls, '\n' ∉ line.toList)
include hn

/-- A text does not end in two newlines if it has a line. -/
theorem not_suffix_finishedText (hne : trimLines ls ≠ []) :
    ¬ ['\n', '\n'] <:+ (finishedText ls).toList := by
  intro h
  obtain ⟨above, hlines⟩ := exists_textLines_of_suffix h
  have hempty : trimLines ls = above ++ [""] := by
    have hsplit : trimLines ls ++ [""] = (above ++ [""]) ++ [""] := by
      rw [← textLines_finishedText_of_ne_nil hne hn, hlines, List.append_assoc]
      rfl
    exact List.append_cancel_right hsplit
  exact absurd rfl (ne_empty_of_mem_getLast?_trimLines "" (by rw [hempty]; simp))

include hs

/-- No three newlines follow each other in a text of single-spaced lines. -/
theorem not_infix_finishedText : ¬ ['\n', '\n', '\n'] <:+: (finishedText ls).toList := by
  intro h
  obtain ⟨above, below, hlines, hbelow⟩ := exists_textLines_of_infix h
  by_cases hne : trimLines ls = []
  · rw [finishedText, hne] at h
    exact absurd h (by decide)
  · -- the two empty lines stand above the one behind the last newline
    have hsplit : trimLines ls = above ++ ["", ""] ++ below.dropLast := by
      rw [← List.dropLast_append_of_ne_nil hbelow, ← hlines,
        textLines_finishedText_of_ne_nil hne hn,
        List.dropLast_concat]
    have hchain := hs.trimLines.chain
    rw [hsplit] at hchain
    exact absurd hchain.left_of_append.right_of_append (by simp)

/-- A text of single-spaced lines does not begin with a newline if it has a line. -/
theorem not_prefix_finishedText (hne : trimLines ls ≠ []) :
    ¬ ['\n'] <+: (finishedText ls).toList := by
  rintro ⟨rest, hrest⟩
  have hchars : (finishedText ls).toList = [] ++ '\n' :: rest := hrest.symm
  have hlines : trimLines ls ++ [""] = "" :: textLines (String.ofList rest) :=
    (textLines_finishedText_of_ne_nil hne hn).symm.trans (textLines_of_toList_eq hchars)
  obtain ⟨first, others, hfirst⟩ := List.exists_cons_of_ne_nil hne
  have hhead := hs.trimLines.head_ne first (by rw [hfirst]; rfl)
  rw [hfirst] at hlines
  exact hhead (List.cons.inj hlines).1

omit hn in
/-- Of single-spaced lines some are left when the empty ones at the end are dropped. -/
theorem trimLines_eq_nil_iff : trimLines ls = [] ↔ ls = [] := by
  constructor
  · intro h
    by_contra hne
    obtain ⟨first, rest, rfl⟩ := List.exists_cons_of_ne_nil hne
    have hempty := List.rdropWhile_eq_nil_iff.mp h first List.mem_cons_self
    exact hs.head_ne first rfl (of_decide_eq_true hempty)
  · rintro rfl
    rfl

/-- Without a line the text is a lone newline, and with one it is not. -/
theorem finishedText_eq_newline_iff : finishedText ls = "\n" ↔ ls = [] := by
  constructor
  · intro h
    by_contra hne
    refine not_prefix_finishedText hs hn (fun he => hne ((trimLines_eq_nil_iff hs).mp he)) ?_
    rw [h]
    exact List.prefix_rfl
  · rintro rfl
    rfl

end

end Layout

/-! ## Whole modules -/

theorem Layout.importTexts_eq_nil_iff {imports : List (Located Node)} :
    importTexts imports = [] ↔ imports = [] := by
  constructor
  · intro h
    have hperm := ((writtenTexts_perm imports).append_right _).trans (ownTexts_imports_perm imports)
    rw [← flatten_importTexts, h] at hperm
    exact List.map_eq_nil_iff.mp hperm.symm.eq_nil
  · rintro rfl
    rfl

namespace Node

theorem preamble_eq_nil_iff (m : Node) : m.preamble = [] ↔ m.doc = none ∧ m.text = none := by
  have hdoc : docLines 0 m.doc = [] ↔ m.doc = none := by
    cases m.doc with
    | none => simp [docLines]
    | some raw => simp [docLines, DocComment.commentLines_ne_nil]
  have hname : headerLines m.text = [] ↔ m.text = none := by
    cases m.text <;> simp [headerLines]
  rw [preamble, List.append_eq_nil_iff, hdoc, hname]

theorem children_eq_nil_iff (m : Node) : m.children = [] ↔ m.imports = [] ∧ m.items = [] := by
  constructor
  · intro h
    rw [imports, items, h]
    exact ⟨rfl, rfl⟩
  · rintro ⟨himports, hitems⟩
    refine List.eq_nil_iff_forall_not_mem.mpr fun tree htree => ?_
    by_cases himport : tree.value.isImport = true
    · exact List.filter_eq_nil_iff.mp himports tree htree himport
    · exact List.filter_eq_nil_iff.mp hitems tree htree (by simp [himport])

/-- A module has no lines if it has nothing to write. -/
theorem lines_eq_nil_iff (m : Node) :
    m.lines = [] ↔ m.doc = none ∧ m.text = none ∧ m.children = [] := by
  have himports : closeGroups (importTexts m.imports) = [] ↔ m.imports = [] := by
    rw [← importTexts_eq_nil_iff]
    cases importTexts m.imports <;> simp [closeGroups]
  have hitems : spacedLines Located.span (fun tree => tree.value.treeLines 0) m.items = [] ↔
      m.items = [] :=
    spacedLines_eq_nil_iff Located.span fun tree => treeLines_ne_nil 0 tree.value
  rw [lines_eq_spacedLines, List.append_eq_nil_iff, List.append_eq_nil_iff, himports, hitems,
    m.preamble_eq_nil_iff, m.children_eq_nil_iff, and_assoc, and_assoc]

end Node

/-- **The empty lines of a layout.**  No three newlines follow each other in the text of a
proper module.  A module without a doc, a name and children is written as a lone newline; any
other text does not begin with a newline and ends in one. -/
theorem layOut_singleSpaced {m : Node} (h : m.IsProperModule) (span : Span) :
    ∃ text, (layOut ⟨span, .node m⟩).result = .ok text ∧
      ¬ ['\n', '\n', '\n'] <:+: text.toList ∧
      (text = "\n" ∨ ¬ ['\n'] <+: text.toList ∧ ¬ ['\n', '\n'] <:+ text.toList ∧
        ['\n'] <:+ text.toList) ∧
      (text = "\n" ↔ m.doc = none ∧ m.text = none ∧ m.children = []) := by
  have hspaced := h.singleSpaced_lines
  have hlines := h.newline_notMem_lines
  refine ⟨finishedText m.lines, result_layOut h.kind span,
    not_infix_finishedText hspaced hlines, ?_, ?_⟩
  · by_cases hne : trimLines m.lines = []
    · rw [finishedText, hne]
      exact Or.inl rfl
    · exact Or.inr ⟨not_prefix_finishedText hspaced hlines hne,
        not_suffix_finishedText hlines hne, newline_suffix_finishedText m.lines⟩
  · rw [finishedText_eq_newline_iff hspaced hlines, m.lines_eq_nil_iff]

/-- A comment with an empty line, a synthesized import and an empty line between two items make
no two empty lines in a row; and an empty module is a lone newline. -/
theorem layOut_singleSpaced_nestedModule :
    (nestedModule "x\n\ny" 3).IsProperModule ∧
      (∃ text, (layOut ⟨.unknown "", .node (nestedModule "x\n\ny" 3)⟩).result = .ok text ∧
        ¬ ['\n', '\n', '\n'] <:+: text.toList ∧ ¬ ['\n'] <+: text.toList ∧
        ¬ ['\n', '\n'] <:+ text.toList ∧ ['\n'] <:+ text.toList) ∧
      (⟨.wholeModule, none, none, []⟩ : Node).IsProperModule ∧
      (layOut ⟨.unknown "", .node ⟨.wholeModule, none, none, []⟩⟩).result = .ok "\n" := by
  have hproper := isProperModule_nestedModule "x\n\ny" 3
  have hempty : (⟨.wholeModule, none, none, []⟩ : Node).IsProperModule :=
    ⟨rfl, fun _ hname => (Option.not_mem_none _ hname).elim,
      fun _ htree => absurd htree List.not_mem_nil, fun _ htree => absurd htree List.not_mem_nil⟩
  obtain ⟨text, htext, hrow, hends, hiff⟩ := layOut_singleSpaced hproper (.unknown "")
  obtain ⟨lone, hlone, -, -, hlone_iff⟩ := layOut_singleSpaced hempty (.unknown "")
  have hne : text ≠ "\n" := fun he => absurd (hiff.mp he).1 (by decide)
  obtain ⟨hstart, hend, hnewline⟩ := hends.resolve_left hne
  rw [hlone_iff.mpr ⟨rfl, rfl, rfl⟩] at hlone
  exact ⟨hproper, ⟨text, htext, hrow, hstart, hend, hnewline⟩, hempty, hlone⟩

end SourceLayout
