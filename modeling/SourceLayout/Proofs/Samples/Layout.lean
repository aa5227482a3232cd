import SourceLayout.Proofs.Samples.Text
import SourceLayout.Proofs.Samples.Placement
import SourceLayout.Proofs.Layout.EmptyLines
import SourceLayout.Proofs.Layout.Heads

/-! # Layouts of sample modules

A reader can see at a glance that the layout of a sample module is in order (`Node.InOrder`): it
ends in one newline, no two empty lines follow each other, newlines are the only line breaks, no
line ends in a blank, and the declarations are found in it by their texts.

For the last of these nothing else may be taken for a declaration.  Its text begins with a
letter and has an equals sign in it.  A header and an import have no equals sign, a comment
line begins with a marker, and a local definition with spaces.
-/
namespace SourceLayout

open Layout

namespace Node

/-- A node with a text that is a line, and perhaps a doc without other breaks than newlines. -/
structure HasLine (node : Node) : Prop where
  text : ∃ text, node.text = some text ∧ IsLine text
  doc : ∀ raw ∈ node.doc, WrittenIn (fun c => c ≠ '\n' → isLineBreak c = false) raw

namespace HasLine

variable {node : Node} (h : node.HasLine)
include h

theorem isLine : IsLine node.ownText := by
  obtain ⟨text, htext, hline⟩ := h.text
  rw [ownText, htext]
  exact hline

theorem text_eq : node.text = some node.ownText := by
  obtain ⟨text, htext, -⟩ := h.text
  rw [ownText, htext]
  rfl

theorem hasProperText : node.HasProperText :=
  ⟨node.ownText, h.text_eq, h.isLine.ne_empty, h.isLine.no_newline⟩

theorem hasTidyText : node.HasTidyText := by
  intro text htext
  rw [h.text_eq] at htext
  rw [← Option.some.inj htext]
  exact h.isLine.toTidyText

theorem isWrittenIn : node.IsWrittenIn fun c => isLineBreak c = false :=
  ⟨h.isLine.flat, h.doc⟩

end HasLine

/-- The texts of the declarations of a module. -/
def headings (m : Node) : List String :=
  (m.children.filter fun tree => decide (tree.value.kind = .declaration)).filterMap fun tree =>
    tree.value.text

/-- A text of a module that is in order, and in which the declarations are found. -/
structure InOrder (m : Node) (text : String) : Prop where
  ends_in_newline : ['\n'] <:+ text.toList
  ends_once : ¬ ['\n', '\n'] <:+ text.toList
  single_spaced : ¬ ['\n', '\n', '\n'] <:+: text.toList
  no_other_break : ∀ c ∈ text.toList, isLineBreak c = true → c = '\n'
  stripped : ∀ line ∈ textLines text, Stripped line
  headings_found : (textLines text).filter (fun line => decide (line ∈ m.headings)) = m.headings

end Node

/-- A module is laid out without a fault, with one remark, and in order. -/
def LaysOutInOrder (m : Located Node) : Prop :=
  ∃ text, layOut ⟨m.span, .node m.value⟩ =
      ⟨[.layingOut m.value.text m.value.children.length], .ok text⟩ ∧
    m.value.InOrder text

namespace Node

/-- A module of tidy texts, with declarations below its imports, whose texts have an equals
sign where no other text at the top level has one. -/
structure HasHeadings (m : Node) : Prop where
  kind : m.kind = .wholeModule
  name : ∀ name ∈ m.text, TidyText name ∧ Flat name ∧ '=' ∉ name.toList
  doc : ∀ raw ∈ m.doc, WrittenIn (fun c => c ≠ '\n' → isLineBreak c = false) raw
  imports : ∀ tree ∈ m.imports, tree.value.Every HasLine ∧ '=' ∉ tree.value.ownText.toList
  declarations : ∀ tree ∈ m.items, tree.value.kind = .declaration
  lines : ∀ tree ∈ m.items, tree.value.Every HasLine
  plain : ∀ text ∈ ownTexts m.items, PlainText text ∧ '=' ∈ text.toList
  spans : ∀ tree ∈ m.items, tree.span.extent?.isSome = true
  items_ne_nil : m.items ≠ []

namespace HasHeadings

variable {m : Node} (h : m.HasHeadings)
include h

theorem isProperModule : m.IsProperModule where
  kind := h.kind
  name := fun name hname => (h.name name hname).1.no_newline
  imports := fun tree htree => (h.imports tree htree).1.here.hasProperText
  items := fun tree htree =>
    Every.imp (fun _ => HasLine.hasProperText) tree.value (h.lines tree htree)

theorem everyIn_hasLine : EveryIn HasLine m.children := by
  rw [everyIn_iff]
  intro tree htree
  by_cases himport : tree.value.isImport = true
  · exact (h.imports tree (List.mem_filter.mpr ⟨htree, himport⟩)).1
  · exact h.lines tree (List.mem_filter.mpr ⟨htree, by simp [himport]⟩)

theorem every_hasTidyText : m.Every HasTidyText := by
  have hname := h.name
  have hchildren := EveryIn.imp (fun _ => HasLine.hasTidyText) m.children h.everyIn_hasLine
  obtain ⟨kind, text, doc, children⟩ := m
  exact ⟨fun name hmem => (hname name hmem).1, hchildren⟩

theorem every_isWrittenIn : m.Every (IsWrittenIn fun c => isLineBreak c = false) := by
  have hname : Flat m.ownText := by
    unfold ownText
    cases htext : m.text with
    | none => exact fun _ hc => absurd hc List.not_mem_nil
    | some name => exact (h.name name htext).2.1
  have hdoc := h.doc
  have hchildren := EveryIn.imp (fun _ => HasLine.isWrittenIn) m.children h.everyIn_hasLine
  obtain ⟨kind, text, doc, children⟩ := m
  exact ⟨⟨hname, hdoc⟩, hchildren⟩

/-- The declarations are the items that are not imports. -/
theorem headings_eq : m.headings = ownTexts m.items := by
  have hitems : (m.children.filter fun tree => decide (tree.value.kind = .declaration)) =
      m.items := by
    refine List.filter_congr fun tree htree => ?_
    by_cases himport : tree.value.kind = .importLine
    · rw [isImport, himport]
      rfl
    · have hitem : tree ∈ m.items :=
        List.mem_filter.mpr ⟨htree, by simp [isImport, himport]⟩
      rw [isImport, h.declarations tree hitem]
      rfl
  have htexts : ∀ tree ∈ m.items, tree.value.text = some tree.value.ownText :=
    fun tree htree => (h.lines tree htree).here.text_eq
  rw [headings, hitems, List.filterMap_congr htexts, ownTexts]
  exact congrFun List.filterMap_eq_map m.items

theorem notes_eq (span : Span) :
    (layOut ⟨span, .node m⟩).notes = [.layingOut m.text m.children.length] := by
  have hgaps : ((adjacent m.items).flatMap fun p => (p.1.span.separated p.2.span).notes) = [] := by
    rw [List.flatMap_eq_nil_iff]
    intro p hp
    obtain ⟨hfirst, hsecond⟩ := mem_of_mem_adjacent hp
    exact Span.notes_separated_of_known (h.spans _ hfirst) (h.spans _ hsecond)
  rw [notes_layOut h.kind, hgaps]

/-- No line above the declarations is taken for one of them. -/
theorem notMem_headings_of_mem_above :
    ∀ line ∈ m.top ++ ownTexts m.imports, line ∉ ownTexts m.items := by
  intro line hline hmem
  obtain ⟨hplain, hequals⟩ := h.plain line hmem
  rcases List.mem_append.mp hline with htop | himport
  · rcases List.mem_append.mp htop with hdoc | hheader
    · exact notMem_docLines_of_plainText hplain m.doc hdoc
    · obtain ⟨name, hname, rfl⟩ := Option.map_eq_some_iff.mp (Option.mem_toList.mp hheader)
      rw [String.toList_append, String.toList_append, List.mem_append, List.mem_append] at hequals
      rcases hequals with (hequals | hequals) | hequals
      · exact absurd hequals (by decide)
      · exact (h.name name hname).2.2 hequals
      · exact absurd hequals (by decide)
  · obtain ⟨tree, htree, rfl⟩ := List.mem_map.mp himport
    exact (h.imports tree htree).2 hequals

/-- **A module with headings is laid out in order.** -/
theorem laysOutInOrder (span : Span) : LaysOutInOrder ⟨span, m⟩ := by
  have hproper := h.isProperModule
  have hlines := hproper.newline_notMem_lines
  refine ⟨finishedText m.lines, Logged.ext (h.notes_eq span) (result_layOut h.kind span), ?_⟩
  have hne := hproper.trimLines_ne_nil h.items_ne_nil
  have hbelow : ∀ tree ∈ m.items, tree.value.HasTextBelow :=
    fun tree htree =>
      EveryIn.imp (fun _ hnode => hnode.isLine.ne_empty) tree.value.children
        (h.lines tree htree).below
  refine ⟨newline_suffix_finishedText m.lines, not_suffix_finishedText hlines hne,
    not_infix_finishedText hproper.singleSpaced_lines hlines, ?_, ?_, ?_⟩
  · intro c hc hbreak
    have hown : Flat ownCharacters := by decide
    rcases forall_mem_finishedText hown h.every_isWrittenIn c hc with hnewline | hflat
    · exact hnewline
    · rw [hflat] at hbreak
      cases hbreak
  · rw [forall_mem_textLines_iff stripped_empty hlines]
    exact (stripped_lines_iff h.every_hasTidyText).mpr hbelow
  · rw [h.headings_eq]
    exact hproper.filter_textLines_eq (fun text htext => (h.plain text htext).1)
      h.notMem_headings_of_mem_above

end HasHeadings

end Node

namespace Samples

open Draw

variable {file : String} {above below : Nat} {item : Located Node}

theorem every_hasLine_leaf {kind : NodeKind} {text : String} (h : IsLine text) :
    (leaf kind text).Every Node.HasLine :=
  ⟨⟨⟨text, rfl, h⟩, fun _ hraw => absurd hraw (Option.not_mem_none _)⟩, trivial⟩

theorem text_of_import : ∀ name ∈ importedNames,
    IsLine ("import " ++ name) ∧ '=' ∉ ("import " ++ name).toList := by
  decide +kernel

theorem every_hasLine_importItem (h : (importItem file above).Possible item) :
    item.value.Every Node.HasLine ∧ '=' ∉ item.value.ownText.toList := by
  obtain ⟨name, hname, e, -, rfl⟩ := possible_importItem h
  obtain ⟨hline, hequals⟩ := text_of_import name hname
  exact ⟨every_hasLine_leaf hline, hequals⟩

theorem every_hasLine_implicitImport {items : List (Located Node)}
    (h : implicitImport.Possible items) :
    ∀ item ∈ items, item.value.Every Node.HasLine ∧ '=' ∉ item.value.ownText.toList := by
  rcases possible_implicitImport h with rfl | rfl
  · rw [List.forall_mem_singleton]
    exact ⟨every_hasLine_leaf (by decide), by decide⟩
  · exact fun _ hitem => absurd hitem List.not_mem_nil

theorem everyIn_hasLine_someChild {children : List (Located Node)}
    (h : (someChild file above).Possible children) : Node.EveryIn Node.HasLine children := by
  rcases possible_someChild h with rfl | ⟨name, number, e, hname, -, -, rfl⟩
  · trivial
  · exact ⟨every_hasLine_leaf (text_of_child (possible_identifier hname) number), trivial⟩

theorem every_hasLine_declarationItem (h : (declarationItem file above).Possible (item, below)) :
    item.value.Every Node.HasLine ∧ PlainText item.value.ownText ∧
      '=' ∈ item.value.ownText.toList := by
  obtain ⟨doc, name, children, body, e, lines, hdoc, hname, hchildren, hbody, -, -, rfl, -⟩ :=
    possible_declarationItem h
  obtain ⟨hline, hplain, hequals⟩ :=
    text_of_declaration (possible_identifier hname) (possible_identifier hbody)
  have hraw : ∀ raw ∈ doc, WrittenIn (fun c => c ≠ '\n' → isLineBreak c = false) raw :=
    fun raw hmem => possible_docComment (possible_someDoc hdoc raw hmem)
  exact ⟨⟨⟨⟨_, rfl, hline⟩, hraw⟩, everyIn_hasLine_someChild hchildren⟩, hplain, hequals⟩

/-- The imports of a module in sections are the first two, and its items the last. -/
theorem InSections.imports_items {m : Node} {written implicit declarations : List (Located Node)}
    (h : InSections written implicit declarations)
    (hm : m.children = written ++ implicit ++ declarations) :
    m.imports = written ++ implicit ∧ m.items = declarations := by
  have himports : ∀ item ∈ written ++ implicit, item.value.isImport = true := by
    intro item hitem
    rcases List.mem_append.mp hitem with hitem | hitem
    · exact decide_eq_true (h.written_real item hitem).1
    · exact decide_eq_true (h.implicit_unknown item hitem).1
  have hdeclarations : ∀ item ∈ declarations, item.value.isImport = false := by
    intro item hitem
    rw [Node.isImport, (h.declarations_real item hitem).1]
    rfl
  constructor
  · rw [Node.imports, hm, List.filter_append, List.filter_eq_self.mpr himports,
      List.filter_eq_nil_iff.mpr fun item hitem => by simp [hdeclarations item hitem],
      List.append_nil]
  · rw [Node.items, hm, List.filter_append,
      List.filter_eq_nil_iff.mpr fun item hitem => by simp [himports item hitem],
      List.filter_eq_self.mpr fun item hitem => by simp [hdeclarations item hitem],
      List.nil_append]

theorem hasHeadings_sampleModule {m : Located Node} (h : (sampleModule file).Possible m) :
    m.value.HasHeadings := by
  obtain ⟨name, imports, implicit, declarations, written, line, count, below, hname, himports,
    himplicit, hdeclarations, rfl⟩ := possible_sampleModule h
  have hsections := inSections_of_possible himports himplicit hdeclarations
  obtain ⟨himports_eq, hitems_eq⟩ := hsections.imports_items
    (show (Node.mk .wholeModule (some name) none (imports ++ implicit ++ declarations)).children =
      imports ++ implicit ++ declarations from rfl)
  have hlines : ∀ item ∈ declarations, item.value.Every Node.HasLine ∧
      PlainText item.value.ownText ∧ '=' ∈ item.value.ownText.toList := by
    intro item hitem
    obtain ⟨line, next, hpossible⟩ := exists_of_mem_declarationItems hdeclarations item hitem
    exact every_hasLine_declarationItem hpossible
  refine ⟨rfl, ?_, fun _ hraw => absurd hraw (Option.not_mem_none _), ?_, ?_, ?_, ?_, ?_, ?_⟩
  · rintro _ ⟨⟩
    exact text_of_module hname
  · rw [himports_eq]
    intro item hitem
    rcases List.mem_append.mp hitem with hitem | hitem
    · obtain ⟨line, hpossible⟩ := exists_of_mem_importItems himports item hitem
      exact every_hasLine_importItem hpossible
    · exact every_hasLine_implicitImport himplicit item hitem
  · rw [hitems_eq]
    exact fun item hitem => (hsections.declarations_real item hitem).1
  · rw [hitems_eq]
    exact fun item hitem => (hlines item hitem).1
  · rw [hitems_eq]
    intro text htext
    obtain ⟨item, hitem, rfl⟩ := List.mem_map.mp htext
    exact (hlines item hitem).2
  · rw [hitems_eq]
    intro item hitem
    obtain ⟨-, e, he⟩ := hsections.declarations_real item hitem
    rw [he]
    rfl
  · rw [hitems_eq]
    exact hsections.declarations_ne_nil

/-- **Every sample module is laid out in order**, whatever is drawn, and so for every seed. -/
theorem laysOutInOrder_modules (count : Nat) :
    (∀ ms, (modules count).Possible ms → ∀ m ∈ ms, LaysOutInOrder m) ∧
      ∀ seed, ∀ m ∈ (modules count).seeded seed, LaysOutInOrder m := by
  have hall : ∀ ms, (modules count).Possible ms → ∀ m ∈ ms, LaysOutInOrder m := by
    intro ms hms m hm
    obtain ⟨-, hmodules⟩ := possible_modulesFrom hms
    obtain ⟨n, hn⟩ := hmodules m hm
    exact (hasHeadings_sampleModule hn).laysOutInOrder m.span
  exact ⟨hall, fun seed => hall _ (possible_seeded _ seed)⟩

/-- In the text of the sample file its only declaration is found once. -/
theorem laysOutInOrder_sampleFile :
    (modules 1).Possible [sampleFile] ∧ LaysOutInOrder sampleFile ∧
      sampleFile.value.headings = ["f = h"] ∧
      (layOut ⟨sampleFile.span, .node sampleFile.value⟩).result = .ok
        ("module A where\n\nimport Data.List\n\nimport Prelude\n\n" ++
          "-- | b\nf = h\n  where g = 7\n") := by
  obtain ⟨hall, -⟩ := laysOutInOrder_modules 1
  exact ⟨possible_sampleFile, hall _ possible_sampleFile sampleFile List.mem_cons_self, rfl,
    by decide +kernel⟩

end Samples

end SourceLayout
