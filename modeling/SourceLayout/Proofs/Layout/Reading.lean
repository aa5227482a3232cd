import SourceLayout.Proofs.DocComment.Comment
import SourceLayout.Proofs.Tree.Pointwise
import SourceLayout.Proofs.Layout.Sections

/-! # A layout can be read back

The text of a module determines the module up to what the layout passes over, as long as
no text of it looks like something else: like a comment line, a deeper line, an import,
or more than one line.

A forest is told by its indentation.  Behind the lines of a tree stand the lines of its
children, one level deeper; what follows the forest is **shallow**, that is, not as deep
as the forest.  So the end of a forest is seen where its lines stop, and a comment
belongs to the text that follows it (`forestLines_append_inj`).

A whole module is a list of solid paragraphs: the comment and the header, the import
groups, and the paragraphs of items (`trimLines_lines`).  Only import groups begin with
an import, which tells them from the others.
-/
namespace SourceLayout

/-! ## What a plain module is -/

/-- A text that is taken for nothing but the text of an item. -/
structure PlainText (text : String) : Prop where
  ne_empty : text ≠ ""
  no_newline : '\n' ∉ text.toList
  no_indent : text.toList.head? ≠ some ' '
  no_marker : ¬ ['-', '-'] <+: text.toList

/-- What an import line begins with. -/
def IsImportText (text : String) : Prop := "import ".toList <+: text.toList

instance : DecidablePred IsImportText := fun text =>
  inferInstanceAs (Decidable ("import ".toList <+: text.toList))

namespace Node

/-- A node with a plain text. -/
def HasPlainText (node : Node) : Prop := ∃ text, node.text = some text ∧ PlainText text

/-- Two nodes that are written alike: of one text, and with no docs or docs of the same
normal lines. -/
def SameContent (a b : Node) : Prop :=
  a.text = b.text ∧ a.doc.map DocComment.normalize = b.doc.map DocComment.normalize

/-- A module none of whose texts is taken for something else. -/
structure IsPlainModule (m : Node) : Prop where
  kind : m.kind = .wholeModule
  name : ∃ name, m.text = some name ∧ '\n' ∉ name.toList
  imports : ∀ tree ∈ m.imports,
    ∃ text, tree.value.text = some text ∧ '\n' ∉ text.toList ∧ IsImportText text
  items : ∀ tree ∈ m.items, tree.value.Every HasPlainText ∧ ¬ IsImportText tree.value.ownText

end Node

namespace Layout

/-! ## Docs -/

/-- The comment lines of a doc tell its normal lines, and whether there is a doc. -/
theorem docLines_inj {depth : Nat} {a b : Option String} (h : docLines depth a = docLines depth b) :
    a.map DocComment.normalize = b.map DocComment.normalize := by
  cases a with
  | none =>
    cases b with
    | none => rfl
    | some b => exact absurd h.symm (DocComment.commentLines_ne_nil depth b)
  | some a =>
    cases b with
    | none => exact absurd h (DocComment.commentLines_ne_nil depth a)
    | some b => exact congrArg some (DocComment.normalize_eq_of_commentLines_eq h)

/-- A line that stands `depth` levels deep and has a comment marker. -/
def IsDocLine (depth : Nat) (line : String) : Prop :=
  ∃ body, DocComment.IsMarked body ∧ Text.indent depth body = line

theorem isDocLine_of_mem_docLines {depth : Nat} {doc : Option String} :
    ∀ line ∈ docLines depth doc, IsDocLine depth line := by
  intro line hline
  cases doc with
  | none => cases hline
  | some raw => exact DocComment.exists_of_mem_commentLines hline

/-- A plain text is no comment line. -/
theorem not_isDocLine_indent {text : String} (h : PlainText text) (depth : Nat) :
    ¬ IsDocLine depth (Text.indent depth text) := by
  rintro ⟨body, hbody, he⟩
  rw [Text.indent_inj.mp he] at hbody
  exact h.no_marker hbody.1

theorem head?_ne_of_isMarked {body : String} (h : DocComment.IsMarked body) :
    body.toList.head? ≠ some ' ' := by
  obtain ⟨rest, hrest⟩ := h.1
  rw [← hrest, List.cons_append, List.head?_cons]
  decide

/-! ## Forests -/

/-- Lines that do not begin as deep as `depth` levels. -/
def Shallow (depth : Nat) (ls : List String) : Prop :=
  ∀ line ∈ ls.head?, ∀ body, line ≠ Text.indent depth body

theorem Shallow.succ {depth : Nat} {ls : List String} (h : Shallow depth ls) :
    Shallow (depth + 1) ls := by
  intro line hline body
  rw [Text.indent_add 1 depth]
  exact h line hline (Text.indent 1 body)

/-- The first line of a tree stands as deep as the tree: it is a comment line or the
text. -/
theorem exists_head_treeLines (node : Node) (depth : Nat) :
    ∃ body rest, node.treeLines depth = Text.indent depth body :: rest ∧
      (DocComment.IsMarked body ∨ body = node.ownText) := by
  obtain ⟨kind, text, doc, children⟩ := node
  rw [Node.treeLines]
  cases hdoc : docLines depth doc with
  | nil => exact ⟨text.getD "", _, rfl, Or.inr rfl⟩
  | cons line rest =>
    obtain ⟨body, hbody, rfl⟩ :=
      isDocLine_of_mem_docLines line (hdoc ▸ List.mem_cons_self)
    exact ⟨body, _, rfl, Or.inl hbody⟩

theorem exists_head_forestLines (tree : Located Node) (rest : List (Located Node)) (depth : Nat)
    (r : List String) :
    ∃ body after, Node.forestLines depth (tree :: rest) ++ r = Text.indent depth body :: after ∧
      (DocComment.IsMarked body ∨ body = tree.value.ownText) := by
  obtain ⟨body, after, hlines, hbody⟩ := exists_head_treeLines tree.value depth
  refine ⟨body, after ++ (Node.forestLines depth rest ++ r), ?_, hbody⟩
  rw [Node.forestLines, hlines, List.append_assoc]
  rfl

/-- Neither a comment line nor a plain text begins with a space. -/
theorem head?_ne_of_hasPlainText {node : Node} (h : node.HasPlainText) {body : String}
    (hbody : DocComment.IsMarked body ∨ body = node.ownText) : body.toList.head? ≠ some ' ' := by
  rcases hbody with hbody | rfl
  · exact head?_ne_of_isMarked hbody
  · obtain ⟨text, htext, hplain⟩ := h
    rw [Node.ownText, htext]
    exact hplain.no_indent

/-- Lines after the children of a tree: the trees beside it, and what follows them. -/
theorem shallow_forestLines_append {depth : Nat} {forest : List (Located Node)}
    (h : Node.EveryIn Node.HasPlainText forest) {r : List String} (hr : Shallow depth r) :
    Shallow (depth + 1) (Node.forestLines depth forest ++ r) := by
  cases forest with
  | nil => exact hr.succ
  | cons tree rest =>
    obtain ⟨body, after, hlines, hbody⟩ := exists_head_forestLines tree rest depth r
    rw [hlines]
    intro line hline other
    rw [← Option.some.inj hline]
    exact Text.indent_ne_indent_succ (head?_ne_of_hasPlainText h.1.here hbody) depth other

/-- A tree is not shallow. -/
theorem forestLines_append_ne {depth : Nat} {r s : List String} (hs : Shallow depth s)
    (tree : Located Node) (rest : List (Located Node)) :
    Node.forestLines depth (tree :: rest) ++ r ≠ s := by
  rintro rfl
  obtain ⟨body, after, hlines, -⟩ := exists_head_forestLines tree rest depth r
  exact hs (Text.indent depth body) (by rw [hlines]; rfl) body rfl

/-- **The lines of a forest tell the forest**, and where it ends.  The induction is on the
first forest: the comment and the text of its first tree are cut off, then its children,
which end where the lines are not deeper, and then the trees beside it. -/
theorem forestLines_append_inj (depth : Nat) :
    (as bs : List (Located Node)) → {r s : List String} →
    Node.EveryIn Node.HasPlainText as → Node.EveryIn Node.HasPlainText bs →
    Shallow depth r → Shallow depth s →
    Node.forestLines depth as ++ r = Node.forestLines depth bs ++ s →
    Node.MatchesIn Node.SameContent as bs ∧ r = s
  | [], [], _, _, _, _, _, _, h => ⟨trivial, h⟩
  | [], b :: bs, _, _, _, _, hr, _, h => absurd h.symm (forestLines_append_ne hr b bs)
  | a :: as, [], _, _, _, _, _, hs, h => absurd h (forestLines_append_ne hs a as)
  | ⟨span₁, ⟨kind₁, text₁, doc₁, children₁⟩⟩ :: as, ⟨span₂, ⟨kind₂, text₂, doc₂, children₂⟩⟩ :: bs,
      r, s, ha, hb, hr, hs, h => by
    obtain ⟨⟨⟨t₁, rfl, ht₁⟩, hchildren₁⟩, hrest₁⟩ := ha
    obtain ⟨⟨⟨t₂, rfl, ht₂⟩, hchildren₂⟩, hrest₂⟩ := hb
    simp only [Node.forestLines, Node.treeLines, List.append_assoc, List.cons_append] at h
    -- the comments end where the texts stand, since a plain text is no comment line
    obtain ⟨hdoc, h⟩ := append_inj_of_forall isDocLine_of_mem_docLines
      (fun _ hx => Option.some.inj hx ▸ not_isDocLine_indent ht₁ depth)
      isDocLine_of_mem_docLines (fun _ hx => Option.some.inj hx ▸ not_isDocLine_indent ht₂ depth) h
    obtain ⟨htext, h⟩ := List.cons.inj h
    -- what follows the children is the rest of the forest, which is shallow one level deeper
    obtain ⟨hbelow, h⟩ := forestLines_append_inj (depth + 1) children₁ children₂ hchildren₁
      hchildren₂ (shallow_forestLines_append hrest₁ hr) (shallow_forestLines_append hrest₂ hs) h
    obtain ⟨hbeside, h⟩ := forestLines_append_inj depth as bs hrest₁ hrest₂ hr hs h
    exact ⟨⟨⟨⟨congrArg some (Text.indent_inj.mp htext), docLines_inj hdoc⟩, hbelow⟩, hbeside⟩, h⟩

/-! ## The lines of a forest -/

/-- What holds of the comment lines and of the text of every node, however deep it stands, holds
of every line of a forest. -/
theorem forall_mem_forestLines {p : Node → Prop} {q : String → Prop}
    (hdoc : ∀ level node, p node → ∀ line ∈ docLines level node.doc, q line)
    (htext : ∀ level node, p node → q (Text.indent level node.ownText)) (depth : Nat) :
    (forest : List (Located Node)) → Node.EveryIn p forest →
    ∀ line ∈ Node.forestLines depth forest, q line
  | [], _, _, hline => by cases hline
  | ⟨_, ⟨_, _, _, children⟩⟩ :: rest, ⟨⟨hnode, hbelow⟩, hbeside⟩, line, hline => by
    simp only [Node.forestLines, Node.treeLines, List.mem_append, List.mem_cons] at hline
    rcases hline with (hcomment | rfl | hchildren) | hrest
    · exact hdoc depth _ hnode line hcomment
    · exact htext depth _ hnode
    · exact forall_mem_forestLines hdoc htext (depth + 1) children hbelow line hchildren
    · exact forall_mem_forestLines hdoc htext depth rest hbeside line hrest

/-- Every line of a forest is an indented comment line or an indented text of a node. -/
theorem exists_of_mem_forestLines {p : Node → Prop} (depth : Nat) (forest : List (Located Node))
    (h : Node.EveryIn p forest) :
    ∀ line ∈ Node.forestLines depth forest, ∃ level body, Text.indent level body = line ∧
      (DocComment.IsMarked body ∨ ∃ node, p node ∧ node.ownText = body) := by
  refine forall_mem_forestLines (fun level node _ line hline => ?_) (fun level node hnode => ?_)
    depth forest h
  · obtain ⟨body, hbody, he⟩ := isDocLine_of_mem_docLines line hline
    exact ⟨level, body, he, Or.inl hbody⟩
  · exact ⟨level, node.ownText, rfl, Or.inr ⟨node, hnode, rfl⟩⟩

/-- A line that can stand in a solid paragraph of a text. -/
structure ProperLine (line : String) : Prop where
  ne_empty : line ≠ ""
  no_newline : '\n' ∉ line.toList

theorem ProperLine.indent {line : String} (h : ProperLine line) (depth : Nat) :
    ProperLine (Text.indent depth line) :=
  ⟨Text.indent_ne_empty h.ne_empty depth, fun hn => h.no_newline (Text.newline_mem_indent.mp hn)⟩

theorem properLine_of_isMarked {line : String} (h : DocComment.IsMarked line) :
    ProperLine line := by
  refine ⟨?_, h.2⟩
  rintro rfl
  exact absurd h.1 (by decide)

/-- The lines of a forest are proper if the texts of its nodes are. -/
theorem properLine_of_mem_forestLines {p : Node → Prop}
    (hp : ∀ node, p node → ProperLine node.ownText) {depth : Nat} {forest : List (Located Node)}
    (h : Node.EveryIn p forest) : ∀ line ∈ Node.forestLines depth forest, ProperLine line := by
  intro line hline
  obtain ⟨level, body, rfl, hbody | ⟨node, hnode, rfl⟩⟩ :=
    exists_of_mem_forestLines depth forest h line hline
  · exact (properLine_of_isMarked hbody).indent level
  · exact (hp node hnode).indent level

theorem properLine_of_hasPlainText (node : Node) (h : node.HasPlainText) :
    ProperLine node.ownText := by
  obtain ⟨text, htext, hplain⟩ := h
  rw [Node.ownText, htext]
  exact ⟨hplain.ne_empty, hplain.no_newline⟩

theorem properLine_of_mem_docLines {depth : Nat} {doc : Option String} :
    ∀ line ∈ docLines depth doc, ProperLine line := by
  intro line hline
  obtain ⟨body, hbody, rfl⟩ := isDocLine_of_mem_docLines line hline
  exact (properLine_of_isMarked hbody).indent depth

/-! ## The paragraphs of a module -/

/-- Whether the first line of a paragraph is an import. -/
def BeginsImport (ls : List String) : Prop := ∃ line ∈ ls.head?, IsImportText line

theorem mem_sortedTexts {trees : List (Located Node)} {line : String} :
    line ∈ sortedTexts trees ↔ ∃ tree ∈ trees, tree.value.ownText = line := by
  rw [sortedTexts, List.mem_mergeSort, ownTexts, List.mem_map]

/-- An import group has lines, and each is the text of an import. -/
theorem ownText_of_mem_importTexts {imports : List (Located Node)} {group : List String}
    (h : group ∈ importTexts imports) :
    group ≠ [] ∧ ∀ line ∈ group, ∃ tree ∈ imports, tree.value.ownText = line := by
  rcases List.mem_append.mp h with h | h
  · obtain ⟨trees, htrees, rfl⟩ := List.mem_map.mp h
    constructor
    · have hne := ne_nil_of_mem_partition Located.span htrees
      exact mergeSort_ne_nil fun he => hne (List.map_eq_nil_iff.mp he)
    · intro line hline
      obtain ⟨tree, htree, he⟩ := mem_sortedTexts.mp hline
      exact ⟨tree, List.mem_of_mem_filter (mem_of_mem_partition Located.span htrees htree), he⟩
  · split at h
    · cases h
    · next hne =>
      rw [List.mem_singleton.mp h]
      refine ⟨fun he => hne (List.isEmpty_iff.mpr he), fun line hline => ?_⟩
      obtain ⟨tree, htree, he⟩ := List.mem_map.mp hline
      exact ⟨tree, List.mem_of_mem_filter htree, he⟩

end Layout

namespace Node

open Layout

variable {m : Node}

/-- The lines above the imports of a module with a name, without the empty line. -/
def opening (m : Node) (name : String) : List String :=
  docLines 0 m.doc ++ ["module " ++ name ++ " where"]

theorem properLine_of_mem_opening {name : String} (h : '\n' ∉ name.toList) :
    ∀ line ∈ m.opening name, ProperLine line := by
  intro line hline
  rcases List.mem_append.mp hline with hline | hline
  · exact properLine_of_mem_docLines line hline
  · rw [List.mem_singleton.mp hline]
    refine ⟨fun he => ?_, ?_⟩
    · have hchars := congrArg String.toList he
      simp [String.toList_append] at hchars
    · simp [String.toList_append, h]

namespace IsPlainModule

theorem importText (h : m.IsPlainModule) {group : List String}
    (hg : group ∈ importTexts m.imports) :
    ∀ line ∈ group, '\n' ∉ line.toList ∧ IsImportText line := by
  intro line hline
  obtain ⟨tree, htree, rfl⟩ := (ownText_of_mem_importTexts hg).2 line hline
  obtain ⟨text, htext, himport⟩ := h.imports tree htree
  rw [Node.ownText, htext]
  exact himport

theorem beginsImport (h : m.IsPlainModule) :
    ∀ group ∈ importTexts m.imports, BeginsImport group := by
  intro group hg
  obtain ⟨line, rest, rfl⟩ := List.exists_cons_of_ne_nil (ownText_of_mem_importTexts hg).1
  exact ⟨line, rfl, (h.importText hg line List.mem_cons_self).2⟩

/-- The trees of a paragraph of items are plain. -/
theorem everyIn (h : m.IsPlainModule) {group : List (Located Node)}
    (hg : group ∈ partition Located.span m.items) : EveryIn HasPlainText group :=
  everyIn_iff.mpr fun tree ht => (h.items tree (mem_of_mem_partition Located.span hg ht)).1

/-- A paragraph of items does not begin with an import. -/
theorem not_beginsImport (h : m.IsPlainModule) :
    ∀ ls ∈ m.itemParagraphs, ¬ BeginsImport ls := by
  rintro ls hls ⟨line, hline, himport⟩
  obtain ⟨group, hg, rfl⟩ := List.mem_map.mp hls
  obtain ⟨tree, rest, rfl⟩ :=
    List.exists_cons_of_ne_nil (ne_nil_of_mem_partition Located.span hg)
  obtain ⟨body, after, hlines, hbody⟩ := exists_head_treeLines tree.value 0
  rw [List.flatMap_cons, hlines] at hline
  obtain rfl : body = line := Option.some.inj hline
  rcases hbody with hmarked | rfl
  · -- a comment line begins with a dash
    obtain ⟨marked, hm⟩ := hmarked.1
    obtain ⟨text, ht⟩ := himport
    rw [← hm] at ht
    exact absurd (List.cons.inj ht).1 (by decide)
  · have htree := mem_of_mem_partition Located.span hg List.mem_cons_self
    exact (h.items tree htree).2 himport

/-- All lines of a plain module are proper, and no paragraph is without lines. -/
theorem paragraphs (h : m.IsPlainModule) {name : String} (hname : m.text = some name) :
    ∀ ls ∈ m.opening name :: (importTexts m.imports ++ m.itemParagraphs),
      ls ≠ [] ∧ ∀ line ∈ ls, ProperLine line := by
  intro ls hls
  rcases List.mem_cons.mp hls with rfl | hls
  · refine ⟨List.append_ne_nil_of_right_ne_nil _ (List.cons_ne_nil _ _), ?_⟩
    obtain ⟨name', hname', hn⟩ := h.name
    rw [hname] at hname'
    obtain rfl := Option.some.inj hname'
    exact properLine_of_mem_opening hn
  · rcases List.mem_append.mp hls with hls | hls
    · refine ⟨(ownText_of_mem_importTexts hls).1, fun line hline => ?_⟩
      obtain ⟨hn, himport⟩ := h.importText hls line hline
      refine ⟨?_, hn⟩
      rintro rfl
      exact absurd himport (by decide)
    · obtain ⟨group, hg, rfl⟩ := List.mem_map.mp hls
      have hproper : ∀ line ∈ forestLines 0 group, ProperLine line :=
        properLine_of_mem_forestLines properLine_of_hasPlainText (h.everyIn hg)
      rw [forestLines_eq_flatMap] at hproper
      refine ⟨?_, hproper⟩
      obtain ⟨tree, rest, rfl⟩ :=
        List.exists_cons_of_ne_nil (ne_nil_of_mem_partition Located.span hg)
      rw [List.flatMap_cons]
      exact List.append_ne_nil_of_left_ne_nil (treeLines_ne_nil 0 tree.value) _

theorem solid (h : m.IsPlainModule) {name : String} (hname : m.text = some name) :
    ∀ ls ∈ m.opening name :: (importTexts m.imports ++ m.itemParagraphs), Solid ls := by
  intro ls hls
  obtain ⟨hne, hproper⟩ := h.paragraphs hname ls hls
  exact ⟨hne, fun hblank => (hproper "" hblank).ne_empty rfl⟩

/-- **A plain module is written as solid paragraphs**: its opening, its import groups and
its paragraphs of items. -/
theorem trimLines_lines (h : m.IsPlainModule) {name : String} (hname : m.text = some name) :
    trimLines m.lines =
      [""].intercalate (m.opening name :: (importTexts m.imports ++ m.itemParagraphs)) := by
  have hlines : m.lines = closeGroups (m.opening name :: importTexts m.imports) ++
      [""].intercalate m.itemParagraphs := by
    simp [lines, preamble, headerLines, hname, opening, closeGroups]
  rw [hlines]
  refine trimLines_closeGroups_append (fun ls hls => ?_) fun ls hls => ?_
  · refine h.solid hname ls ?_
    rcases List.mem_cons.mp hls with rfl | hls
    · exact List.mem_cons_self
    · exact List.mem_cons_of_mem _ (List.mem_append_left _ hls)
  · exact h.solid hname ls (List.mem_cons_of_mem _ (List.mem_append_right _ hls))

theorem newline_notMem_trimLines (h : m.IsPlainModule) :
    ∀ line ∈ trimLines m.lines, '\n' ∉ line.toList := by
  obtain ⟨name, hname, -⟩ := h.name
  intro line hline
  rw [h.trimLines_lines hname] at hline
  have hmem : line = "" ∨
      ∃ ls ∈ m.opening name :: (importTexts m.imports ++ m.itemParagraphs), line ∈ ls :=
    mem_intercalate_blank hline
  rcases hmem with rfl | ⟨ls, hls, hmem⟩
  · exact List.not_mem_nil
  · exact ((h.paragraphs hname ls hls).2 line hmem).no_newline

theorem trimLines_ne_nil (h : m.IsPlainModule) : trimLines m.lines ≠ [] := by
  obtain ⟨name, hname, -⟩ := h.name
  rw [h.trimLines_lines hname, intercalate_blank_cons]
  exact List.append_ne_nil_of_left_ne_nil
    (h.paragraphs hname _ List.mem_cons_self).1 _

end IsPlainModule

/-- Two modules that a reader of their texts cannot tell apart: of one name, with no docs
or docs of the same normal lines, with the same import groups as they are written, and
with paragraphs of items that are written alike. -/
structure SameLayout (m₁ m₂ : Node) : Prop where
  text : m₁.text = m₂.text
  doc : m₁.doc.map DocComment.normalize = m₂.doc.map DocComment.normalize
  imports : ∃ groups, (importGroups m₁.imports).result = .ok groups ∧
    (importGroups m₂.imports).result = .ok groups
  items : ∃ groups₁ groups₂,
    (SourceLayout.paragraphs Located.span m₁.items).result = .ok groups₁ ∧
    (SourceLayout.paragraphs Located.span m₂.items).result = .ok groups₂ ∧
    List.Forall₂ (MatchesIn SameContent) groups₁ groups₂

end Node

open Layout

/-- Lists with the same image correspond, member by member, as members with the same
image do. -/
theorem forall₂_of_map_eq {α β : Type} {f : α → β} {r : α → α → Prop} {as bs : List α}
    (h : as.map f = bs.map f) (hr : ∀ a ∈ as, ∀ b ∈ bs, f a = f b → r a b) :
    List.Forall₂ r as bs := by
  induction as generalizing bs with
  | nil =>
    rw [List.map_eq_nil_iff.mp h.symm]
    exact List.Forall₂.nil
  | cons a as ih =>
    cases bs with
    | nil => cases h
    | cons b bs =>
      obtain ⟨hab, hrest⟩ := List.cons.inj h
      refine List.Forall₂.cons (hr a List.mem_cons_self b List.mem_cons_self hab) (ih hrest ?_)
      exact fun x hx y hy => hr x (List.mem_cons_of_mem a hx) y (List.mem_cons_of_mem b hy)

/-- The paragraphs of items of two plain modules are alike if they are written alike. -/
theorem Node.IsPlainModule.forall₂_matchesIn {m₁ m₂ : Node} (h₁ : m₁.IsPlainModule)
    (h₂ : m₂.IsPlainModule) (h : m₁.itemParagraphs = m₂.itemParagraphs) :
    List.Forall₂ (Node.MatchesIn Node.SameContent) (partition Located.span m₁.items)
      (partition Located.span m₂.items) := by
  refine forall₂_of_map_eq h fun group₁ hg₁ group₂ hg₂ hlines => ?_
  rw [← Node.forestLines_eq_flatMap, ← Node.forestLines_eq_flatMap] at hlines
  have hend : Shallow 0 [] := fun _ hline => absurd hline (Option.not_mem_none _)
  exact (forestLines_append_inj 0 group₁ group₂ (h₁.everyIn hg₁) (h₂.everyIn hg₂) hend hend
    (congrArg (· ++ []) hlines)).1

/-- **The text of a plain module determines the module**, up to what the layout passes
over. -/
theorem sameLayout_of_layOut_eq {m₁ m₂ : Node} (h₁ : m₁.IsPlainModule) (h₂ : m₂.IsPlainModule)
    (s₁ s₂ : Span) (h : (layOut ⟨s₁, .node m₁⟩).result = (layOut ⟨s₂, .node m₂⟩).result) :
    m₁.SameLayout m₂ := by
  obtain ⟨name₁, hname₁, -⟩ := h₁.name
  obtain ⟨name₂, hname₂, -⟩ := h₂.name
  rw [result_layOut h₁.kind, result_layOut h₂.kind] at h
  have hlines := trimLines_eq_of_finishedText_eq h₁.newline_notMem_trimLines h₁.trimLines_ne_nil
    h₂.newline_notMem_trimLines h₂.trimLines_ne_nil (Except.ok.inj h)
  rw [h₁.trimLines_lines hname₁, h₂.trimLines_lines hname₂] at hlines
  have hparagraphs := eq_of_intercalate_blank_eq (h₁.solid hname₁) (h₂.solid hname₂)
    (List.cons_ne_nil _ _) (List.cons_ne_nil _ _) hlines
  obtain ⟨hopening, hrest⟩ := List.cons.inj hparagraphs
  obtain ⟨hdoc, hheader⟩ := List.append_inj' hopening rfl
  -- import groups begin with an import and paragraphs of items do not
  obtain ⟨himports, hitems⟩ := append_inj_of_forall h₁.beginsImport
    (fun ls hls => h₁.not_beginsImport ls (List.mem_of_mem_head? hls)) h₂.beginsImport
    (fun ls hls => h₂.not_beginsImport ls (List.mem_of_mem_head? hls)) hrest
  have hname : name₁ = name₂ := by simpa using hheader
  exact {
    text := by rw [hname₁, hname₂, hname]
    doc := docLines_inj hdoc
    imports := ⟨_, result_importGroups _, himports ▸ result_importGroups _⟩
    items := ⟨_, _, result_paragraphs _ _, result_paragraphs _ _,
      h₁.forall₂_matchesIn h₂ hitems⟩ }

/-- A module with a doc comment, an import, an item on the given line with the same doc
comment and an item inside, and an item below. -/
def nestedModule (doc : String) (line : Int) : Node :=
  ⟨.wholeModule, some "M", some doc, [
    ⟨.unknown "", ⟨.importLine, some "import A", none, []⟩⟩,
    ⟨.real ⟨"M", ⟨line, 1⟩, ⟨line, 1⟩, Position.le_refl _⟩,
      ⟨.declaration, some "f = g", some doc,
        [⟨.unknown "", ⟨.expression, some "where g", none, []⟩⟩]⟩⟩,
    ⟨.real ⟨"M", ⟨line + 3, 1⟩, ⟨line + 3, 1⟩, Position.le_refl _⟩,
      ⟨.signature, some "h", none, []⟩⟩]⟩

theorem isPlainModule_nestedModule (doc : String) (line : Int) :
    (nestedModule doc line).IsPlainModule where
  kind := rfl
  name := ⟨"M", rfl, by decide⟩
  imports := by
    intro tree htree
    rw [List.mem_singleton.mp htree]
    exact ⟨"import A", rfl, by decide, by decide⟩
  items := by
    have hplain : ∀ text ∈ ["f = g", "where g", "h"], PlainText text ∧ ¬ IsImportText text := by
      intro text htext
      simp only [List.mem_cons, List.not_mem_nil, or_false] at htext
      rcases htext with rfl | rfl | rfl <;>
        exact ⟨⟨by decide, by decide, by decide, by decide⟩, by decide⟩
    intro tree htree
    rcases List.mem_cons.mp htree with rfl | htree
    · exact ⟨⟨⟨_, rfl, (hplain "f = g" (by decide)).1⟩,
        ⟨⟨_, rfl, (hplain "where g" (by decide)).1⟩, trivial⟩, trivial⟩,
        (hplain "f = g" (by decide)).2⟩
    · rw [List.mem_singleton.mp htree]
      exact ⟨⟨⟨_, rfl, (hplain "h" (by decide)).1⟩, trivial⟩, (hplain "h" (by decide)).2⟩

/-- Docs that differ in padding, on other lines. -/
theorem sameLayout_nestedModule :
    (nestedModule " x\n\n y" 3).IsPlainModule ∧ (nestedModule "x \n\ny\n" 40).IsPlainModule ∧
      (layOut ⟨.unknown "", .node (nestedModule " x\n\n y" 3)⟩).result =
        (layOut ⟨.unknown "a", .node (nestedModule "x \n\ny\n" 40)⟩).result ∧
      (nestedModule " x\n\n y" 3).SameLayout (nestedModule "x \n\ny\n" 40) := by
  have h₁ := isPlainModule_nestedModule " x\n\n y" 3
  have h₂ := isPlainModule_nestedModule "x \n\ny\n" 40
  have h : (layOut ⟨.unknown "", .node (nestedModule " x\n\n y" 3)⟩).result =
      (layOut ⟨.unknown "a", .node (nestedModule "x \n\ny\n" 40)⟩).result := by
    decide +kernel
  exact ⟨h₁, h₂, h, sameLayout_of_layOut_eq h₁ h₂ _ _ h⟩

end SourceLayout
