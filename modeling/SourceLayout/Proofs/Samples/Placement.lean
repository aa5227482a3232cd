import SourceLayout.Proofs.Samples.Module
import SourceLayout.Proofs.Span.Enclosing

/-! # Where the items of sample modules stand

A sample module is written from the top down, with a count of the lines that are taken.  Each
item starts below them, with room for its comment in between, and ends on a line that is
counted before the next item is written.  So the items between two counts are **stacked**
(`Stacked`): they stand between the two, and each of them below the ones before it.  Stacked
items can be put on top of others (`Stacked.append`), and every list that a module is made of
is stacked, whatever is drawn.

It follows that a sample module could stand in a file as it is (`isLaidOut_modules`).
-/
namespace SourceLayout.Samples

open Draw

/-! ## Stacked items -/

/-- The items with coordinates, each behind its coordinates. -/
def placed (items : List (Located Node)) : List (Extent × Node) :=
  items.filterMap fun item => item.span.extent?.map fun e => (e, item.value)

theorem placed_append (xs ys : List (Located Node)) : placed (xs ++ ys) = placed xs ++ placed ys :=
  List.filterMap_append

theorem mem_placed {items : List (Located Node)} {e : Extent} {node : Node} :
    (e, node) ∈ placed items ↔ ⟨.real e, node⟩ ∈ items := by
  constructor
  · intro h
    obtain ⟨⟨span, value⟩, hitem, he⟩ := List.mem_filterMap.mp h
    cases span with
    | real f =>
      cases he
      exact hitem
    | unknown reason => cases he
  · exact fun h => List.mem_filterMap.mpr ⟨_, h, rfl⟩

/-- `f` is on lines of `e`, and starts after it. -/
structure Inside (e f : Extent) : Prop where
  line_le : e.start.line ≤ f.start.line
  le_line : f.stop.line ≤ e.stop.line
  start_lt : e.start < f.start

/-- A node stands between two counts of lines: below the first, with room for its comment, and
not below the second.  Its children are inside it and have none of their own. -/
structure Stands (file : String) (above below : Nat) (e : Extent) (node : Node) : Prop where
  file_eq : e.file = file
  above_lt : (above + docHeight node.doc : Nat) < e.start.line
  le_below : e.stop.line ≤ below
  inside : ∀ child ∈ node.children,
    child.value.children = [] ∧ ∃ f, child.span = .real f ∧ f.file = file ∧ Inside e f

/-- Items that stand between two counts of lines, each of them below those before it.  An item
without coordinates has no children. -/
structure Stacked (file : String) (above : Nat) (items : List (Located Node)) (below : Nat) :
    Prop where
  le : above ≤ below
  stands : ∀ p ∈ placed items, Stands file above below p.1 p.2
  descending : (placed items).Pairwise fun (p q : Extent × Node) =>
    p.1.stop.line + docHeight q.2.doc < q.1.start.line
  childless : ∀ item ∈ items, item.span.extent? = none → item.value.children = []

variable {file : String} {above between below : Nat}

theorem Stands.mono {above' below' : Nat} {e : Extent} {node : Node}
    (h : Stands file above below e node) (habove : above' ≤ above) (hbelow : below ≤ below') :
    Stands file above' below' e node where
  file_eq := h.file_eq
  above_lt := by
    have := h.above_lt
    omega
  le_below := by
    have := h.le_below
    omega
  inside := h.inside

namespace Stacked

theorem nil (h : above ≤ below) : Stacked file above [] below :=
  ⟨h, by simp [placed], List.Pairwise.nil, by simp⟩

theorem singleton {e : Extent} {node : Node} (hle : above ≤ below)
    (h : Stands file above below e node) : Stacked file above [⟨.real e, node⟩] below where
  le := hle
  stands := by
    intro p hp
    rw [List.mem_singleton.mp hp]
    exact h
  descending := List.pairwise_singleton ..
  childless := by simp

/-- **One stack on top of another.** -/
theorem append {xs ys : List (Located Node)} (hx : Stacked file above xs between)
    (hy : Stacked file between ys below) : Stacked file above (xs ++ ys) below where
  le := hx.le.trans hy.le
  stands := by
    intro p hp
    rw [placed_append, List.mem_append] at hp
    rcases hp with hp | hp
    · exact (hx.stands p hp).mono (Nat.le_refl above) hy.le
    · exact (hy.stands p hp).mono hx.le (Nat.le_refl below)
  descending := by
    rw [placed_append]
    refine List.pairwise_append.mpr ⟨hx.descending, hy.descending, fun p hp q hq => ?_⟩
    have habove := (hx.stands p hp).le_below
    have hbelow := (hy.stands q hq).above_lt
    omega
  childless := List.forall_mem_append.mpr ⟨hx.childless, hy.childless⟩

end Stacked

/-! ## The parts of a module -/

/-- An import stands on the first line below those taken. -/
theorem stacked_importItem {item : Located Node} {lines : Nat}
    (h : (importItem file above).Possible item) (hlines : 1 ≤ lines) :
    Stacked file above [item] (above + lines) := by
  obtain ⟨name, -, e, he, rfl⟩ := possible_importItem h
  obtain ⟨hfile, hstart, hstop⟩ := possible_extent he
  refine Stacked.singleton (Nat.le_add_right above lines) ⟨hfile, ?_, ?_, ?_⟩
  · rw [hstart]
    show ((above + 0 : Nat) : Int) < (above + 1 : Nat)
    omega
  · rw [hstop]
    omega
  · exact fun _ hchild => absurd hchild List.not_mem_nil

theorem stacked_importItems {count : Nat} {items : List (Located Node)}
    (h : (importItems file count above).Possible (items, below)) :
    Stacked file above items below := by
  induction count generalizing above items with
  | zero =>
    cases h
    exact Stacked.nil (Nat.le_refl _)
  | succ count ih =>
    obtain ⟨item, rest, lines, hitem, hlines, hrest, rfl⟩ := possible_importItems_succ h
    exact (stacked_importItem hitem hlines).append (ih hrest)

theorem stacked_implicitImport {items : List (Located Node)} (h : implicitImport.Possible items) :
    Stacked file above items above := by
  rcases possible_implicitImport h with rfl | rfl
  · exact ⟨Nat.le_refl above, by simp [placed], List.Pairwise.nil, by simp [leaf]⟩
  · exact Stacked.nil (Nat.le_refl above)

/-- A declaration stands on the first line below its comment, and its local definition on its
last line. -/
theorem stacked_declarationItem {item : Located Node}
    (h : (declarationItem file above).Possible (item, below)) :
    Stacked file above [item] below := by
  obtain ⟨doc, name, children, body, e, lines, -, -, hchildren, -, he, hlines, rfl, rfl⟩ :=
    possible_declarationItem h
  obtain ⟨hfile, hstart, hstop⟩ := possible_extent he
  refine Stacked.singleton (by omega) ⟨hfile, ?_, ?_, ?_⟩
  · rw [hstart]
    show ((above + docHeight doc : Nat) : Int) < (above + docHeight doc + 1 : Nat)
    omega
  · rw [hstop]
    omega
  · intro child hchild
    rcases possible_someChild hchildren with rfl | ⟨_, _, f, -, -, hf, rfl⟩
    · cases hchild
    · cases List.mem_singleton.mp hchild
      obtain ⟨hfile', hstart', hstop'⟩ := possible_extent hf
      rw [List.length_singleton] at hstop
      have hline : e.start.line < f.start.line := by omega
      exact ⟨rfl, f, rfl, hfile', by omega, by omega, Or.inl hline⟩

theorem stacked_declarationItems {count : Nat} {items : List (Located Node)}
    (h : (declarationItems file count above).Possible (items, below)) :
    Stacked file above items below := by
  induction count generalizing above items with
  | zero =>
    cases h
    exact Stacked.nil (Nat.le_refl _)
  | succ count ih =>
    obtain ⟨item, line, rest, hitem, hrest, rfl⟩ := possible_declarationItems_succ h
    exact (stacked_declarationItem hitem).append (ih hrest)

/-! ## Whole modules -/

/-- What lies between the first line and the last one taken is inside the file. -/
theorem encloses_fileExtent {e : Extent} (hfile : e.file = file) (hstart : 1 < e.start.line)
    (hstop : e.stop.line ≤ below) : (fileExtent file below).Encloses e where
  file_eq := hfile
  start_le := Or.inl hstart
  le_stop := Or.inl (by
    show e.stop.line < (below + 1 : Nat)
    omega)

/-- A file reaches around what is stacked below its first line. -/
theorem Stacked.encloses {items : List (Located Node)} (h : Stacked file above items below)
    (habove : 1 ≤ above) : ∀ item ∈ items,
      (∀ e ∈ item.span.extent?, (fileExtent file below).Encloses e) ∧
        ∀ child ∈ item.value.children,
          (∀ f ∈ child.span.extent?, (fileExtent file below).Encloses f) ∧
            child.value.children = [] := by
  rintro ⟨span, node⟩ hitem
  cases span with
  | unknown reason =>
    refine ⟨fun _ he => absurd he (Option.not_mem_none _), fun child hchild => ?_⟩
    rw [h.childless _ hitem rfl] at hchild
    cases hchild
  | real e =>
    have hstands : Stands file above below e node := h.stands (e, node) (mem_placed.mpr hitem)
    have hstart := hstands.above_lt
    have hstop := hstands.le_below
    constructor
    · rintro _ ⟨⟩
      exact encloses_fileExtent hstands.file_eq (by omega) hstop
    · intro child hchild
      obtain ⟨hleaf, f, hf, hfile, hinside⟩ := hstands.inside child hchild
      have hstart' := hinside.line_le
      have hstop' := hinside.le_line
      refine ⟨?_, hleaf⟩
      rw [hf]
      rintro _ ⟨⟩
      exact encloses_fileExtent hfile (by omega) (by omega)

/-- The imports with coordinates, at most one without, and the declarations. -/
structure InSections (written implicit declarations : List (Located Node)) : Prop where
  written_real : ∀ item ∈ written, item.value.kind = .importLine ∧ ∃ e, item.span = .real e
  implicit_unknown : ∀ item ∈ implicit,
    item.value.kind = .importLine ∧ ∃ reason, item.span = .unknown reason
  length_implicit : implicit.length ≤ 1
  declarations_real : ∀ item ∈ declarations,
    item.value.kind = .declaration ∧ ∃ e, item.span = .real e
  declarations_ne_nil : declarations ≠ []

/-- A module as it could stand in a file. -/
structure IsLaidOut (m : Located Node) : Prop where
  kind : m.value.kind = .wholeModule
  sections : ∃ written implicit declarations,
    m.value.children = written ++ implicit ++ declarations ∧
      InSections written implicit declarations
  /-- Each child starts on a line below the one before it. -/
  descending : (placed m.value.children).IsChain fun (p q : Extent × Node) =>
    p.1.stop.line < q.1.start.line
  /-- Between a child and the one before it there is room for the lines of its comment. -/
  doc_room : (placed m.value.children).IsChain fun (p q : Extent × Node) =>
    ∀ doc ∈ q.2.doc, (newlines doc + 1 : Nat) < q.1.start.line - p.1.stop.line
  /-- Whatever is in a child is on its lines and starts after it. -/
  nested : ∀ p ∈ placed m.value.children, ∀ child ∈ p.2.children,
    ∃ f, child.span = .real f ∧ Inside p.1 f
  /-- The span of the module reaches around those of its children and of theirs, and there are
  no others. -/
  enclosed : ∃ frame, m.span = .real frame ∧ ∀ item ∈ m.value.children,
    (∀ e ∈ item.span.extent?, frame.Encloses e) ∧ ∀ child ∈ item.value.children,
      (∀ f ∈ child.span.extent?, frame.Encloses f) ∧ child.value.children = []

theorem inSections_of_possible {written count line : Nat}
    {imports implicit declarations : List (Located Node)}
    (himports : (importItems file written 2).Possible (imports, above))
    (himplicit : implicitImport.Possible implicit)
    (hdeclarations : (declarationItems file (count + 1) line).Possible (declarations, below)) :
    InSections imports implicit declarations where
  written_real := by
    intro item hitem
    obtain ⟨line, hitem⟩ := exists_of_mem_importItems himports item hitem
    obtain ⟨name, -, e, -, rfl⟩ := possible_importItem hitem
    exact ⟨rfl, e, rfl⟩
  implicit_unknown := by
    rcases possible_implicitImport himplicit with rfl | rfl
    · exact List.forall_mem_singleton.mpr ⟨rfl, _, rfl⟩
    · exact fun _ hitem => absurd hitem List.not_mem_nil
  length_implicit := by
    rcases possible_implicitImport himplicit with rfl | rfl
    · exact Nat.le_refl 1
    · exact Nat.zero_le 1
  declarations_real := by
    intro item hitem
    obtain ⟨line, next, hitem⟩ := exists_of_mem_declarationItems hdeclarations item hitem
    obtain ⟨doc, name, children, body, e, lines, -, -, -, -, -, -, rfl, -⟩ :=
      possible_declarationItem hitem
    exact ⟨rfl, e, rfl⟩
  declarations_ne_nil := by
    obtain ⟨item, line, rest, -, -, rfl⟩ := possible_declarationItems_succ hdeclarations
    exact List.cons_ne_nil item rest

theorem isLaidOut_sampleModule {m : Located Node} (h : (sampleModule file).Possible m) :
    IsLaidOut m := by
  obtain ⟨name, imports, implicit, declarations, written, line, count, below, -, himports,
    himplicit, hdeclarations, rfl⟩ := possible_sampleModule h
  -- one empty line separates the imports from the declarations
  have hgap : Stacked file line [] (line + 1) := Stacked.nil (Nat.le_add_right line 1)
  have hstack := (((stacked_importItems himports).append (stacked_implicitImport himplicit)).append
    hgap).append (stacked_declarationItems hdeclarations)
  rw [List.append_nil] at hstack
  refine ⟨rfl, ⟨imports, implicit, declarations, rfl,
    inSections_of_possible himports himplicit hdeclarations⟩, ?_, ?_, ?_, fileExtent file below,
    rfl, ?_⟩
  · refine hstack.descending.isChain.imp fun p q hpq => ?_
    omega
  · refine hstack.descending.isChain.imp fun p q hpq doc hdoc => ?_
    rw [Option.mem_def.mp hdoc, docHeight] at hpq
    omega
  · intro p hp child hchild
    obtain ⟨-, f, hf, -, hinside⟩ := (hstack.stands p hp).inside child hchild
    exact ⟨f, hf, hinside⟩
  · exact hstack.encloses (by omega)

/-- **Every sample module is one that could stand in a file**, whatever is drawn, and so for
every seed.  Coordinates that are drawn without a proof always pass the check of an extent,
and so do those of a file. -/
theorem isLaidOut_modules (count : Nat) :
    (∀ file line height, checkedExtent file line height = Except.ok <$> extent file line height) ∧
      (∀ (file : String) (above : Nat),
        Extent.between file ⟨1, 1⟩ ⟨(above + 1 : Nat), 1⟩ = .ok (fileExtent file above)) ∧
      (∀ ms, (modules count).Possible ms → ms.length = count ∧ ∀ m ∈ ms, IsLaidOut m) ∧
      ∀ seed, ((modules count).seeded seed).length = count ∧
        ∀ m ∈ (modules count).seeded seed, IsLaidOut m := by
  have hall : ∀ ms, (modules count).Possible ms → ms.length = count ∧ ∀ m ∈ ms, IsLaidOut m := by
    intro ms hms
    obtain ⟨hlength, hmodules⟩ := possible_modulesFrom hms
    refine ⟨hlength, fun m hm => ?_⟩
    obtain ⟨n, hn⟩ := hmodules m hm
    exact isLaidOut_sampleModule hn
  exact ⟨checkedExtent_eq, fun file above => Extent.between_ends (fileExtent file above), hall,
    fun seed => hall _ (possible_seeded _ seed)⟩

/-- The sample file is drawn, and its declaration has room for a comment of two lines. -/
theorem isLaidOut_sampleFile : (modules 1).Possible [sampleFile] ∧ IsLaidOut sampleFile ∧
    (placed sampleFile.value.children).map (fun p => (p.1.start.line, p.1.stop.line)) =
      [(3, 3), (7, 8)] := by
  obtain ⟨-, -, hall, -⟩ := isLaidOut_modules 1
  obtain ⟨-, hlaid⟩ := hall _ possible_sampleFile
  exact ⟨possible_sampleFile, hlaid sampleFile List.mem_cons_self, rfl⟩

end SourceLayout.Samples
