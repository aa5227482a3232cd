import SourceLayout.Samples.Module
import SourceLayout.Fault
import SourceLayout.Proofs.Random.Draw

/-! # What sample spans and sample modules are made of

A sample extent starts on the line that it was asked for and ends as many lines below as it
was asked to be high; only its columns are drawn (`possible_extent`).  Extents are valid by
their type, and the samples give the proof as they are built.  The same coordinates, drawn
without a proof and checked afterwards, always pass the check (`checkedExtent_eq`).

One lemma for each part of a sample module says which parts are possible.  Imports and
declarations are drawn one below the other, so each member of such a list is a possible item
below some line (`exists_of_mem_importItems`, `exists_of_mem_declarationItems`), and a module
is made of three such lists (`possible_sampleModule`).
-/
namespace SourceLayout.Samples

open Draw

/-! ## Extents -/

/-- The coordinates of a sample extent, drawn first and then checked. -/
def checkedExtent (file : String) (line height : Nat) : Draw (Except Fault Extent) := do
  let column ← Draw.between 1 20
  match height with
  | 0 =>
    let width ← Draw.between 0 40
    pure (Extent.between file ⟨line, column⟩ ⟨line, column + width⟩)
  | below + 1 =>
    let stop ← Draw.between 1 60
    pure (Extent.between file ⟨line, column⟩ ⟨line + (below + 1 : Nat), stop⟩)

/-- **The check never fails**, whatever is drawn. -/
theorem checkedExtent_eq (file : String) (line height : Nat) :
    checkedExtent file line height = Except.ok <$> extent file line height := by
  cases height with
  | zero =>
    refine congrArg (Draw.index _ _) (funext fun column => ?_)
    refine congrArg (Draw.index _ _) (funext fun width => ?_)
    exact congrArg Draw.done (Extent.between_ends (flatExtent file line (1 + column) (0 + width)))
  | succ below =>
    refine congrArg (Draw.index _ _) (funext fun column => ?_)
    refine congrArg (Draw.index _ _) (funext fun stop => ?_)
    exact congrArg Draw.done
      (Extent.between_ends (tallExtent file line (1 + column) below (1 + stop)))

/-- A sample extent is in its file, and on its lines. -/
theorem possible_extent {file : String} {line height : Nat} {e : Extent}
    (h : (extent file line height).Possible e) :
    e.file = file ∧ e.start.line = line ∧ e.stop.line = (line + height : Nat) := by
  cases height with
  | zero =>
    simp only [extent, Draw.possible_bind, Draw.possible_pure] at h
    obtain ⟨column, -, width, -, rfl⟩ := h
    exact ⟨rfl, rfl, rfl⟩
  | succ below =>
    simp only [extent, Draw.possible_bind, Draw.possible_pure] at h
    obtain ⟨column, -, stop, -, rfl⟩ := h
    exact ⟨rfl, rfl, rfl⟩

/-! ## Items and modules -/

variable {file : String} {above below : Nat} {item : Located Node} {items : List (Located Node)}

/-- The modules that are imported by name. -/
def importedNames : List String :=
  ["Data.List", "Data.Maybe", "Data.Text", "Control.Monad", "System.IO", "GHC"]

theorem possible_importItem (h : (importItem file above).Possible item) :
    ∃ name ∈ importedNames, ∃ e, (extent file (above + 1) 0).Possible e ∧
      item = ⟨.real e, leaf .importLine ("import " ++ name)⟩ := by
  simp only [importItem, possible_bind, possible_pure, possible_oneOf] at h
  exact h

theorem possible_importItems_succ {count : Nat}
    (h : (importItems file (count + 1) above).Possible (items, below)) :
    ∃ item rest lines, (importItem file above).Possible item ∧ 1 ≤ lines ∧
      (importItems file count (above + lines)).Possible (rest, below) ∧ items = item :: rest := by
  simp only [importItems, possible_bind, possible_pure, possible_oneOf] at h
  obtain ⟨item, hitem, lines, hlines, ⟨rest, below⟩, hrest, he⟩ := h
  cases he
  have hpositive : ∀ n ∈ [1, 1, 2], 1 ≤ n := by decide
  exact ⟨item, rest, lines, hitem, hpositive lines hlines, hrest, rfl⟩

theorem exists_of_mem_importItems {count : Nat}
    (h : (importItems file count above).Possible (items, below)) :
    ∀ item ∈ items, ∃ line, (importItem file line).Possible item := by
  induction count generalizing above items with
  | zero =>
    cases h
    exact fun _ hitem => absurd hitem List.not_mem_nil
  | succ count ih =>
    obtain ⟨item, rest, lines, hitem, -, hrest, rfl⟩ := possible_importItems_succ h
    exact List.forall_mem_cons.mpr ⟨⟨above, hitem⟩, ih hrest⟩

theorem possible_implicitImport (h : implicitImport.Possible items) :
    items = [⟨.unknown "<implicit import>", leaf .importLine "import Prelude"⟩] ∨ items = [] := by
  simp only [implicitImport, possible_bind] at h
  obtain ⟨written, -, h⟩ := h
  split at h
  · exact Or.inl h
  · exact Or.inr h

theorem possible_someDoc {doc : Option String} (h : someDoc.Possible doc) :
    ∀ raw ∈ doc, docComment.Possible raw := by
  simp only [someDoc, possible_bind] at h
  obtain ⟨written, -, h⟩ := h
  split at h
  · rw [possible_bind] at h
    obtain ⟨raw, hraw, rfl⟩ := h
    exact fun _ he => Option.some.inj he ▸ hraw
  · cases h
    exact fun _ he => absurd he (Option.not_mem_none _)

/-- A local definition, if there is one. -/
theorem possible_someChild (h : (someChild file above).Possible items) :
    items = [] ∨ ∃ name number e, identifier.Possible name ∧ number ≤ 99 ∧
      (extent file (above + 1) 0).Possible e ∧
      items = [⟨.real e, leaf .expression ("where " ++ name ++ " = " ++ toString number)⟩] := by
  simp only [someChild, possible_bind] at h
  obtain ⟨written, -, h⟩ := h
  split at h
  · simp only [possible_bind, possible_pure, possible_between (Nat.zero_le 99)] at h
    obtain ⟨name, hname, number, ⟨-, hnumber⟩, e, he, rfl⟩ := h
    exact Or.inr ⟨name, number, e, hname, hnumber, he, rfl⟩
  · exact Or.inl h

/-- A declaration has its comment above it and its local definition on the line below. -/
theorem possible_declarationItem (h : (declarationItem file above).Possible (item, below)) :
    ∃ doc name children body e lines, someDoc.Possible doc ∧ identifier.Possible name ∧
      (someChild file (above + docHeight doc + 1)).Possible children ∧ identifier.Possible body ∧
      (extent file (above + docHeight doc + 1) children.length).Possible e ∧ 1 ≤ lines ∧
      item = ⟨.real e, ⟨.declaration, some (name ++ " = " ++ body), doc, children⟩⟩ ∧
      below = above + docHeight doc + children.length + lines := by
  simp only [declarationItem, possible_bind, possible_pure, possible_oneOf] at h
  obtain ⟨doc, hdoc, name, hname, children, hchildren, body, hbody, e, he, lines, hlines, h⟩ := h
  cases h
  have hpositive : ∀ n ∈ [1, 1, 2, 3], 1 ≤ n := by decide
  exact ⟨doc, name, children, body, e, lines, hdoc, hname, hchildren, hbody, he,
    hpositive lines hlines, rfl, rfl⟩

theorem possible_declarationItems_succ {count : Nat}
    (h : (declarationItems file (count + 1) above).Possible (items, below)) :
    ∃ item line rest, (declarationItem file above).Possible (item, line) ∧
      (declarationItems file count line).Possible (rest, below) ∧ items = item :: rest := by
  simp only [declarationItems, possible_bind, possible_pure] at h
  obtain ⟨⟨item, line⟩, hitem, ⟨rest, below⟩, hrest, he⟩ := h
  cases he
  exact ⟨item, line, rest, hitem, hrest, rfl⟩

theorem exists_of_mem_declarationItems {count : Nat}
    (h : (declarationItems file count above).Possible (items, below)) :
    ∀ item ∈ items, ∃ line next, (declarationItem file line).Possible (item, next) := by
  induction count generalizing above items with
  | zero =>
    cases h
    exact fun _ hitem => absurd hitem List.not_mem_nil
  | succ count ih =>
    obtain ⟨item, line, rest, hitem, hrest, rfl⟩ := possible_declarationItems_succ h
    exact List.forall_mem_cons.mpr ⟨⟨above, line, hitem⟩, ih hrest⟩

/-- **A module** has its imports, the one that is not written, and at least one declaration. -/
theorem possible_sampleModule {m : Located Node} (h : (sampleModule file).Possible m) :
    ∃ name imports implicit declarations written above count below,
      moduleName.Possible name ∧ (importItems file written 2).Possible (imports, above) ∧
      implicitImport.Possible implicit ∧
      (declarationItems file (count + 1) (above + 1)).Possible (declarations, below) ∧
      m = ⟨.real (fileExtent file below),
        ⟨.wholeModule, some name, none, imports ++ implicit ++ declarations⟩⟩ := by
  have hcount : 1 ≤ 5 := by omega
  simp only [sampleModule, possible_bind, possible_pure, possible_between hcount] at h
  obtain ⟨name, hname, written, -, ⟨imports, above⟩, himports, implicit, himplicit, count,
    ⟨hpositive, -⟩, ⟨declarations, below⟩, hdeclarations, rfl⟩ := h
  obtain ⟨count, rfl⟩ := Nat.exists_eq_add_of_le' hpositive
  exact ⟨name, imports, implicit, declarations, written, above, count, below, hname, himports,
    himplicit, hdeclarations, rfl⟩

/-- As many modules as were asked for, each in a file with a number. -/
theorem possible_modulesFrom {first count : Nat} {ms : List (Located Node)}
    (h : (modulesFrom first count).Possible ms) :
    ms.length = count ∧ ∀ m ∈ ms, ∃ n, (sampleModule (fileName n)).Possible m := by
  induction count generalizing first ms with
  | zero =>
    cases h
    exact ⟨rfl, fun _ hm => absurd hm List.not_mem_nil⟩
  | succ count ih =>
    simp only [modulesFrom, possible_bind, possible_pure] at h
    obtain ⟨m, hm, rest, hrest, rfl⟩ := h
    obtain ⟨hlength, hall⟩ := ih hrest
    exact ⟨congrArg (· + 1) hlength, List.forall_mem_cons.mpr ⟨⟨first, hm⟩, hall⟩⟩

/-- A sample module with two imports, of which one is not written, and a declaration with a
comment of two lines and a local definition. -/
def sampleFile : Located Node :=
  ⟨.real ⟨"case_000000.hs", ⟨1, 1⟩, ⟨9, 1⟩, by decide⟩, ⟨.wholeModule, some "A", none, [
    ⟨.real ⟨"case_000000.hs", ⟨3, 1⟩, ⟨3, 1⟩, by decide⟩, leaf .importLine "import Data.List"⟩,
    ⟨.unknown "<implicit import>", leaf .importLine "import Prelude"⟩,
    ⟨.real ⟨"case_000000.hs", ⟨7, 1⟩, ⟨8, 1⟩, by decide⟩,
      ⟨.declaration, some "f = h", some "b\n", [
        ⟨.real ⟨"case_000000.hs", ⟨8, 1⟩, ⟨8, 1⟩, by decide⟩, leaf .expression "where g = 7"⟩]⟩⟩]⟩⟩

theorem possible_sampleFile : (modules 1).Possible [sampleFile] :=
  possible_iff_answered.mpr
    ⟨[
      -- the name, the imports, the one that is not written, and how many declarations
      0, 0, 0, 1, 0, 0, 0, 0, 0, 0,
      -- the comment
      0, 0, 2, fractionSteps - 1, 0, 1, 0, 0, 0, 0, fractionSteps - 1,
      -- the declaration, its local definition, and the lines below it
      5, 0, 0, 6, 0, 7, 0, 0, 7, 0, 0, 0, 0], by decide +kernel⟩

end SourceLayout.Samples
