import SourceLayout.Fault

/-!
# Computations that keep notes

Laying out a tree never depends on the notes it leaves, but a reader of a log
does: which spans could not be combined, where a missing span hid a blank line,
what was laid out.  A `Logged` computation is its notes, in the order in which
they were made, together with a result or a fault.  A fault ends the computation
and keeps the notes made before it.
-/

namespace SourceLayout

/-- Something worth recording. -/
inductive Note where
  /-- Two extents lie in different files, so they were not combined. -/
  | filesDiffer (first second : String)
  /-- A span beside a gap is unknown, so the gap was taken to hold no blank line. -/
  | gapUnknown
  /-- A module with the given name and number of children is being laid out. -/
  | layingOut (name : Option String) (items : Nat)
deriving DecidableEq

/-- The wording of a note. -/
def Note.message : Note → String
  | filesDiffer first second =>
    "not combining spans from different files: " ++ first ++ ", " ++ second
  | gapUnknown => "no real span between groups, assuming no blank line"
  | layingOut name items =>
    "formatting module " ++ name.getD "None" ++ " (" ++ toString items ++ " items)"

/-- Notes, and a result or a fault. -/
structure Logged (α : Type) where
  notes : List Note
  result : Except Fault α

namespace Logged

variable {α β : Type}

/-- Record one note. -/
def note (n : Note) : Logged Unit := ⟨[n], .ok ()⟩

/-- End with a fault. -/
def fail (f : Fault) : Logged α := ⟨[], .error f⟩

/-- End with a breach of a precondition. -/
def breach (b : Breach) : Logged α := fail (.breach b)

/-- The rest of a computation runs only after a result. -/
def bind (x : Logged α) (f : α → Logged β) : Logged β :=
  match x.result with
  | .ok a => ⟨x.notes ++ (f a).notes, (f a).result⟩
  | .error e => ⟨x.notes, .error e⟩

instance : Monad Logged where
  pure a := ⟨[], .ok a⟩
  bind := bind

/-- A computation that keeps no notes. -/
def ofExcept (r : Except Fault α) : Logged α := ⟨[], r⟩

@[ext] theorem ext {x y : Logged α} (hn : x.notes = y.notes) (hr : x.result = y.result) : x = y := by
  cases x
  cases y
  simp_all

@[simp] theorem notes_pure (a : α) : (pure a : Logged α).notes = [] := rfl

@[simp] theorem result_pure (a : α) : (pure a : Logged α).result = .ok a := rfl

@[simp] theorem notes_note (n : Note) : (note n).notes = [n] := rfl

@[simp] theorem result_note (n : Note) : (note n).result = .ok () := rfl

@[simp] theorem notes_breach (b : Breach) : (breach b : Logged α).notes = [] := rfl

@[simp] theorem result_breach (b : Breach) :
    (breach b : Logged α).result = .error (.breach b) := rfl

theorem bind_def (x : Logged α) (f : α → Logged β) : x >>= f = x.bind f := rfl

/-- After a result the notes of both parts follow each other. -/
theorem bind_of_ok {x : Logged α} {a : α} (h : x.result = .ok a) (f : α → Logged β) :
    x >>= f = ⟨x.notes ++ (f a).notes, (f a).result⟩ := by
  simp [bind_def, bind, h]

/-- A fault leaves the rest undone. -/
theorem bind_of_error {x : Logged α} {e : Fault} (h : x.result = .error e) (f : α → Logged β) :
    x >>= f = ⟨x.notes, .error e⟩ := by
  simp [bind_def, bind, h]

@[simp] theorem pure_bind (a : α) (f : α → Logged β) : (pure a : Logged α) >>= f = f a := by
  rw [bind_of_ok (result_pure a)]
  rfl

@[simp] theorem note_bind (n : Note) (f : Unit → Logged β) :
    note n >>= f = ⟨n :: (f ()).notes, (f ()).result⟩ := rfl

end Logged

end SourceLayout
