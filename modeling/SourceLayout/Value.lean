import SourceLayout.Tree.Node

/-!
# Values

Diagnostics show values of every sort: numbers and texts, positions and spans, whole
trees, and the reports of earlier faults.  `Value` is the type of all of them.  The
payload of a located value is again any value, so that a place can be attached to
anything.  An object of a class that is not listed here is opaque: no operation looks
inside it, and the name of its class and its literal are all that is ever said of it.

Equality of values is structural: two values are equal when they are of the same
sort and agree in every part.
-/

namespace SourceLayout

/-- Anything that can be shown, compared or placed. -/
inductive Value where
  | null
  | bool (b : Bool)
  | int (n : Int)
  | text (s : String)
  | list (items : List Value)
  | position (p : Position)
  | span (s : Span)
  | kind (k : NodeKind)
  | located (l : Located Value)
  | node (n : Node)
  | argument (a : Argument)
  /-- The report of a breach. -/
  | violation (v : Violation)
  /-- The report of a construct that is not supported. -/
  | unsupported (construct : String)
  /-- An object of any other class, by the name of its class and its literal. -/
  | object (className : String) (shown : String)

namespace Value

/-- What a value looks like from outside. -/
def shape : Value → Shape
  | null => .null
  | bool _ => .bool
  | int _ => .int
  | text _ => .text
  | list _ => .list
  | position _ => .position
  | span (.real _) => .extent
  | span (.unknown _) => .unknownSpan
  | kind _ => .kind
  | located _ => .located
  | node n => .node n.kind
  | argument (.value _) => .valueArgument
  | argument (.type _ _) => .typeArgument
  | argument (.paren _) => .parenArgument
  | violation _ => .violation
  | unsupported _ => .unsupported
  | object className _ => .object className

/-- Whether a value is the root of a whole module. -/
def isModule : Value → Bool
  | node n => n.isModule
  | _ => false

/-- The tree that an argument of an application stands for when it is read as a
type; nothing but an argument has one. -/
def argumentType : Value → Except Fault (Located Node)
  | argument a => a.toType
  | v => .error (.notArgument v.shape)

/-- A placed tree, as a value. -/
def ofTree (tree : Located Node) : Value := located ⟨tree.span, node tree.value⟩

/-! ## Equality -/

mutual
/-- Whether two values are of the same sort and agree in every part. -/
def same : Value → Value → Bool
  | null, null => true
  | bool x, bool y => decide (x = y)
  | int x, int y => decide (x = y)
  | text x, text y => decide (x = y)
  | list xs, list ys => sameList xs ys
  | position x, position y => decide (x = y)
  | span x, span y => decide (x = y)
  | kind x, kind y => decide (x = y)
  | located ⟨s, x⟩, located ⟨t, y⟩ => decide (s = t) && same x y
  | node x, node y => decide (x = y)
  | argument x, argument y => decide (x = y)
  | violation x, violation y => decide (x = y)
  | unsupported x, unsupported y => decide (x = y)
  | object c x, object d y => decide (c = d) && decide (x = y)
  | _, _ => false
termination_by structural a => a

/-- Whether two lists are of one length and agree member by member. -/
def sameList : List Value → List Value → Bool
  | [], [] => true
  | x :: xs, y :: ys => same x y && sameList xs ys
  | _, _ => false
termination_by structural xs => xs
end

mutual
theorem same_iff : (a b : Value) → (same a b = true ↔ a = b)
  | null, b => by cases b <;> simp [same]
  | bool _, b => by cases b <;> simp [same]
  | int _, b => by cases b <;> simp [same]
  | text _, b => by cases b <;> simp [same]
  | list xs, b => by cases b <;> simp [same, sameList_iff xs]
  | position _, b => by cases b <;> simp [same]
  | span _, b => by cases b <;> simp [same]
  | kind _, b => by cases b <;> simp [same]
  | located ⟨s, x⟩, b => by
    cases b with
    | located l => cases l; simp [same, same_iff x]
    | _ => simp [same]
  | node _, b => by cases b <;> simp [same]
  | argument _, b => by cases b <;> simp [same]
  | violation _, b => by cases b <;> simp [same]
  | unsupported _, b => by cases b <;> simp [same]
  | object _ _, b => by cases b <;> simp [same]
termination_by structural a => a

theorem sameList_iff : (xs ys : List Value) → (sameList xs ys = true ↔ xs = ys)
  | [], ys => by cases ys <;> simp [sameList]
  | x :: xs, ys => by cases ys <;> simp [sameList, same_iff x, sameList_iff xs]
termination_by structural xs => xs
end

instance : DecidableEq Value := fun a b => decidable_of_iff _ (same_iff a b)

end Value

end SourceLayout
