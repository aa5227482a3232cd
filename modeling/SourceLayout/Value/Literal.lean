import SourceLayout.Value

/-!
# Literals and other texts of values

The **literal** of a value names its sort and all of its parts, so that it could be
typed in again.  A record is written as its name and its fields, each with its
literal after an equals sign (`record`); a list stands in brackets, and the
children of a node, which are a fixed sequence and not a list, stand in parentheses,
with a comma of its own after a single member (`sequence`).

Two shorter texts are built on it.  The **plain text** of a value is a text itself,
or the wording of a report, or else the literal.  The **outline** of a value is for
diagnostics: spans and trees have outlines of their own, a located value shows its
payload and then its place, and anything else is shown by its literal.
-/

namespace SourceLayout

namespace Literal

/-- A record by its name and its fields in order. -/
def record (name : String) (fields : List (String × String)) : String :=
  name ++ "(" ++ ", ".intercalate (fields.map fun field => field.1 ++ "=" ++ field.2) ++ ")"

/-- A fixed sequence of literals: a single member keeps a comma after it, which tells
the sequence from a mere parenthesis. -/
def sequence (items : List String) : String :=
  match items with
  | [item] => "(" ++ item ++ ",)"
  | _ => "(" ++ ", ".intercalate items ++ ")"

/-- The literal of something that may be absent. -/
def optional {α : Type} (literal : α → String) : Option α → String
  | none => "None"
  | some a => literal a

end Literal

open Literal

/-- The literal of a position. -/
def Position.literal (p : Position) : String :=
  record "Position" [("line", toString p.line), ("column", toString p.column)]

/-- The literal of a span. -/
def Span.literal : Span → String
  | real e =>
    record "RealSpan"
      [("file", Text.quoted e.file), ("start", e.start.literal), ("end", e.stop.literal)]
  | unknown reason => record "UnknownSpan" [("reason", Text.quoted reason)]

/-- The label of a kind together with its name. -/
def NodeKind.literal (k : NodeKind) : String :=
  "<NodeKind." ++ k.label ++ ": " ++ Text.quoted k.name ++ ">"

/-- A payload's literal, together with its place. -/
def Literal.located (span : Span) (payload : String) : String :=
  record "Located" [("span", span.literal), ("value", payload)]

mutual
/-- The literal of a node. -/
def Node.literal : Node → String
  | ⟨kind, text, doc, children⟩ =>
    record "Node"
      [("kind", kind.literal), ("text", optional Text.quoted text),
        ("doc", optional Text.quoted doc),
        ("children", sequence (Node.forestLiterals children))]
termination_by structural node => node

/-- The literals of located nodes, in order. -/
def Node.forestLiterals : List (Located Node) → List String
  | [] => []
  | ⟨span, node⟩ :: rest =>
    Literal.located span (Node.literal node) :: Node.forestLiterals rest
termination_by structural forest => forest
end

/-- The literal of a located node. -/
def Literal.tree (t : Located Node) : String :=
  Literal.located t.span t.value.literal

/-- The literal of an argument. -/
def Argument.literal : Argument → String
  | value term => record "ValArg" [("term", Literal.tree term)]
  | type marker body =>
    record "TypeArg" [("span", marker.literal), ("type", Literal.tree body)]
  | paren span => record "ArgPar" [("span", span.literal)]

/-- The literal of a report. -/
def Violation.literal (v : Violation) : String :=
  record "ContractViolation"
    [("message", Text.quoted v.message), ("span", optional Span.literal v.span)]

namespace Value

mutual
/-- The literal of a value. -/
def literal : Value → String
  | null => "None"
  | bool true => "True"
  | bool false => "False"
  | int n => toString n
  | text s => Text.quoted s
  | list items => "[" ++ ", ".intercalate (literals items) ++ "]"
  | position p => p.literal
  | span s => s.literal
  | kind k => k.literal
  | .located ⟨s, payload⟩ => Literal.located s (literal payload)
  | node n => n.literal
  | argument a => a.literal
  | violation v => v.literal
  | unsupported construct => record "NotImplementedYet" [("construct", Text.quoted construct)]
  | object _ shown => shown
termination_by structural v => v

/-- The literals of a list of values, in order. -/
def literals : List Value → List String
  | [] => []
  | v :: rest => literal v :: literals rest
termination_by structural vs => vs
end

/-- The plain text of a value. -/
def plainText : Value → String
  | text s => s
  | violation v => v.text
  | unsupported construct => unsupportedText construct
  | kind k => "NodeKind." ++ k.label
  | v => v.literal

/-- The outline of a value. -/
def outline : Value → String
  | span s => s.outline
  | node n => n.outline
  | located ⟨s, payload⟩ => outline payload ++ " @ " ++ s.outline
  | v => v.literal
termination_by structural v => v

end Value

end SourceLayout
