/-!
# Kinds of nodes and shapes of values

The **kind** of a tree node is its syntactic category.  Each kind has a written name,
by which it is looked up and shown, and a label in capitals, under which it is listed.

Some operations accept a value of any sort and only then find that it is not one
they can work on.  Their complaint says what was found: the **shape** of the value,
which for a tree node includes its kind.
-/

namespace SourceLayout

/-! ## Kinds -/

/-- The syntactic category of a tree node. -/
inductive NodeKind where
  | wholeModule
  | importLine
  | declaration
  | signature
  | type
  | expression
  | comment
deriving DecidableEq

namespace NodeKind

/-- Every kind, in the order in which they are listed. -/
def all : List NodeKind :=
  [wholeModule, importLine, declaration, signature, type, expression, comment]

/-- The written name of a kind. -/
def name : NodeKind → String
  | wholeModule => "Module"
  | importLine => "Import"
  | declaration => "Decl"
  | signature => "Signature"
  | type => "Type"
  | expression => "Expr"
  | comment => "Comment"

/-- The label of a kind. -/
def label : NodeKind → String
  | wholeModule => "MODULE"
  | importLine => "IMPORT"
  | declaration => "DECL"
  | signature => "SIGNATURE"
  | type => "TYPE"
  | expression => "EXPR"
  | comment => "COMMENT"

/-- The kind with exactly the given written name. -/
def ofName? (s : String) : Option NodeKind :=
  all.find? (·.name = s)

theorem mem_all (k : NodeKind) : k ∈ all := by
  cases k <;> simp [all]

@[simp] theorem ofName?_name (k : NodeKind) : ofName? k.name = some k := by
  cases k <;> decide

end NodeKind

/-! ## Shapes -/

/-- What a value looks like from outside. -/
inductive Shape where
  | null
  | bool
  | int
  | text
  | list
  | position
  | extent
  | unknownSpan
  | kind
  | located
  | node (kind : NodeKind)
  | valueArgument
  | typeArgument
  | parenArgument
  | violation
  | unsupported
  /-- An object of a class that has no shape of its own. -/
  | object (className : String)
deriving DecidableEq

namespace Shape

/-- The name of a shape as complaints give it: a node goes by its kind. -/
def name : Shape → String
  | null => "NoneType"
  | bool => "bool"
  | int => "int"
  | text => "str"
  | list => "list"
  | position => "Position"
  | extent => "RealSpan"
  | unknownSpan => "UnknownSpan"
  | kind => "NodeKind"
  | located => "Located"
  | node k => k.name
  | valueArgument => "ValArg"
  | typeArgument => "TypeArg"
  | parenArgument => "ArgPar"
  | violation => "ContractViolation"
  | unsupported => "NotImplementedYet"
  | object className => className

end Shape

end SourceLayout
