import PayloadFlow.Script.Binding

/-!
# Functions of a source

The functions that a source declares at its top: declared functions, variables
whose value is a function, and the methods of classes, each with the fact
whether it is exported.
-/

namespace PayloadFlow
namespace Script

structure FunctionNode where
  name : String
  params : List Node
  /-- a block, or the expression an arrow function gives -/
  body : Node
  exported : Bool
  line : Nat

namespace FunctionNode

/-- The statements of the body; an expression counts as one. -/
def statements (f : FunctionNode) : List Node :=
  if f.body.kind == .statementBlock then f.body.parts else [f.body]

end FunctionNode

namespace Node

/-- The function that a node with a body stands for. -/
def function? (n : Node) (name : String) (exported : Bool) : Option FunctionNode :=
  (n.child? .body).map fun body =>
    { name
      params :=
        match n.child? .parameters with
        | some list => list.parts
        | none => (n.child? .parameter).toList
      body
      exported
      line := n.line }

def namedFunction? (n : Node) (exported : Bool) : Option FunctionNode := do
  n.function? (← n.child? .name).text exported

def declaratorFunction? (n : Node) (exported : Bool) : Option FunctionNode := do
  guard (n.kind == .variableDeclarator)
  let name ← n.child? .name
  let value := (← n.child? .value).unwrap
  guard (name.kind == .identifier && value.kind.isFunctionValue)
  value.function? name.text exported

def methods (n : Node) (exported : Bool) : List FunctionNode :=
  match n.child? .body with
  | some body =>
      body.parts.filterMap fun m =>
        if m.kind == .methodDefinition then m.namedFunction? exported else none
  | none => []

def declaredFunctions (n : Node) (exported : Bool) : List FunctionNode :=
  match n.kind with
  | .functionDeclaration | .generatorFunctionDeclaration => (n.namedFunction? exported).toList
  | .lexicalDeclaration | .variableDeclaration =>
      n.parts.filterMap (·.declaratorFunction? exported)
  | .classDeclaration | .abstractClassDeclaration => n.methods exported
  | _ => []

/-- The function that an export without a name gives. -/
def defaultFunction? (n : Node) : Option FunctionNode := do
  let value := (← n.child? .value).unwrap
  guard value.kind.isFunctionValue
  value.function? (((value.child? .name).map (·.text)).getD "default") true

def statementFunctions (n : Node) : List FunctionNode :=
  if n.kind == .exportStatement then
    match n.child? .declaration with
    | some inner => inner.declaredFunctions true
    | none => n.defaultFunction?.toList
  else n.declaredFunctions false

def defaultExport? (n : Node) : Option String := do
  guard (n.child? .declaration).isNone
  let value := (← n.child? .value).unwrap
  guard (value.kind == .identifier)
  value.text

/-- The names that a statement exports without declaring them. -/
def exportedNames (n : Node) : List String :=
  if n.kind == .exportStatement then
    let clauses := n.parts.filter fun c => c.kind == .exportClause
    let specifiers := clauses.flatMap (·.parts)
    n.defaultExport?.toList ++ specifiers.filterMap fun s => (s.child? .name).map (·.text)
  else []

def functions (program : Node) : List FunctionNode :=
  let exports := program.parts.flatMap exportedNames
  (program.parts.flatMap statementFunctions).map fun f =>
    if exports.contains f.name then { f with exported := true } else f

end Node
end Script
end PayloadFlow
