import PayloadFlow.Extract.Broker.Routine
import PayloadFlow.Listing
import PayloadFlow.Script.Chain
import PayloadFlow.Script.ObjectLiteral
import PayloadFlow.Script.Scope

/-!
# Shapes of returned payloads

What the routine returns on a branch: the properties it writes, and whether the
rest of the payload comes along.
-/

namespace PayloadFlow
namespace Broker

open Script

structure Shape where
  /-- written properties with their values as written, in order of first writing -/
  entries : List (String × String) := []
  /-- the input, or something unknown, is spread into the result -/
  hasSpread : Bool := false
  deriving DecidableEq, Repr

namespace Shape

/-- Entries with a property written; a later value takes the place of an earlier
one. -/
def setEntry (name expression : String) : List (String × String) -> List (String × String)
  | [] => [(name, expression)]
  | entry :: rest =>
      if entry.1 == name then (name, expression) :: rest else entry :: setEntry name expression rest

def set (s : Shape) (name expression : String) : Shape :=
  { s with entries := setEntry name expression s.entries }

def spread (s : Shape) : Shape :=
  { s with hasSpread := true }

/-- The shape with an entry of an object literal.  What a spread adds is left
open. -/
def addEntry (onSpread : Node -> Shape -> Shape) (s : Shape) : ObjectEntry -> Shape
  | .pair key value _ => s.set key value.text
  | .shorthand name _ => s.set name name
  | .method name _ => s.set name ""
  | .spread argument _ => onSpread argument s

def addObject (onSpread : Node -> Shape -> Shape) (object : Node) (s : Shape) : Shape :=
  object.objectEntries.foldl (addEntry onSpread) s

end Shape

structure Scope where
  /-- where local declarations are looked for -/
  node : Node
  /-- the statements whose assignments and deletions count -/
  statements : List Node

namespace Scope

def ofBranch (branch : Node) : Scope :=
  ⟨branch, if branch.kind == .statementBlock then branch.parts else [branch]⟩

end Scope

def lastReturn? (n : Node) : Option Node :=
  match n.kind with
  | .returnStatement => some n
  | .statementBlock => n.parts.attach.reverse.findSome? fun ⟨s, _⟩ => lastReturn? s
  | _ => none
termination_by sizeOf n
decreasing_by exact Node.sizeOf_lt_of_mem_parts ‹_›

def terminalReturn? (statements : List Node) : Option Node :=
  statements.reverse.findSome? lastReturn?

namespace Routine

def resolveDepth : Nat := 5

/-- The value of a variable: of the region if it is declared there, else of the
routine. -/
def localValue? (r : Routine) (scope : Scope) (name : String) : Option Node :=
  (scope.node.localValue? name).or (r.body.localValue? name)

def localObject? (r : Routine) (scope : Scope) (name : String) : Option Node :=
  ((r.localValue? scope name).map (·.unwrap)).filter fun value => value.kind == .object

/-- The shape with what an expression spreads into it.  Object literals are
merged entry by entry; anything else counts as the input. -/
def mergeSource (r : Routine) (scope : Scope) : Nat -> Node -> Shape -> Shape
  | 0, _, shape => shape.spread
  | depth + 1, source, shape =>
      let n := source.unwrap
      match n.kind with
      | .object => shape.addObject (mergeSource r scope depth) n
      | .identifier =>
          match r.localObject? scope n.text with
          | some object =>
              match depth with
              | 0 => shape.addObject (fun _ s => s.spread) object
              | depth + 1 => shape.addObject (mergeSource r scope depth) object
          | none => shape.spread
      | _ => shape.spread

def assignment? (name : String) (n : Node) : Option (String × String) :=
  if n.kind == .assignmentExpression then
    match n.child? .left, n.child? .right with
    | some left, some right =>
        match left.memberChain? with
        | some ⟨root, [segment]⟩ => if root == name then some (segment.name, right.text) else none
        | _ => none
    | _, _ => none
  else none

/-- The shape with the properties that statements assign to a variable. -/
def addAssignments (statements : List Node) (name : String) (shape : Shape) : Shape :=
  statements.foldl
    (fun shape statement =>
      walk (fun (s : Shape) c =>
        match assignment? name c.node with
        | some entry => (s.set entry.1 entry.2, true)
        | none => (s, true)) shape statement)
    shape

def isObjectAssign (call : Node) : Bool :=
  call.callee? == some ⟨some "Object", "assign"⟩

def shapeOf? (r : Routine) (scope : Scope) : Nat -> Node -> Option Shape
  | 0, _ => none
  | depth + 1, expression =>
      let n := expression.unwrap
      match n.kind with
      | .object => some (Shape.addObject (r.mergeSource scope depth) n {})
      | .identifier => do
          let shape ←
            if r.payloadParam == some n.text then some (Shape.spread {})
            else shapeOf? r scope depth (← r.localValue? scope n.text)
          some (addAssignments scope.statements n.text shape)
      | .callExpression =>
          if isObjectAssign n then
            some (n.callArguments.foldl (fun s a => r.mergeSource scope depth a s) {})
          else none
      | _ => none

def returnShape? (r : Routine) (scope : Scope) (ret : Node) : Option Shape := do
  r.shapeOf? scope resolveDepth (← ret.firstNamed?)

def scopeShape? (r : Routine) (scope : Scope) : Option Shape := do
  r.returnShape? scope (← terminalReturn? scope.statements)

/-- The properties that a node takes away: by `delete`, or by naming them beside
a rest in a pattern over the input. -/
def removedAt (r : Routine) (n : Node) : List String :=
  match n.kind with
  | .unaryExpression =>
      if n.operator? == some "delete" then
        match (n.child? .argument).bind (·.memberChain?) with
        | some chain => (chain.names.getLast?).toList
        | none => []
      else []
  | .variableDeclarator =>
      match n.child? .name, n.child? .value with
      | some name, some value =>
          let entries := name.patternEntries
          if name.kind == .objectPattern && r.isTraceable value.text && entries.any (·.isRest) then
            (entries.filter fun e => !e.isRest).map (·.key)
          else []
      | _, _ => []
  | _ => []

/-- The properties that a region takes away, in order. -/
def removedIn (r : Routine) (scope : Scope) : List String :=
  Listing.sortedNames <| scope.statements.flatMap fun statement =>
    (walk (fun found c => ((r.removedAt c.node).reverse ++ found, true)) [] statement).reverse

end Routine
end Broker
end PayloadFlow
