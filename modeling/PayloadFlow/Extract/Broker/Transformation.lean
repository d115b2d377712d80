import PayloadFlow.Contract
import PayloadFlow.EventName
import PayloadFlow.Expression.Classify
import PayloadFlow.Extract.Broker.Guard
import PayloadFlow.Extract.Broker.Shape

/-!
# Transformations of the broker

Every branch of the prepare routine that depends on the event is a transformation
of its own; what the routine returns at its end is the fall-through.
-/

namespace PayloadFlow
namespace Broker

open Script

structure Branches where
  special : List BrokerTransformation := []
  /-- the branch taken if no other one is -/
  fallback : Option BrokerTransformation := none

namespace Branches

/-- The branches with one more; the first branch for an event counts. -/
def push (b : Branches) (t : BrokerTransformation) : Branches :=
  if b.special.any fun other => other.event == t.event then b
  else { b with special := b.special ++ [t] }

def pushAll (b : Branches) (ts : List BrokerTransformation) : Branches :=
  ts.foldl push b

/-- The branches with a fallback, unless they have one. -/
def orFallback (b : Branches) (t : Option BrokerTransformation) : Branches :=
  { b with fallback := b.fallback.or t }

end Branches

structure CaseLabel where
  event : String
  condition : String
  line : Nat

namespace Routine

def isGenerated (r : Routine) (name expression : String) : Bool :=
  r.generators.contains name || Expression.classify expression == .generated ||
    !r.isTraceable expression

/-- The transformation with a given shape.  Where the input comes along, every
written property is an addition to it. -/
def transformation (r : Routine) (event : String) (condition : Option String) (shape : Shape)
    (removed : List String) (line : Nat) : BrokerTransformation :=
  { event
    isSpecialCased := !shape.hasSpread
    condition
    outputMappings := shape.entries.foldl (fun t entry => Listing.insert entry.1 entry.2 t) []
    addedProperties :=
      (shape.entries.filter fun entry => shape.hasSpread || r.isGenerated entry.1 entry.2).map (·.1)
    removedProperties := removed
    filePath := r.path
    line }

def fallbackOf? (r : Routine) (scope : Scope) (line : Nat) : Option BrokerTransformation :=
  (r.scopeShape? scope).map fun shape =>
    r.transformation defaultEvent none shape (r.removedIn scope) line

def guardedBranch (r : Routine) (events : List String) (condition : String) (scope : Scope)
    (line : Nat) : List BrokerTransformation :=
  match r.scopeShape? scope with
  | some shape =>
      let removed := r.removedIn scope
      events.map fun event =>
        r.transformation (EventName.normalize event) (some condition) shape removed line
  | none => []

/-- The branches of an `if` statement and of the `else if` that follow it.  A last
`else` is a fallback if one of the guards before depends on the event. -/
def ifChain (r : Routine) (guarded : Bool) (n : Node) (branches : Branches) : Branches :=
  match n.child? .condition, n.child? .consequence with
  | some condition, some consequence =>
      let test := condition.unwrap
      let events := r.guardEvents test
      let guarded := guarded || events.isSome
      let branches :=
        match events with
        | some events =>
            branches.pushAll
              (r.guardedBranch events test.text (.ofBranch consequence) n.line)
        | none => branches
      match _ : n.child? .alternative with
      | some alternative =>
          match _ : alternative.parts.head? with
          | some next =>
              if next.kind == .ifStatement then ifChain r guarded next branches
              else if guarded then branches.orFallback (r.fallbackOf? (.ofBranch next) next.line)
              else branches
          | none => branches
      | none => branches
  | _, _ => branches
termination_by sizeOf n
decreasing_by
  exact Nat.lt_trans (Node.sizeOf_lt_of_mem_parts (List.mem_of_head? ‹_›))
    (Node.sizeOf_lt_of_child? ‹_›)

def caseLabel? (clause : Node) : Option CaseLabel := do
  let value ← clause.child? .value
  some ⟨← value.stringValue?, "case " ++ value.text, clause.line⟩

/-- The branches with one clause of a switch.  A case without a body shares the
body of the next one. -/
def switchClause (r : Routine) (state : Branches × List CaseLabel) (clause : Node) :
    Branches × List CaseLabel :=
  let (branches, pending) := state
  let scope : Scope := ⟨clause, clause.parts.filter fun c => c.label != some .value⟩
  match clause.kind with
  | .switchCase =>
      let pending := pending ++ (caseLabel? clause).toList
      if scope.statements.isEmpty then (branches, pending)
      else
        match r.scopeShape? scope with
        | some shape =>
            let removed := r.removedIn scope
            let found := pending.map fun label =>
              r.transformation (EventName.normalize label.event) (some label.condition) shape
                removed label.line
            (branches.pushAll found, [])
        | none => (branches, [])
  | .switchDefault => (branches.orFallback (r.fallbackOf? scope clause.line), pending)
  | _ => (branches, pending)

def switchCases (r : Routine) (n : Node) (branches : Branches) : Branches :=
  match n.child? .value, n.child? .body with
  | some value, some body =>
      if r.isEventRef value then (body.parts.foldl (switchClause r) (branches, [])).1 else branches
  | _, _ => branches

def addStatement (r : Routine) (branches : Branches) (statement : Node) : Branches :=
  match statement.kind with
  | .ifStatement => r.ifChain false statement branches
  | .switchStatement => r.switchCases statement branches
  | _ => branches

/-- The statements of the routine that run for every event. -/
def defaultScope (r : Routine) : Scope :=
  ⟨r.body, r.body.parts.filter fun s => s.kind != .ifStatement && s.kind != .switchStatement⟩

def finalReturn? (r : Routine) : Option BrokerTransformation := do
  let ret ← (r.body.parts.filter fun s => s.kind == .returnStatement).getLast?
  let shape ← r.returnShape? r.defaultScope ret
  some (r.transformation defaultEvent none shape (r.removedIn r.defaultScope) ret.line)

/-- The transformations of a routine: the special cases, then the fall-through. -/
def transformations (r : Routine) : List BrokerTransformation :=
  if r.body.kind == .statementBlock then
    let branches := r.body.parts.foldl r.addStatement {}
    branches.special ++ (r.finalReturn?.or branches.fallback).toList
  else
    ((r.shapeOf? ⟨r.body, []⟩ resolveDepth r.body).map fun shape =>
      r.transformation defaultEvent none shape [] r.body.line).toList

end Routine

/-- The routine of a source: the first of the given names that a function has. -/
def routine? (prepareFunctions generators : List String) (path : String) (program : Node) :
    Option Routine :=
  let functions := program.functions
  (prepareFunctions.findSome? fun name => functions.find? fun f => f.name == name).map fun f =>
    Routine.ofFunction f path generators

def contracts (prepareFunctions generators : List String) (path : String) (program : Node) :
    List BrokerTransformation :=
  ((routine? prepareFunctions generators path program).map (·.transformations)).getD []

end Broker
end PayloadFlow
