import PayloadFlow.Expression.References
import PayloadFlow.Script.Function
import PayloadFlow.Script.Walk
import PayloadFlow.Text.Lowercase
import PayloadFlow.Text.Search

/-!
# Prepare routines

The broker prepares every payload in one routine.  One of its parameters is the
event, another one the payload.  The names that derive from these two are the
ones through which the payload can reach what the routine returns.
-/

namespace PayloadFlow
namespace Broker

open Script

/-! ## Derived names -/

structure Derivation where
  /-- the names that the value mentions -/
  reads : List String
  binds : List String
  deriving DecidableEq, Repr

namespace Derivation

def ofDeclarator? (n : Node) : Option Derivation :=
  if n.kind == .variableDeclarator then
    match n.child? .name, n.child? .value with
    | some name, some value => some ⟨Expression.references value.text, name.boundNames⟩
    | _, _ => none
  else none

def ofBody (body : Node) : List Derivation :=
  (walk (fun found c => ((ofDeclarator? c.node).toList ++ found, true)) [] body).reverse

def addName (names : List String) (name : String) : List String :=
  if names.contains name then names else names ++ [name]

/-- The known names with those that a derivation binds, if it reads a known one. -/
def step (known : List String) (d : Derivation) : List String :=
  if d.reads.any known.contains then d.binds.foldl addName known else known

def scan (derivations : List Derivation) (known : List String) : List String :=
  derivations.foldl step known

/-- Scans until nothing new is found, at most a given number of times. -/
def closure (derivations : List Derivation) : Nat -> List String -> List String
  | 0, known => known
  | rounds + 1, known =>
      let next := scan derivations known
      if next.length == known.length then known else closure derivations rounds next

/-- All names that derive from some.  Every scan that finds a name uses a
derivation for the first time, so there are no more scans than derivations. -/
def derived (derivations : List Derivation) (start : List String) : List String :=
  closure derivations (derivations.length + 1) start

end Derivation

/-! ## Routines -/

structure Routine where
  body : Node
  eventParam : Option String
  payloadParam : Option String
  /-- the inputs and every variable that derives from them -/
  traceable : List String
  /-- properties that the broker makes up itself -/
  generators : List String
  /-- the file of the routine -/
  path : String

namespace Routine

/-- Whether a parameter name speaks of an event. -/
def mentionsEvent (name : String) : Bool :=
  let lower := (Text.lowerText name).toList
  ["event", "type", "name", "kind", "topic"].any fun word => Text.occursIn word.toList lower

/-- Which parameter is the event: the first whose name says so, else the first. -/
def eventIndex (names : List (Option String)) : Nat :=
  (names.findIdx? fun name => name.any mentionsEvent).getD 0

def ofFunction (f : FunctionNode) (path : String) (generators : List String) : Routine :=
  let names := f.params.map (·.parameterName?)
  let index := eventIndex names
  let eventParam := (names[index]?).join
  let payloadParam := (names.eraseIdx index).findSome? fun name => name
  let start := eventParam.toList.foldl Derivation.addName []
  { body := f.body
    eventParam
    payloadParam
    traceable :=
      Derivation.derived (Derivation.ofBody f.body)
        (payloadParam.toList.foldl Derivation.addName start)
    generators
    path }

def isTraceable (r : Routine) (expression : String) : Bool :=
  (Expression.references expression).any r.traceable.contains

end Routine
end Broker
end PayloadFlow
