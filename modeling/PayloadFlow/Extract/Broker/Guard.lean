import PayloadFlow.Extract.Broker.Routine
import PayloadFlow.Script.Chain

/-!
# Guards

The events for which a condition of the prepare routine can hold.
-/

namespace PayloadFlow
namespace Broker

open Script

def payloadEventFields : List String :=
  ["type", "event", "eventType", "eventId"]

namespace Routine

def isEventRef (r : Routine) (n : Node) : Bool :=
  let n := n.unwrap
  r.eventParam == some n.text ||
    match n.memberChain?, r.payloadParam with
    | some ⟨root, [segment]⟩, some payload =>
        root == payload && payloadEventFields.contains segment.name
    | _, _ => false

def equalityEvents (r : Routine) (left right : Node) : Option (List String) :=
  if r.isEventRef left then right.stringValue?.map fun event => [event]
  else if r.isEventRef right then left.stringValue?.map fun event => [event]
  else none

def inclusionEvents (r : Routine) (call : Node) : Option (List String) := do
  let callee ← call.callee?
  let list := (← (← call.child? .function).unwrap.child? .object).unwrap
  let argument ← call.callArguments.head?
  guard (callee.name == "includes" && list.kind == .array && r.isEventRef argument)
  let events := list.parts.filterMap (·.stringValue?)
  if events.isEmpty then none else some events

/-- The events of two lists, each once. -/
def unite (left right : List String) : List String :=
  right.foldl (fun events e => if events.contains e then events else events ++ [e]) left

/-- The events that two conditions leave together.  A condition that says nothing
of the event can only narrow. -/
def meet : Option (List String) -> Option (List String) -> Option (List String)
  | some left, some right =>
      let both := left.filter right.contains
      if both.isEmpty then none else some both
  | some events, none => some events
  | none, some events => some events
  | none, none => none

/-- The events for which a condition can hold, if it depends on the event. -/
def guardEvents (r : Routine) (condition : Node) : Option (List String) :=
  let n := condition.unwrap
  match n.kind with
  | .binaryExpression =>
      match _ : n.child? .left, _ : n.child? .right with
      | some left, some right =>
          match n.operator? with
          | some "===" | some "==" => r.equalityEvents left right
          | some "||" =>
              match guardEvents r left, guardEvents r right with
              | some l, some r => some (unite l r)
              | _, _ => none
          | some "&&" => meet (guardEvents r left) (guardEvents r right)
          | _ => none
      | _, _ => none
  | .callExpression => r.inclusionEvents n
  | _ => none
termination_by sizeOf condition
decreasing_by
  all_goals
    exact Nat.lt_of_lt_of_le (Node.sizeOf_lt_of_child? ‹_›) (Node.sizeOf_unwrap_le condition)

end Routine
end Broker
end PayloadFlow
