import PayloadFlow.EventName
import PayloadFlow.Extract.Consumer.Collector
import PayloadFlow.Extract.Consumer.Requirements
import PayloadFlow.Script.ObjectLiteral

/-!
# Contracts of handlers

A function handles an event if a table or a registration call binds it to the
event, or if it is exported under a name that says so.  Functions written in
place in a registration call are handlers too.
-/

namespace PayloadFlow
namespace Consumer

open Script

/-! ## Bindings of events to handlers -/

inductive Bound where
  | named (name : String)
  | inline (function : FunctionNode)

structure EventBinding where
  rawEvent : String
  handler : Bound

def tableBindings (known : String -> Bool) (object : Node) : List EventBinding :=
  object.objectEntries.filterMap fun entry =>
    match entry with
    | .pair key value _ =>
        let value := value.unwrap
        if value.kind == .identifier && known value.text then some ⟨key, .named value.text⟩
        else none
    | _ => none

def registration? (registrationCalls : List String) (call : Node) : Option (String × Node) := do
  let callee ← call.callee?
  guard (registrationCalls.contains callee.name)
  let event ← call.callArguments[0]?
  let handler ← call.callArguments[1]?
  some (← event.stringValue?, handler.unwrap)

def inlineName (call : Node) (rawEvent : String) : String :=
  ((call.child? .function).getD call).text ++ "('" ++ rawEvent ++ "')"

/-- The bindings with those of a node.  A handler written in place is not searched
for tables. -/
def visitBindings (registrationCalls : List String) (known : String -> Bool)
    (found : List EventBinding) (c : Cursor) : List EventBinding × Bool :=
  let n := c.node
  match n.kind with
  | .object => (found ++ tableBindings known n, true)
  | .callExpression =>
      match registration? registrationCalls n with
      | none => (found, true)
      | some (rawEvent, handler) =>
          match handler.kind with
          | .identifier =>
              if known handler.text then (found ++ [⟨rawEvent, .named handler.text⟩], true)
              else (found, true)
          | .arrowFunction | .functionExpression =>
              match handler.function? (inlineName n rawEvent) false with
              | some f => (found ++ [⟨rawEvent, .inline f⟩], false)
              | none => (found, false)
          | _ => (found, true)
  | _ => (found, true)

def eventBindings (registrationCalls : List String) (known : String -> Bool) (program : Node) :
    List EventBinding :=
  walk (visitBindings registrationCalls known) [] program

/-! ## Contracts -/

/-- Names of a first parameter that is the event and not the payload. -/
def eventParamNames : List String :=
  ["event", "evt", "eventid", "eventname", "eventtype", "type", "name", "topic", "kind"]

def namesEvent (param : Node) : Bool :=
  param.parameterName?.any fun name => eventParamNames.contains (Text.lowerText name)

/-- The parameter that holds the payload: the first, or the second if the first is
the event. -/
def dataParameter? (f : FunctionNode) : Option Node :=
  match f.params with
  | [] => none
  | [first] => some first
  | first :: second :: _ => if namesEvent first then some second else some first

def start (f : FunctionNode) : Collector :=
  match dataParameter? f with
  | none => {}
  | some param =>
      let (pattern, hasDefault) := param.parameterPattern
      match pattern.kind with
      | .identifier => Collector.addSource {} pattern.text [] hasDefault
      | .objectPattern => Collector.readPattern pattern [] hasDefault {}
      | _ => {}

def accesses (f : FunctionNode) : List Access :=
  (Collector.collect f.body [] (start f)).accesses

def contract (path : String) (f : FunctionNode) (eventSource event : String) : ConsumerContract :=
  let requirements := Requirements.ofAccesses (accesses f)
  { handlerName := f.name
    event
    eventSource
    requiredProperties := requirements.required
    optionalProperties := requirements.optional
    nestedProperties := requirements.nested
    filePath := path
    line := f.line }

/-- The contracts of a function: one for each event it is bound to, or else one for
the event in its name. -/
def functionContracts (handlerPrefixes : List String) (bindings : List EventBinding)
    (path : String) (f : FunctionNode) : List ConsumerContract :=
  let events := bindings.filterMap fun b =>
    match b.handler with
    | .named name => if name == f.name then some b.rawEvent else none
    | .inline _ => none
  if !events.isEmpty then
    events.map fun raw => contract path f raw (EventName.normalize raw)
  else if f.exported then
    (EventName.ofHandler handlerPrefixes f.name).toList.map (contract path f f.name)
  else []

def inlineContract? (path : String) (b : EventBinding) : Option ConsumerContract :=
  match b.handler with
  | .inline f => some (contract path f b.rawEvent (EventName.normalize b.rawEvent))
  | .named _ => none

/-- Contracts are listed by line, then by event. -/
def contractLe (a b : ConsumerContract) : Bool :=
  ((compare a.line b.line).then (compare a.event b.event)).isLE

def contracts (handlerPrefixes registrationCalls : List String) (path : String)
    (program : Node) : List ConsumerContract :=
  let functions := program.functions
  let known (name : String) : Bool := functions.any fun f => f.name == name
  let bindings := eventBindings registrationCalls known program
  (functions.flatMap (functionContracts handlerPrefixes bindings path) ++
    bindings.filterMap (inlineContract? path)).mergeSort contractLe

end Consumer
end PayloadFlow
