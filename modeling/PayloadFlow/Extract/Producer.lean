import PayloadFlow.EventName
import PayloadFlow.Expression.Classify
import PayloadFlow.Expression.References
import PayloadFlow.Extract.ParamType
import PayloadFlow.Script.Function
import PayloadFlow.Script.ObjectLiteral
import PayloadFlow.Script.Scope

/-!
# Contracts of producers

Every exported function that calls an entry point of the broker is a producer.
The first argument of the call is the event, the second the payload.
-/

namespace PayloadFlow
namespace Producer

open Script

def isBrokerCall (entryPoints : List String) (n : Node) : Bool :=
  n.kind == .callExpression && n.callee?.any fun c => entryPoints.contains c.name

def brokerCall? (entryPoints : List String) (body : Node) : Option Node :=
  findFirst (fun n => if isBrokerCall entryPoints n then some n else none) body

/-! ## Events -/

def declaredConstants (declaration : Node) : List (String × String) :=
  match declaration.kind with
  | .lexicalDeclaration | .variableDeclaration =>
      declaration.parts.filterMap fun d => do
        let name ← d.child? .name
        let value ← d.child? .value
        some (name.text, ← value.stringValue?)
  | _ => []

/-- The text constants that a source declares at its top, in source order. -/
def constants (program : Node) : List (String × String) :=
  program.parts.flatMap fun statement =>
    if statement.kind == .exportStatement then
      ((statement.child? .declaration).map declaredConstants).getD []
    else declaredConstants statement

/-- The value of a constant; of several with one name the last counts. -/
def constant? (table : List (String × String)) (name : String) : Option String :=
  (table.reverse.find? fun entry => entry.1 == name).map (·.2)

/-- The event that an argument names: a literal, a variable of the body, or a
constant of the source. -/
def event? (table : List (String × String)) (scope argument : Node) : Option String :=
  match argument.stringValue? with
  | some text => some text
  | none =>
      let argument := argument.unwrap
      if argument.kind == .identifier then
        ((scope.localValue? argument.text).bind (·.stringValue?)).or
          (constant? table argument.text)
      else none

/-! ## Payloads -/

def objectLiteral? (scope expression : Node) : Option Node :=
  let n := expression.unwrap
  match n.kind with
  | .object => some n
  | .identifier =>
      match scope.localValue? n.text with
      | some value => if value.unwrap.kind == .object then some value.unwrap else none
      | none => none
  | _ => none

def sourceParameter? (params : List String) (kind : BindingKind) (expression : String) :
    Option String :=
  match kind with
  | .parameter | .propertyAccess | .conditional | .template =>
      (Expression.leading expression).filter params.contains
  | _ => none

def binding (params : List String) (name expression : String) (line : Nat) : PropertyBinding :=
  let kind := Expression.classify expression
  { name
    kind
    sourceParameter := sourceParameter? params kind expression
    expression
    line }

/-- The bindings with one more; it takes the place of an earlier one of the same
name. -/
def record (b : PropertyBinding) : List PropertyBinding -> List PropertyBinding
  | [] => [b]
  | other :: rest => if other.name == b.name then b :: rest else other :: record b rest

/-- The bindings with those of an entry.  What a spread adds is left open. -/
def recordEntry (params : List String)
    (spread : Node -> List PropertyBinding -> List PropertyBinding)
    (bindings : List PropertyBinding) : ObjectEntry -> List PropertyBinding
  | .pair key value line => record (binding params key value.text line) bindings
  | .shorthand name line => record (binding params name name line) bindings
  | .method name line => record ⟨name, .literal, none, "", line⟩ bindings
  | .spread argument _ => spread argument bindings

/-- The bindings with those of an object literal.  Spreads of known object
literals are followed to a given depth, all others add nothing. -/
def recordObject (scope : Node) (params : List String) :
    Nat -> Node -> List PropertyBinding -> List PropertyBinding
  | 0, object, bindings =>
      object.objectEntries.foldl (recordEntry params fun _ bs => bs) bindings
  | depth + 1, object, bindings =>
      object.objectEntries.foldl
        (recordEntry params fun argument bs =>
          match objectLiteral? scope argument with
          | some inner => recordObject scope params depth inner bs
          | none => bs)
        bindings

def spreadDepth : Nat := 2

def payloadBindings (scope : Node) (params : List String) (payload : Node) :
    List PropertyBinding :=
  match objectLiteral? scope payload with
  | some object => recordObject scope params spreadDepth object []
  | none => []

/-! ## Contracts -/

def parameters (f : FunctionNode) : List Parameter :=
  f.params.flatMap fun p =>
    let pattern := p.parameterPattern
    pattern.1.boundNames.map fun name =>
      ⟨name, (ParamType.ofUses name f.body).getD (ParamType.ofName name), pattern.2⟩

def contract? (entryPoints : List String) (table : List (String × String)) (path : String)
    (f : FunctionNode) : Option ProducerContract := do
  guard f.exported
  let call ← brokerCall? entryPoints f.body
  let arguments := call.callArguments
  let rawEvent ← event? table f.body (← arguments.head?)
  let inputParameters := parameters f
  let names := inputParameters.map (·.name)
  some
    { functionName := f.name
      targetEvent := EventName.normalize rawEvent
      rawEvent
      inputParameters
      producedProperties := ((arguments[1]?).map (payloadBindings f.body names)).getD []
      filePath := path
      line := call.line }

def contracts (entryPoints : List String) (path : String) (program : Node) :
    List ProducerContract :=
  program.functions.filterMap (contract? entryPoints (constants program) path)

end Producer
end PayloadFlow
