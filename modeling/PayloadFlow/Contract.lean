/-!
# Contracts

What the three kinds of source files promise each other.  A producer sends a
payload for an event, the broker may reshape the payload, and a consumer reads
properties of what arrives.
-/

namespace PayloadFlow

inductive Role where
  | producer
  | broker
  | consumer
  deriving DecidableEq, Repr, Inhabited

inductive BindingKind where
  /-- a bare identifier -/
  | parameter
  /-- a member of something -/
  | propertyAccess
  /-- whatever no other kind describes -/
  | literal
  /-- a call, a construction or an awaited value -/
  | generated
  /-- a template literal -/
  | template
  /-- a value with an alternative -/
  | conditional
  deriving DecidableEq, Repr, Inhabited

/-- The type of a parameter as far as names and use tell. -/
inductive ParamType where
  | identifier
  | element
  | event
  | number
  | boolean
  | text
  | object
  | callback
  | unknown
  deriving DecidableEq, Repr, Inhabited

structure Parameter where
  name : String
  type : ParamType
  hasDefault : Bool
  deriving DecidableEq, Repr

structure PropertyBinding where
  name : String
  kind : BindingKind
  /-- the parameter the value is read from, if there is one -/
  sourceParameter : Option String
  /-- the value as written -/
  expression : String
  line : Nat
  deriving DecidableEq, Repr

structure ProducerContract where
  functionName : String
  targetEvent : String
  /-- the event as written at the call -/
  rawEvent : String
  inputParameters : List Parameter
  producedProperties : List PropertyBinding
  filePath : String
  line : Nat
  deriving DecidableEq, Repr

namespace ProducerContract

def propertyNames (p : ProducerContract) : List String :=
  p.producedProperties.map (·.name)

end ProducerContract

/-- The event under which the broker keeps its fall-through transformation. -/
def defaultEvent : String := "*"

structure BrokerTransformation where
  event : String
  /-- only mapped and added properties leave a special-cased branch -/
  isSpecialCased : Bool
  /-- the guard of the branch as written -/
  condition : Option String
  /-- written properties with their values as written, in order of name -/
  outputMappings : List (String × String)
  addedProperties : List String
  removedProperties : List String
  filePath : String
  line : Nat
  deriving DecidableEq, Repr

namespace BrokerTransformation

def isDefault (t : BrokerTransformation) : Bool :=
  t.event == defaultEvent

def mappedNames (t : BrokerTransformation) : List String :=
  t.outputMappings.map (·.1)

end BrokerTransformation

/-- A property that a handler cannot do without. -/
structure RequiredProperty where
  name : String
  /-- only reached through a deeper path -/
  isNested : Bool
  nestedPath : Option String
  line : Nat
  deriving DecidableEq, Repr

/-- A property that a handler can do without. -/
structure OptionalProperty where
  name : String
  hasFallback : Bool
  line : Nat
  deriving DecidableEq, Repr

structure NestedProperty where
  /-- dotted path of the enclosing object -/
  parentPath : String
  name : String
  isRequired : Bool
  line : Nat
  deriving DecidableEq, Repr

namespace NestedProperty

def root (p : NestedProperty) : String :=
  String.ofList (p.parentPath.toList.takeWhile (· != '.'))

def fullPath (p : NestedProperty) : String :=
  p.parentPath ++ "." ++ p.name

end NestedProperty

structure ConsumerContract where
  handlerName : String
  event : String
  /-- the handler name or table key that the event was read from -/
  eventSource : String
  requiredProperties : List RequiredProperty
  optionalProperties : List OptionalProperty
  nestedProperties : List NestedProperty
  filePath : String
  line : Nat
  deriving DecidableEq, Repr

inductive Contract where
  | producer (contract : ProducerContract)
  | broker (transformation : BrokerTransformation)
  | consumer (contract : ConsumerContract)
  deriving DecidableEq, Repr

end PayloadFlow
