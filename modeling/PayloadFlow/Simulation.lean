import PayloadFlow.Contract
import PayloadFlow.Listing

/-!
# Simulation

The payload that a handler receives once the broker has prepared what a producer
sends.  A special-cased transformation lets through only what it maps or adds;
any other one adds to what was sent; without one the payload passes as it is.
-/

namespace PayloadFlow

inductive PropertyOrigin where
  | producer
  | mapping
  | added
  deriving DecidableEq, Repr, Inhabited

/-- The broker branch that a payload went through. -/
inductive AppliedTransform where
  | specialCase (event : String) (condition : Option String) (exclusionary : Bool)
  | default (exclusionary : Bool)
  | passthrough
  deriving DecidableEq, Repr

namespace AppliedTransform

/-- Whether properties that are not mentioned get lost. -/
def isExclusionary : AppliedTransform -> Bool
  | .specialCase _ _ exclusionary => exclusionary
  | .default exclusionary => exclusionary
  | .passthrough => false

end AppliedTransform

structure SimulatedContract where
  event : String
  producer : String
  /-- the properties in order of name -/
  properties : List (String × PropertyOrigin)
  /-- produced properties that got lost, in order of production -/
  dropped : List String
  /-- properties that the broker takes away by name -/
  removed : List String
  applied : AppliedTransform
  deriving DecidableEq, Repr

namespace SimulatedContract

def has (s : SimulatedContract) (name : String) : Bool :=
  s.properties.any fun entry => entry.1 == name

def wasDropped (s : SimulatedContract) (name : String) : Bool :=
  s.dropped.contains name

end SimulatedContract

namespace Simulation

/-- The transformation for an event: one for just this event, else the
fall-through. -/
def resolve (event : String) (transformations : List BrokerTransformation) :
    Option BrokerTransformation :=
  (transformations.find? fun t => !t.isDefault && t.event == event).or
    (transformations.find? (·.isDefault))

def withOrigin (origin : PropertyOrigin) (names : List String)
    (table : List (String × PropertyOrigin)) : List (String × PropertyOrigin) :=
  names.foldl (fun t name => Listing.insert name origin t) table

def properties (producer : ProducerContract) :
    Option BrokerTransformation -> List (String × PropertyOrigin)
  | none => withOrigin .producer producer.propertyNames []
  | some t =>
      let kept :=
        if t.isSpecialCased then withOrigin .mapping t.mappedNames []
        else withOrigin .producer producer.propertyNames []
      withOrigin .added t.addedProperties kept

def dropped (producer : ProducerContract) : Option BrokerTransformation -> List String
  | none => []
  | some t =>
      if t.isSpecialCased then
        Listing.distinctBy (fun name => name) <| producer.propertyNames.filter fun name =>
          !t.mappedNames.contains name && !t.addedProperties.contains name
      else []

def applied : Option BrokerTransformation -> AppliedTransform
  | none => .passthrough
  | some t =>
      if t.isDefault then .default t.isSpecialCased
      else .specialCase t.event t.condition t.isSpecialCased

end Simulation

def simulate (producer : ProducerContract) (transformations : List BrokerTransformation) :
    SimulatedContract :=
  let transformation := Simulation.resolve producer.targetEvent transformations
  { event := producer.targetEvent
    producer := producer.functionName
    properties := Simulation.properties producer transformation
    dropped := Simulation.dropped producer transformation
    removed := (transformation.map (·.removedProperties)).getD []
    applied := Simulation.applied transformation }

end PayloadFlow
