import PayloadFlow.Finding
import PayloadFlow.Simulation

/-!
# Comparison

What a handler reads, held against the payload that arrives.  A path into a
payload counts as present as soon as its first property is there.
-/

namespace PayloadFlow

inductive ComparisonError where
  | eventMismatch (producer consumer : String)
  deriving DecidableEq, Repr

namespace ComparisonError

def message : ComparisonError -> String
  | .eventMismatch producer consumer =>
      "producer event `" ++ producer ++ "` does not match consumer event `" ++ consumer ++ "`"

end ComparisonError

namespace Comparison

structure Flow where
  producer : ProducerContract
  simulated : SimulatedContract
  consumer : ConsumerContract

namespace Flow

def dropNote (f : Flow) (name : String) : String :=
  if f.simulated.wasDropped name then
    match f.simulated.applied with
    | .specialCase _ (some condition) _ =>
        "; the producer sends it but the broker special case `" ++ condition ++ "` drops it"
    | _ => "; the producer sends it but the broker transformation drops it"
  else ""

def missingFix (f : Flow) (name : String) : String :=
  let event := f.consumer.event
  if f.simulated.wasDropped name then
    "map `" ++ name ++ "` in the broker's special case for event `" ++ event ++ "`"
  else if f.simulated.applied.isExclusionary then
    "add property `" ++ name ++ "` to the broker's special case for event `" ++ event ++ "`"
  else
    "add property `" ++ name ++ "` to the producer payload in `" ++ f.producer.functionName
      ++ "`, or to the broker's special case for event `" ++ event ++ "`"

def confidence (f : Flow) (tokens : List String) (name : String) : Float :=
  Confidence.ofProperty tokens name f.producer.rawEvent f.consumer.eventSource

/-- The finding about a required property that does not arrive. -/
def missing (f : Flow) (tokens : List String) (p : RequiredProperty) : Finding :=
  FindingSite.finding
    { kind := .missingProperty
      severity := .critical
      event := f.consumer.event
      propertyPath := p.name
      filePath := f.consumer.filePath
      line := p.line
      detail := f.producer.functionName }
    (f.confidence tokens p.name)
    ("handler `" ++ f.consumer.handlerName ++ "` requires `" ++ p.name
      ++ "` but the payload from `" ++ f.producer.functionName ++ "` for event `"
      ++ f.consumer.event ++ "` does not contain it" ++ f.dropNote p.name)
    (f.missingFix p.name)

/-- The finding about a path whose first property does not arrive. -/
def mismatch (f : Flow) (tokens : List String) (p : NestedProperty) : Finding :=
  FindingSite.finding
    { kind := .nestedMismatch
      severity := if p.isRequired then .error else .warning
      event := f.consumer.event
      propertyPath := p.fullPath
      filePath := f.consumer.filePath
      line := p.line
      detail := f.producer.functionName }
    (f.confidence tokens p.name)
    ("handler `" ++ f.consumer.handlerName ++ "` reads `" ++ p.fullPath ++ "` but `" ++ p.root
      ++ "` is not in the payload from `" ++ f.producer.functionName ++ "` for event `"
      ++ f.consumer.event ++ "`" ++ f.dropNote p.root)
    ("ensure parent object `" ++ p.parentPath ++ "` contains `" ++ p.name
      ++ "` in producer output")

/-- Required properties that do not arrive.  One that is only read through a
deeper path is reported by that path. -/
def missingProperties (f : Flow) : List RequiredProperty :=
  f.consumer.requiredProperties.filter fun p => !p.isNested && !f.simulated.has p.name

def isInner (f : Flow) (p : NestedProperty) : Bool :=
  f.consumer.nestedProperties.any fun q => q.parentPath == p.fullPath

/-- The deepest paths whose first property does not arrive. -/
def mismatches (f : Flow) : List NestedProperty :=
  f.consumer.nestedProperties.filter fun p => !f.isInner p && !f.simulated.has p.root

end Flow
end Comparison

def compareFlow (tokens : List String) (f : Comparison.Flow) :
    Except ComparisonError (List Finding) :=
  if f.producer.targetEvent != f.consumer.event || f.simulated.event != f.consumer.event then
    .error (.eventMismatch f.producer.targetEvent f.consumer.event)
  else
    .ok (f.missingProperties.map (f.missing tokens) ++ f.mismatches.map (f.mismatch tokens))

/-- Handlers whose event nobody sends, and producers whose event nobody handles. -/
def findOrphans (producers : List ProducerContract) (consumers : List ConsumerContract) :
    List Finding :=
  let handlers := consumers.filter fun c => !producers.any fun p => p.targetEvent == c.event
  let senders := producers.filter fun p => !consumers.any fun c => c.event == p.targetEvent
  handlers.map Finding.orphanHandler ++ senders.map Finding.orphanProducer

end PayloadFlow
