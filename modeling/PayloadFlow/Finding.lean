import PayloadFlow.Confidence
import PayloadFlow.Contract
import PayloadFlow.Digest.Base62
import PayloadFlow.Digest.Xxh64

/-!
# Findings

What a run has to say: a payload that lacks what a handler reads, an event with
only one side, or a part of the run that failed.  Findings are sorted by the
place they point to, and each has an id that depends on what it says and not on
the line.
-/

namespace PayloadFlow

inductive FindingKind where
  | missingProperty
  | nestedMismatch
  | orphanHandler
  | orphanProducer
  | discoveryFailed
  | extractionFailed
  | comparisonFailed
  deriving DecidableEq, Repr, Inhabited

namespace FindingKind

def all : List FindingKind :=
  [.missingProperty, .nestedMismatch, .orphanHandler, .orphanProducer, .discoveryFailed,
    .extractionFailed, .comparisonFailed]

def rank : FindingKind -> Nat
  | .missingProperty => 0
  | .nestedMismatch => 1
  | .orphanHandler => 2
  | .orphanProducer => 3
  | .discoveryFailed => 4
  | .extractionFailed => 5
  | .comparisonFailed => 6

def name : FindingKind -> String
  | .missingProperty => "missing_property"
  | .nestedMismatch => "nested_mismatch"
  | .orphanHandler => "orphan_handler"
  | .orphanProducer => "orphan_producer"
  | .discoveryFailed => "discovery_failed"
  | .extractionFailed => "extraction_failed"
  | .comparisonFailed => "comparison_failed"

end FindingKind

inductive Severity where
  | critical
  | error
  | warning
  deriving DecidableEq, Repr, Inhabited

namespace Severity

def isBlocking : Severity -> Bool
  | .critical | .error => true
  | .warning => false

end Severity

structure Finding where
  id : String
  kind : FindingKind
  /-- empty if the finding is about the run itself -/
  event : String
  propertyPath : String
  severity : Severity
  confidence : Float
  message : String
  suggestedFix : String
  filePath : String
  line : Nat
  deriving Repr, Inhabited

structure FindingKey where
  kind : String
  event : String
  propertyPath : String
  filePath : String
  /-- tells apart findings that share all else, such as the producer a property
  was looked for in -/
  detail : String
  deriving DecidableEq, Repr

namespace FindingKey

def text (k : FindingKey) : List Char :=
  Text.joinWith ['\x00']
    [k.kind.toList, k.event.toList, k.propertyPath.toList, k.filePath.toList, k.detail.toList]

def id (k : FindingKey) : String :=
  Digest.Base62.encode (Digest.Xxh64.hashText (String.ofList k.text))

end FindingKey

structure FindingSite where
  kind : FindingKind
  severity : Severity
  event : String
  propertyPath : String
  filePath : String
  line : Nat
  detail : String

namespace FindingSite

def key (s : FindingSite) : FindingKey :=
  ⟨s.kind.name, s.event, s.propertyPath, s.filePath, s.detail⟩

def finding (s : FindingSite) (confidence : Float) (message suggestedFix : String) : Finding :=
  { id := s.key.id
    kind := s.kind
    event := s.event
    propertyPath := s.propertyPath
    severity := s.severity
    confidence
    message
    suggestedFix
    filePath := s.filePath
    line := s.line }

end FindingSite

namespace Finding

/-- The order of reports: file, line, kind, then the texts. -/
def order (a b : Finding) : Ordering :=
  (compare a.filePath b.filePath).then <|
    (compare a.line b.line).then <|
      (compare a.kind.rank b.kind.rank).then <|
        (compare a.event b.event).then <|
          (compare a.propertyPath b.propertyPath).then <|
            compare a.message b.message

/-- Findings in the order of reports; equal ones keep their places. -/
def sort (findings : List Finding) : List Finding :=
  findings.mergeSort fun a b => (order a b).isLE

def isBlocking (f : Finding) : Bool :=
  f.severity.isBlocking

def countOf (severity : Severity) (findings : List Finding) : Nat :=
  findings.countP fun f => f.severity == severity

def confidenceSum (findings : List Finding) : Float :=
  findings.foldl (fun sum f => sum + f.confidence) 0

def discoveryFailed (moduleName reason : String) : Finding :=
  FindingSite.finding
    { kind := .discoveryFailed
      severity := .critical
      event := ""
      propertyPath := ""
      filePath := moduleName
      line := 0
      detail := "" }
    Confidence.infrastructure
    ("could not scan module `" ++ moduleName ++ "`: " ++ reason)
    "check that the module path exists and is a readable directory"

/-- A file that gave no contracts because of an error on a line. -/
def extractionFailed (filePath : String) (line : Nat) (reason : String) : Finding :=
  FindingSite.finding
    { kind := .extractionFailed
      severity := .warning
      event := ""
      propertyPath := ""
      filePath
      line
      detail := "" }
    Confidence.infrastructure
    ("could not extract contract: " ++ reason)
    ("fix the file or list `" ++ filePath ++ "` in .flowcheckignore")

/-- A handler that was paired with a producer of another event. -/
def comparisonFailed (consumer : ConsumerContract) (reason : String) : Finding :=
  FindingSite.finding
    { kind := .comparisonFailed
      severity := .warning
      event := ""
      propertyPath := ""
      filePath := consumer.filePath
      line := consumer.line
      detail := consumer.handlerName }
    Confidence.infrastructure
    ("skipped comparison for `" ++ consumer.handlerName ++ "`: " ++ reason)
    "re-run validation; the handler was paired with the wrong producer"

def orphanHandler (consumer : ConsumerContract) : Finding :=
  FindingSite.finding
    { kind := .orphanHandler
      severity := .warning
      event := consumer.event
      propertyPath := ""
      filePath := consumer.filePath
      line := consumer.line
      detail := consumer.handlerName }
    Confidence.orphan
    ("handler `" ++ consumer.handlerName ++ "` listens for `" ++ consumer.event
      ++ "` but no producer in this module dispatches it")
    ("create a producer for event `" ++ consumer.event ++ "`")

def orphanProducer (producer : ProducerContract) : Finding :=
  FindingSite.finding
    { kind := .orphanProducer
      severity := .warning
      event := producer.targetEvent
      propertyPath := ""
      filePath := producer.filePath
      line := producer.line
      detail := producer.functionName }
    Confidence.orphan
    ("producer `" ++ producer.functionName ++ "` dispatches `" ++ producer.targetEvent
      ++ "` but no handler in this module consumes it")
    ("add a handler for event `" ++ producer.targetEvent ++ "` or remove the dispatch")

end Finding

end PayloadFlow
