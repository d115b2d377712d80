import PayloadFlow.Comparison
import PayloadFlow.Report
import PayloadFlow.Workspace.Extraction

/-!
# Validation

A run over one module: its files are found and extracted, every producer is
simulated, every handler is compared with every producer of its event, and all
findings go into a report.
-/

namespace PayloadFlow
namespace Validation

open Workspace

inductive Stage where
  | idle
  | discovering
  | extracting
  | simulating
  | comparing
  | reporting
  | done
  deriving DecidableEq, Repr

structure Extracted where
  producers : List ProducerContract := []
  transformations : List BrokerTransformation := []
  consumers : List ConsumerContract := []
  failures : List Finding := []
  filesScanned : Nat := 0
  filesFailed : Nat := 0
  cacheHits : Nat := 0

namespace Extracted

def add (e : Extracted) : Contract -> Extracted
  | .producer p => { e with producers := e.producers ++ [p] }
  | .broker t => { e with transformations := e.transformations ++ [t] }
  | .consumer c => { e with consumers := e.consumers ++ [c] }

def addFile (e : Extracted) (x : FileExtraction) : Extracted :=
  let e :=
    { e with
      filesScanned := e.filesScanned + 1
      cacheHits := if x.cacheHit then e.cacheHits + 1 else e.cacheHits }
  match x.result with
  | .ok contracts => contracts.foldl add e
  | .error error =>
      { e with
        filesFailed := e.filesFailed + 1
        failures :=
          e.failures ++ [Finding.extractionFailed x.file.displayPath error.line error.message] }

def collect (extractions : List FileExtraction) : Extracted :=
  extractions.foldl addFile {}

/-- The pairs of a producer and a handler of its event. -/
def flows (e : Extracted) : List Comparison.Flow :=
  e.producers.flatMap fun p =>
    (e.consumers.filter fun c => c.event == p.targetEvent).map fun c =>
      ⟨p, simulate p e.transformations, c⟩

/-- The number of events that are both sent and handled. -/
def eventsCompared (e : Extracted) : Nat :=
  (Listing.sortedNames (e.flows.map (·.consumer.event))).length

/-- The broker's transformations for single events. -/
def specialCases (e : Extracted) : Nat :=
  e.transformations.countP fun t => !t.isDefault

def nestedProperties (e : Extracted) : Nat :=
  (e.consumers.flatMap (·.nestedProperties)).length

end Extracted

def flowFindings (tokens : List String) (f : Comparison.Flow) : List Finding :=
  match compareFlow tokens f with
  | .ok found => found
  | .error e => [Finding.comparisonFailed f.consumer e.message]

def findings (config : Config) (e : Extracted) : List Finding :=
  e.flows.flatMap (flowFindings config.scoring.genericTokens) ++
    (if config.reportOrphans then findOrphans e.producers e.consumers else []) ++ e.failures

def reported (f : Finding) : Finding :=
  { f with confidence := Confidence.floored f.confidence }

/-- Findings as they are reported: each id once, with a least confidence, in
order. -/
def finalize (found : List Finding) : List Finding :=
  Finding.sort ((Listing.distinctBy (·.id) found).map reported)

def report (config : Config) (moduleName : String) (e : Extracted) : Report :=
  let found := finalize (findings config e)
  let statistics : Statistics :=
    { filesScanned := e.filesScanned
      filesFailed := e.filesFailed
      producers := e.producers.length
      consumers := e.consumers.length
      brokerTransformations := e.transformations.length
      specialCases := e.specialCases
      nestedProperties := e.nestedProperties
      eventsCompared := e.eventsCompared
      cacheHits := e.cacheHits }
  { moduleName
    findings := found
    confidenceLevel :=
      ConfidenceLevel.ofComplexity e.specialCases e.nestedProperties statistics.totalContracts
    statistics := statistics.countSeverities found
    recommendations := Recommendation.ofFindings found }

/-- A run: its report, the stages it went through, and the cache after it. -/
structure Run where
  report : Report
  trace : List Stage
  cache : Cache

def run (tree : Tree) (config : Config) (modulePath : RawText) (moduleName : String)
    (cache : Cache) : Run :=
  match discover tree modulePath config with
  | .error e =>
      { report := Report.ofDiscoveryFailure moduleName e.message
        trace := [.idle, .discovering, .reporting, .done]
        cache }
  | .ok discovery =>
      let (extractions, cache) := extractFiles tree config cache discovery.files
      { report := report config moduleName (Extracted.collect extractions)
        trace := [.idle, .discovering, .extracting, .simulating, .comparing, .reporting, .done]
        cache }

end Validation
end PayloadFlow
