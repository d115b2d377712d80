import PayloadFlow.Recommendation

/-!
# Reports

The findings of one run with their numbers, and the sums over several modules.  Counts
have no bound; in 32 bits they are the same as long as each stays below `2 ^ 32`.
-/

namespace PayloadFlow

/-- Counts of one run. -/
structure Statistics where
  filesScanned : Nat := 0
  filesFailed : Nat := 0
  producers : Nat := 0
  consumers : Nat := 0
  brokerTransformations : Nat := 0
  specialCases : Nat := 0
  nestedProperties : Nat := 0
  eventsCompared : Nat := 0
  critical : Nat := 0
  errors : Nat := 0
  warnings : Nat := 0
  cacheHits : Nat := 0
  deriving DecidableEq, Repr, Inhabited

namespace Statistics

def totalContracts (s : Statistics) : Nat :=
  s.producers + s.consumers + s.brokerTransformations

/-- The same counts with the severities of a list of findings. -/
def countSeverities (s : Statistics) (findings : List Finding) : Statistics :=
  { s with
    critical := Finding.countOf .critical findings
    errors := Finding.countOf .error findings
    warnings := Finding.countOf .warning findings }

end Statistics

structure Report where
  moduleName : String
  findings : List Finding
  confidenceLevel : ConfidenceLevel
  statistics : Statistics
  recommendations : List Recommendation
  deriving Repr

namespace Report

def hasBlocking (r : Report) : Bool :=
  r.findings.any (·.isBlocking)

def meanConfidence? (r : Report) : Option Float :=
  if r.findings.isEmpty then none
  else some (Finding.confidenceSum r.findings / Float.ofNat r.findings.length)

def ofDiscoveryFailure (moduleName reason : String) : Report :=
  let findings := [Finding.discoveryFailed moduleName reason]
  { moduleName
    findings
    confidenceLevel := .unknown
    statistics := Statistics.countSeverities {} findings
    recommendations := Recommendation.ofFindings findings }

end Report

structure BatchSummary where
  modules : Nat
  critical : Nat
  errors : Nat
  warnings : Nat
  findings : Nat
  meanConfidence : Option Float
  deriving Repr

/-- The reports of several modules, in order of the module names. -/
structure BatchReport where
  reports : List (String × Report)
  summary : BatchSummary
  deriving Repr

namespace BatchReport

def total (f : Report -> Nat) : List (String × Report) -> Nat
  | [] => 0
  | entry :: rest => f entry.2 + total f rest

/-- The confidences of all findings: each module is summed up first, then the
sums are added in order. -/
def confidenceSum (reports : List (String × Report)) : Float :=
  reports.foldl (fun sum entry => sum + Finding.confidenceSum entry.2.findings) 0

def ofReports (reports : List (String × Report)) : BatchReport :=
  let findings := total (·.findings.length) reports
  { reports
    summary :=
      { modules := reports.length
        critical := total (·.statistics.critical) reports
        errors := total (·.statistics.errors) reports
        warnings := total (·.statistics.warnings) reports
        findings
        meanConfidence :=
          if findings > 0 then some (confidenceSum reports / Float.ofNat findings) else none } }

def hasBlocking (b : BatchReport) : Bool :=
  b.reports.any fun entry => entry.2.hasBlocking

end BatchReport

end PayloadFlow
