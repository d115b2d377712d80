import PayloadFlow.Finding
import PayloadFlow.Listing

/-!
# Recommendations

One advice for all findings of a kind.
-/

namespace PayloadFlow

structure Recommendation where
  kind : FindingKind
  /-- the events of the findings, in order, each once -/
  events : List String
  /-- the number of findings -/
  count : Nat
  text : String
  deriving DecidableEq, Repr

namespace Recommendation

open Text

/-- The names of a list between backticks, separated by commas. -/
def quoteAll (names : List String) : String :=
  String.ofList (joinWith ", ".toList (names.map fun n => ('\x60' :: n.toList) ++ ['\x60']))

/-- The names that occur, in order, without the empty one. -/
def namesOf (names : List String) : List String :=
  Listing.sortedNames (names.filter fun n => !n.isEmpty)

def splitLast? (path : String) : Option (String × String) :=
  let reversed := path.toList.reverse
  match reversed.dropWhile (· != '.') with
  | [] => none
  | _ :: parent =>
      some (String.ofList parent.reverse, String.ofList (reversed.takeWhile (· != '.')).reverse)

def containments (paths : List String) : String :=
  String.ofList <| joinWith ", ".toList <|
    (paths.filterMap splitLast?).map fun split =>
      ("`" ++ split.1 ++ "` contains `" ++ split.2 ++ "`").toList

def advice (kind : FindingKind) (group : List Finding) : String :=
  let events := quoteAll (namesOf (group.map (·.event)))
  let paths := namesOf (group.map (·.propertyPath))
  match kind with
  | .missingProperty =>
      "add property " ++ quoteAll paths
        ++ " to the producer payload, or to the broker's special case for event " ++ events
  | .nestedMismatch => "ensure parent object " ++ containments paths ++ " in producer output"
  | .orphanHandler => "create a producer for event " ++ events
  | .orphanProducer => "add a handler for event " ++ events ++ " or remove the dispatch"
  | .discoveryFailed => "check that the module path exists and is a readable directory"
  | .extractionFailed =>
      "fix or ignore the files that could not be parsed: "
        ++ quoteAll (Listing.sortedNames (group.map (·.filePath)))
  | .comparisonFailed => "re-run validation; some handlers were paired with the wrong producer"

def forKind? (findings : List Finding) (kind : FindingKind) : Option Recommendation :=
  let group := findings.filter fun f => f.kind == kind
  if group.isEmpty then none
  else
    some
      { kind
        events := namesOf (group.map (·.event))
        count := group.length
        text := advice kind group }

def ofFindings (findings : List Finding) : List Recommendation :=
  FindingKind.all.filterMap (forKind? findings)

end Recommendation

end PayloadFlow
