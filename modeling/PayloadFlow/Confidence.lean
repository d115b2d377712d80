import PayloadFlow.Config
import PayloadFlow.EventName

/-!
# Confidence

How sure a finding is.  A finding about a property starts from a base and gains
from a telling property name and from an event that both sides spell alike.
-/

namespace PayloadFlow
namespace Confidence

def base : Float := 0.85

def domainBonus : Float := 0.10

/-- The bonus for an event that both sides spell alike. -/
def overlapBonus : Float := 0.05

/-- The confidence in a finding about a lone producer or handler. -/
def orphan : Float := 0.65

/-- The confidence in a finding about the run itself. -/
def infrastructure : Float := 0.6

def clamp (low high x : Float) : Float :=
  if x < low then low else if high < x then high else x

def floored (score : Float) : Float :=
  clamp 0.6 1.0 score

def lowerAscii (text : String) : List Char :=
  text.toList.map Char.toLower

/-- Whether a name is among the generic ones, whatever its case. -/
def isGeneric (tokens : List String) (name : String) : Bool :=
  tokens.any fun t => lowerAscii t == lowerAscii name

/-- Names of more than three characters that are not generic belong to the
domain. -/
def isDomainSpecific (tokens : List String) (name : String) : Bool :=
  name.length > 3 && !isGeneric tokens name

def ofProperty (tokens : List String) (property producerEvent consumerEvent : String) : Float :=
  let named := if isDomainSpecific tokens property then base + domainBonus else base
  let score := if EventName.overlap producerEvent consumerEvent then named + overlapBonus else named
  clamp 0.7 1.0 score

end Confidence

inductive ConfidenceLevel where
  | high
  | medium
  | low
  | unknown
  deriving DecidableEq, Repr, Inhabited

namespace ConfidenceLevel

/-- The level that belongs to the number of special cases and nested properties
per contract. -/
def ofComplexity (specialCases nestedProperties contracts : Nat) : ConfidenceLevel :=
  if contracts == 0 then .unknown
  else
    let ratio := Float.ofNat (specialCases + nestedProperties) / Float.ofNat contracts
    if ratio < 0.2 then .high
    else if ratio < 0.5 then .medium
    else if ratio < 0.8 then .low
    else .unknown

end ConfidenceLevel

end PayloadFlow
