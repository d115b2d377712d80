/-!
# Configuration

What a module may set, with the value that each setting has by default.  Settings are read
from JSON, so that the paths among them are texts.
-/

namespace PayloadFlow

def sourceExtensions : String :=
  "\x7bjs,mjs,cjs,jsx,ts,tsx\x7d"

namespace Defaults

def producerPatterns : List String :=
  ["**/flows/**/*." ++ sourceExtensions, "**/*.flow." ++ sourceExtensions]

def consumerPatterns : List String :=
  ["**/handlers/**/*." ++ sourceExtensions, "**/*.handler." ++ sourceExtensions]

def brokerPatterns : List String :=
  ["**/broker." ++ sourceExtensions, "**/*.broker." ++ sourceExtensions]

def entryPoints : List String :=
  ["dispatch", "emit", "publish", "send"]

def prepareFunctions : List String :=
  ["preparePayload", "transformPayload", "prepare"]

def generators : List String :=
  ["executionContext", "context", "timestamp", "dispatchedAt", "receivedAt", "sequenceId",
    "sequence", "seq", "traceId", "correlationId"]

def handlerPrefixes : List String :=
  ["handle", "on"]

def registrationCalls : List String :=
  ["on", "subscribe", "register", "addHandler"]

def genericTokens : List String :=
  ["data", "event", "payload", "args", "params", "props", "value", "item", "result", "options",
    "type", "info"]

def maxFileBytes : UInt64 :=
  1024 * 1024

def parseTimeoutMs : UInt64 :=
  2000

end Defaults

/-- Patterns on paths inside the module that give files their roles. -/
structure RolePatterns where
  producer : List String := Defaults.producerPatterns
  consumer : List String := Defaults.consumerPatterns
  broker : List String := Defaults.brokerPatterns
  deriving DecidableEq, Repr, Inhabited

structure BrokerSettings where
  /-- the broker file, named from the module root -/
  path : Option String := none
  /-- the functions that send a payload -/
  entryPoints : List String := Defaults.entryPoints
  /-- the functions that prepare a payload -/
  prepareFunctions : List String := Defaults.prepareFunctions
  /-- properties that the broker makes up itself -/
  generators : List String := Defaults.generators
  deriving DecidableEq, Repr, Inhabited

structure ConsumerSettings where
  /-- how the names of handlers begin -/
  handlerPrefixes : List String := Defaults.handlerPrefixes
  /-- the functions that register a handler -/
  registrationCalls : List String := Defaults.registrationCalls
  deriving DecidableEq, Repr, Inhabited

structure Scoring where
  /-- property names that say too little to raise the confidence -/
  genericTokens : List String := Defaults.genericTokens
  deriving DecidableEq, Repr, Inhabited

structure Limits where
  /-- the largest file that is read; 0 stands for no limit -/
  maxFileBytes : UInt64 := Defaults.maxFileBytes
  parseTimeoutMs : UInt64 := Defaults.parseTimeoutMs
  /-- the number of workers; 0 leaves it to the machine -/
  workers : UInt64 := 0
  deriving DecidableEq, Repr, Inhabited

def maxWorkers : Nat := 8

structure Config where
  roles : RolePatterns := {}
  broker : BrokerSettings := {}
  consumer : ConsumerSettings := {}
  scoring : Scoring := {}
  limits : Limits := {}
  reportOrphans : Bool := true
  /-- files that play no role -/
  ignorePatterns : List String := []
  /-- where to look for a broker if the module has none -/
  projectRoot : Option String := none
  deriving DecidableEq, Repr

namespace Config

instance : Inhabited Config :=
  ⟨{}⟩

def workerCount? (c : Config) : Option Nat :=
  if c.limits.workers > 0 then some (min c.limits.workers.toNat maxWorkers) else none

theorem workerCount?_bounds {c : Config} {n : Nat} (h : c.workerCount? = some n) :
    1 ≤ n ∧ n ≤ maxWorkers := by
  unfold workerCount? at h
  split at h
  · rename_i hworkers
    cases h
    have hpos : 0 < c.limits.workers.toNat := UInt64.lt_iff_toNat_lt.mp hworkers
    exact ⟨Nat.le_min.mpr ⟨hpos, by decide⟩, Nat.min_le_right _ _⟩
  · cases h

end Config

end PayloadFlow
