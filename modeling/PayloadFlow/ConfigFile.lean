import PayloadFlow.Config
import PayloadFlow.Json.Reader

/-!
# Configuration files

A configuration is written as JSON.  What is left out has its default, members
that are not known do not count, and a file with any mistake counts as if it were
not there.  A section may also be written as an array of its fields in order.  What
the reader takes for a field that is left out stands in the records `leftOut`, apart
from the defaults of the structures.
-/

namespace PayloadFlow

namespace Json

/-- The known members of an object.  Every key must be a text, and no known one may
occur twice. -/
def knownMembers? (names : List String) (members : List (Option String × Json)) :
    Option (List (String × Json)) :=
  let known := members.filterMap fun m =>
    match m.1 with
    | some key => if names.contains key then some (key, m.2) else none
    | none => none
  if members.all (·.1.isSome) && (known.map (·.1)).Nodup then some known else none

def fields? (names : List String) : Json -> Option (List (String × Json))
  | .object members => knownMembers? names members
  | .array items => if items.length ≤ names.length then some (names.zip items) else none
  | _ => none

def fieldOr {α : Type} (fields : List (String × Json)) (name : String) (read : Json -> Option α)
    (default : α) : Option α :=
  match fields.lookup name with
  | some value => read value
  | none => some default

end Json

namespace RolePatterns

def fieldNames : List String :=
  ["producer_globs", "consumer_globs", "broker_globs"]

def leftOut : RolePatterns :=
  { producer := Defaults.producerPatterns
    consumer := Defaults.consumerPatterns
    broker := Defaults.brokerPatterns }

def ofJson? (j : Json) : Option RolePatterns := do
  let fs ← Json.fields? fieldNames j
  let producer ← Json.fieldOr fs "producer_globs" Json.asTexts? leftOut.producer
  let consumer ← Json.fieldOr fs "consumer_globs" Json.asTexts? leftOut.consumer
  let broker ← Json.fieldOr fs "broker_globs" Json.asTexts? leftOut.broker
  some { producer, consumer, broker }

def members (r : RolePatterns) : List (String × Json) :=
  [("producer_globs", Json.ofStrings r.producer), ("consumer_globs", Json.ofStrings r.consumer),
    ("broker_globs", Json.ofStrings r.broker)]

end RolePatterns

namespace BrokerSettings

def fieldNames : List String :=
  ["path", "entry_points", "prepare_functions", "generators"]

def leftOut : BrokerSettings :=
  { path := none
    entryPoints := Defaults.entryPoints
    prepareFunctions := Defaults.prepareFunctions
    generators := Defaults.generators }

def ofJson? (j : Json) : Option BrokerSettings := do
  let fs ← Json.fields? fieldNames j
  let path ← Json.fieldOr fs "path" Json.asOptionalText? leftOut.path
  let entryPoints ← Json.fieldOr fs "entry_points" Json.asTexts? leftOut.entryPoints
  let prepareFunctions ←
    Json.fieldOr fs "prepare_functions" Json.asTexts? leftOut.prepareFunctions
  let generators ← Json.fieldOr fs "generators" Json.asTexts? leftOut.generators
  some { path, entryPoints, prepareFunctions, generators }

def members (b : BrokerSettings) : List (String × Json) :=
  [("path", Json.ofOption b.path), ("entry_points", Json.ofStrings b.entryPoints),
    ("prepare_functions", Json.ofStrings b.prepareFunctions),
    ("generators", Json.ofStrings b.generators)]

end BrokerSettings

namespace ConsumerSettings

def fieldNames : List String :=
  ["handler_prefixes", "registration_calls"]

def leftOut : ConsumerSettings :=
  { handlerPrefixes := Defaults.handlerPrefixes
    registrationCalls := Defaults.registrationCalls }

def ofJson? (j : Json) : Option ConsumerSettings := do
  let fs ← Json.fields? fieldNames j
  let handlerPrefixes ← Json.fieldOr fs "handler_prefixes" Json.asTexts? leftOut.handlerPrefixes
  let registrationCalls ←
    Json.fieldOr fs "registration_calls" Json.asTexts? leftOut.registrationCalls
  some { handlerPrefixes, registrationCalls }

def members (c : ConsumerSettings) : List (String × Json) :=
  [("handler_prefixes", Json.ofStrings c.handlerPrefixes),
    ("registration_calls", Json.ofStrings c.registrationCalls)]

end ConsumerSettings

namespace Scoring

def fieldNames : List String :=
  ["generic_tokens"]

def leftOut : Scoring :=
  { genericTokens := Defaults.genericTokens }

def ofJson? (j : Json) : Option Scoring := do
  let fs ← Json.fields? fieldNames j
  let genericTokens ← Json.fieldOr fs "generic_tokens" Json.asTexts? leftOut.genericTokens
  some { genericTokens }

def members (s : Scoring) : List (String × Json) :=
  [("generic_tokens", Json.ofStrings s.genericTokens)]

end Scoring

namespace Limits

def fieldNames : List String :=
  ["max_file_bytes", "parse_timeout_ms", "workers"]

def leftOut : Limits :=
  { maxFileBytes := Defaults.maxFileBytes
    parseTimeoutMs := Defaults.parseTimeoutMs
    workers := 0 }

def ofJson? (j : Json) : Option Limits := do
  let fs ← Json.fields? fieldNames j
  let maxFileBytes ← Json.fieldOr fs "max_file_bytes" Json.asWord? leftOut.maxFileBytes
  let parseTimeoutMs ← Json.fieldOr fs "parse_timeout_ms" Json.asWord? leftOut.parseTimeoutMs
  let workers ← Json.fieldOr fs "workers" Json.asWord? leftOut.workers
  some { maxFileBytes, parseTimeoutMs, workers }

def members (l : Limits) : List (String × Json) :=
  [("max_file_bytes", Json.ofNat l.maxFileBytes.toNat),
    ("parse_timeout_ms", Json.ofNat l.parseTimeoutMs.toNat),
    ("workers", Json.ofNat l.workers.toNat)]

end Limits

namespace Config

def fieldNames : List String :=
  ["roles", "broker", "consumer", "scoring", "limits", "report_orphans", "ignore_patterns",
    "project_root"]

def leftOut : Config :=
  { roles := {}
    broker := {}
    consumer := {}
    scoring := {}
    limits := {}
    reportOrphans := true
    ignorePatterns := []
    projectRoot := none }

def ofJson? (j : Json) : Option Config := do
  let fs ← Json.fields? fieldNames j
  let roles ← Json.fieldOr fs "roles" RolePatterns.ofJson? leftOut.roles
  let broker ← Json.fieldOr fs "broker" BrokerSettings.ofJson? leftOut.broker
  let consumer ← Json.fieldOr fs "consumer" ConsumerSettings.ofJson? leftOut.consumer
  let scoring ← Json.fieldOr fs "scoring" Scoring.ofJson? leftOut.scoring
  let limits ← Json.fieldOr fs "limits" Limits.ofJson? leftOut.limits
  let reportOrphans ← Json.fieldOr fs "report_orphans" Json.asBool? leftOut.reportOrphans
  let ignorePatterns ← Json.fieldOr fs "ignore_patterns" Json.asTexts? leftOut.ignorePatterns
  let projectRoot ← Json.fieldOr fs "project_root" Json.asOptionalText? leftOut.projectRoot
  some
    { roles, broker, consumer, scoring, limits, reportOrphans, ignorePatterns, projectRoot }

def members (c : Config) : List (String × Json) :=
  [("roles", Json.record c.roles.members), ("broker", Json.record c.broker.members),
    ("consumer", Json.record c.consumer.members), ("scoring", Json.record c.scoring.members),
    ("limits", Json.record c.limits.members), ("report_orphans", .bool c.reportOrphans),
    ("ignore_patterns", Json.ofStrings c.ignorePatterns),
    ("project_root", Json.ofOption c.projectRoot)]

def toJson (c : Config) : Json :=
  Json.record c.members

def ofContent? (content : ByteArray) : Option Config :=
  match String.fromUTF8? content with
  | some text => (Json.parse? text).bind ofJson?
  | none => none

/-- The configuration in a file; without the file, or with a mistake in it, all
settings have their defaults. -/
def load (content : Option ByteArray) : Config :=
  (content.bind ofContent?).getD {}

end Config

end PayloadFlow
