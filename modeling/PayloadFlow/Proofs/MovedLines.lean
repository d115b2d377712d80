import PayloadFlow.Proofs.Comparison
import PayloadFlow.Proofs.FailingFile
import PayloadFlow.Proofs.Listing
import PayloadFlow.Proofs.ReportConsistency
import PayloadFlow.Validation

/-!
# Lines that move

Lines say where contracts and findings stand, and nothing but the order of a
report depends on them.  A run on contracts without their lines goes the same
way as the run on the contracts: the same payloads arrive, the same properties
are missing, and of the findings with one id the same one is kept.  So two runs
on contracts that differ in their lines report the same, in another order.
-/

namespace PayloadFlow

/-!
# Contracts and findings without lines
-/

def PropertyBinding.withoutLine (b : PropertyBinding) : PropertyBinding :=
  { b with line := 0 }

def RequiredProperty.withoutLine (r : RequiredProperty) : RequiredProperty :=
  { r with line := 0 }

def OptionalProperty.withoutLine (o : OptionalProperty) : OptionalProperty :=
  { o with line := 0 }

def NestedProperty.withoutLine (n : NestedProperty) : NestedProperty :=
  { n with line := 0 }

def BrokerTransformation.withoutLine (t : BrokerTransformation) : BrokerTransformation :=
  { t with line := 0 }

def ProducerContract.withoutLines (p : ProducerContract) : ProducerContract :=
  { p with
    producedProperties := p.producedProperties.map (·.withoutLine)
    line := 0 }

def ConsumerContract.withoutLines (c : ConsumerContract) : ConsumerContract :=
  { c with
    requiredProperties := c.requiredProperties.map (·.withoutLine)
    optionalProperties := c.optionalProperties.map (·.withoutLine)
    nestedProperties := c.nestedProperties.map (·.withoutLine)
    line := 0 }

def Comparison.Flow.withoutLines (f : Flow) : Flow :=
  ⟨f.producer.withoutLines, f.simulated, f.consumer.withoutLines⟩

def Finding.withoutLine (f : Finding) : Finding :=
  { f with line := 0 }

/-- What was extracted, without the lines of contracts and of failures. -/
def Validation.Extracted.withoutLines (e : Extracted) : Extracted :=
  { e with
    producers := e.producers.map (·.withoutLines)
    transformations := e.transformations.map (·.withoutLine)
    consumers := e.consumers.map (·.withoutLines)
    failures := e.failures.map (·.withoutLine) }

/-- The same findings but for their lines, in any order. -/
def SameFindings (found others : List Finding) : Prop :=
  (found.map (·.withoutLine)).Perm (others.map (·.withoutLine))

/-- Reports that say the same of every id, and of the module as a whole. -/
structure Report.SameButLines (r s : Report) : Prop where
  moduleName : r.moduleName = s.moduleName
  ids : forall id, id ∈ r.findings.map (·.id) <-> id ∈ s.findings.map (·.id)
  findings : forall f, f ∈ r.findings -> forall g, g ∈ s.findings -> f.id = g.id ->
    f.withoutLine = g.withoutLine
  statistics : r.statistics = s.statistics
  confidenceLevel : r.confidenceLevel = s.confidenceLevel
  recommendations : r.recommendations = s.recommendations

/-!
# What arrives
-/

theorem ProducerContract.propertyNames_withoutLines (p : ProducerContract) :
    p.withoutLines.propertyNames = p.propertyNames :=
  List.map_map

namespace Simulation

theorem resolve_withoutLine (event : String) (ts : List BrokerTransformation) :
    resolve event (ts.map (·.withoutLine)) = (resolve event ts).map (·.withoutLine) := by
  rw [resolve, resolve, List.find?_map, List.find?_map, Option.map_or]
  rfl

theorem properties_withoutLines (p : ProducerContract) (t : Option BrokerTransformation) :
    properties p.withoutLines (t.map (·.withoutLine)) = properties p t := by
  cases t with
  | none =>
      simp only [properties, Option.map_none, p.propertyNames_withoutLines]
  | some t =>
      simp only [properties, Option.map_some, p.propertyNames_withoutLines]
      rfl

theorem dropped_withoutLines (p : ProducerContract) (t : Option BrokerTransformation) :
    dropped p.withoutLines (t.map (·.withoutLine)) = dropped p t := by
  cases t with
  | none =>
      rfl
  | some t =>
      simp only [dropped, Option.map_some, p.propertyNames_withoutLines]
      rfl

theorem simulate_withoutLines (p : ProducerContract) (ts : List BrokerTransformation) :
    simulate p.withoutLines (ts.map (·.withoutLine)) = simulate p ts := by
  have hresolve : resolve p.withoutLines.targetEvent (ts.map (·.withoutLine)) =
      (resolve p.targetEvent ts).map (·.withoutLine) := resolve_withoutLine p.targetEvent ts
  simp only [simulate, hresolve, properties_withoutLines, dropped_withoutLines]
  cases resolve p.targetEvent ts with
  | none => rfl
  | some t => rfl

end Simulation

/-!
# What is found
-/

namespace Comparison.Flow

theorem missingProperties_withoutLines (f : Flow) :
    f.withoutLines.missingProperties = f.missingProperties.map (·.withoutLine) :=
  List.filter_map

theorem isInner_withoutLines (f : Flow) (n : NestedProperty) :
    f.withoutLines.isInner n.withoutLine = f.isInner n :=
  List.any_map

theorem mismatches_withoutLines (f : Flow) :
    f.withoutLines.mismatches = f.mismatches.map (·.withoutLine) := by
  have hkept : forall n : NestedProperty,
      (!f.withoutLines.isInner n.withoutLine && !f.simulated.has n.withoutLine.root) =
        (!f.isInner n && !f.simulated.has n.root) := by
    intro n
    rw [isInner_withoutLines]
    rfl
  rw [mismatches, mismatches, ← funext hkept]
  exact List.filter_map

end Comparison.Flow

namespace Validation

open Comparison

theorem compareFlow_withoutLines (tokens : List String) (f : Flow) :
    compareFlow tokens f.withoutLines =
      (compareFlow tokens f).map fun found => found.map (·.withoutLine) := by
  have hevents : (f.withoutLines.producer.targetEvent != f.withoutLines.consumer.event ||
      f.withoutLines.simulated.event != f.withoutLines.consumer.event) =
      (f.producer.targetEvent != f.consumer.event ||
        f.simulated.event != f.consumer.event) := rfl
  unfold compareFlow
  rw [hevents, Flow.missingProperties_withoutLines, Flow.mismatches_withoutLines, List.map_map,
    List.map_map]
  split
  · rfl
  · rw [Except.map, List.map_append, List.map_map, List.map_map]
    rfl

theorem flowFindings_withoutLines (tokens : List String) (f : Flow) :
    flowFindings tokens f.withoutLines = (flowFindings tokens f).map (·.withoutLine) := by
  rw [flowFindings, flowFindings, compareFlow_withoutLines]
  cases compareFlow tokens f with
  | ok found => rfl
  | error e => rfl

theorem flows_withoutLines (e : Extracted) :
    e.withoutLines.flows = e.flows.map (·.withoutLines) := by
  rw [Extracted.flows, Extracted.flows, List.map_flatMap]
  simp only [Extracted.withoutLines, List.flatMap_map, List.filter_map, List.map_map,
    Simulation.simulate_withoutLines]
  rfl

theorem findOrphans_withoutLines (producers : List ProducerContract)
    (consumers : List ConsumerContract) :
    findOrphans (producers.map (·.withoutLines)) (consumers.map (·.withoutLines)) =
      (findOrphans producers consumers).map (·.withoutLine) := by
  simp only [findOrphans, List.filter_map, List.any_map, List.map_append, List.map_map]
  rfl

theorem findings_withoutLines (config : Config) (e : Extracted) :
    findings config e.withoutLines = (findings config e).map (·.withoutLine) := by
  have hflows : e.withoutLines.flows.flatMap (flowFindings config.scoring.genericTokens) =
      (e.flows.flatMap (flowFindings config.scoring.genericTokens)).map (·.withoutLine) := by
    rw [flows_withoutLines, List.flatMap_map, List.map_flatMap]
    exact congrArg (e.flows.flatMap ·) (funext fun f => flowFindings_withoutLines _ f)
  have horphans := findOrphans_withoutLines e.producers e.consumers
  rw [findings, findings, hflows, List.map_append, List.map_append]
  cases config.reportOrphans with
  | false =>
      rfl
  | true =>
      rw [if_pos rfl, if_pos rfl, ← horphans]
      rfl

/-- Which of the findings with one id is kept does not depend on lines; only the
places of those that are kept do. -/
theorem sameFindings_finalize (found : List Finding) :
    SameFindings (finalize found) (finalize (found.map (·.withoutLine))) := by
  -- Lines decide how the findings are sorted, so the two lists agree as permutations only.
  have hperm : forall list : List Finding,
      ((finalize list).map (·.withoutLine)).Perm
        (((Listing.distinctBy (·.id) list).map reported).map (·.withoutLine)) := by
    intro list
    exact (finalize_perm list).map (·.withoutLine)
  have hkept : Listing.distinctBy (·.id) (found.map (·.withoutLine)) =
      (Listing.distinctBy (·.id) found).map (·.withoutLine) := by
    apply Listing.distinctBy_map
    intro _
    rfl
  have herased := hperm (found.map (·.withoutLine))
  rw [hkept, List.map_map, List.map_map] at herased
  refine (hperm found).trans ?_
  rw [List.map_map]
  exact herased.symm

theorem sameFindings_report (config : Config) (moduleName : String) (e : Extracted) :
    SameFindings (report config moduleName e).findings
      (report config moduleName e.withoutLines).findings := by
  have hfinal := sameFindings_finalize (findings config e)
  rw [← findings_withoutLines] at hfinal
  exact hfinal

end Validation

/-!
# What is made of the findings
-/

namespace SameFindings

variable {found others : List Finding}

theorem map_perm {α : Type} (h : SameFindings found others) (read : Finding -> α)
    (hread : forall f, read f.withoutLine = read f) : (found.map read).Perm (others.map read) := by
  have hperm := h.map read
  rw [List.map_map, List.map_map] at hperm
  rw [← funext hread]
  exact hperm

theorem filter (h : SameFindings found others) (keep : Finding -> Bool)
    (hkeep : forall f, keep f.withoutLine = keep f) :
    SameFindings (found.filter keep) (others.filter keep) := by
  have hperm := List.Perm.filter keep h
  rw [List.filter_map, List.filter_map] at hperm
  rw [← funext hkeep]
  exact hperm

theorem countOf_eq (h : SameFindings found others) (severity : Severity) :
    Finding.countOf severity found = Finding.countOf severity others := by
  have hperm := h.map_perm (·.severity) fun _ => rfl
  have hcount := hperm.countP_eq (· == severity)
  rw [List.countP_map, List.countP_map] at hcount
  exact hcount

theorem namesOf_eq (h : SameFindings found others) (read : Finding -> String)
    (hread : forall f, read f.withoutLine = read f) :
    Recommendation.namesOf (found.map read) = Recommendation.namesOf (others.map read) :=
  Listing.sortedNames_congr fun _ => ((h.map_perm read hread).filter _).mem_iff

theorem advice_eq (h : SameFindings found others) (kind : FindingKind) :
    Recommendation.advice kind found = Recommendation.advice kind others := by
  have hevents := h.namesOf_eq (·.event) fun _ => rfl
  have hpaths := h.namesOf_eq (·.propertyPath) fun _ => rfl
  have hfiles : Listing.sortedNames (found.map (·.filePath)) =
      Listing.sortedNames (others.map (·.filePath)) :=
    Listing.sortedNames_congr fun _ => (h.map_perm (·.filePath) fun _ => rfl).mem_iff
  unfold Recommendation.advice
  rw [hevents, hpaths, hfiles]

/-- Recommendations depend neither on lines nor on the order of the findings. -/
theorem ofFindings_eq (h : SameFindings found others) :
    Recommendation.ofFindings found = Recommendation.ofFindings others := by
  apply List.filterMap_congr
  intro kind _
  have hgroup := h.filter (fun f => f.kind == kind) fun _ => rfl
  have hevents := hgroup.namesOf_eq (·.event) fun _ => rfl
  have hkinds := hgroup.map_perm (·.kind) fun _ => rfl
  have hcount := hkinds.length_eq
  rw [List.length_map, List.length_map] at hcount
  simp only [Recommendation.forKind?, List.isEmpty_iff, ← List.length_eq_zero_iff, hcount,
    hevents, hgroup.advice_eq kind]

/-- Among findings whose ids differ there is one with an id, with or without lines. -/
theorem eq_of_id (h : SameFindings found others) (hids : (others.map (·.id)).Nodup)
    {f g : Finding} (hf : f ∈ found) (hg : g ∈ others) (hid : f.id = g.id) :
    f.withoutLine = g.withoutLine := by
  have hmem : f.withoutLine ∈ others.map (·.withoutLine) :=
    h.mem_iff.mp (List.mem_map_of_mem hf)
  rcases List.mem_map.mp hmem with ⟨k, hk, hkf⟩
  have hkid : k.withoutLine.id = f.withoutLine.id := by rw [hkf]
  have hkg : k = g := List.inj_on_of_nodup_map hids hk hg (hkid.trans hid)
  rw [← hkf, hkg]

end SameFindings

/-!
# The two reports
-/

namespace Validation

namespace Extracted

theorem specialCases_withoutLines (e : Extracted) :
    e.withoutLines.specialCases = e.specialCases :=
  List.countP_map

theorem nestedProperties_withoutLines (e : Extracted) :
    e.withoutLines.nestedProperties = e.nestedProperties := by
  simp [nestedProperties, withoutLines, ConsumerContract.withoutLines, List.length_flatMap,
    List.flatMap_map]

theorem eventsCompared_withoutLines (e : Extracted) :
    e.withoutLines.eventsCompared = e.eventsCompared := by
  rw [eventsCompared, eventsCompared, flows_withoutLines, List.map_map]
  rfl

end Extracted

section Numbers

variable (config : Config) (moduleName : String) (e : Extracted)

theorem statistics_withoutLines :
    (report config moduleName e.withoutLines).statistics =
      (report config moduleName e).statistics := by
  have hcount := (sameFindings_report config moduleName e).countOf_eq
  simp only [report] at hcount
  simp only [report, Statistics.countSeverities, hcount, e.specialCases_withoutLines,
    e.nestedProperties_withoutLines, e.eventsCompared_withoutLines]
  simp only [Extracted.withoutLines, List.length_map]

theorem confidenceLevel_withoutLines :
    (report config moduleName e.withoutLines).confidenceLevel =
      (report config moduleName e).confidenceLevel := by
  simp only [report, Statistics.totalContracts, e.specialCases_withoutLines,
    e.nestedProperties_withoutLines]
  simp only [Extracted.withoutLines, List.length_map]

end Numbers

/-- Two extractions that differ in their lines only are reported on with the same
ids.  What a report says of an id, and of the module as a whole, is the same. -/
theorem report_moved_lines (config : Config) (moduleName : String) (e other : Extracted)
    (hlines : e.withoutLines = other.withoutLines) :
    (report config moduleName e).SameButLines (report config moduleName other) := by
  have hfirst := sameFindings_report config moduleName e
  have hsecond := sameFindings_report config moduleName other
  rw [← hlines] at hsecond
  have hsame : SameFindings (report config moduleName e).findings
      (report config moduleName other).findings := hfirst.trans hsecond.symm
  refine ⟨rfl, ?_, ?_, ?_, ?_, hsame.ofFindings_eq⟩
  · intro id
    exact (hsame.map_perm (·.id) fun _ => rfl).mem_iff
  · intro f hf g hg hid
    exact hsame.eq_of_id (nodup_ids_finalize _) hf hg hid
  · rw [← statistics_withoutLines, hlines, statistics_withoutLines]
  · rw [← confidenceLevel_withoutLines, hlines, confidenceLevel_withoutLines]

def movedHandler : ConsumerContract :=
  { Comparison.dropHandler with
    requiredProperties := [⟨"rawPointerEvent", false, none, 40⟩, ⟨"zoneId", false, none, 3⟩,
      ⟨"context", true, some "context.meta.owner", 4⟩] }

def dropModule (handlers : List ConsumerContract) : Extracted :=
  { producers := [Comparison.dropSender]
    transformations := Comparison.dropBranches
    consumers := handlers }

def keptLines (e : Extracted) : List Nat :=
  (Listing.distinctBy (·.id) (findings {} e)).map (·.line)

/-- Of two handlers whose findings share their ids the first counts.  The property
that gets lost is then reported before the path that is never sent, or after it. -/
theorem movedHandler_same_report :
    (dropModule [Comparison.dropHandler, movedHandler]).withoutLines =
        (dropModule [movedHandler, Comparison.dropHandler]).withoutLines ∧
      keptLines (dropModule [Comparison.dropHandler, movedHandler]) = [2, 4] ∧
      keptLines (dropModule [movedHandler, Comparison.dropHandler]) = [40, 4] ∧
      (report {} "drop" (dropModule [Comparison.dropHandler, movedHandler])).SameButLines
        (report {} "drop" (dropModule [movedHandler, Comparison.dropHandler])) := by
  refine ⟨rfl, ?_, ?_, ?_⟩
  · decide +kernel
  · decide +kernel
  · exact report_moved_lines {} "drop" _ _ rfl

end Validation
end PayloadFlow
