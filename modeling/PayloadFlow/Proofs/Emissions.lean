import PayloadFlow.Validation
import PayloadFlow.Proofs.Comparison

/-!
# The findings of a run and where they come from

All findings of a run before ids are compared, each with what its id is made of.
A finding is about a pair of a producer and a handler, about an event with one
side only, or about a file that gave no contracts.
-/

namespace PayloadFlow
namespace Validation

open Workspace

/-- A finding before ids are compared, with the last part of its key. -/
structure Emission where
  detail : String
  finding : Finding

def Emission.key (x : Emission) : FindingKey :=
  ⟨x.finding.kind.name, x.finding.event, x.finding.propertyPath, x.finding.filePath, x.detail⟩

namespace Extracted

def unsent (e : Extracted) : List ConsumerContract :=
  e.consumers.filter fun c => !e.producers.any fun p => p.targetEvent == c.event

def unhandled (e : Extracted) : List ProducerContract :=
  e.producers.filter fun p => !e.consumers.any fun c => c.event == p.targetEvent

end Extracted

def flowEmissions (tokens : List String) (f : Comparison.Flow) : List Emission :=
  f.missingProperties.map (fun r => ⟨f.producer.functionName, f.missing tokens r⟩) ++
    f.mismatches.map (fun n => ⟨f.producer.functionName, f.mismatch tokens n⟩)

def orphanEmissions (e : Extracted) : List Emission :=
  e.unsent.map (fun c => ⟨c.handlerName, .orphanHandler c⟩) ++
    e.unhandled.map (fun p => ⟨p.functionName, .orphanProducer p⟩)

def emissions (config : Config) (e : Extracted) : List Emission :=
  e.flows.flatMap (flowEmissions config.scoring.genericTokens) ++
    (if config.reportOrphans then orphanEmissions e else []) ++ e.failures.map (Emission.mk "")

theorem mem_flows_iff (e : Extracted) (f : Comparison.Flow) :
    f ∈ e.flows <-> exists p, p ∈ e.producers ∧ exists c, c ∈ e.consumers ∧
      c.event = p.targetEvent ∧ ⟨p, simulate p e.transformations, c⟩ = f := by
  simp only [Extracted.flows, List.mem_flatMap, List.mem_map, List.mem_filter, beq_iff_eq,
    and_assoc]

theorem events_eq_of_mem_flows {e : Extracted} {f : Comparison.Flow} (hf : f ∈ e.flows) :
    f.producer.targetEvent = f.consumer.event ∧ f.simulated.event = f.consumer.event := by
  rcases (mem_flows_iff e f).mp hf with ⟨p, _, c, _, hevent, rfl⟩
  exact ⟨hevent.symm, hevent.symm⟩

theorem flowFindings_eq {e : Extracted} {f : Comparison.Flow} (tokens : List String)
    (hf : f ∈ e.flows) :
    flowFindings tokens f = (flowEmissions tokens f).map (·.finding) := by
  rcases events_eq_of_mem_flows hf with ⟨hproducer, hsimulated⟩
  rw [flowFindings, Comparison.compareFlow_of_events hproducer hsimulated, flowEmissions,
    List.map_append, List.map_map, List.map_map]
  rfl

theorem findings_eq (config : Config) (e : Extracted) :
    findings config e = (emissions config e).map (·.finding) := by
  have hflows : e.flows.flatMap (flowFindings config.scoring.genericTokens) =
      (e.flows.flatMap (flowEmissions config.scoring.genericTokens)).map (·.finding) := by
    rw [List.map_flatMap, List.flatMap_def, List.flatMap_def]
    exact congrArg List.flatten (List.map_congr_left fun f hf => flowFindings_eq _ hf)
  have horphans : findOrphans e.producers e.consumers =
      (orphanEmissions e).map (·.finding) := by
    rw [orphanEmissions, List.map_append, List.map_map, List.map_map]
    rfl
  have hfailures : e.failures = (e.failures.map (Emission.mk "")).map (·.finding) := by
    rw [List.map_map]
    exact (List.map_id _).symm
  rw [findings, emissions, List.map_append, List.map_append, ← hflows, ← hfailures]
  cases config.reportOrphans with
  | false =>
      rfl
  | true =>
      rw [if_pos rfl, if_pos rfl, horphans]

/-!
# Failures
-/

def IsFailure (g : Finding) : Prop :=
  exists filePath line reason, g = .extractionFailed filePath line reason

theorem failures_add (e : Extracted) (contract : Contract) :
    (e.add contract).failures = e.failures := by
  cases contract with
  | producer p => rfl
  | broker t => rfl
  | consumer c => rfl

theorem failures_foldl_add (e : Extracted) (contracts : List Contract) :
    (contracts.foldl Extracted.add e).failures = e.failures := by
  induction contracts generalizing e with
  | nil =>
      rfl
  | cons contract rest ih =>
      rw [List.foldl_cons, ih, failures_add]

theorem isFailure_addFile {e : Extracted} (he : forall g, g ∈ e.failures -> IsFailure g)
    (x : FileExtraction) {g : Finding} (hg : g ∈ (e.addFile x).failures) : IsFailure g := by
  unfold Extracted.addFile at hg
  cases hresult : x.result with
  | ok contracts =>
      simp only [hresult, failures_foldl_add] at hg
      exact he g hg
  | error error =>
      simp only [hresult, List.mem_append, List.mem_singleton] at hg
      rcases hg with hg | rfl
      · exact he g hg
      · exact ⟨_, _, _, rfl⟩

theorem isFailure_of_mem_failures (extractions : List FileExtraction) {g : Finding}
    (hg : g ∈ (Extracted.collect extractions).failures) : IsFailure g := by
  have hcollect : forall g, g ∈ (Extracted.collect extractions).failures -> IsFailure g := by
    refine List.foldlRecOn extractions Extracted.addFile
      (motive := fun e => forall g, g ∈ e.failures -> IsFailure g) ?_ ?_
    · intro g hg
      cases hg
    · intro e he x _ g hg
      exact isFailure_addFile he x hg
  exact hcollect g hg

/-!
# Sources of findings
-/

inductive Emitted (config : Config) (e : Extracted) : Emission -> Prop where
  | missing {f : Comparison.Flow} {r : RequiredProperty} (hf : f ∈ e.flows)
      (hr : r ∈ f.missingProperties) :
      Emitted config e ⟨f.producer.functionName, f.missing config.scoring.genericTokens r⟩
  | mismatch {f : Comparison.Flow} {n : NestedProperty} (hf : f ∈ e.flows)
      (hn : n ∈ f.mismatches) :
      Emitted config e ⟨f.producer.functionName, f.mismatch config.scoring.genericTokens n⟩
  | unsent {c : ConsumerContract} (hreported : config.reportOrphans = true)
      (hc : c ∈ e.unsent) : Emitted config e ⟨c.handlerName, .orphanHandler c⟩
  | unhandled {p : ProducerContract} (hreported : config.reportOrphans = true)
      (hp : p ∈ e.unhandled) : Emitted config e ⟨p.functionName, .orphanProducer p⟩
  | failure {filePath reason : String} {line : Nat}
      (hfailure : .extractionFailed filePath line reason ∈ e.failures) :
      Emitted config e ⟨"", .extractionFailed filePath line reason⟩

theorem mem_flowEmissions_iff (tokens : List String) (f : Comparison.Flow) (x : Emission) :
    x ∈ flowEmissions tokens f <->
      (exists r, r ∈ f.missingProperties ∧ ⟨f.producer.functionName, f.missing tokens r⟩ = x) ∨
        exists n, n ∈ f.mismatches ∧ ⟨f.producer.functionName, f.mismatch tokens n⟩ = x := by
  rw [flowEmissions, List.mem_append, List.mem_map, List.mem_map]

theorem mem_orphanEmissions_iff (e : Extracted) (x : Emission) :
    x ∈ orphanEmissions e <->
      (exists c, c ∈ e.unsent ∧ ⟨c.handlerName, .orphanHandler c⟩ = x) ∨
        exists p, p ∈ e.unhandled ∧ ⟨p.functionName, .orphanProducer p⟩ = x := by
  rw [orphanEmissions, List.mem_append, List.mem_map, List.mem_map]

theorem mem_emissions_iff (config : Config) (extractions : List FileExtraction) (x : Emission) :
    x ∈ emissions config (Extracted.collect extractions) <->
      Emitted config (Extracted.collect extractions) x := by
  rw [emissions, List.mem_append, List.mem_append, List.mem_flatMap, List.mem_map]
  constructor
  · rintro ((⟨f, hf, hx⟩ | hx) | ⟨g, hg, rfl⟩)
    · rcases (mem_flowEmissions_iff _ f x).mp hx with ⟨r, hr, rfl⟩ | ⟨n, hn, rfl⟩
      · exact .missing hf hr
      · exact .mismatch hf hn
    · cases hreported : config.reportOrphans with
      | false =>
          rw [hreported] at hx
          exact absurd hx List.not_mem_nil
      | true =>
          rw [hreported, if_pos rfl, mem_orphanEmissions_iff] at hx
          rcases hx with ⟨c, hc, rfl⟩ | ⟨p, hp, rfl⟩
          · exact .unsent hreported hc
          · exact .unhandled hreported hp
    · rcases isFailure_of_mem_failures extractions hg with ⟨filePath, line, reason, rfl⟩
      exact .failure hg
  · intro hx
    cases hx with
    | missing hf hr =>
        exact Or.inl (Or.inl ⟨_, hf, (mem_flowEmissions_iff _ _ _).mpr (Or.inl ⟨_, hr, rfl⟩)⟩)
    | mismatch hf hn =>
        exact Or.inl (Or.inl ⟨_, hf, (mem_flowEmissions_iff _ _ _).mpr (Or.inr ⟨_, hn, rfl⟩)⟩)
    | unsent hreported hc =>
        rw [hreported, if_pos rfl, mem_orphanEmissions_iff]
        exact Or.inl (Or.inr (Or.inl ⟨_, hc, rfl⟩))
    | unhandled hreported hp =>
        rw [hreported, if_pos rfl, mem_orphanEmissions_iff]
        exact Or.inl (Or.inr (Or.inr ⟨_, hp, rfl⟩))
    | failure hfailure =>
        exact Or.inr ⟨_, hfailure, rfl⟩

theorem id_eq_of_emitted {config : Config} {e : Extracted} {x : Emission}
    (hx : Emitted config e x) : x.finding.id = x.key.id := by
  cases hx with
  | missing hf hr => rfl
  | mismatch hf hn => rfl
  | unsent hreported hc => rfl
  | unhandled hreported hp => rfl
  | failure hfailure => rfl

theorem severity_critical_iff {config : Config} {e : Extracted} {x : Emission}
    (hx : Emitted config e x) :
    x.finding.severity = .critical <-> x.finding.kind = .missingProperty := by
  cases hx with
  | missing hf hr =>
      exact iff_of_true rfl rfl
  | @mismatch f n hf hn =>
      refine iff_of_false ?_ FindingKind.noConfusion
      show ¬ (if n.isRequired then Severity.error else Severity.warning) = .critical
      cases n.isRequired with
      | false => exact Severity.noConfusion
      | true => exact Severity.noConfusion
  | unsent hreported hc =>
      exact iff_of_false Severity.noConfusion FindingKind.noConfusion
  | unhandled hreported hp =>
      exact iff_of_false Severity.noConfusion FindingKind.noConfusion
  | failure hfailure =>
      exact iff_of_false Severity.noConfusion FindingKind.noConfusion

end Validation
end PayloadFlow
