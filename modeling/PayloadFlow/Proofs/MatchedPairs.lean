import Mathlib.Data.Option.Basic
import PayloadFlow.Proofs.Cache
import PayloadFlow.Proofs.Deduplication
import PayloadFlow.Proofs.EventOverlap
import PayloadFlow.Proofs.ModuleFiles
import PayloadFlow.Workspace.Session

/-!
# Producers and handlers of one event

Every contract keeps the text that its event was read from.  This is so when the
contract is extracted, and caches and runs hand it on, so that the texts of a
producer and of a handler it is compared with name one event.  They overlap, and
the findings about the two have the bonus for that, unless the event is empty.
-/

namespace PayloadFlow

open Workspace

/-!
# Extracted contracts
-/

/-- The event of a contract is the one that its text names. -/
def Contract.Sourced : Contract -> Prop
  | .producer p => EventName.normalize p.rawEvent = p.targetEvent
  | .broker _ => True
  | .consumer c => EventName.Names c.eventSource c.event

theorem Producer.normalize_rawEvent {entryPoints : List String} {table : List (String × String)}
    {path : String} {f : Script.FunctionNode} {p : ProducerContract}
    (hp : contract? entryPoints table path f = some p) :
    EventName.normalize p.rawEvent = p.targetEvent := by
  simp only [contract?, Option.bind_eq_bind, Option.bind_eq_some_iff, Option.some.injEq] at hp
  rcases hp with ⟨_, _, _, _, _, _, rawEvent, _, rfl⟩
  rfl

namespace Consumer

theorem names_of_mem_functionContracts {handlerPrefixes : List String}
    {bindings : List EventBinding} {path : String} {f : Script.FunctionNode} {c : ConsumerContract}
    (hc : c ∈ functionContracts handlerPrefixes bindings path f) :
    EventName.Names c.eventSource c.event := by
  unfold functionContracts at hc
  dsimp only at hc
  split at hc
  · rcases List.mem_map.mp hc with ⟨raw, _, rfl⟩
    exact .text rfl
  · split at hc
    · rcases List.mem_map.mp hc with ⟨event, hevent, rfl⟩
      exact .handler (Option.mem_toList.mp hevent)
    · cases hc

theorem names_of_inlineContract? {path : String} {b : EventBinding} {c : ConsumerContract}
    (hc : inlineContract? path b = some c) : EventName.Names c.eventSource c.event := by
  unfold inlineContract? at hc
  split at hc
  · cases hc
    exact .text rfl
  · cases hc

theorem names_of_mem_contracts {handlerPrefixes registrationCalls : List String} {path : String}
    {program : Script.Node} {c : ConsumerContract}
    (hc : c ∈ contracts handlerPrefixes registrationCalls path program) :
    EventName.Names c.eventSource c.event := by
  rw [contracts, List.mem_mergeSort, List.mem_append, List.mem_flatMap, List.mem_filterMap] at hc
  rcases hc with ⟨f, _, hc⟩ | ⟨b, _, hc⟩
  · exact names_of_mem_functionContracts hc
  · exact names_of_inlineContract? hc

end Consumer

theorem sourced_of_mem_contractsOf {config : Config} {role : Role} {path : String}
    {program : Script.Node} {k : Contract} (hk : k ∈ contractsOf config role path program) :
    k.Sourced := by
  cases role with
  | producer =>
      rcases List.mem_map.mp hk with ⟨p, hp, rfl⟩
      rcases List.mem_filterMap.mp hp with ⟨f, _, hf⟩
      exact Producer.normalize_rawEvent hf
  | broker =>
      rcases List.mem_map.mp hk with ⟨t, _, rfl⟩
      exact trivial
  | consumer =>
      rcases List.mem_map.mp hk with ⟨c, hc, rfl⟩
      exact Consumer.names_of_mem_contracts hc

theorem sourced_of_extract {config : Config} {role : Role} {path source : String}
    {contracts : List Contract} (h : extract config role path source = .ok contracts)
    {k : Contract} (hk : k ∈ contracts) : k.Sourced := by
  unfold extract at h
  split at h
  · cases h
    exact sourced_of_mem_contractsOf hk
  · cases h

/-!
# Extraction through a cache
-/

namespace Workspace

def Cache.Sourced (c : Cache) : Prop :=
  forall key contracts, c.find? key = some contracts -> forall k, k ∈ contracts -> k.Sourced

def FileExtraction.Sourced (x : FileExtraction) : Prop :=
  forall contracts, x.result = .ok contracts -> forall k, k ∈ contracts -> k.Sourced

theorem Cache.sourced_empty : Cache.Sourced {} := by
  intro key contracts hfind
  cases hfind

theorem sourced_extractFile {cache : Cache} (hcache : cache.Sourced) (tree : Tree)
    (config : Config) (file : SourceFile) :
    (extractFile tree config cache file).1.Sourced ∧
      (extractFile tree config cache file).2.Sourced := by
  have hstep := extractFile_step tree config cache file
  generalize extractFile tree config cache file = reached at hstep ⊢
  cases hstep with
  | unread htext =>
      refine ⟨?_, hcache⟩
      intro contracts hresult
      cases hresult
  | found htext hfound =>
      refine ⟨?_, hcache⟩
      intro contracts hresult
      cases hresult
      exact hcache _ _ hfound
  | @extracted text kept htext habsent hextract =>
      constructor
      · intro contracts hok k hk
        cases hok
        exact sourced_of_extract hextract hk
      · intro key contracts hkey k hk
        rw [Cache.find?_put] at hkey
        split at hkey
        · cases hkey
          exact sourced_of_extract hextract hk
        · exact hcache key contracts hkey k hk
  | failed htext habsent hextract =>
      refine ⟨?_, hcache⟩
      intro contracts hresult
      cases hresult

theorem sourced_extractFiles {cache : Cache} (hcache : cache.Sourced) (tree : Tree)
    (config : Config) (files : List SourceFile) :
    (forall x, x ∈ (extractFiles tree config cache files).1 -> x.Sourced) ∧
      (extractFiles tree config cache files).2.Sourced := by
  induction files generalizing cache with
  | nil =>
      refine ⟨?_, hcache⟩
      intro x hx
      cases hx
  | cons file rest ih =>
      rcases sourced_extractFile hcache tree config file with ⟨hfirst, hafter⟩
      rcases ih hafter with ⟨hrest, hend⟩
      rw [extractFiles_cons]
      refine ⟨?_, hend⟩
      intro x hx
      rcases List.mem_cons.mp hx with rfl | hx
      · exact hfirst
      · exact hrest x hx

end Workspace

/-!
# Collected contracts
-/

namespace Validation

namespace Extracted

structure Sourced (e : Extracted) : Prop where
  producers : forall p, p ∈ e.producers -> EventName.normalize p.rawEvent = p.targetEvent
  consumers : forall c, c ∈ e.consumers -> EventName.Names c.eventSource c.event

theorem sourced_add {e : Extracted} (he : e.Sourced) {k : Contract} (hk : k.Sourced) :
    (e.add k).Sourced := by
  cases k with
  | producer p =>
      refine ⟨?_, he.consumers⟩
      intro q hq
      rcases List.mem_append.mp hq with hq | hq
      · exact he.producers q hq
      · exact List.mem_singleton.mp hq ▸ hk
  | broker t =>
      exact ⟨he.producers, he.consumers⟩
  | consumer c =>
      refine ⟨he.producers, ?_⟩
      intro d hd
      rcases List.mem_append.mp hd with hd | hd
      · exact he.consumers d hd
      · exact List.mem_singleton.mp hd ▸ hk

theorem sourced_foldl_add {e : Extracted} (he : e.Sourced) {contracts : List Contract}
    (hcontracts : forall k, k ∈ contracts -> k.Sourced) :
    (contracts.foldl add e).Sourced := by
  refine List.foldlRecOn contracts add he ?_
  intro e he k hk
  exact sourced_add he (hcontracts k hk)

theorem sourced_addFile {e : Extracted} (he : e.Sourced) {x : FileExtraction}
    (hx : x.Sourced) : (e.addFile x).Sourced := by
  unfold addFile
  dsimp only
  split
  · rename_i contracts hresult
    refine sourced_foldl_add ?_ (hx contracts hresult)
    exact ⟨he.producers, he.consumers⟩
  · exact ⟨he.producers, he.consumers⟩

theorem sourced_collect {extractions : List FileExtraction}
    (hextractions : forall x, x ∈ extractions -> x.Sourced) : (collect extractions).Sourced := by
  refine List.foldlRecOn extractions addFile ?_ ?_
  · exact ⟨fun p hp => absurd hp List.not_mem_nil, fun c hc => absurd hc List.not_mem_nil⟩
  · intro e he x hx
    exact sourced_addFile he (hextractions x hx)

end Extracted

theorem overlap_iff_of_mem_flows {e : Extracted} (he : e.Sourced) {f : Comparison.Flow}
    (hf : f ∈ e.flows) :
    EventName.overlap f.producer.rawEvent f.consumer.eventSource = true <->
      f.consumer.event ≠ "" := by
  rcases (mem_flows_iff e f).mp hf with ⟨p, hp, c, hc, hevent, rfl⟩
  exact EventName.overlap_iff_of_names ((he.producers p hp).trans hevent.symm) (he.consumers c hc)

end Validation

/-!
# Confidence in findings about properties
-/

/-- The confidence reported for a property of a given name, with the bonus for
overlapping texts exactly if the event is not empty. -/
def Confidence.ofMatched (tokens : List String) (name event : String) : Float :=
  let named := if isDomainSpecific tokens name then base + domainBonus else base
  floored (clamp 0.7 1.0 (if event ≠ "" then named + overlapBonus else named))

/-- A finding about a property has the confidence of a matched pair. -/
structure Finding.Matched (tokens : List String) (y : Finding) : Prop where
  missing : y.kind = .missingProperty ->
    y.confidence = Confidence.ofMatched tokens y.propertyPath y.event
  nested : y.kind = .nestedMismatch -> exists parent name,
    y.propertyPath = parent ++ "." ++ name ∧
      y.confidence = Confidence.ofMatched tokens name y.event

namespace Validation

theorem floored_confidence {e : Extracted} (he : e.Sourced) {f : Comparison.Flow}
    (hf : f ∈ e.flows) (tokens : List String) (name : String) :
    Confidence.floored (f.confidence tokens name) =
      Confidence.ofMatched tokens name f.consumer.event := by
  rw [Comparison.Flow.confidence, Confidence.ofProperty, Confidence.ofMatched]
  simp only [overlap_iff_of_mem_flows he hf]

theorem matched_of_emitted {config : Config} {e : Extracted} (he : e.Sourced) {x : Emission}
    (hx : Emitted config e x) :
    (reported x.finding).Matched config.scoring.genericTokens := by
  cases hx with
  | missing hf hr =>
      exact ⟨fun _ => floored_confidence he hf _ _, FindingKind.noConfusion⟩
  | @mismatch f n hf hn =>
      exact ⟨FindingKind.noConfusion, fun _ =>
        ⟨n.parentPath, n.name, rfl, floored_confidence he hf _ _⟩⟩
  | unsent hreported hc =>
      exact ⟨FindingKind.noConfusion, FindingKind.noConfusion⟩
  | unhandled hreported hp =>
      exact ⟨FindingKind.noConfusion, FindingKind.noConfusion⟩
  | failure hfailure =>
      exact ⟨FindingKind.noConfusion, FindingKind.noConfusion⟩

theorem matched_report {extractions : List FileExtraction}
    (hextractions : forall x, x ∈ extractions -> x.Sourced) (config : Config) (moduleName : String)
    {y : Finding} (hy : y ∈ (report config moduleName (Extracted.collect extractions)).findings) :
    y.Matched config.scoring.genericTokens := by
  rcases (mem_finalize_iff _ y).mp hy with ⟨z, hz, rfl⟩
  have hz := Listing.mem_of_mem_distinctBy hz
  rw [findings_eq, List.mem_map] at hz
  rcases hz with ⟨x, hx, rfl⟩
  exact matched_of_emitted (Extracted.sourced_collect hextractions)
    ((mem_emissions_iff config extractions x).mp hx)

theorem matched_run {cache : Cache} (hcache : cache.Sourced) (tree : Tree) (config : Config)
    (modulePath : RawText) (moduleName : String) :
    (forall y, y ∈ (run tree config modulePath moduleName cache).report.findings ->
      y.Matched config.scoring.genericTokens) ∧
    (run tree config modulePath moduleName cache).cache.Sourced := by
  unfold run
  cases discover tree modulePath config with
  | error e =>
      refine ⟨?_, hcache⟩
      intro y hy
      rw [List.mem_singleton.mp hy]
      exact ⟨FindingKind.noConfusion, FindingKind.noConfusion⟩
  | ok discovery =>
      rcases sourced_extractFiles hcache tree config discovery.files with ⟨hfiles, hafter⟩
      exact ⟨fun y hy => matched_report hfiles config moduleName hy, hafter⟩

theorem matched_moduleReports {cache : Cache} (hcache : cache.Sourced) {tree : Tree}
    {modules : List (String × RawText)} {entry : String × Report}
    (hentry : entry ∈ moduleReports tree cache modules) :
    exists path, (entry.1, path) ∈ modules ∧ forall y, y ∈ entry.2.findings ->
      y.Matched (moduleConfig tree path).scoring.genericTokens := by
  induction modules generalizing cache with
  | nil =>
      cases hentry
  | cons m rest ih =>
      rcases matched_run hcache tree (moduleConfig tree m.2) m.2 m.1 with ⟨hfindings, hafter⟩
      rcases List.mem_cons.mp hentry with rfl | hentry
      · exact ⟨m.2, List.mem_cons_self, hfindings⟩
      · rcases ih hafter hentry with ⟨path, hpath, hrest⟩
        exact ⟨path, List.mem_cons_of_mem m hpath, hrest⟩

/-- Texts that name one event overlap exactly if the event is not empty, whatever the
prefixes of handlers.  So in every report, on one module or in a batch, a finding about
a property has the bonus for overlapping texts exactly if its event is not empty. -/
theorem matched_pairs_overlap :
    (forall raw source event : String, EventName.normalize raw = event ->
      (EventName.normalize source = event ∨
        exists prefixes, EventName.ofHandler prefixes source = some event) ->
      (EventName.overlap raw source = true <-> event ≠ "")) ∧
    Cache.Sourced {} ∧
    (forall tree config modulePath moduleName (cache : Cache), cache.Sourced ->
      (forall y, y ∈ (run tree config modulePath moduleName cache).report.findings ->
        y.Matched config.scoring.genericTokens) ∧
      (run tree config modulePath moduleName cache).cache.Sourced) ∧
    forall tree modules entry, entry ∈ (validateAll tree modules).reports ->
      exists path, (entry.1, path) ∈ modules ∧ forall y, y ∈ entry.2.findings ->
        y.Matched (moduleConfig tree path).scoring.genericTokens := by
  refine ⟨?_, Cache.sourced_empty, ?_, ?_⟩
  · rintro raw source event hraw (htext | ⟨prefixes, hname⟩)
    · exact EventName.overlap_iff_of_names hraw (.text htext)
    · exact EventName.overlap_iff_of_names hraw (.handler hname)
  · intro tree config modulePath moduleName cache hcache
    exact matched_run hcache tree config modulePath moduleName
  · intro tree modules entry hentry
    exact matched_moduleReports Cache.sourced_empty hentry

def pairModule (flow handlers : String) : Tree :=
  (Tree.empty.write ["m", "flows", "s.js"] flow.toUTF8).write ["m", "handlers", "h.js"]
    handlers.toUTF8

def pairPlaces : List (List RawText) :=
  [["flows", "s.js"], ["handlers", "h.js"]]

theorem pairwise_pairPlaces : pairPlaces.Pairwise fun a b => placeLe a b = true := by
  decide +kernel

def dragModule : Tree :=
  pairModule "export let f=()=>dispatch('drag:on')" "export let onDragOn=d=>d.y"

theorem dragModule_overlap :
    EventName.overlap "drag:on" "onDragOn" = true ∧
    (run dragModule {} "m" "drag" {}).report.findings.map
        (fun y => (y.kind, y.propertyPath, y.event)) =
      [(.missingProperty, "y", "drag-on")] ∧
    forall y, y ∈ (run dragModule {} "m" "drag" {}).report.findings ->
      y.Matched ({} : Config).scoring.genericTokens := by
  rcases matched_pairs_overlap with ⟨hoverlap, hempty, hrun, _⟩
  have hname : EventName.ofHandler ["on"] "onDragOn" = some "drag-on" := by decide +kernel
  have hplaces : placesBelow dragModule "m" = pairPlaces := by decide +kernel
  refine ⟨?_, ?_, (hrun dragModule {} "m" "drag" {} hempty).1⟩
  · exact (hoverlap _ _ "drag-on" (by decide +kernel) (Or.inr ⟨_, hname⟩)).mpr (by decide)
  · rw [run, discover, sourcesBelow_of_pairwise hplaces pairwise_pairPlaces]
    decide +kernel

def unnamedModule : Tree :=
  pairModule "export let f=()=>dispatch('-')" "on('*',d=>d.y)"

/-- Texts without letters and digits are matched with each other, and the finding about
the pair has no bonus. -/
theorem unnamedModule_no_bonus :
    EventName.overlap "-" "*" = false ∧
    (run unnamedModule {} "m" "unnamed" {}).report.findings.map
        (fun y => (y.kind, y.event, y.confidence.toBits)) =
      [(.missingProperty, "", Confidence.base.toBits)] ∧
    Confidence.base.toBits ≠ (Confidence.base + Confidence.overlapBonus).toBits := by
  have hplaces : placesBelow unnamedModule "m" = pairPlaces := by decide +kernel
  refine ⟨by decide +kernel, ?_, by decide +kernel⟩
  rw [run, discover, sourcesBelow_of_pairwise hplaces pairwise_pairPlaces]
  decide +kernel

end Validation
end PayloadFlow
