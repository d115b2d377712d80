import Mathlib.Data.Finset.Card
import PayloadFlow.Proofs.Emissions
import PayloadFlow.Proofs.Listing

/-!
# How a run covers events

Every event of a run is sent and handled, handled only, or sent only.  Handlers
and producers of an event of the first sort are compared with each other, and no
comparison is refused.  Every other handler and every other producer is reported
once as an orphan.  Comparing goes through pairs of contracts and looking for
orphans through single ones, and the two agree whatever repeats.
-/

namespace PayloadFlow
namespace Validation
namespace Extracted

def sentEvents (e : Extracted) : Finset String :=
  (e.producers.map (·.targetEvent)).toFinset

def handledEvents (e : Extracted) : Finset String :=
  (e.consumers.map (·.event)).toFinset

def ComparesHandler (e : Extracted) (c : ConsumerContract) : Prop :=
  exists f, f ∈ e.flows ∧ f.consumer = c

def ComparesProducer (e : Extracted) (p : ProducerContract) : Prop :=
  exists f, f ∈ e.flows ∧ f.producer = p

instance (e : Extracted) (c : ConsumerContract) : Decidable (e.ComparesHandler c) :=
  inferInstanceAs (Decidable (exists f, f ∈ e.flows ∧ f.consumer = c))

instance (e : Extracted) (p : ProducerContract) : Decidable (e.ComparesProducer p) :=
  inferInstanceAs (Decidable (exists f, f ∈ e.flows ∧ f.producer = p))

def orphansOf (e : Extracted) (kind : FindingKind) : List Finding :=
  (findOrphans e.producers e.consumers).filter fun x => x.kind == kind

def orphanEvents (e : Extracted) (kind : FindingKind) : Finset String :=
  ((e.orphansOf kind).map (·.event)).toFinset

/-- Contracts are compared or reported as orphans, and events are counted once. -/
structure Covered (tokens : List String) (e : Extracted) : Prop where
  answered : forall f, f ∈ e.flows -> exists found, compareFlow tokens f = .ok found
  noFailure : forall x, x ∈ e.flows.flatMap (flowFindings tokens) -> x.kind ≠ .comparisonFailed
  orphans : findOrphans e.producers e.consumers =
    e.orphansOf .orphanHandler ++ e.orphansOf .orphanProducer
  handlers : e.orphansOf .orphanHandler =
    e.consumers.flatMap fun c => if e.ComparesHandler c then [] else [.orphanHandler c]
  producers : e.orphansOf .orphanProducer =
    e.producers.flatMap fun p => if e.ComparesProducer p then [] else [.orphanProducer p]
  eventsCompared : e.eventsCompared = (e.sentEvents ∩ e.handledEvents).card
  total : (e.sentEvents ∪ e.handledEvents).card =
    e.eventsCompared + (e.orphanEvents .orphanHandler).card +
      (e.orphanEvents .orphanProducer).card

/-!
# Events on either side
-/

theorem mem_sentEvents_iff (e : Extracted) (event : String) :
    event ∈ e.sentEvents <-> exists p, p ∈ e.producers ∧ p.targetEvent = event := by
  rw [sentEvents, List.mem_toFinset, List.mem_map]

theorem mem_handledEvents_iff (e : Extracted) (event : String) :
    event ∈ e.handledEvents <-> exists c, c ∈ e.consumers ∧ c.event = event := by
  rw [handledEvents, List.mem_toFinset, List.mem_map]

theorem comparesHandler_iff {e : Extracted} {c : ConsumerContract} (hc : c ∈ e.consumers) :
    e.ComparesHandler c <-> c.event ∈ e.sentEvents := by
  rw [mem_sentEvents_iff]
  constructor
  · intro hcompared
    rcases hcompared with ⟨f, hf, hconsumer⟩
    rcases (mem_flows_iff e f).mp hf with ⟨p, hp, d, _, hevent, hflow⟩
    refine ⟨p, hp, ?_⟩
    rw [← hevent, ← hconsumer, ← hflow]
  · intro hsent
    rcases hsent with ⟨p, hp, hevent⟩
    exact ⟨_, (mem_flows_iff e _).mpr ⟨p, hp, c, hc, hevent.symm, rfl⟩, rfl⟩

theorem comparesProducer_iff {e : Extracted} {p : ProducerContract} (hp : p ∈ e.producers) :
    e.ComparesProducer p <-> p.targetEvent ∈ e.handledEvents := by
  rw [mem_handledEvents_iff]
  constructor
  · intro hcompared
    rcases hcompared with ⟨f, hf, hproducer⟩
    rcases (mem_flows_iff e f).mp hf with ⟨q, _, c, hc, hevent, hflow⟩
    refine ⟨c, hc, ?_⟩
    rw [hevent, ← hproducer, ← hflow]
  · intro hhandled
    rcases hhandled with ⟨c, hc, hevent⟩
    exact ⟨_, (mem_flows_iff e _).mpr ⟨p, hp, c, hc, hevent, rfl⟩, rfl⟩

theorem isUnsent_iff (e : Extracted) (c : ConsumerContract) :
    (!e.producers.any fun p => p.targetEvent == c.event) = true <-> c.event ∉ e.sentEvents := by
  rw [mem_sentEvents_iff]
  simp

theorem isUnhandled_iff (e : Extracted) (p : ProducerContract) :
    (!e.consumers.any fun c => c.event == p.targetEvent) = true <->
      p.targetEvent ∉ e.handledEvents := by
  rw [mem_handledEvents_iff]
  simp

/-!
# Comparisons
-/

theorem exists_compareFlow_of_mem_flows (tokens : List String) {e : Extracted}
    {f : Comparison.Flow} (hf : f ∈ e.flows) : exists found, compareFlow tokens f = .ok found := by
  rcases events_eq_of_mem_flows hf with ⟨hproducer, hsimulated⟩
  exact ⟨_, Comparison.compareFlow_of_events hproducer hsimulated⟩

theorem kind_of_mem_flowFindings {tokens : List String} {e : Extracted} {f : Comparison.Flow}
    (hf : f ∈ e.flows) {x : Finding} (hx : x ∈ flowFindings tokens f) :
    x.kind = .missingProperty ∨ x.kind = .nestedMismatch := by
  rw [flowFindings_eq tokens hf, List.mem_map] at hx
  rcases hx with ⟨y, hy, hyx⟩
  rw [← hyx]
  rcases (mem_flowEmissions_iff tokens f y).mp hy with ⟨r, _, hr⟩ | ⟨n, _, hn⟩
  · rw [← hr]
    exact Or.inl rfl
  · rw [← hn]
    exact Or.inr rfl

/-- Each event that is sent and handled counts once, however many pairs it has. -/
theorem eventsCompared_eq (e : Extracted) :
    e.eventsCompared = (e.sentEvents ∩ e.handledEvents).card := by
  rw [eventsCompared, ← List.toFinset_card_of_nodup (Listing.nodup_sortedNames _)]
  congr 1
  ext event
  rw [List.mem_toFinset, Listing.mem_sortedNames, List.mem_map, Finset.mem_inter,
    mem_sentEvents_iff, mem_handledEvents_iff]
  constructor
  · intro hcompared
    rcases hcompared with ⟨f, hf, hevent⟩
    rcases (mem_flows_iff e f).mp hf with ⟨p, hp, c, hc, hsame, hflow⟩
    rw [← hflow] at hevent
    exact ⟨⟨p, hp, hsame.symm.trans hevent⟩, ⟨c, hc, hevent⟩⟩
  · intro hboth
    rcases hboth with ⟨⟨p, hp, hsent⟩, ⟨c, hc, hhandled⟩⟩
    exact ⟨_, (mem_flows_iff e _).mpr ⟨p, hp, c, hc, hhandled.trans hsent.symm, rfl⟩, hhandled⟩

/-!
# Orphans
-/

/-- What is left out of a list gets nothing, and the rest one finding each. -/
theorem map_filter_eq_flatMap {α : Type} {entries : List α} {keep : α -> Bool}
    {compared : α -> Prop} [DecidablePred compared]
    (hkeep : forall a, a ∈ entries -> (keep a = true <-> ¬ compared a)) (report : α -> Finding) :
    (entries.filter keep).map report =
      entries.flatMap fun a => if compared a then [] else [report a] := by
  induction entries with
  | nil =>
      rfl
  | cons a rest ih =>
      have ha := hkeep a List.mem_cons_self
      have hrest := ih fun b hb => hkeep b (List.mem_cons_of_mem a hb)
      rw [List.flatMap_cons, ← hrest]
      by_cases hcompared : compared a
      · have hdropped : ¬ keep a = true := fun h => ha.mp h hcompared
        rw [List.filter_cons_of_neg hdropped, if_pos hcompared, List.nil_append]
      · rw [List.filter_cons_of_pos (ha.mpr hcompared), if_neg hcompared, List.map_cons,
          List.singleton_append]

theorem filter_kind_map {α : Type} {report : α -> Finding} {given : FindingKind}
    (hgiven : forall a, (report a).kind = given) (entries : List α) (kind : FindingKind) :
    (entries.map report).filter (fun x => x.kind == kind) =
      if given = kind then entries.map report else [] := by
  by_cases hkind : given = kind
  · rw [if_pos hkind, List.filter_eq_self]
    intro x hx
    rcases List.mem_map.mp hx with ⟨a, _, hax⟩
    rw [← hax, hgiven a, hkind, beq_self_eq_true]
  · rw [if_neg hkind, List.filter_eq_nil_iff]
    intro x hx
    rcases List.mem_map.mp hx with ⟨a, _, hax⟩
    rw [← hax, hgiven a, beq_iff_eq]
    exact hkind

theorem orphansOf_eq (e : Extracted) (kind : FindingKind) :
    e.orphansOf kind =
      (if .orphanHandler = kind then e.unsent.map .orphanHandler else []) ++
        if .orphanProducer = kind then e.unhandled.map .orphanProducer else [] := by
  have hhandlers : forall c, (Finding.orphanHandler c).kind = .orphanHandler := fun _ => rfl
  have hproducers : forall p, (Finding.orphanProducer p).kind = .orphanProducer := fun _ => rfl
  rw [← filter_kind_map hhandlers, ← filter_kind_map hproducers, ← List.filter_append]
  rfl

theorem orphansOf_orphanHandler (e : Extracted) :
    e.orphansOf .orphanHandler = e.unsent.map .orphanHandler := by
  rw [orphansOf_eq, if_pos rfl, if_neg FindingKind.noConfusion, List.append_nil]

theorem orphansOf_orphanProducer (e : Extracted) :
    e.orphansOf .orphanProducer = e.unhandled.map .orphanProducer := by
  rw [orphansOf_eq, if_neg FindingKind.noConfusion, if_pos rfl, List.nil_append]

/-- The events of the contracts that are kept because the other side lacks them. -/
theorem toFinset_map_filter {α : Type} {keep : α -> Bool} {event : α -> String}
    {others : Finset String} (hkeep : forall a, keep a = true <-> event a ∉ others)
    (entries : List α) :
    ((entries.filter keep).map event).toFinset = (entries.map event).toFinset \ others := by
  ext name
  simp only [List.mem_toFinset, List.mem_map, List.mem_filter, Finset.mem_sdiff, hkeep]
  constructor
  · intro hkept
    rcases hkept with ⟨a, ⟨ha, hothers⟩, hname⟩
    exact ⟨⟨a, ha, hname⟩, hname ▸ hothers⟩
  · intro honly
    rcases honly with ⟨⟨a, ha, hname⟩, hothers⟩
    exact ⟨a, ⟨ha, hname ▸ hothers⟩, hname⟩

theorem orphanEvents_orphanHandler (e : Extracted) :
    e.orphanEvents .orphanHandler = e.handledEvents \ e.sentEvents := by
  rw [orphanEvents, orphansOf_orphanHandler, List.map_map]
  exact toFinset_map_filter (isUnsent_iff e) e.consumers

theorem orphanEvents_orphanProducer (e : Extracted) :
    e.orphanEvents .orphanProducer = e.sentEvents \ e.handledEvents := by
  rw [orphanEvents, orphansOf_orphanProducer, List.map_map]
  exact toFinset_map_filter (isUnhandled_iff e) e.producers

/-- A run covers its events, whatever its producers, transformations and handlers. -/
theorem events_covered (tokens : List String) (e : Extracted) : e.Covered tokens := by
  constructor
  · intro f hf
    exact exists_compareFlow_of_mem_flows tokens hf
  · intro x hx hfailed
    rcases List.mem_flatMap.mp hx with ⟨f, hf, hx⟩
    rcases kind_of_mem_flowFindings hf hx with hkind | hkind
    · exact FindingKind.noConfusion (hkind.symm.trans hfailed)
    · exact FindingKind.noConfusion (hkind.symm.trans hfailed)
  · rw [orphansOf_orphanHandler, orphansOf_orphanProducer]
    rfl
  · rw [orphansOf_orphanHandler, unsent]
    apply map_filter_eq_flatMap
    intro c hc
    rw [isUnsent_iff, comparesHandler_iff hc]
  · rw [orphansOf_orphanProducer, unhandled]
    apply map_filter_eq_flatMap
    intro p hp
    rw [isUnhandled_iff, comparesProducer_iff hp]
  · exact eventsCompared_eq e
  · have hunion := Finset.card_union_add_card_inter e.sentEvents e.handledEvents
    have hsent := Finset.card_sdiff_add_card_inter e.sentEvents e.handledEvents
    have hhandled := Finset.card_sdiff_add_card_inter e.handledEvents e.sentEvents
    rw [Finset.inter_comm] at hhandled
    rw [eventsCompared_eq, orphanEvents_orphanHandler, orphanEvents_orphanProducer]
    omega

end Extracted
end Validation
end PayloadFlow
