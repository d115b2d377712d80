import PayloadFlow.Comparison
import PayloadFlow.Proofs.Simulation

/-!
# What a comparison reports

The findings about a handler and a producer of its event, told from the names
that arrive: which properties they are about, how severe they are, and in which
order they stand.
-/

namespace PayloadFlow

/-- What a finding is about, how severe it is and where it points to, without
the texts around it. -/
structure Gist where
  kind : FindingKind
  severity : Severity
  event : String
  propertyPath : String
  filePath : String
  line : Nat
  deriving DecidableEq, Repr

def Finding.gist (f : Finding) : Gist :=
  ⟨f.kind, f.severity, f.event, f.propertyPath, f.filePath, f.line⟩

namespace Comparison

/-!
# Paths that lead nowhere deeper
-/

theorem length_fullPath (n : NestedProperty) :
    n.parentPath.length < n.fullPath.length := by
  simp only [NestedProperty.fullPath, String.length_append]
  have hdot : ".".length = 1 := rfl
  omega

/-- No other nested property of the handler is read inside this one. -/
def IsDeepest (c : ConsumerContract) (n : NestedProperty) : Prop :=
  forall q, q ∈ c.nestedProperties -> q ≠ n -> q.parentPath ≠ n.fullPath

instance (c : ConsumerContract) (n : NestedProperty) : Decidable (IsDeepest c n) :=
  inferInstanceAs (Decidable (forall q, q ∈ c.nestedProperties ->
    q ≠ n -> q.parentPath ≠ n.fullPath))

theorem isInner_eq_false_iff (f : Flow) (n : NestedProperty) :
    f.isInner n = false <-> IsDeepest f.consumer n := by
  unfold Flow.isInner IsDeepest
  rw [List.any_eq_false]
  constructor
  · intro hnone q hq _ hpath
    exact hnone q hq (by simp [hpath])
  · intro hdeepest q hq hpath
    rw [beq_iff_eq] at hpath
    by_cases hqn : q = n
    · have hlength := length_fullPath n
      rw [← hpath, hqn] at hlength
      exact Nat.lt_irrefl _ hlength
    · exact hdeepest q hq hqn hpath

/-!
# The findings of one comparison
-/

def missingGist (c : ConsumerContract) (r : RequiredProperty) : Gist :=
  ⟨.missingProperty, .critical, c.event, r.name, c.filePath, r.line⟩

def mismatchGist (c : ConsumerContract) (n : NestedProperty) : Gist :=
  ⟨.nestedMismatch, if n.isRequired then .error else .warning, c.event, n.fullPath,
    c.filePath, n.line⟩

theorem mem_missingProperties_iff (f : Flow) (r : RequiredProperty) :
    r ∈ f.missingProperties <->
      r ∈ f.consumer.requiredProperties ∧ r.isNested = false ∧
        f.simulated.has r.name = false := by
  simp [Flow.missingProperties]

theorem mem_mismatches_iff (f : Flow) (n : NestedProperty) :
    n ∈ f.mismatches <->
      n ∈ f.consumer.nestedProperties ∧ f.isInner n = false ∧
        f.simulated.has n.root = false := by
  simp [Flow.mismatches]

theorem compareFlow_of_events {tokens : List String} {f : Flow}
    (hproducer : f.producer.targetEvent = f.consumer.event)
    (hsimulated : f.simulated.event = f.consumer.event) :
    compareFlow tokens f =
      .ok (f.missingProperties.map (f.missing tokens) ++
        f.mismatches.map (f.mismatch tokens)) := by
  simp [compareFlow, hproducer, hsimulated]

theorem compareFlow_error_iff (tokens : List String) (f : Flow) :
    (exists e, compareFlow tokens f = .error e) <->
      ¬ (f.producer.targetEvent = f.simulated.event ∧
        f.simulated.event = f.consumer.event) := by
  by_cases hsimulated : f.simulated.event = f.consumer.event
  · by_cases hproducer : f.producer.targetEvent = f.consumer.event
    · rw [compareFlow_of_events hproducer hsimulated]
      simp [hproducer, hsimulated]
    · simp [compareFlow, hproducer, hsimulated]
  · simp [compareFlow, hsimulated]

theorem missingProperties_simulate {p : ProducerContract} {ts : List BrokerTransformation}
    {chosen : Option BrokerTransformation}
    (hchosen : Simulation.Chosen p.targetEvent ts chosen) (c : ConsumerContract) :
    (Flow.mk p (simulate p ts) c).missingProperties =
      c.requiredProperties.filter fun r =>
        r.isNested = false ∧ r.name ∉ Simulation.arriving p chosen := by
  apply List.filter_congr
  intro r _hr
  rw [Bool.eq_iff_iff, decide_eq_true_eq, ← Simulation.has_simulate_iff hchosen r.name]
  simp

theorem mismatches_simulate {p : ProducerContract} {ts : List BrokerTransformation}
    {chosen : Option BrokerTransformation}
    (hchosen : Simulation.Chosen p.targetEvent ts chosen) (c : ConsumerContract) :
    (Flow.mk p (simulate p ts) c).mismatches =
      c.nestedProperties.filter fun n =>
        IsDeepest c n ∧ n.root ∉ Simulation.arriving p chosen := by
  apply List.filter_congr
  intro n _hn
  rw [Bool.eq_iff_iff, decide_eq_true_eq, ← Simulation.has_simulate_iff hchosen n.root,
    ← isInner_eq_false_iff (Flow.mk p (simulate p ts) c) n]
  simp

/-- The findings about a handler and a producer of its event are one critical
finding for each required property that is not only read through a deeper path
and does not arrive, and then one finding for each deepest path whose first
property does not arrive.  A comparison is refused exactly if the three events
are not all the same. -/
theorem compareFlow_simulate_exact (tokens : List String) (p : ProducerContract)
    (ts : List BrokerTransformation) (c : ConsumerContract) :
    (c.event = p.targetEvent ->
      exists chosen, Simulation.Chosen p.targetEvent ts chosen ∧
        (forall other, Simulation.Chosen p.targetEvent ts other -> other = chosen) ∧
        exists found, compareFlow tokens ⟨p, simulate p ts, c⟩ = .ok found ∧
          found.map Finding.gist =
            (c.requiredProperties.filter fun r =>
              r.isNested = false ∧ r.name ∉ Simulation.arriving p chosen).map (missingGist c) ++
            (c.nestedProperties.filter fun n =>
              IsDeepest c n ∧ n.root ∉ Simulation.arriving p chosen).map (mismatchGist c)) ∧
    (forall s : SimulatedContract,
      (exists e, compareFlow tokens ⟨p, s, c⟩ = .error e) <->
        ¬ (p.targetEvent = s.event ∧ s.event = c.event)) := by
  constructor
  · intro hevent
    have hchosen := Simulation.resolve_chosen p.targetEvent ts
    refine ⟨_, hchosen, fun other hother => Simulation.chosen_unique hchosen hother, _,
      compareFlow_of_events hevent.symm hevent.symm, ?_⟩
    rw [missingProperties_simulate hchosen, mismatches_simulate hchosen, List.map_append,
      List.map_map, List.map_map]
    rfl
  · intro s
    exact compareFlow_error_iff tokens ⟨p, s, c⟩

def dropSender : ProducerContract :=
  ⟨"startDrop", "drop", "drop", [],
    [⟨"elementId", .parameter, none, "elementId", 2⟩,
      ⟨"rawPointerEvent", .parameter, none, "rawPointerEvent", 2⟩], "flows/drop.js", 1⟩

def dropBranches : List BrokerTransformation :=
  [⟨"*", false, none, [], ["ts"], [], "broker.js", 9⟩,
    ⟨"drop", true, none, [("zoneId", "z")], ["elementId"], [], "broker.js", 3⟩]

/-- Reads a property that gets lost and a path into an object that is never sent. -/
def dropHandler : ConsumerContract :=
  ⟨"handleDrop", "drop", "handleDrop",
    [⟨"rawPointerEvent", false, none, 2⟩, ⟨"zoneId", false, none, 3⟩,
      ⟨"context", true, some "context.meta.owner", 4⟩], [],
    [⟨"context", "meta", true, 4⟩, ⟨"context.meta", "owner", true, 4⟩,
      ⟨"zoneId", "x", true, 5⟩], "handlers/drop.js", 1⟩

theorem compareFlow_simulate_drop :
    dropHandler.event = dropSender.targetEvent ∧
      exists found,
        compareFlow [] ⟨dropSender, simulate dropSender dropBranches, dropHandler⟩ = .ok found ∧
        found.map Finding.gist =
          [⟨.missingProperty, .critical, "drop", "rawPointerEvent", "handlers/drop.js", 2⟩,
            ⟨.nestedMismatch, .error, "drop", "context.meta.owner", "handlers/drop.js", 4⟩] := by
  have hevent : dropHandler.event = dropSender.targetEvent := rfl
  rcases (compareFlow_simulate_exact [] dropSender dropBranches dropHandler).1 hevent with
    ⟨chosen, _, hunique, found, hfound, hgist⟩
  refine ⟨hevent, found, hfound, ?_⟩
  rw [hgist, ← hunique _ (Simulation.resolve_chosen _ _)]
  decide

end Comparison
end PayloadFlow
