import Mathlib.Data.List.Find
import Mathlib.Data.List.Nodup
import PayloadFlow.Proofs.Preparation.Branches

/-!
# The table of a broker

The transformations of a routine are for different events, with the fall-through behind all
others, and each lists its properties in good order.  An event is therefore prepared in the
same way whatever the order of the table.
-/

namespace PayloadFlow
namespace Broker

open Script

/-!
# Shapes

A shape writes every property once, since a later value takes the place of an earlier one.
-/

namespace Shape

def Distinct (s : Shape) : Prop :=
  (Listing.keys s.entries).Nodup

theorem nodup_keys_setEntry (name value : String) {entries : List (String × String)}
    (hentries : (Listing.keys entries).Nodup) :
    (Listing.keys (setEntry name value entries)).Nodup := by
  induction entries with
  | nil =>
      exact List.pairwise_singleton _ _
  | cons entry rest ih =>
      rw [Listing.keys_cons, List.nodup_cons] at hentries
      unfold setEntry
      split
      · rename_i hname
        rw [Listing.keys_cons, List.nodup_cons, ← beq_iff_eq.mp hname]
        exact hentries
      · rename_i hname
        rw [Listing.keys_cons, List.nodup_cons, mem_keys_setEntry]
        constructor
        · intro hmem
          rcases hmem with hsame | hrest
          · exact hname (beq_iff_eq.mpr hsame)
          · exact hentries.1 hrest
        · exact ih hentries.2

theorem distinct_empty : Distinct {} :=
  List.nodup_nil

theorem Distinct.set {s : Shape} (h : s.Distinct) (name value : String) :
    (s.set name value).Distinct :=
  nodup_keys_setEntry name value h

theorem Distinct.spread {s : Shape} (h : s.Distinct) : s.spread.Distinct :=
  h

theorem Distinct.addEntry {onSpread : Node -> Shape -> Shape}
    (hspread : forall n s, Distinct s -> (onSpread n s).Distinct) {s : Shape} (h : s.Distinct)
    (entry : ObjectEntry) : (Shape.addEntry onSpread s entry).Distinct := by
  cases entry with
  | pair key value line =>
      exact h.set key value.text
  | shorthand name line =>
      exact h.set name name
  | method name line =>
      exact h.set name ""
  | spread argument line =>
      exact hspread argument s h

theorem Distinct.addObject {onSpread : Node -> Shape -> Shape}
    (hspread : forall n s, Distinct s -> (onSpread n s).Distinct) (object : Node) {s : Shape}
    (h : s.Distinct) : (s.addObject onSpread object).Distinct := by
  unfold Shape.addObject
  induction object.objectEntries generalizing s with
  | nil =>
      exact h
  | cons entry rest ih =>
      exact ih (h.addEntry hspread entry)

end Shape

namespace Routine

variable {r : Routine} {scope : Scope} {s : Shape}

theorem distinct_mergeSource (depth : Nat) (source : Node) (s : Shape) (h : s.Distinct) :
    (r.mergeSource scope depth source s).Distinct := by
  -- A variable takes two levels at once, so the depth before the last one is needed as well.
  induction depth using Nat.strong_induction_on generalizing source s with
  | h depth ih =>
      cases depth with
      | zero =>
          exact h.spread
      | succ depth =>
          unfold mergeSource
          dsimp only
          split
          · exact h.addObject (ih depth (Nat.lt_succ_self depth)) _
          · split
            · split
              · exact h.addObject (fun _ _ hs => hs.spread) _
              · rename_i depth
                exact h.addObject (ih depth (by omega)) _
            · exact h.spread
          · exact h.spread

theorem distinct_addAssignments (statements : List Node) (name : String) {s : Shape}
    (h : s.Distinct) : (addAssignments statements name s).Distinct := by
  unfold addAssignments
  induction statements generalizing s with
  | nil =>
      exact h
  | cons statement rest ih =>
      apply ih
      refine walk_keeps ?_ h statement
      intro shape c hshape
      split
      · exact hshape.set _ _
      · exact hshape

theorem distinct_foldl_mergeSource (depth : Nat) (arguments : List Node) {s : Shape}
    (h : s.Distinct) :
    (arguments.foldl (fun s a => r.mergeSource scope depth a s) s).Distinct := by
  induction arguments generalizing s with
  | nil =>
      exact h
  | cons argument rest ih =>
      exact ih (distinct_mergeSource depth argument s h)

theorem distinct_of_shapeOf? {depth : Nat} {expression : Node} {s : Shape}
    (h : r.shapeOf? scope depth expression = some s) : s.Distinct := by
  induction depth generalizing expression s with
  | zero =>
      cases h
  | succ depth ih =>
      unfold shapeOf? at h
      dsimp only at h
      split at h
      · cases h
        exact Shape.distinct_empty.addObject (distinct_mergeSource depth) _
      · split at h
        · cases h
          exact distinct_addAssignments _ _ Shape.distinct_empty.spread
        · rcases Option.bind_eq_some_iff.mp h with ⟨value, _, hvalue⟩
          rcases Option.bind_eq_some_iff.mp hvalue with ⟨shape, hshape, hassigned⟩
          cases hassigned
          exact distinct_addAssignments _ _ (ih hshape)
      · split at h
        · cases h
          exact distinct_foldl_mergeSource depth _ Shape.distinct_empty
        · cases h
      · cases h

theorem distinct_of_returnShape? {ret : Node} {s : Shape}
    (h : r.returnShape? scope ret = some s) : s.Distinct := by
  rcases Option.bind_eq_some_iff.mp h with ⟨value, _, hvalue⟩
  exact distinct_of_shapeOf? hvalue

theorem distinct_of_scopeShape? {s : Shape} (h : r.scopeShape? scope = some s) : s.Distinct := by
  rcases Option.bind_eq_some_iff.mp h with ⟨ret, _, hret⟩
  exact distinct_of_returnShape? hret

end Routine

/-!
# Entries of the table
-/

structure IsOrderly (t : BrokerTransformation) : Prop where
  condition : t.condition = none <-> t.event = "*"
  added_nodup : t.addedProperties.Nodup
  added_mapped : t.addedProperties ⊆ t.mappedNames
  mapped_added : t.isSpecialCased = false -> t.mappedNames ⊆ t.addedProperties
  removed : t.removedProperties.Pairwise (· < ·)

namespace Routine

variable {r : Routine} {b : Branches}

theorem isOrderly_transformation (r : Routine) {event : String} {condition : Option String}
    (hcondition : condition = none <-> event = "*") {shape : Shape} (hshape : shape.Distinct)
    {removed : List String} (hremoved : removed.Pairwise (· < ·)) (line : Nat) :
    IsOrderly (r.transformation event condition shape removed line) := by
  have hmapped : forall k, k ∈ (r.transformation event condition shape removed line).mappedNames <->
      k ∈ Listing.keys shape.entries := by
    intro k
    have hkeys := mem_keys_foldl_insert shape.entries [] k
    rw [Listing.keys_nil, or_iff_left List.not_mem_nil] at hkeys
    exact hkeys
  constructor
  · exact hcondition
  · exact hshape.sublist (List.filter_sublist.map _)
  · intro k hk
    rcases List.mem_map.mp hk with ⟨entry, hentry, rfl⟩
    exact (hmapped _).mpr (List.mem_map_of_mem (List.mem_filter.mp hentry).1)
  · intro hspecial k hk
    have hspread : shape.hasSpread = true := by simpa [transformation] using hspecial
    have hkey := (hmapped k).mp hk
    simpa [transformation, hspread, Listing.keys] using hkey
  · exact hremoved

theorem isOrderly_guarded {scope : Scope} {shape : Shape}
    (hshape : r.scopeShape? scope = some shape) (event condition : String) (line : Nat) :
    IsOrderly (r.transformation (EventName.normalize event) (some condition) shape
      (r.removedIn scope) line) := by
  apply r.isOrderly_transformation
  · exact iff_of_false (Option.some_ne_none _) (EventName.normalize_ne_star event)
  · exact distinct_of_scopeShape? hshape
  · exact Listing.pairwise_sortedNames _

theorem isOrderly_of_fallbackOf? {scope : Scope} {line : Nat} {t : BrokerTransformation}
    (ht : r.fallbackOf? scope line = some t) : IsOrderly t := by
  rcases Option.map_eq_some_iff.mp ht with ⟨shape, hshape, rfl⟩
  apply r.isOrderly_transformation
  · exact iff_of_true rfl rfl
  · exact distinct_of_scopeShape? hshape
  · exact Listing.pairwise_sortedNames _

theorem isOrderly_of_finalReturn? {t : BrokerTransformation} (ht : r.finalReturn? = some t) :
    IsOrderly t := by
  rcases Option.bind_eq_some_iff.mp ht with ⟨ret, _, hret⟩
  rcases Option.bind_eq_some_iff.mp hret with ⟨shape, hshape, hreturn⟩
  cases hreturn
  apply r.isOrderly_transformation
  · exact iff_of_true rfl rfl
  · exact distinct_of_returnShape? hshape
  · exact Listing.pairwise_sortedNames _

end Routine

/-- Branches whose transformations are orderly, with special cases for different events. -/
structure Branches.IsTable (b : Branches) : Prop where
  events : (b.special.map (·.event)).Nodup
  special : forall t, t ∈ b.special -> IsOrderly t
  fallback : forall t, t ∈ b.fallback -> IsOrderly t

theorem nodup_events_push {b : Branches} (hb : (b.special.map (·.event)).Nodup)
    (t : BrokerTransformation) : ((b.push t).special.map (·.event)).Nodup := by
  unfold Branches.push
  split
  · exact hb
  · rename_i hnone
    rw [List.map_append, List.nodup_append]
    refine ⟨hb, List.pairwise_singleton _ _, ?_⟩
    intro event hevent other hother heq
    rcases List.mem_map.mp hevent with ⟨u, hu, rfl⟩
    have hother : other = t.event := by simpa using hother
    exact hnone (List.any_eq_true.mpr ⟨u, hu, beq_iff_eq.mpr (heq.trans hother)⟩)

namespace Routine

variable {r : Routine} {b : Branches}

theorem Grown.isTable (h : r.Grown b) : b.IsTable := by
  induction h with
  | start =>
      constructor
      · exact List.nodup_nil
      · intro t ht
        cases ht
      · intro t ht
        cases ht
  | push event condition line hshape _ ih =>
      constructor
      · exact nodup_events_push ih.events _
      · intro t ht
        rcases mem_special_push ht with hold | hnew
        · exact ih.special t hold
        · rw [hnew]
          exact isOrderly_guarded hshape event condition line
      · rw [fallback_push]
        exact ih.fallback
  | orFallback scope line _ ih =>
      constructor
      · exact ih.events
      · exact ih.special
      · intro t ht
        rcases Option.or_eq_some_iff.mp ht with hold | ⟨_, hnew⟩
        · exact ih.fallback t hold
        · exact isOrderly_of_fallbackOf? hnew

theorem isOrderly_of_fallThrough? {t : BrokerTransformation} (ht : t ∈ r.fallThrough?) :
    IsOrderly t := by
  rcases Option.or_eq_some_iff.mp ht with hfinal | ⟨_, hfallback⟩
  · exact isOrderly_of_finalReturn? hfinal
  · exact r.grown_branches.isTable.fallback t hfallback

end Routine

/-!
# Tables
-/

/-- Transformations that are orderly and for different events, only the last of them a
fall-through. -/
structure Unambiguous (ts : List BrokerTransformation) : Prop where
  events : (ts.map (·.event)).Nodup
  before_last : forall t, t ∈ ts.dropLast -> t.event ≠ "*"
  entries : forall t, t ∈ ts -> IsOrderly t

/-- Special cases followed by a fall-through make an unambiguous table. -/
theorem unambiguous_append {special : List BrokerTransformation}
    {last : Option BrokerTransformation} (hevents : (special.map (·.event)).Nodup)
    (hspecial : forall t, t ∈ special -> t.event ≠ "*" ∧ IsOrderly t)
    (hlast : forall t, t ∈ last -> t.event = "*" ∧ IsOrderly t) :
    Unambiguous (special ++ last.toList) := by
  constructor
  · rw [List.map_append, List.nodup_append]
    refine ⟨hevents, ?_, ?_⟩
    · cases last with
      | none =>
          exact List.nodup_nil
      | some t =>
          exact List.pairwise_singleton _ _
    · intro event hevent other hother heq
      rcases List.mem_map.mp hevent with ⟨t, ht, rfl⟩
      rcases List.mem_map.mp hother with ⟨u, hu, rfl⟩
      exact (hspecial t ht).1 (heq.trans (hlast u (Option.mem_toList.mp hu)).1)
  · intro t ht
    apply (hspecial t _).1
    cases last with
    | none =>
        rw [Option.toList_none, List.append_nil] at ht
        exact (List.dropLast_sublist special).subset ht
    | some u =>
        rw [Option.toList_some, List.dropLast_concat] at ht
        exact ht
  · intro t ht
    rcases List.mem_append.mp ht with hmem | hmem
    · exact (hspecial t hmem).2
    · exact (hlast t (Option.mem_toList.mp hmem)).2

theorem Routine.unambiguous_transformations (r : Routine) : Unambiguous r.transformations := by
  by_cases hblock : r.body.kind = .statementBlock
  · have htable := r.grown_branches.isTable
    rw [Routine.transformations_of_block hblock]
    apply unambiguous_append htable.events
    · intro t ht
      exact ⟨r.sorted_branches.special t ht, htable.special t ht⟩
    · intro t ht
      exact ⟨Routine.event_of_fallThrough? ht, Routine.isOrderly_of_fallThrough? ht⟩
  · unfold Routine.transformations
    rw [if_neg (by simpa using hblock)]
    rw [← List.nil_append (Option.toList _)]
    refine unambiguous_append List.nodup_nil (by simp) ?_
    intro t ht
    rcases Option.map_eq_some_iff.mp ht with ⟨shape, hshape, rfl⟩
    refine ⟨rfl, ?_⟩
    apply r.isOrderly_transformation
    · exact iff_of_true rfl rfl
    · exact Routine.distinct_of_shapeOf? hshape
    · exact List.Pairwise.nil

/-!
# Any order
-/

theorem eq_of_event_eq {ts : List BrokerTransformation} (hevents : (ts.map (·.event)).Nodup)
    {t u : BrokerTransformation} (ht : t ∈ ts) (hu : u ∈ ts) (heq : t.event = u.event) : t = u :=
  List.inj_on_of_nodup_map hevents ht hu heq

/-- Of transformations for different events the same one applies in any order. -/
theorem resolve_of_perm {ts others : List BrokerTransformation}
    (hevents : (ts.map (·.event)).Nodup) (hperm : others.Perm ts) (event : String) :
    Simulation.resolve event others = Simulation.resolve event ts := by
  have hspecial : ts.find? (fun t => !t.isDefault && t.event == event) =
      others.find? fun t => !t.isDefault && t.event == event := by
    apply List.find?_eq_find?_of_perm hperm.symm
    intro t ht u hu
    have htevent := ((Simulation.isSpecialFor_iff event t).mp ht.2).1
    have huevent := ((Simulation.isSpecialFor_iff event u).mp hu.2).1
    exact eq_of_event_eq hevents ht.1 hu.1 (htevent.trans huevent.symm)
  have hdefault : ts.find? (·.isDefault) = others.find? (·.isDefault) := by
    apply List.find?_eq_find?_of_perm hperm.symm
    intro t ht u hu
    have htevent := (Simulation.isDefault_iff t).mp ht.2
    have huevent := (Simulation.isDefault_iff u).mp hu.2
    exact eq_of_event_eq hevents ht.1 hu.1 (htevent.trans huevent.symm)
  unfold Simulation.resolve
  rw [hspecial, hdefault]

theorem simulate_of_perm {ts others : List BrokerTransformation}
    (hevents : (ts.map (·.event)).Nodup) (hperm : others.Perm ts) (p : ProducerContract) :
    simulate p others = simulate p ts := by
  unfold simulate
  rw [resolve_of_perm hevents hperm]

/-- The transformations of a source are an unambiguous table, and a payload comes out the
same in whatever order they stand. -/
theorem contracts_unambiguous (prepareFunctions generators : List String) (path : String)
    (program : Node) :
    Unambiguous (contracts prepareFunctions generators path program) ∧
      forall others, others.Perm (contracts prepareFunctions generators path program) ->
        forall p, simulate p others =
          simulate p (contracts prepareFunctions generators path program) := by
  have htable : Unambiguous (contracts prepareFunctions generators path program) := by
    unfold contracts
    cases routine? prepareFunctions generators path program with
    | none =>
        show Unambiguous ([] ++ Option.toList none)
        exact unambiguous_append List.nodup_nil (by simp) (by simp)
    | some r =>
        exact r.unambiguous_transformations
  constructor
  · exact htable
  · intro others hperm p
    exact simulate_of_perm htable.events hperm p

end Broker
end PayloadFlow
