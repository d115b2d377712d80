import PayloadFlow.Proofs.Listing
import PayloadFlow.Simulation

/-!
# What arrives at a handler

The transformation that applies to an event, told by its place in the list, and
the names that a payload has after it.
-/

namespace PayloadFlow
namespace Simulation

/-!
# The transformation of an event
-/

/-- The transformation that applies to an event: the first one for just this
event, else the first fall-through, else none. -/
inductive Chosen (event : String) (ts : List BrokerTransformation) :
    Option BrokerTransformation -> Prop where
  | special {before after : List BrokerTransformation} {t : BrokerTransformation} :
      ts = before ++ t :: after ->
      t.event = event ->
      event ≠ "*" ->
      (forall u, u ∈ before -> u.event ≠ event) ->
      Chosen event ts (some t)
  | fallThrough {before after : List BrokerTransformation} {t : BrokerTransformation} :
      ts = before ++ t :: after ->
      t.event = "*" ->
      (forall u, u ∈ before -> u.event ≠ "*") ->
      (forall u, u ∈ ts -> u.event = event -> u.event = "*") ->
      Chosen event ts (some t)
  | absent :
      (forall u, u ∈ ts -> u.event ≠ event) ->
      (forall u, u ∈ ts -> u.event ≠ "*") ->
      Chosen event ts none

theorem isDefault_iff (t : BrokerTransformation) : t.isDefault = true <-> t.event = "*" := by
  simp [BrokerTransformation.isDefault, defaultEvent]

theorem isSpecialFor_iff (event : String) (t : BrokerTransformation) :
    (!t.isDefault && t.event == event) = true <-> t.event = event ∧ event ≠ "*" := by
  rw [Bool.and_eq_true, Bool.not_eq_true', Bool.eq_false_iff, Ne, isDefault_iff, beq_iff_eq]
  constructor
  · rintro ⟨hdefault, hevent⟩
    exact ⟨hevent, hevent ▸ hdefault⟩
  · rintro ⟨hevent, hdefault⟩
    exact ⟨hevent ▸ hdefault, hevent⟩

theorem resolve_chosen (event : String) (ts : List BrokerTransformation) :
    Chosen event ts (resolve event ts) := by
  unfold resolve
  cases hspecial : ts.find? fun t => !t.isDefault && t.event == event with
  | some t =>
      rcases List.find?_eq_some_iff_append.mp hspecial with ⟨ht, before, after, hts, hbefore⟩
      rcases (isSpecialFor_iff event t).mp ht with ⟨hevent, hdefault⟩
      refine Chosen.special hts hevent hdefault ?_
      intro u hu huevent
      have hnot := hbefore u hu
      rw [(isSpecialFor_iff event u).mpr ⟨huevent, hdefault⟩] at hnot
      cases hnot
  | none =>
      have hnone : forall u, u ∈ ts -> u.event = event -> u.event = "*" := by
        intro u hu huevent
        by_cases hustar : u.event = "*"
        · exact hustar
        · cases List.find?_eq_none.mp hspecial u hu
            ((isSpecialFor_iff event u).mpr ⟨huevent, huevent ▸ hustar⟩)
      rw [Option.none_or]
      cases hdefault : ts.find? (·.isDefault) with
      | some t =>
          rcases List.find?_eq_some_iff_append.mp hdefault with ⟨ht, before, after, hts, hbefore⟩
          refine Chosen.fallThrough hts ((isDefault_iff t).mp ht) ?_ hnone
          intro u hu hustar
          have hnot := hbefore u hu
          rw [(isDefault_iff u).mpr hustar] at hnot
          cases hnot
      | none =>
          have hstar : forall u, u ∈ ts -> u.event ≠ "*" := by
            intro u hu hustar
            exact List.find?_eq_none.mp hdefault u hu ((isDefault_iff u).mpr hustar)
          exact Chosen.absent (fun u hu huevent => hstar u hu (hnone u hu huevent)) hstar

theorem first_unique {α : Type} {P : α -> Prop} {before before' after after' : List α}
    {a a' : α} (hsplit : before ++ a :: after = before' ++ a' :: after')
    (ha : P a) (ha' : P a') (hbefore : forall u, u ∈ before -> ¬ P u)
    (hbefore' : forall u, u ∈ before' -> ¬ P u) : a = a' := by
  induction before generalizing before' with
  | nil =>
      cases before' with
      | nil =>
          exact (List.cons.inj hsplit).1
      | cons u rest =>
          have hu : a = u := (List.cons.inj hsplit).1
          exact absurd (hu ▸ ha) (hbefore' u List.mem_cons_self)
  | cons u rest ih =>
      cases before' with
      | nil =>
          have hu : u = a' := (List.cons.inj hsplit).1
          exact absurd (hu ▸ ha') (hbefore u List.mem_cons_self)
      | cons u' rest' =>
          exact ih (List.cons.inj hsplit).2
            (fun v hv => hbefore v (List.mem_cons_of_mem u hv))
            (fun v hv => hbefore' v (List.mem_cons_of_mem u' hv))

theorem chosen_unique {event : String} {ts : List BrokerTransformation}
    {chosen other : Option BrokerTransformation}
    (hchosen : Chosen event ts chosen) (hother : Chosen event ts other) :
    other = chosen := by
  cases hchosen with
  | special hts hevent hdefault hbefore =>
      rename_i before after t
      have ht : t ∈ ts := by simp [hts]
      cases hother with
      | special hts' hevent' _ hbefore' =>
          rw [first_unique (P := fun u => u.event = event) (hts.symm.trans hts') hevent hevent'
            hbefore hbefore']
      | fallThrough _ _ _ hspecial =>
          exact absurd (hevent ▸ hspecial t ht hevent) hdefault
      | absent hspecial _ =>
          exact absurd hevent (hspecial t ht)
  | fallThrough hts hstar hbefore hspecial =>
      rename_i before after t
      have ht : t ∈ ts := by simp [hts]
      cases hother with
      | special hts' hevent' hdefault' _hbefore' =>
          rename_i before' after' t'
          exact absurd (hevent' ▸ hspecial t' (by simp [hts']) hevent') hdefault'
      | fallThrough hts' hstar' hbefore' _ =>
          rw [first_unique (P := fun u => u.event = "*") (hts.symm.trans hts') hstar hstar'
            hbefore hbefore']
      | absent _ hstar' =>
          exact absurd hstar (hstar' t ht)
  | absent hspecial hdefault =>
      cases hother with
      | special hts' hevent' _ _ =>
          exact absurd hevent' (hspecial _ (by simp [hts']))
      | fallThrough hts' hstar' _ _ =>
          exact absurd hstar' (hdefault _ (by simp [hts']))
      | absent _ _ =>
          rfl

/-!
# The names that arrive
-/

def arriving (p : ProducerContract) : Option BrokerTransformation -> List String
  | none => p.propertyNames
  | some t =>
      (if t.isSpecialCased then t.mappedNames else p.propertyNames) ++ t.addedProperties

theorem mem_keys_withOrigin (origin : PropertyOrigin) (names : List String)
    (table : List (String × PropertyOrigin)) (k : String) :
    k ∈ Listing.keys (withOrigin origin names table) <->
      k ∈ names ∨ k ∈ Listing.keys table := by
  induction names generalizing table with
  | nil =>
      simp [withOrigin]
  | cons name rest ih =>
      have hrest := ih (Listing.insert name origin table)
      rw [Listing.mem_keys_insert] at hrest
      rw [List.mem_cons, or_assoc, or_left_comm]
      exact hrest

theorem mem_keys_properties (p : ProducerContract) (chosen : Option BrokerTransformation)
    (k : String) :
    k ∈ Listing.keys (properties p chosen) <-> k ∈ arriving p chosen := by
  cases chosen with
  | none =>
      simp [properties, arriving, mem_keys_withOrigin]
  | some t =>
      cases hspecial : t.isSpecialCased with
      | true =>
          simp [properties, arriving, mem_keys_withOrigin, hspecial, or_comm]
      | false =>
          simp [properties, arriving, mem_keys_withOrigin, hspecial, or_comm]

/-- A simulated payload has exactly the names that arrive. -/
theorem has_simulate_iff {p : ProducerContract} {ts : List BrokerTransformation}
    {chosen : Option BrokerTransformation} (hchosen : Chosen p.targetEvent ts chosen)
    (name : String) :
    (simulate p ts).has name = true <-> name ∈ arriving p chosen := by
  have hresolve := chosen_unique hchosen (resolve_chosen p.targetEvent ts)
  unfold SimulatedContract.has
  rw [Listing.any_key_iff]
  show name ∈ Listing.keys (properties p (resolve p.targetEvent ts)) <-> _
  rw [hresolve, mem_keys_properties]

end Simulation
end PayloadFlow
