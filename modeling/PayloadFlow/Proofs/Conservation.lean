import Mathlib.Logic.Basic
import PayloadFlow.Proofs.Simulation

/-!
# Conservation of properties

Whatever a producer sends either arrives or is listed as dropped, and never both.
A property that arrives tells where it comes from: the broker adds it, or a branch that
keeps only what it mentions maps it, or it is what the producer sent.
-/

namespace PayloadFlow
namespace Simulation

/-!
# Names of a transformation
-/

def addedNames (chosen : Option BrokerTransformation) : List String :=
  (chosen.map (·.addedProperties)).getD []

def mappedNames (chosen : Option BrokerTransformation) : List String :=
  (chosen.map (·.mappedNames)).getD []

def originOf (chosen : Option BrokerTransformation) (exclusionary : Bool) (name : String) :
    PropertyOrigin :=
  if name ∈ addedNames chosen then .added else if exclusionary then .mapping else .producer

/-- Nothing that was sent vanishes, and nothing arrives without an origin. -/
structure Conserves (p : ProducerContract) (chosen : Option BrokerTransformation)
    (s : SimulatedContract) : Prop where
  exclusionary : s.applied.isExclusionary = chosen.any (·.isSpecialCased)
  sorted : (Listing.keys s.properties).Pairwise (· < ·)
  arrives : forall name, name ∈ Listing.keys s.properties <-> name ∈ arriving p chosen
  parted : forall name, name ∈ p.propertyNames ->
    Xor (name ∈ Listing.keys s.properties) (name ∈ s.dropped)
  dropped_nodup : s.dropped.Nodup
  dropped_ordered : Listing.InOrderOf p.propertyNames s.dropped
  dropped_sent : forall name, name ∈ s.dropped -> name ∈ p.propertyNames
  dropped_nil : s.applied.isExclusionary = false -> s.dropped = []
  origin : forall name origin, (name, origin) ∈ s.properties ->
    origin = originOf chosen s.applied.isExclusionary name
  mapped : forall name, (name, .mapping) ∈ s.properties -> name ∈ mappedNames chosen
  sent : forall name, (name, .producer) ∈ s.properties -> name ∈ p.propertyNames

/-!
# What arrives
-/

theorem find?_withOrigin (origin : PropertyOrigin) (names : List String)
    (table : List (String × PropertyOrigin)) (k : String) :
    Listing.find? k (withOrigin origin names table) =
      if k ∈ names then some origin else Listing.find? k table := by
  induction names generalizing table with
  | nil =>
      rfl
  | cons name rest ih =>
      have hrest := ih (Listing.insert name origin table)
      rw [Listing.find?_insert] at hrest
      refine hrest.trans ?_
      by_cases hk : name = k
      · rw [if_pos hk, ite_self, if_pos (hk ▸ List.mem_cons_self)]
      · rw [if_neg hk]
        simp only [List.mem_cons, Ne.symm hk, false_or]

theorem pairwise_withOrigin (origin : PropertyOrigin) (names : List String)
    {table : List (String × PropertyOrigin)} (htable : (Listing.keys table).Pairwise (· < ·)) :
    (Listing.keys (withOrigin origin names table)).Pairwise (· < ·) := by
  induction names generalizing table with
  | nil =>
      exact htable
  | cons name rest ih =>
      exact ih (Listing.pairwise_insert name origin htable)

theorem pairwise_properties (p : ProducerContract) (chosen : Option BrokerTransformation) :
    (Listing.keys (properties p chosen)).Pairwise (· < ·) := by
  cases chosen with
  | none =>
      exact pairwise_withOrigin .producer p.propertyNames List.Pairwise.nil
  | some t =>
      unfold properties
      dsimp only
      apply pairwise_withOrigin
      split
      · exact pairwise_withOrigin .mapping t.mappedNames List.Pairwise.nil
      · exact pairwise_withOrigin .producer p.propertyNames List.Pairwise.nil

theorem isExclusionary_applied (chosen : Option BrokerTransformation) :
    (applied chosen).isExclusionary = chosen.any (·.isSpecialCased) := by
  cases chosen with
  | none =>
      rfl
  | some t =>
      unfold applied
      dsimp only
      split
      · rfl
      · rfl

/-- An added name is looked for first, then what the branch keeps. -/
theorem find?_properties (p : ProducerContract) (chosen : Option BrokerTransformation)
    (k : String) :
    Listing.find? k (properties p chosen) =
      if k ∈ addedNames chosen then some .added
      else if chosen.any (·.isSpecialCased) then
        if k ∈ mappedNames chosen then some .mapping else none
      else if k ∈ p.propertyNames then some .producer else none := by
  cases chosen with
  | none =>
      exact find?_withOrigin .producer p.propertyNames [] k
  | some t =>
      have hany : (some t).any (·.isSpecialCased) = t.isSpecialCased := rfl
      unfold properties
      dsimp only
      rw [find?_withOrigin, hany]
      cases t.isSpecialCased with
      | true =>
          rw [if_pos rfl, if_pos rfl, find?_withOrigin]
          rfl
      | false =>
          rw [if_neg Bool.false_ne_true, if_neg Bool.false_ne_true, find?_withOrigin]
          rfl

/-- A property that arrives has the origin of its name, and is mapped or sent if its origin
says so. -/
theorem origin_of_mem_properties {p : ProducerContract} {chosen : Option BrokerTransformation}
    {name : String} {origin : PropertyOrigin} (hmem : (name, origin) ∈ properties p chosen) :
    origin = originOf chosen (applied chosen).isExclusionary name ∧
      (origin = .mapping -> name ∈ mappedNames chosen) ∧
      (origin = .producer -> name ∈ p.propertyNames) := by
  have hnodup : (Listing.keys (properties p chosen)).Nodup :=
    (pairwise_properties p chosen).imp fun h => ne_of_lt h
  have hfind := (Listing.find?_eq_some_iff_mem hnodup name origin).mpr hmem
  rw [find?_properties] at hfind
  rw [isExclusionary_applied]
  unfold originOf
  by_cases hadded : name ∈ addedNames chosen
  · rw [if_pos hadded] at hfind ⊢
    cases hfind
    exact ⟨rfl, PropertyOrigin.noConfusion, PropertyOrigin.noConfusion⟩
  · rw [if_neg hadded] at hfind ⊢
    by_cases hspecial : chosen.any (·.isSpecialCased) = true
    · rw [if_pos hspecial] at hfind ⊢
      by_cases hmapped : name ∈ mappedNames chosen
      · rw [if_pos hmapped] at hfind
        cases hfind
        exact ⟨rfl, fun _ => hmapped, PropertyOrigin.noConfusion⟩
      · rw [if_neg hmapped] at hfind
        cases hfind
    · rw [if_neg hspecial] at hfind ⊢
      by_cases hsent : name ∈ p.propertyNames
      · rw [if_pos hsent] at hfind
        cases hfind
        exact ⟨rfl, PropertyOrigin.noConfusion, fun _ => hsent⟩
      · rw [if_neg hsent] at hfind
        cases hfind

/-!
# What is dropped
-/

/-- The names that are dropped are those that are sent and do not arrive. -/
theorem mem_dropped_iff (p : ProducerContract) (chosen : Option BrokerTransformation)
    (name : String) :
    name ∈ dropped p chosen <-> name ∈ p.propertyNames ∧ name ∉ arriving p chosen := by
  cases chosen with
  | none =>
      simp [dropped, arriving]
  | some t =>
      cases hspecial : t.isSpecialCased with
      | true =>
          simp [dropped, arriving, hspecial, Listing.mem_distinctBy_self]
      | false =>
          have hsent : name ∈ p.propertyNames -> name ∈ arriving p (some t) := by
            intro hname
            simp [arriving, hspecial, hname]
          simpa [dropped, hspecial] using hsent

theorem inOrderOf_dropped (p : ProducerContract) (chosen : Option BrokerTransformation) :
    Listing.InOrderOf p.propertyNames (dropped p chosen) := by
  cases chosen with
  | none =>
      exact List.Pairwise.nil
  | some t =>
      unfold dropped
      dsimp only
      split
      · rw [Listing.distinctBy_filter]
        exact (Listing.inOrderOf_distinctBy p.propertyNames).filter _
      · exact List.Pairwise.nil

theorem dropped_eq_nil {chosen : Option BrokerTransformation}
    (hkept : chosen.any (·.isSpecialCased) = false) (p : ProducerContract) :
    dropped p chosen = [] := by
  cases chosen with
  | none =>
      rfl
  | some t =>
      have hspecial : t.isSpecialCased = false := hkept
      simp [dropped, hspecial]

/-!
# The payload that arrives
-/

theorem conserves_of_chosen {p : ProducerContract} {ts : List BrokerTransformation}
    {chosen : Option BrokerTransformation} (hchosen : Chosen p.targetEvent ts chosen) :
    Conserves p chosen (simulate p ts) := by
  have hresolve := chosen_unique hchosen (resolve_chosen p.targetEvent ts)
  subst hresolve
  have hordered := inOrderOf_dropped p (resolve p.targetEvent ts)
  have harriving := mem_keys_properties p (resolve p.targetEvent ts)
  constructor
  · exact isExclusionary_applied _
  · exact pairwise_properties p _
  · exact harriving
  · intro name hname
    show Xor (name ∈ Listing.keys (properties p _)) (name ∈ dropped p _)
    rw [harriving, mem_dropped_iff, and_iff_right hname]
    by_cases harrives : name ∈ arriving p (resolve p.targetEvent ts)
    · exact Or.inl ⟨harrives, fun hnot => hnot harrives⟩
    · exact Or.inr ⟨harrives, harrives⟩
  · exact hordered.nodup
  · exact hordered
  · intro name hname
    exact ((mem_dropped_iff p _ name).mp hname).1
  · intro hkept
    exact dropped_eq_nil ((isExclusionary_applied _).symm.trans hkept) p
  · intro name origin hmem
    exact (origin_of_mem_properties hmem).1
  · intro name hmem
    exact (origin_of_mem_properties hmem).2.1 rfl
  · intro name hmem
    exact (origin_of_mem_properties hmem).2.2 rfl

/-- A producer's properties are conserved by every list of transformations, told by the
one transformation of the list that applies. -/
theorem simulate_conserves (p : ProducerContract) (ts : List BrokerTransformation) :
    exists chosen, Chosen p.targetEvent ts chosen ∧
      (forall other, Chosen p.targetEvent ts other -> other = chosen) ∧
      Conserves p chosen (simulate p ts) := by
  have hchosen := resolve_chosen p.targetEvent ts
  refine ⟨_, hchosen, ?_, conserves_of_chosen hchosen⟩
  intro other hother
  exact chosen_unique hchosen hother

end Simulation
end PayloadFlow
