import PayloadFlow.Proofs.EventName
import PayloadFlow.Proofs.Preparation.Reading

/-!
# Branches of a routine

Of the branches for an event the first one counts.  A special case is for an event and a
fallback for all others, so the special cases of a routine decide before its fall-through.
-/

namespace PayloadFlow
namespace Broker

open Script

/-!
# Adding branches
-/

theorem find?_push (b : Branches) (t : BrokerTransformation) (e : String) :
    (b.push t).special.find? (fun u => u.event == e) =
      (b.special.find? fun u => u.event == e).or ([t].find? fun u => u.event == e) := by
  unfold Branches.push
  split
  · rename_i hany
    rcases List.any_eq_true.mp hany with ⟨u, hu, hsame⟩
    have hevent : u.event = t.event := by simpa using hsame
    by_cases he : t.event = e
    · have hfound : (b.special.find? fun u => u.event == e).isSome = true := by
        rw [List.find?_isSome]
        exact ⟨u, hu, by simp [hevent, he]⟩
      rcases Option.isSome_iff_exists.mp hfound with ⟨v, hv⟩
      rw [hv]
      rfl
    · simp [he]
  · rw [List.find?_append]

theorem find?_pushAll (b : Branches) (ts : List BrokerTransformation) (e : String) :
    (b.pushAll ts).special.find? (fun u => u.event == e) =
      (b.special.find? fun u => u.event == e).or (ts.find? fun u => u.event == e) := by
  induction ts generalizing b with
  | nil =>
      simp [Branches.pushAll]
  | cons t rest ih =>
      have hrest := ih (b.push t)
      rw [find?_push, Option.or_assoc, ← List.find?_append] at hrest
      exact hrest

theorem mem_special_push {b : Branches} {t u : BrokerTransformation}
    (hu : u ∈ (b.push t).special) : u ∈ b.special ∨ u = t := by
  unfold Branches.push at hu
  split at hu
  · exact Or.inl hu
  · rcases List.mem_append.mp hu with hold | hnew
    · exact Or.inl hold
    · exact Or.inr (List.mem_singleton.mp hnew)

theorem mem_special_pushAll {b : Branches} {ts : List BrokerTransformation}
    {t : BrokerTransformation} (ht : t ∈ (b.pushAll ts).special) : t ∈ b.special ∨ t ∈ ts := by
  induction ts generalizing b with
  | nil =>
      exact Or.inl ht
  | cons first rest ih =>
      rcases ih (b := b.push first) ht with hpush | hrest
      · rcases mem_special_push hpush with hold | hfirst
        · exact Or.inl hold
        · exact Or.inr (hfirst ▸ List.mem_cons_self)
      · exact Or.inr (List.mem_cons_of_mem _ hrest)

theorem fallback_push (b : Branches) (t : BrokerTransformation) :
    (b.push t).fallback = b.fallback := by
  unfold Branches.push
  split
  · rfl
  · rfl

theorem fallback_pushAll (b : Branches) (ts : List BrokerTransformation) :
    (b.pushAll ts).fallback = b.fallback := by
  induction ts generalizing b with
  | nil =>
      rfl
  | cons t rest ih =>
      show ((b.push t).pushAll rest).fallback = b.fallback
      rw [ih, fallback_push]

theorem rel_or {α β : Type} {R : α -> β -> Prop} {a a' : Option α} {b b' : Option β}
    (h : Option.Rel R a b) (h' : Option.Rel R a' b') : Option.Rel R (a.or a') (b.or b') := by
  cases h with
  | some hab =>
      exact Option.Rel.some hab
  | none =>
      exact h'

/-!
# Reading a routine

The branches of a routine are read one by one: a special case with its guard, and a fallback
where there is none yet.  What these two steps keep holds of all branches in the end.
-/

namespace Routine

inductive Grown (r : Routine) : Branches -> Prop where
  | start : Grown r {}
  | push {b : Branches} {scope : Scope} {shape : Shape} (event condition : String) (line : Nat) :
      r.scopeShape? scope = some shape -> Grown r b ->
      Grown r (b.push (r.transformation (EventName.normalize event) (some condition) shape
        (r.removedIn scope) line))
  | orFallback {b : Branches} (scope : Scope) (line : Nat) :
      Grown r b -> Grown r (b.orFallback (r.fallbackOf? scope line))

variable {r : Routine} {b : Branches}

theorem Grown.pushAll {α : Type} {scope : Scope} {shape : Shape}
    (hshape : r.scopeShape? scope = some shape) (hb : r.Grown b) (labels : List α)
    (event condition : α -> String) (line : α -> Nat) :
    r.Grown (b.pushAll (labels.map fun label =>
      r.transformation (EventName.normalize (event label)) (some (condition label)) shape
        (r.removedIn scope) (line label))) := by
  induction labels generalizing b with
  | nil =>
      exact hb
  | cons label rest ih =>
      exact ih (Grown.push (event label) (condition label) (line label) hshape hb)

theorem grown_guardedBranches (hb : r.Grown b) (n condition consequence : Node) :
    r.Grown (r.guardedBranches n condition consequence b) := by
  unfold guardedBranches
  split
  · rename_i events _
    unfold guardedBranch
    split
    · rename_i shape hshape
      exact hb.pushAll hshape events (fun event => event) (fun _ => condition.unwrap.text)
        (fun _ => n.line)
    · exact hb
  · exact hb

theorem grown_ifChain {b : Branches} (hb : r.Grown b) (guarded : Bool) (n : Node) :
    r.Grown (r.ifChain guarded n b) := by
  rw [ifChain_eq]
  split
  · rename_i condition consequence _ _
    have hbranches := grown_guardedBranches hb n condition consequence
    dsimp only
    split
    · rename_i next hnext
      rcases Option.bind_eq_some_iff.mp hnext with ⟨alternative, halternative, hhead⟩
      split
      · exact grown_ifChain hbranches _ next
      · split
        · exact Grown.orFallback _ _ hbranches
        · exact hbranches
    · exact hbranches
  · exact hb
termination_by sizeOf n
decreasing_by
  exact Nat.lt_trans (Node.sizeOf_lt_of_mem_parts (List.mem_of_head? hhead))
    (Node.sizeOf_lt_of_child? halternative)

theorem grown_switchClause {state : Branches × List CaseLabel} (hb : r.Grown state.1) (n : Node) :
    r.Grown (r.switchClause state n).1 := by
  rw [switchClause_eq]
  split
  · split
    · exact hb
    · split
      · rename_i shape hshape
        exact hb.pushAll hshape _ CaseLabel.event CaseLabel.condition CaseLabel.line
      · exact hb
  · exact Grown.orFallback _ _ hb
  · exact hb

theorem grown_switchClauses {state : Branches × List CaseLabel} (hb : r.Grown state.1)
    (ns : List Node) : r.Grown (ns.foldl r.switchClause state).1 := by
  induction ns generalizing state with
  | nil =>
      exact hb
  | cons n ns ih =>
      exact ih (grown_switchClause hb n)

theorem grown_addStatement (hb : r.Grown b) (n : Node) : r.Grown (r.addStatement b n) := by
  unfold addStatement
  split
  · exact grown_ifChain hb false n
  · unfold switchCases
    split
    · split
      · exact grown_switchClauses hb _
      · exact hb
    · exact hb
  · exact hb

def branches (r : Routine) : Branches :=
  r.body.parts.foldl r.addStatement {}

theorem grown_branches (r : Routine) : r.Grown r.branches := by
  have hstart : r.Grown {} := Grown.start
  unfold branches
  generalize ({} : Branches) = b at hstart
  induction r.body.parts generalizing b with
  | nil =>
      exact hstart
  | cons n ns ih =>
      exact ih (r.addStatement b n) (grown_addStatement hstart n)

end Routine

/-!
# Special cases and the fallback
-/

/-- Special cases are for an event, the fallback is for all others. -/
structure Branches.Sorted (b : Branches) : Prop where
  special : forall t, t ∈ b.special -> t.event ≠ "*"
  fallback : forall t, t ∈ b.fallback -> t.event = "*"

namespace Routine

variable {r : Routine} {b : Branches}

theorem event_of_fallbackOf? {scope : Scope} {line : Nat} {t : BrokerTransformation}
    (ht : r.fallbackOf? scope line = some t) : t.event = "*" := by
  rcases Option.map_eq_some_iff.mp ht with ⟨shape, _, rfl⟩
  rfl

theorem Grown.sorted (h : r.Grown b) : b.Sorted := by
  induction h with
  | start =>
      constructor
      · intro t ht
        cases ht
      · intro t ht
        cases ht
  | push event condition line _ _ ih =>
      constructor
      · intro t ht
        rcases mem_special_push ht with hold | hnew
        · exact ih.special t hold
        · rw [hnew]
          exact EventName.normalize_ne_star event
      · rw [fallback_push]
        exact ih.fallback
  | orFallback scope line _ ih =>
      constructor
      · exact ih.special
      · intro t ht
        rcases Option.or_eq_some_iff.mp ht with hold | ⟨_, hnew⟩
        · exact ih.fallback t hold
        · exact event_of_fallbackOf? hnew

theorem sorted_branches (r : Routine) : r.branches.Sorted :=
  r.grown_branches.sorted

theorem event_of_finalReturn? {t : BrokerTransformation} (ht : r.finalReturn? = some t) :
    t.event = "*" := by
  rcases Option.bind_eq_some_iff.mp ht with ⟨ret, _, hret⟩
  rcases Option.bind_eq_some_iff.mp hret with ⟨shape, _, hshape⟩
  cases hshape
  rfl

/-- What the routine does with all events that have no branch. -/
def fallThrough? (r : Routine) : Option BrokerTransformation :=
  r.finalReturn?.or r.branches.fallback

theorem event_of_fallThrough? {t : BrokerTransformation} (ht : t ∈ r.fallThrough?) :
    t.event = "*" := by
  rcases Option.or_eq_some_iff.mp ht with hfinal | ⟨_, hfallback⟩
  · exact event_of_finalReturn? hfinal
  · exact r.sorted_branches.fallback t hfallback

theorem transformations_of_block (hblock : r.body.kind = .statementBlock) :
    r.transformations = r.branches.special ++ r.fallThrough?.toList := by
  unfold transformations
  rw [hblock]
  rfl

end Routine

/-!
# What is resolved
-/

section

variable {special : List BrokerTransformation} {last : Option BrokerTransformation}

theorem find?_isDefault_append (hspecial : forall t, t ∈ special -> t.event ≠ "*")
    (hlast : forall t, t ∈ last -> t.event = "*") :
    (special ++ last.toList).find? (fun t => t.isDefault) = last := by
  have hnone : special.find? (fun t => t.isDefault) = none := by
    rw [List.find?_eq_none]
    intro t ht hstar
    exact hspecial t ht ((Simulation.isDefault_iff t).mp hstar)
  rw [List.find?_append, hnone, Option.none_or]
  cases last with
  | none =>
      rfl
  | some t =>
      rw [Option.toList_some, List.find?_singleton,
        if_pos ((Simulation.isDefault_iff t).mpr (hlast t rfl))]

/-- The special cases decide first, then the fall-through behind them. -/
theorem resolve_append_toList (hspecial : forall t, t ∈ special -> t.event ≠ "*")
    (hlast : forall t, t ∈ last -> t.event = "*") {event : String} (hevent : event ≠ "*") :
    Simulation.resolve event (special ++ last.toList) =
      (special.find? fun t => t.event == event).or last := by
  have hfirst : (special ++ last.toList).find? (fun t => !t.isDefault && t.event == event) =
      special.find? fun t => t.event == event := by
    have hnone : last.toList.find? (fun t => !t.isDefault && t.event == event) = none := by
      rw [List.find?_eq_none]
      intro t ht
      rw [Simulation.isSpecialFor_iff]
      rintro ⟨heq, _⟩
      exact hevent (heq ▸ hlast t (Option.mem_toList.mp ht))
    rw [List.find?_append, hnone, Option.or_none]
    congr 1
    funext t
    rw [Bool.eq_iff_iff, Simulation.isSpecialFor_iff, beq_iff_eq]
    exact and_iff_left hevent
  unfold Simulation.resolve
  rw [hfirst, find?_isDefault_append hspecial hlast]

end

namespace Routine

variable {r : Routine}

theorem find?_isDefault_transformations (hblock : r.body.kind = .statementBlock) :
    r.transformations.find? (fun t => t.isDefault) = r.fallThrough? := by
  rw [transformations_of_block hblock]
  exact find?_isDefault_append r.sorted_branches.special fun t ht => event_of_fallThrough? ht

theorem resolve_transformations (hblock : r.body.kind = .statementBlock) (e : String) :
    Simulation.resolve (EventName.normalize e) r.transformations =
      (r.branches.special.find? fun t => t.event == EventName.normalize e).or r.fallThrough? := by
  rw [transformations_of_block hblock]
  exact resolve_append_toList r.sorted_branches.special (fun t ht => event_of_fallThrough? ht)
    (EventName.normalize_ne_star e)

end Routine

end Broker
end PayloadFlow
