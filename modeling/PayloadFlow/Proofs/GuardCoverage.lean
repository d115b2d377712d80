import Mathlib.Data.Option.Basic
import PayloadFlow.Extract.Error
import PayloadFlow.Proofs.Preparation.Reading

/-!
# What a guard lets through

The events that are read from a guard, set against the events for which it can be true.
Besides the event a guard may depend on anything: on other conditions, and on what the
elements of an array turn out to be.  The list that is read misses an event only where an
element, or a text with escapes, turns out to be that event.
-/

namespace PayloadFlow
namespace Broker

open Script

/-!
# Conditions
-/

inductive Condition where
  | equality (n left right : Node)
  | call (n : Node)
  | either (left right : Condition)
  | both (left right : Condition)
  | other (n : Node)

namespace Condition

def ofNode (expression : Node) : Condition :=
  match expression.unwrap.kind with
  | .binaryExpression =>
      match _ : expression.unwrap.child? .left, _ : expression.unwrap.child? .right with
      | some left, some right =>
          match expression.unwrap.operator? with
          | some "===" | some "==" => equality expression.unwrap left right
          | some "||" => either (ofNode left) (ofNode right)
          | some "&&" => both (ofNode left) (ofNode right)
          | _ => other expression.unwrap
      | _, _ => other expression.unwrap
  | .callExpression => call expression.unwrap
  | _ => other expression.unwrap
termination_by sizeOf expression
decreasing_by
  all_goals
    exact Nat.lt_of_lt_of_le (Node.sizeOf_lt_of_child? ‹_›) (Node.sizeOf_unwrap_le expression)

/-- The events of two conditions of which one holds; both have to depend on the event. -/
def join : Option (List String) -> Option (List String) -> Option (List String)
  | some left, some right => some (Routine.unite left right)
  | _, _ => none

/-- The events that are read from a condition. -/
def events (r : Routine) : Condition -> Option (List String)
  | equality _ left right => r.equalityEvents left right
  | call n => r.inclusionEvents n
  | either left right => join (left.events r) (right.events r)
  | both left right => Routine.meet (left.events r) (right.events r)
  | other _ => none

theorem guardEvents_eq_events (r : Routine) (expression : Node) :
    r.guardEvents expression = (ofNode expression).events r := by
  rw [Routine.guardEvents_eq]
  fun_induction ofNode expression with
  | case1 expression hkind left right hleft hright hoperator =>
      simp only [hkind, hleft, hright, hoperator, Option.bind_some, Routine.operandEvents, events]
  | case2 expression hkind left right hleft hright hoperator =>
      simp only [hkind, hleft, hright, hoperator, Option.bind_some, Routine.operandEvents, events]
  | case3 expression hkind left right hleft hright hoperator ih ih' =>
      rw [← Routine.guardEvents_eq] at ih ih'
      simp only [hkind, hleft, hright, hoperator, Option.bind_some, Routine.operandEvents, events,
        ih, ih']
      rfl
  | case4 expression hkind left right hleft hright hoperator ih ih' =>
      rw [← Routine.guardEvents_eq] at ih ih'
      simp only [hkind, hleft, hright, hoperator, Option.bind_some, Routine.operandEvents, events,
        ih, ih']
  | case5 expression hkind left right hleft hright =>
      simp only [hkind, hleft, hright, Option.bind_some, Routine.operandEvents, events]
  | case6 expression hkind hchildren =>
      simp only [hkind, events]
      cases hleft : expression.unwrap.child? .left with
      | none =>
          rfl
      | some left =>
          cases hright : expression.unwrap.child? .right with
          | none =>
              rfl
          | some right =>
              exact absurd hright (hchildren left right hleft)
  | case7 expression hkind =>
      simp only [hkind, events]
  | case8 expression hbinary hcall =>
      simp only [events]

end Condition

/-!
# Truth
-/

/-- What decides a condition besides the event: the truth of what does not ask for the event,
and the texts that an expression stands for, or brings into an array. -/
structure Circumstances where
  truth : Node -> Bool
  texts : Node -> List String

namespace Circumstances

/-- Whether an expression stands for a text, or brings it into an array. -/
def gives (w : Circumstances) (text : String) (n : Node) : Bool :=
  match plainText? n with
  | some plain => plain == text
  | none => (w.texts n).contains text

theorem gives_iff (w : Circumstances) (text : String) (n : Node) :
    w.gives text n = true <->
      plainText? n = some text ∨ (plainText? n = none ∧ text ∈ w.texts n) := by
  unfold gives
  cases plainText? n with
  | none =>
      simp
  | some plain =>
      simp

end Circumstances

/-- The array of which a call asks whether it includes the event. -/
def Routine.askedArray? (r : Routine) (call : Node) : Option Node := do
  let callee ← call.callee?
  let object ← (← call.child? .function).unwrap.child? .object
  let argument ← call.callArguments.head?
  guard (callee.name == "includes" && object.unwrap.kind == .array && r.isEventRef argument)
  some object.unwrap

theorem askedArray?_of_inclusionEvents {r : Routine} {call : Node} {events : List String}
    (hevents : r.inclusionEvents call = some events) :
    exists array, r.askedArray? call = some array ∧
      events = array.parts.filterMap fun n => n.stringValue? := by
  unfold Routine.inclusionEvents at hevents
  simp only [Option.bind_eq_bind, Option.bind_eq_some_iff] at hevents
  rcases hevents with ⟨callee, hcallee, function, hfunction, object, hobject, argument, hargument,
    _, hguard, hlist⟩
  refine ⟨object.unwrap, ?_, ?_⟩
  · unfold Routine.askedArray?
    simp only [Option.bind_eq_bind, hcallee, hfunction, hobject, hargument, Option.bind_some,
      hguard]
  · split at hlist
    · cases hlist
    · exact (Option.some.inj hlist).symm

namespace Condition

/-- The operand that an equality compares with the event. -/
def compared? (r : Routine) (left right : Node) : Option Node :=
  if r.isEventRef left then some right
  else if r.isEventRef right then some left
  else none

/-- Whether a condition is true, for an event and in some circumstances. -/
def holds (r : Routine) (w : Circumstances) (event : String) : Condition -> Bool
  | equality n left right =>
      match compared? r left right with
      | some operand => w.gives event operand
      | none => w.truth n
  | call n =>
      match r.askedArray? n with
      | some array =>
          -- the place to start from, if there is one, can only leave elements out
          array.parts.any (w.gives event) && (n.callArguments.length == 1 || w.truth n)
      | none => w.truth n
  | either left right => left.holds r w event || right.holds r w event
  | both left right => left.holds r w event && right.holds r w event
  | other n => w.truth n

/-- The operands and elements that the event is compared with and whose text is not plain. -/
def unread (r : Routine) : Condition -> List Node
  | equality _ left right =>
      (compared? r left right).toList.filter fun n => (plainText? n).isNone
  | call n =>
      match r.askedArray? n with
      | some array => array.parts.filter fun n => (plainText? n).isNone
      | none => []
  | either left right => left.unread r ++ right.unread r
  | both left right =>
      -- a side that no events are read from does not matter
      (if (left.events r).isSome then left.unread r else []) ++
        (if (right.events r).isSome then right.unread r else [])
  | other _ => []

end Condition

/-!
# Coverage
-/

namespace Condition

section

variable {r : Routine} {w : Circumstances} {event : String}

/-- What gives the event is a literal with this text, or its text is not plain. -/
theorem covered_of_gives {ns : List Node} {n : Node} (hn : n ∈ ns)
    (hgives : w.gives event n = true) :
    event ∈ (ns.filterMap fun n => n.stringValue?) ∨
      exists m, m ∈ (ns.filter fun n => (plainText? n).isNone) ∧ event ∈ w.texts m := by
  rcases (w.gives_iff event n).mp hgives with hplain | ⟨hnone, htext⟩
  · left
    exact List.mem_filterMap.mpr ⟨n, hn, stringValue?_of_plainText? hplain⟩
  · right
    exact ⟨n, List.mem_filter.mpr ⟨hn, Option.isNone_iff_eq_none.mpr hnone⟩, htext⟩

/-- The event of an equality is the text of the operand that is compared with the event. -/
theorem compared?_of_equalityEvents {left right : Node} {events : List String}
    (hevents : r.equalityEvents left right = some events) :
    exists operand, compared? r left right = some operand ∧
      events = [operand].filterMap fun n => n.stringValue? := by
  unfold Routine.equalityEvents at hevents
  unfold compared?
  split at hevents
  · rename_i hleft
    rcases Option.map_eq_some_iff.mp hevents with ⟨text, htext, rfl⟩
    refine ⟨right, if_pos hleft, ?_⟩
    rw [List.filterMap_cons_some htext, List.filterMap_nil]
  · rename_i hleft
    split at hevents
    · rename_i hright
      rcases Option.map_eq_some_iff.mp hevents with ⟨text, htext, rfl⟩
      refine ⟨left, ?_, ?_⟩
      · rw [if_neg hleft, if_pos hright]
      · rw [List.filterMap_cons_some htext, List.filterMap_nil]
    · cases hevents

theorem join_cases {left right : Option (List String)} {events : List String}
    (hjoin : join left right = some events) :
    exists l l', left = some l ∧ right = some l' ∧ events = Routine.unite l l' := by
  unfold join at hjoin
  split at hjoin
  · rename_i l l'
    exact ⟨l, l', rfl, rfl, (Option.some.inj hjoin).symm⟩
  · cases hjoin

theorem meet_cases {left right : Option (List String)} {events : List String}
    (hmeet : Routine.meet left right = some events) :
    (exists l l', left = some l ∧ right = some l' ∧ events = l.filter l'.contains) ∨
      (left = some events ∧ right = none) ∨ (left = none ∧ right = some events) := by
  unfold Routine.meet at hmeet
  split at hmeet
  · rename_i l l'
    dsimp only at hmeet
    split at hmeet
    · cases hmeet
    · exact Or.inl ⟨l, l', rfl, rfl, (Option.some.inj hmeet).symm⟩
  · exact Or.inr (Or.inl ⟨hmeet, rfl⟩)
  · exact Or.inr (Or.inr ⟨rfl, hmeet⟩)
  · cases hmeet

/-- A true condition asks for an event that is read from it, or for what something unread turns
out to be. -/
theorem covered_of_holds (condition : Condition) {events : List String}
    (hevents : condition.events r = some events) (hholds : condition.holds r w event = true) :
    event ∈ events ∨ exists m, m ∈ condition.unread r ∧ event ∈ w.texts m := by
  induction condition generalizing events with
  | equality n left right =>
      rcases compared?_of_equalityEvents hevents with ⟨operand, hoperand, rfl⟩
      unfold holds at hholds
      unfold unread
      rw [hoperand] at hholds ⊢
      exact covered_of_gives (List.mem_singleton.mpr rfl) hholds
  | call n =>
      rcases askedArray?_of_inclusionEvents hevents with ⟨array, harray, rfl⟩
      unfold holds at hholds
      unfold unread
      rw [harray] at hholds ⊢
      rcases List.any_eq_true.mp (Bool.and_eq_true_iff.mp hholds).1 with ⟨element, helement, hgives⟩
      exact covered_of_gives helement hgives
  | either left right ihleft ihright =>
      rcases join_cases hevents with ⟨l, l', hleft, hright, rfl⟩
      simp only [unread, List.mem_append, mem_unite]
      rcases Bool.or_eq_true_iff.mp hholds with htrue | htrue
      · rcases ihleft hleft htrue with hevent | ⟨m, hm, htext⟩
        · exact Or.inl (Or.inl hevent)
        · exact Or.inr ⟨m, Or.inl hm, htext⟩
      · rcases ihright hright htrue with hevent | ⟨m, hm, htext⟩
        · exact Or.inl (Or.inr hevent)
        · exact Or.inr ⟨m, Or.inr hm, htext⟩
  | both left right ihleft ihright =>
      rcases Bool.and_eq_true_iff.mp hholds with ⟨htrue, htrue'⟩
      unfold unread
      rcases meet_cases hevents with ⟨l, l', hleft, hright, rfl⟩ | ⟨hleft, hright⟩ | ⟨hleft, hright⟩
      · simp only [hleft, hright, Option.isSome_some, if_true, List.mem_append, List.mem_filter,
          List.contains_iff_mem]
        rcases ihleft hleft htrue with hevent | ⟨m, hm, htext⟩
        · rcases ihright hright htrue' with hevent' | ⟨m, hm, htext⟩
          · exact Or.inl ⟨hevent, hevent'⟩
          · exact Or.inr ⟨m, Or.inr hm, htext⟩
        · exact Or.inr ⟨m, Or.inl hm, htext⟩
      · simp only [hleft, hright, Option.isSome_some, Option.isSome_none, if_true,
          Bool.false_eq_true, if_false, List.append_nil]
        exact ihleft hleft htrue
      · simp only [hleft, hright, Option.isSome_some, Option.isSome_none, if_true,
          Bool.false_eq_true, if_false, List.nil_append]
        exact ihright hright htrue'
  | other n =>
      cases hevents

end

end Condition

/-- If a guard is true for an event, the event is among those that are read from the guard, or
it is what an unread element of an array, or an unread text, turns out to be. -/
theorem guardEvents_cover {r : Routine} {guard : Node} {events : List String}
    (hevents : r.guardEvents guard = some events) (w : Circumstances) (event : String)
    (hholds : (Condition.ofNode guard).holds r w event = true) :
    event ∈ events ∨
      exists m, m ∈ (Condition.ofNode guard).unread r ∧ event ∈ w.texts m := by
  rw [Condition.guardEvents_eq_events] at hevents
  exact Condition.covered_of_holds _ hevents hholds

def openGuardSource : String :=
  "function f(e, d) \x7b if ((e === 'drop' || ['drag', other].includes(e)) && ok) return d; \x7d"

def firstGuard? (r : Routine) : Option Node :=
  r.body.parts.head?.bind fun n => n.child? .condition

/-- The variable in the array holds a third event. -/
def otherIsHover : Circumstances :=
  ⟨fun n => n.text == "ok", fun n => if n.text == "other" then ["hover"] else []⟩

theorem openGuard_read :
    exists program r guard, parseSource "f.js" openGuardSource = .ok program ∧
      routine? ["f"] [] "f.js" program = some r ∧ firstGuard? r = some guard ∧
      r.guardEvents guard = some ["drop", "drag"] ∧
      (Condition.ofNode guard).holds r otherIsHover "drag" = true ∧
      (Condition.ofNode guard).holds r otherIsHover "hover" = true := by
  have hread : parsesTo "f.js" openGuardSource (fun program =>
      (routine? ["f"] [] "f.js" program).any fun r => (firstGuard? r).any fun guard =>
        decide (r.guardEvents guard = some ["drop", "drag"] ∧
          (Condition.ofNode guard).holds r otherIsHover "drag" = true ∧
          (Condition.ofNode guard).holds r otherIsHover "hover" = true)) = true := by
    decide +kernel
  rcases exists_of_parsesTo hread with ⟨program, hparse, hprogram⟩
  rcases (Option.any_eq_true ..).mp hprogram with ⟨r, hroutine, hr⟩
  rcases (Option.any_eq_true ..).mp hr with ⟨guard, hguard, hfacts⟩
  exact ⟨program, r, guard, hparse, hroutine, hguard, of_decide_eq_true hfacts⟩

theorem openGuard_covered :
    exists program r guard, parseSource "f.js" openGuardSource = .ok program ∧
      routine? ["f"] [] "f.js" program = some r ∧ firstGuard? r = some guard ∧
      r.guardEvents guard = some ["drop", "drag"] ∧
      forall event, event = "drag" ∨ event = "hover" ->
        (Condition.ofNode guard).holds r otherIsHover event = true ∧
        (event ∈ ["drop", "drag"] ∨ exists m, m ∈ (Condition.ofNode guard).unread r ∧
          event ∈ otherIsHover.texts m) := by
  rcases openGuard_read with ⟨program, r, guard, hparse, hroutine, hguard, hevents, hdrag, hhover⟩
  refine ⟨program, r, guard, hparse, hroutine, hguard, hevents, ?_⟩
  intro event hevent
  have hholds : (Condition.ofNode guard).holds r otherIsHover event = true := by
    rcases hevent with rfl | rfl
    · exact hdrag
    · exact hhover
  exact ⟨hholds, guardEvents_cover hevents otherIsHover event hholds⟩

/-- The guard is true for the event that the variable holds, which is not read from it. -/
theorem openGuard_misses :
    exists program r guard events, parseSource "f.js" openGuardSource = .ok program ∧
      routine? ["f"] [] "f.js" program = some r ∧ firstGuard? r = some guard ∧
      r.guardEvents guard = some events ∧
      (Condition.ofNode guard).holds r otherIsHover "hover" = true ∧ "hover" ∉ events := by
  rcases openGuard_read with ⟨program, r, guard, hparse, hroutine, hguard, hevents, _, hhover⟩
  refine ⟨program, r, guard, _, hparse, hroutine, hguard, hevents, hhover, ?_⟩
  decide

end Broker
end PayloadFlow
