import PayloadFlow.Extract.Error
import PayloadFlow.Proofs.EventName
import PayloadFlow.Proofs.Preparation.Branches

/-!
# Transformations agree with runs

The transformations that are read from a prepare routine prepare every payload just as a
run of the routine does, as long as the name of the payload stands for the payload.
-/

namespace PayloadFlow
namespace Broker

open Script

/-!
# Branches

The first transformation for an event is that of the first branch that accepts it.
-/

section

variable {r : Routine} {event payload : String}

/-- The special cases found so far answer events by a choice of replies. -/
structure Branches.Follows (b : Branches) (choice : String -> Option (List Item)) : Prop where
  special : forall t, t ∈ b.special -> t.event ≠ "*"
  replies : forall e, Option.Rel Prepares
    (b.special.find? fun t => t.event == EventName.normalize e) (choice e)

theorem follows_guardedBranch {b : Branches} {choice : String -> Option (List Item)}
    (hb : b.Follows choice) {branch : Branch} {events : List String}
    (haccepts : forall e, branch.guard.accepts e = true <->
      exists text, text ∈ events ∧ EventName.normalize text = EventName.normalize e)
    {scope : Scope} {shape : Shape} (hscope : r.scopeShape? scope = some shape)
    (hshape : shape.IsOf branch.reply) (condition : String) (line : Nat) :
    (b.pushAll (r.guardedBranch events condition scope line)).Follows fun e =>
      (choice e).or (chainReply? e [branch]) := by
  have hbranch : r.guardedBranch events condition scope line = events.map fun event =>
      r.transformation (EventName.normalize event) (some condition) shape (r.removedIn scope)
        line := by
    unfold Routine.guardedBranch
    rw [hscope]
  rw [hbranch]
  constructor
  · intro t ht
    rcases mem_special_pushAll ht with hold | hnew
    · exact hb.special t hold
    · rcases List.mem_map.mp hnew with ⟨text, _, rfl⟩
      exact EventName.normalize_ne_star text
  · intro e
    rw [find?_pushAll]
    refine rel_or (hb.replies e) ?_
    unfold chainReply?
    by_cases hguard : branch.guard.accepts e = true
    · rcases (haccepts e).mp hguard with ⟨text, htext, hspelled⟩
      rw [if_pos hguard]
      cases hfound : (events.map fun event => r.transformation (EventName.normalize event)
          (some condition) shape (r.removedIn scope) line).find?
          fun u => u.event == EventName.normalize e with
      | some t =>
          rcases List.mem_map.mp (List.mem_of_find?_eq_some hfound) with ⟨text', _, rfl⟩
          exact Option.Rel.some (prepares_transformation r _ _ hshape _ _)
      | none =>
          have hnot := List.find?_eq_none.mp hfound _ (List.mem_map_of_mem htext)
          exact absurd (beq_iff_eq.mpr hspelled) hnot
    · rw [if_neg hguard]
      have hnone : ((events.map fun event => r.transformation (EventName.normalize event)
          (some condition) shape (r.removedIn scope) line).find?
          fun u => u.event == EventName.normalize e) = none := by
        rw [List.find?_eq_none]
        intro t ht hevent
        rcases List.mem_map.mp ht with ⟨text, htext, rfl⟩
        exact hguard ((haccepts e).mpr ⟨text, htext, beq_iff_eq.mp hevent⟩)
      rw [hnone]
      exact Option.Rel.none

theorem chainReply?_cons (e : String) (branch : Branch) (rest : List Branch) :
    chainReply? e (branch :: rest) = (chainReply? e [branch]).or (chainReply? e rest) := by
  simp only [chainReply?]
  split
  · rfl
  · rfl

theorem ifChain_last {n condition consequence : Node} {events : List String}
    (hcondition : n.child? .condition = some condition)
    (hconsequence : n.child? .consequence = some consequence)
    (hevents : r.guardEvents condition.unwrap = some events)
    (halternative : n.child? .alternative = none) (guarded : Bool) (b : Branches) :
    r.ifChain guarded n b =
      b.pushAll (r.guardedBranch events condition.unwrap.text (.ofBranch consequence) n.line) := by
  rw [Routine.ifChain]
  simp only [hcondition, hconsequence, hevents]
  split
  · rename_i alternative hsome
    rw [halternative] at hsome
    cases hsome
  · rfl

theorem ifChain_next {n condition consequence alternative inner : Node} {events : List String}
    (hcondition : n.child? .condition = some condition)
    (hconsequence : n.child? .consequence = some consequence)
    (hevents : r.guardEvents condition.unwrap = some events)
    (halternative : n.child? .alternative = some alternative)
    (hinner : alternative.parts.head? = some inner) (hkind : inner.kind = .ifStatement)
    (guarded : Bool) (b : Branches) :
    r.ifChain guarded n b = r.ifChain true inner
      (b.pushAll
        (r.guardedBranch events condition.unwrap.text (.ofBranch consequence) n.line)) := by
  rw [Routine.ifChain]
  simp only [hcondition, hconsequence, hevents]
  split
  · rename_i other hsome
    cases halternative.symm.trans hsome
    split
    · rename_i next hnext
      cases hinner.symm.trans hnext
      simp [hkind]
    · rename_i hnone
      rw [hinner] at hnone
      cases hnone
  · rename_i hnone
    rw [halternative] at hnone
    cases hnone

theorem IsChain.kind_eq {chain : List Branch} {n : Node}
    (hchain : IsChain event payload chain n) : n.kind = .ifStatement := by
  cases chain with
  | nil =>
      cases hchain
  | cons branch rest =>
      unfold IsChain at hchain
      exact hchain.1

theorem follows_ifChain (hevent : r.eventParam = some event)
    (hunquoted : '"' ∉ event.toList ∧ '\x27' ∉ event.toList) {chain : List Branch}
    {n : Node} (hchain : IsChain event payload chain n) (hn : n.nodes ⊆ r.body.nodes)
    (hunhidden : forall branch, branch ∈ chain -> Item.payload ∈ branch.reply ->
      Unhidden payload r.body) (guarded : Bool) {b : Branches}
    {choice : String -> Option (List Item)} (hb : b.Follows choice) :
    (r.ifChain guarded n b).Follows fun e => (choice e).or (chainReply? e chain) := by
  induction chain generalizing n guarded b choice with
  | nil =>
      cases hchain
  | cons branch rest ih =>
      unfold IsChain at hchain
      rcases hchain with ⟨_, ⟨condition, hcondition, hguard⟩,
        ⟨consequence, hconsequence, ret, hret, hreturns⟩, hrest⟩
      rw [Option.mem_def] at hcondition hconsequence hret
      rcases guardEvents_of_isWritten hevent hunquoted hguard.unwrap with
        ⟨events, hevents, haccepts⟩
      have hinside : consequence.nodes ⊆ r.body.nodes := by
        intro m hm
        have hpart := Node.mem_parts_of_child? hconsequence (isPart_of_soleReturn? hret)
        exact hn (Node.mem_nodes_of_mem_parts hpart hm)
      have hscope : exists shape, r.scopeShape? (.ofBranch consequence) = some shape ∧
          shape.IsOf branch.reply := by
        unfold Routine.scopeShape?
        rw [terminalReturn?_ofBranch hret]
        apply returnShape?_of_returns hreturns
        intro hpayload
        have hbody := hunhidden branch List.mem_cons_self hpayload
        exact ⟨fun m hm => hbody m (hinside hm), hbody⟩
      rcases hscope with ⟨shape, hscope, hshape⟩
      have hfirst := follows_guardedBranch hb haccepts hscope hshape condition.unwrap.text n.line
      cases rest with
      | nil =>
          rw [ifChain_last hcondition hconsequence hevents hrest]
          exact hfirst
      | cons next others =>
          rcases hrest with ⟨alternative, halternative, helse, inner, hinner, hnext⟩
          rw [Option.mem_def] at halternative hinner
          have hinnerNodes : inner.nodes ⊆ r.body.nodes := by
            intro m hm
            have hpart : alternative ∈ n.parts := by
              apply Node.mem_parts_of_child? halternative
              rw [Node.isPart, helse]
              rfl
            have hm' := Node.mem_nodes_of_mem_parts (List.mem_of_head? hinner) hm
            exact hn (Node.mem_nodes_of_mem_parts hpart hm')
          have hothers := ih hnext hinnerNodes
            (fun branch hbranch => hunhidden branch (List.mem_cons_of_mem _ hbranch)) true hfirst
          rw [ifChain_next hcondition hconsequence hevents halternative hinner hnext.kind_eq]
          simp only [Option.or_assoc, ← chainReply?_cons] at hothers
          exact hothers

theorem follows_statements (hevent : r.eventParam = some event)
    (hunquoted : '"' ∉ event.toList ∧ '\x27' ∉ event.toList) {chains : List (List Branch)}
    {ns : List Node} (hchains : List.Forall₂ (IsChain event payload) chains ns)
    (hns : forall n, n ∈ ns -> n ∈ r.body.parts)
    (hunhidden : forall branch, branch ∈ chains.flatten -> Item.payload ∈ branch.reply ->
      Unhidden payload r.body) {b : Branches}
    {choice : String -> Option (List Item)} (hb : b.Follows choice) :
    (ns.foldl r.addStatement b).Follows fun e =>
      (choice e).or (chains.findSome? (chainReply? e)) := by
  induction hchains generalizing b choice with
  | nil =>
      simpa using hb
  | @cons chain n chains ns hchain _ ih =>
      have hnode : n.nodes ⊆ r.body.nodes := by
        intro m hm
        exact Node.mem_nodes_of_mem_parts (hns n List.mem_cons_self) hm
      have hfirst := follows_ifChain hevent hunquoted hchain hnode
        (fun branch hbranch => hunhidden branch
          (List.mem_flatten.mpr ⟨chain, List.mem_cons_self, hbranch⟩)) false hb
      have hstatement : r.addStatement b n = r.ifChain false n b := by
        unfold Routine.addStatement
        simp only [hchain.kind_eq]
      have hrest := ih (fun m hm => hns m (List.mem_cons_of_mem _ hm))
        (fun branch hbranch => hunhidden branch
          (List.flatten_cons ▸ List.mem_append_right chain hbranch)) hfirst
      have hcons : forall e, (chain :: chains).findSome? (chainReply? e) =
          (chainReply? e chain).or (chains.findSome? (chainReply? e)) := by
        intro e
        rw [List.findSome?_cons]
        cases chainReply? e chain with
        | none =>
            rfl
        | some reply =>
            rfl
      rw [List.foldl_cons, hstatement]
      simpa only [Option.or_assoc, hcons] using hrest

end

/-!
# Routines
-/

/-- The special cases decide first, then the fall-through behind them. -/
theorem resolve_append_last {special : List BrokerTransformation} {last : BrokerTransformation}
    (hspecial : forall t, t ∈ special -> t.event ≠ "*") (hlast : last.event = "*")
    {event : String} (hevent : event ≠ "*") :
    Simulation.resolve event (special ++ [last]) =
      some ((special.find? fun t => t.event == event).getD last) := by
  have hresolve := resolve_append_toList hspecial
    (fun t (ht : t ∈ some last) => Option.mem_some.mp ht ▸ hlast) hevent
  rw [Option.toList_some] at hresolve
  rw [hresolve]
  cases special.find? fun t => t.event == event with
  | none =>
      rfl
  | some t =>
      rfl

section

variable {r : Routine} {event payload : String} {prep : Preparation}

theorem getLast?_returns {init : List Node} {ret : Node} (hret : ret.kind = .returnStatement) :
    ((init ++ [ret]).filter fun s => s.kind == .returnStatement).getLast? = some ret := by
  rw [List.filter_append, List.filter_singleton, hret]
  simp

/-- The transformations of a program: special cases that answer like its chains, then one
that answers like its end. -/
theorem transformations_of_isProgram (hprogram : r.IsProgram event payload prep)
    (hunhidden : forall reply, reply ∈ prep.replies -> Item.payload ∈ reply ->
      Unhidden payload r.body) :
    exists (b : Branches) (last : BrokerTransformation),
      r.transformations = b.special ++ [last] ∧ last.event = "*" ∧ Prepares last prep.last ∧
      b.Follows fun e => prep.chains.findSome? (chainReply? e) := by
  rcases hprogram.last with ⟨ret, hret, hkind, hreturns⟩
  have hparts : r.body.parts = r.body.parts.dropLast ++ [ret] :=
    (List.dropLast_append_getLast? ret hret).symm
  have hbranches : forall branch, branch ∈ prep.chains.flatten -> Item.payload ∈ branch.reply ->
      Unhidden payload r.body := by
    intro branch hbranch
    apply hunhidden
    exact List.mem_append_left _ (List.mem_map_of_mem hbranch)
  have hstart : Branches.Follows {} fun _ => none := by
    constructor
    · intro t ht
      cases ht
    · intro e
      exact Option.Rel.none
  have hfollows := follows_statements hprogram.eventParam hprogram.unquoted hprogram.chains
    (fun n hn => List.dropLast_subset _ hn) hbranches hstart
  have hstatement : forall b, r.addStatement b ret = b := by
    intro b
    unfold Routine.addStatement
    simp only [hkind]
  have hfinal : exists shape, r.returnShape? r.defaultScope ret = some shape ∧
      shape.IsOf prep.last := by
    apply returnShape?_of_returns hreturns
    intro hpayload
    have hbody := hunhidden prep.last
      (List.mem_append_right _ (List.mem_singleton.mpr rfl)) hpayload
    exact ⟨hbody, hbody⟩
  rcases hfinal with ⟨shape, hfinal, hshape⟩
  have hreturn : r.finalReturn? = some
      (r.transformation defaultEvent none shape (r.removedIn r.defaultScope) ret.line) := by
    unfold Routine.finalReturn?
    rw [hparts, getLast?_returns hkind, Option.bind_eq_bind, Option.bind_some, hfinal]
    rfl
  refine ⟨_, _, ?_, rfl, prepares_transformation r defaultEvent none hshape
    (r.removedIn r.defaultScope) ret.line, hfollows⟩
  have hfold : r.body.parts.foldl r.addStatement {} =
      r.body.parts.dropLast.foldl r.addStatement {} := by
    calc
      _ = (r.body.parts.dropLast ++ [ret]).foldl r.addStatement {} :=
        congrArg (List.foldl r.addStatement {}) hparts
      _ = _ := by
        rw [List.foldl_append, List.foldl_cons, List.foldl_nil, hstatement]
  unfold Routine.transformations
  rw [hprogram.block, hreturn, hfold]
  rfl

end

/-- What arrives for a producer are the keys of the object that the routine gives when it
is run on the event and the payload of the producer. -/
theorem simulate_keys_iff_run {prepareFunctions generators : List String} {path : String}
    {program : Node} {r : Routine} {event payload : String} {prep : Preparation}
    (hroutine : routine? prepareFunctions generators path program = some r)
    (hprogram : r.IsProgram event payload prep)
    (hunhidden : forall reply, reply ∈ prep.replies -> Item.payload ∈ reply ->
      Unhidden payload r.body) (p : ProducerContract) (e : String)
    (hproducer : p.targetEvent = EventName.normalize e) (k : String) :
    k ∈ Listing.keys
        (simulate p (contracts prepareFunctions generators path program)).properties <->
      k ∈ prep.run e p.propertyNames := by
  rcases transformations_of_isProgram hprogram hunhidden with
    ⟨b, last, hts, hlast, hprepares, hfollows⟩
  have hcontracts : contracts prepareFunctions generators path program = b.special ++ [last] := by
    unfold contracts
    rw [hroutine, ← hts]
    rfl
  have hresolve := resolve_append_last hfollows.special hlast (EventName.normalize_ne_star e)
  show k ∈ Listing.keys (Simulation.properties p (Simulation.resolve p.targetEvent _)) <-> _
  rw [hproducer, hcontracts, hresolve, Simulation.mem_keys_properties]
  have hreply := hfollows.replies e
  unfold Preparation.run Preparation.reply
  cases hfound : b.special.find? fun t => t.event == EventName.normalize e with
  | none =>
      rw [hfound] at hreply
      cases hchain : prep.chains.findSome? (chainReply? e) with
      | none =>
          exact hprepares p k
      | some reply =>
          rw [hchain] at hreply
          cases hreply
  | some t =>
      rw [hfound] at hreply
      cases hchain : prep.chains.findSome? (chainReply? e) with
      | none =>
          rw [hchain] at hreply
          cases hreply
      | some reply =>
          rw [hchain] at hreply
          cases hreply with
          | some hreply =>
              exact hreply p k

def gestureSource : String :=
  "function f(e, d) \x7b
  if (e === 'drop' || ['drag'].includes(e)) return \x7b x \x7d;
  else if ('Drop' == e) return \x7b y \x7d;
  return \x7b ...d, at: 1 \x7d;
\x7d"

/-- The second branch asks for an event that the first one has answered. -/
def gestures : Preparation :=
  ⟨[[⟨.either (.is "drop") (.oneOf ["drag"]), [.key "x"]⟩, ⟨.is "Drop", [.key "y"]⟩]],
   [.payload, .key "at"]⟩

/-- A producer that sends two properties with an event. -/
def sender (event : String) : ProducerContract :=
  ⟨"send", EventName.normalize event, event, [],
    ["x", "z"].map fun name => ⟨name, .parameter, some name, name, 1⟩, "send.js", 1⟩

theorem gestures_agree :
    exists program r, parseSource "f.js" gestureSource = .ok program ∧
      routine? ["f"] [] "f.js" program = some r ∧
      r.IsProgram "e" "d" gestures ∧ Unhidden "d" r.body ∧
      gestures.run "DROP" ["x", "z"] = ["x"] ∧
      gestures.run "hover" ["x", "z"] = ["x", "z", "at"] ∧
      (forall k, k ∈ Listing.keys (simulate (sender "DROP")
        (contracts ["f"] [] "f.js" program)).properties <-> k ∈ ["x"]) ∧
      forall k, k ∈ Listing.keys (simulate (sender "hover")
        (contracts ["f"] [] "f.js" program)).properties <-> k ∈ ["x", "z", "at"] := by
  have hread : ((parseSource "f.js" gestureSource).toOption.any fun program =>
      (routine? ["f"] [] "f.js" program).any fun r =>
        decide (r.IsProgram "e" "d" gestures ∧ Unhidden "d" r.body)) = true := by
    decide +kernel
  cases hparse : parseSource "f.js" gestureSource with
  | error e =>
      rw [hparse] at hread
      cases hread
  | ok program =>
      rw [hparse] at hread
      rcases (Option.any_eq_true ..).mp hread with ⟨_, ⟨⟩, hread⟩
      rcases (Option.any_eq_true ..).mp hread with ⟨r, hroutine, hprogram⟩
      rcases of_decide_eq_true hprogram with ⟨hprogram, hunhidden⟩
      have hdrop : gestures.run "DROP" ["x", "z"] = ["x"] := by decide +kernel
      have hhover : gestures.run "hover" ["x", "z"] = ["x", "z", "at"] := by decide +kernel
      refine ⟨program, r, rfl, hroutine, hprogram, hunhidden, hdrop, hhover, ?_, ?_⟩
      · intro k
        rw [← hdrop]
        exact simulate_keys_iff_run hroutine hprogram (fun _ _ _ => hunhidden) (sender "DROP")
          "DROP" rfl k
      · intro k
        rw [← hhover]
        exact simulate_keys_iff_run hroutine hprogram (fun _ _ _ => hunhidden) (sender "hover")
          "hover" rfl k

def innerPayloadSource : String :=
  "function f(e, d) \x7b return \x7b b: () => \x7b const d = \x7b z: 1 \x7d; \x7d, ...d \x7d; \x7d"

def innerPayload : Preparation :=
  ⟨[], [.key "b", .payload]⟩

/-- A variable of a nested function takes the place of the payload that is spread: what was
sent gets lost, and a property arrives that nobody sends. -/
theorem innerPayload_disagrees :
    exists program r, parseSource "f.js" innerPayloadSource = .ok program ∧
      routine? ["f"] [] "f.js" program = some r ∧
      r.IsProgram "e" "d" innerPayload ∧
      innerPayload.run "drop" (sender "drop").propertyNames = ["b", "x", "z"] ∧
      Listing.keys (simulate (sender "drop")
        (contracts ["f"] [] "f.js" program)).properties = ["b", "z"] := by
  have hread : ((parseSource "f.js" innerPayloadSource).toOption.any fun program =>
      (routine? ["f"] [] "f.js" program).any fun r =>
        decide (r.IsProgram "e" "d" innerPayload ∧
          Listing.keys (simulate (sender "drop")
            (contracts ["f"] [] "f.js" program)).properties = ["b", "z"])) = true := by
    decide +kernel
  cases hparse : parseSource "f.js" innerPayloadSource with
  | error e =>
      rw [hparse] at hread
      cases hread
  | ok program =>
      rw [hparse] at hread
      rcases (Option.any_eq_true ..).mp hread with ⟨_, ⟨⟩, hread⟩
      rcases (Option.any_eq_true ..).mp hread with ⟨r, hroutine, hcheck⟩
      rcases of_decide_eq_true hcheck with ⟨hprogram, hkeys⟩
      exact ⟨program, r, rfl, hroutine, hprogram, by decide +kernel, hkeys⟩

end Broker
end PayloadFlow
