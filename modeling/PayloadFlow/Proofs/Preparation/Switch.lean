import PayloadFlow.Proofs.Preparation.Branches
import PayloadFlow.Proofs.Preparation.FallThrough

/-!
# Routines that are one switch

The transformations of a prepare routine that consists of a switch on the event are read
clause by clause.  They give what a run of the routine gives if the switch is orderly, and
with distinct labels and answers only then.
-/

namespace PayloadFlow
namespace Broker

open Script

structure Answer where
  scope : Scope
  ret : Node

def Answer.ofScope? (scope : Scope) : Option Answer :=
  match scope.statements with
  | [statement] =>
      ((soleReturn? statement).filter fun ret =>
        ret.firstNamed?.any fun value => value.unwrap.kind == .object).map fun ret => ⟨scope, ret⟩
  | _ => none

def Scope.IsBody (scope : Scope) : Prop :=
  scope.statements.isEmpty = true ∨ (Answer.ofScope? scope).isSome = true

def Clause.ofNode (n : Node) : Clause Answer :=
  ⟨if n.kind == .switchCase then (n.child? .value).bind plainText? else none,
    Answer.ofScope? (Routine.clauseScope n)⟩

def IsClause (n : Node) : Prop :=
  (n.kind = .switchDefault ∨ (n.kind = .switchCase ∧ (Clause.ofNode n).isCase = true)) ∧
    (Routine.clauseScope n).IsBody

namespace Routine

/-- A routine that is a switch on the event, and perhaps one return after it. -/
def IsSwitch (r : Routine) : Prop :=
  r.body.kind = .statementBlock ∧
    (exists n, n ∈ r.body.parts.head? ∧ n.kind = .switchStatement ∧
      (exists value, value ∈ n.child? .value ∧ r.isEventRef value = true) ∧
      exists body, body ∈ n.child? .body ∧ forall clause, clause ∈ body.parts -> IsClause clause) ∧
    (forall n, n ∈ r.body.parts.tail -> n.kind = .returnStatement) ∧ r.defaultScope.IsBody

def clauseNodes (r : Routine) : List Node :=
  ((r.body.parts.head?.bind (·.child? .body)).map Node.parts).getD []

def switch (r : Routine) : Switch Answer :=
  ⟨r.clauseNodes.map Clause.ofNode, Answer.ofScope? r.defaultScope⟩

end Routine

instance (scope : Scope) : Decidable scope.IsBody :=
  inferInstanceAs (Decidable (_ ∨ _))

instance (n : Node) : Decidable (IsClause n) :=
  inferInstanceAs (Decidable (_ ∧ _))

instance (r : Routine) : Decidable r.IsSwitch :=
  inferInstanceAs (Decidable (_ ∧ _ ∧ _ ∧ _))

/-!
# Answers and transformations
-/

/-- A transformation has the shape of the object that an answer gives back: it lets just the
keys of the object through. -/
structure Gives (r : Routine) (t : BrokerTransformation) (a : Answer) : Prop where
  shape : exists shape, r.returnShape? a.scope a.ret = some shape ∧
    t = r.transformation t.event t.condition shape t.removedProperties t.line
  keys : forall payload reply, Returns payload reply a.ret ->
    (Item.payload ∈ reply -> Unhidden payload a.scope.node ∧ Unhidden payload r.body) ->
    Prepares t reply

section

variable {r : Routine} {scope : Scope} {a : Answer}

theorem gives_transformation {shape : Shape} (hshape : r.returnShape? a.scope a.ret = some shape)
    (event : String) (condition : Option String) (removed : List String) (line : Nat) :
    Gives r (r.transformation event condition shape removed line) a := by
  refine ⟨⟨shape, hshape, rfl⟩, fun payload reply hreturns hunhidden => ?_⟩
  rcases returnShape?_of_returns hreturns hunhidden with ⟨other, hother, hof⟩
  cases hshape.symm.trans hother
  exact prepares_transformation r event condition hof removed line

theorem scopeShape?_of_answer (ha : Answer.ofScope? scope = some a) :
    exists shape, r.scopeShape? scope = some shape ∧ r.returnShape? a.scope a.ret = some shape := by
  unfold Answer.ofScope? at ha
  split at ha
  · rename_i statement hstatements
    rcases Option.map_eq_some_iff.mp ha with ⟨ret, hfilter, rfl⟩
    rcases Option.filter_eq_some_iff.mp hfilter with ⟨hret, hobject⟩
    rcases (Option.any_eq_true ..).mp hobject with ⟨value, hvalue, hkind⟩
    have hlast : terminalReturn? scope.statements = some ret := by
      rw [hstatements, terminalReturn?, List.reverse_singleton, List.findSome?_singleton]
      exact lastReturn?_of_soleReturn? hret
    have hshape := returnShape?_of_object r scope hvalue (beq_iff_eq.mp hkind)
    refine ⟨_, ?_, hshape⟩
    unfold Routine.scopeShape?
    rw [hlast]
    exact hshape
  · cases ha

theorem ofScope?_of_isEmpty (hempty : scope.statements.isEmpty = true) :
    Answer.ofScope? scope = none := by
  unfold Answer.ofScope?
  rw [List.isEmpty_iff.mp hempty]

theorem isEmpty_of_ofScope? (hbody : scope.IsBody) (hnone : Answer.ofScope? scope = none) :
    scope.statements.isEmpty = true := by
  rcases hbody with hempty | hsome
  · exact hempty
  · rw [hnone] at hsome
    cases hsome

theorem rel_fallbackOf? (hbody : scope.IsBody) (line : Nat) :
    Option.Rel (Gives r) (r.fallbackOf? scope line) (Answer.ofScope? scope) := by
  unfold Routine.fallbackOf?
  cases hanswer : Answer.ofScope? scope with
  | none =>
      have hshape : r.scopeShape? scope = none := by
        unfold Routine.scopeShape?
        rw [List.isEmpty_iff.mp (isEmpty_of_ofScope? hbody hanswer)]
        rfl
      rw [hshape]
      exact Option.Rel.none
  | some a =>
      rcases scopeShape?_of_answer (r := r) hanswer with ⟨shape, hscope, hshape⟩
      rw [hscope]
      exact Option.Rel.some (gives_transformation hshape _ _ _ _)

end

/-!
# Reading the clauses

What has been read of a switch is a choice of answers for events, one for all others, and the
events that wait for a body.
-/

structure Reads (r : Routine) (state : Branches × List CaseLabel)
    (special : String -> Option Answer) (fallback : Option Answer) (waiting : String -> Bool) :
    Prop where
  special : forall e, Option.Rel (Gives r)
    (state.1.special.find? fun t => t.event == EventName.normalize e) (special e)
  fallback : Option.Rel (Gives r) state.1.fallback fallback
  waiting : forall e, (state.2.any fun label =>
    EventName.normalize label.event == EventName.normalize e) = waiting e

section

variable {r : Routine} {state : Branches × List CaseLabel} {special : String -> Option Answer}
  {fallback : Option Answer} {waiting : String -> Bool} {n : Node}

theorem caseLabel?_of_isCase (hkind : n.kind = .switchCase)
    (hcase : (Clause.ofNode n).isCase = true) :
    exists label, Routine.caseLabel? n = some label ∧
      (Clause.ofNode n).label = some label.event := by
  rcases Option.isSome_iff_exists.mp hcase with ⟨text, htext⟩
  have hplain : (n.child? .value).bind plainText? = some text := by
    rw [← htext, Clause.ofNode, hkind]
    rfl
  rcases Option.bind_eq_some_iff.mp hplain with ⟨value, hvalue, hplain⟩
  refine ⟨⟨text, "case " ++ value.text, n.line⟩, ?_, htext⟩
  unfold Routine.caseLabel?
  rw [hvalue, Option.bind_eq_bind, Option.bind_some, stringValue?_of_plainText? hplain]
  rfl

theorem isFor_of_label {c : Clause Answer} {label : CaseLabel} (hlabel : c.label = some label.event)
    (e : String) : c.isFor e = (EventName.normalize label.event == EventName.normalize e) := by
  rw [Clause.isFor, hlabel]
  rfl

theorem rel_labels {labels : List CaseLabel} {a : Answer} {shape : Shape}
    (hshape : r.returnShape? a.scope a.ret = some shape) (removed : List String) (e : String) :
    Option.Rel (Gives r)
      ((labels.map fun label => r.transformation (EventName.normalize label.event)
        (some label.condition) shape removed label.line).find?
          fun t => t.event == EventName.normalize e)
      (if labels.any fun label => EventName.normalize label.event == EventName.normalize e
        then some a else none) := by
  induction labels with
  | nil =>
      exact Option.Rel.none
  | cons label rest ih =>
      rw [List.map_cons, List.any_cons]
      by_cases hfor : (EventName.normalize label.event == EventName.normalize e) = true
      · rw [List.find?_cons_of_pos (by exact hfor), hfor, Bool.true_or, if_pos rfl]
        exact Option.Rel.some (gives_transformation hshape _ _ _ _)
      · rw [List.find?_cons_of_neg (by exact hfor), Bool.eq_false_of_not_eq_true hfor,
          Bool.false_or]
        exact ih

theorem reads_case (h : Reads r state special fallback waiting) (hkind : n.kind = .switchCase)
    (hcase : (Clause.ofNode n).isCase = true) (hbody : (Routine.clauseScope n).IsBody) :
    Reads r (r.switchClause state n)
      (fun e => (special e).or ((Clause.ofNode n).answer? e (waiting e))) fallback
      (fun e => (Clause.ofNode n).waitsAfter e (waiting e)) := by
  rcases caseLabel?_of_isCase hkind hcase with ⟨label, hlabel, hevent⟩
  have hheard : forall e, ((state.2 ++ [label]).any fun label =>
      EventName.normalize label.event == EventName.normalize e) =
      (waiting e || (Clause.ofNode n).isFor e) := by
    intro e
    rw [List.any_append, h.waiting, isFor_of_label hevent, List.any_cons, List.any_nil,
      Bool.or_false]
  rw [Routine.switchClause_eq]
  simp only [hkind, hlabel, Option.toList_some]
  cases hanswer : (Clause.ofNode n).body with
  | none =>
      -- the labels wait on
      rw [if_pos (isEmpty_of_ofScope? hbody hanswer)]
      refine ⟨fun e => ?_, h.fallback, fun e => ?_⟩
      · rw [Clause.answer?, hanswer, ite_self, Option.or_none]
        exact h.special e
      · rw [Clause.waitsAfter, hcase, hanswer, if_pos rfl]
        exact hheard e
  | some a =>
      have hfull : ¬ (Routine.clauseScope n).statements.isEmpty = true := by
        intro hempty
        cases (ofScope?_of_isEmpty hempty).symm.trans hanswer
      rcases scopeShape?_of_answer (r := r) hanswer with ⟨shape, hscope, hshape⟩
      rw [if_neg hfull, hscope]
      refine ⟨fun e => ?_, ?_, fun e => ?_⟩
      · rw [find?_pushAll, Clause.answer?, hcase, hanswer, Bool.true_and, ← hheard]
        exact rel_or (h.special e) (rel_labels hshape _ e)
      · rw [fallback_pushAll]
        exact h.fallback
      · rw [Clause.waitsAfter, hcase, hanswer, if_pos rfl]
        rfl

/-- A default more; the labels wait on. -/
theorem reads_default (h : Reads r state special fallback waiting)
    (hkind : n.kind = .switchDefault) (hbody : (Routine.clauseScope n).IsBody) :
    Reads r (r.switchClause state n) special (fallback.or (Clause.ofNode n).body) waiting := by
  rw [Routine.switchClause_eq]
  simp only [hkind]
  exact ⟨h.special, rel_or h.fallback (rel_fallbackOf? hbody _), h.waiting⟩

theorem reads_clauses {ns : List Node} (hclauses : forall n, n ∈ ns -> IsClause n)
    (h : Reads r state special fallback waiting) :
    exists waiting', Reads r (ns.foldl r.switchClause state)
      (fun e => (special e).or (readOn e (waiting e) (ns.map Clause.ofNode)))
      (fallback.or (firstBody? ((ns.map Clause.ofNode).filter fun c => !c.isCase))) waiting' := by
  induction ns generalizing state special fallback waiting with
  | nil =>
      refine ⟨waiting, ?_⟩
      simpa [readOn, firstBody?] using h
  | cons n ns ih =>
      have hrest : forall m, m ∈ ns -> IsClause m :=
        fun m hm => hclauses m (List.mem_cons_of_mem n hm)
      rcases hclauses n List.mem_cons_self with ⟨hdefault | ⟨hkind, hcase⟩, hbody⟩
      · have hnot : (Clause.ofNode n).isCase = false := by
          rw [Clause.isCase, Clause.ofNode, hdefault]
          rfl
        rcases ih hrest (reads_default h hdefault hbody) with ⟨waiting', hreads⟩
        refine ⟨waiting', ?_⟩
        have hread : forall e, readOn e (waiting e) ((n :: ns).map Clause.ofNode) =
            readOn e (waiting e) (ns.map Clause.ofNode) := by
          intro e
          rw [List.map_cons, readOn, Clause.answer?, Clause.waitsAfter, hnot]
          rfl
        have hfilter : (((n :: ns).map Clause.ofNode).filter fun c => !c.isCase) =
            Clause.ofNode n :: ((ns.map Clause.ofNode).filter fun c => !c.isCase) := by
          rw [List.map_cons, List.filter_cons_of_pos (by simp [hnot])]
        simp only [hread, hfilter, firstBody?_cons, ← Option.or_assoc]
        exact hreads
      · rcases ih hrest (reads_case h hkind hcase hbody) with ⟨waiting', hreads⟩
        refine ⟨waiting', ?_⟩
        have hfilter : (((n :: ns).map Clause.ofNode).filter fun c => !c.isCase) =
            (ns.map Clause.ofNode).filter fun c => !c.isCase := by
          rw [List.map_cons, List.filter_cons_of_neg (by simp [hcase])]
        rw [hfilter]
        simp only [List.map_cons, readOn, ← Option.or_assoc]
        exact hreads

theorem soleReturn?_of_return (hkind : n.kind = .returnStatement) : soleReturn? n = some n := by
  unfold soleReturn?
  simp only [hkind]

theorem rel_finalReturn? {ends : List Node} (hparts : r.body.parts = n :: ends)
    (hkind : n.kind = .switchStatement) (hends : forall m, m ∈ ends -> m.kind = .returnStatement)
    (hbody : r.defaultScope.IsBody) :
    Option.Rel (Gives r) r.finalReturn? (Answer.ofScope? r.defaultScope) := by
  have hstatements : r.defaultScope.statements = ends := by
    unfold Routine.defaultScope
    rw [hparts, List.filter_cons_of_neg (by simp [hkind]), List.filter_eq_self]
    intro m hm
    rw [hends m hm]
    rfl
  have hreturns : (r.body.parts.filter fun s => s.kind == .returnStatement) = ends := by
    rw [hparts, List.filter_cons_of_neg (by simp [hkind]), List.filter_eq_self]
    intro m hm
    rw [hends m hm]
    rfl
  unfold Routine.finalReturn?
  rw [hreturns, Option.bind_eq_bind]
  cases hanswer : Answer.ofScope? r.defaultScope with
  | none =>
      have hempty := isEmpty_of_ofScope? hbody hanswer
      rw [hstatements, List.isEmpty_iff] at hempty
      rw [hempty]
      exact Option.Rel.none
  | some a =>
      rcases scopeShape?_of_answer (r := r) hanswer with ⟨shape, _, hshape⟩
      unfold Answer.ofScope? at hanswer
      rw [hstatements] at hanswer
      split at hanswer
      · rename_i statement
        rcases Option.map_eq_some_iff.mp hanswer with ⟨ret, hfilter, rfl⟩
        have hret := (Option.filter_eq_some_iff.mp hfilter).1
        rw [soleReturn?_of_return (hends statement List.mem_cons_self)] at hret
        cases hret
        rw [List.getLast?_singleton, Option.bind_some, hshape]
        exact Option.Rel.some (gives_transformation hshape _ _ _ _)
      · cases hanswer

theorem foldl_addStatement_of_returns {ns : List Node}
    (hns : forall m, m ∈ ns -> m.kind = .returnStatement) (b : Branches) :
    ns.foldl r.addStatement b = b := by
  induction ns with
  | nil =>
      rfl
  | cons m ns ih =>
      have hfirst : r.addStatement b m = b := by
        unfold Routine.addStatement
        simp only [hns m List.mem_cons_self]
      rw [List.foldl_cons, hfirst]
      exact ih fun m' hm' => hns m' (List.mem_cons_of_mem m hm')

theorem branches_of_isSwitch (hswitch : r.IsSwitch) :
    r.branches = (r.clauseNodes.foldl r.switchClause ({}, [])).1 := by
  rcases hswitch with ⟨_, ⟨n, hn, hkind, ⟨value, hvalue, href⟩, body, hbody, _⟩, hends, _⟩
  rw [Option.mem_def] at hn hvalue hbody
  have hfirst : r.addStatement {} n = (r.clauseNodes.foldl r.switchClause ({}, [])).1 := by
    unfold Routine.addStatement Routine.switchCases Routine.clauseNodes
    simp only [hkind, hvalue, hbody, href, hn, if_true, Option.bind_some, Option.map_some,
      Option.getD_some]
  unfold Routine.branches
  rw [List.eq_cons_of_mem_head? hn, List.foldl_cons, hfirst, foldl_addStatement_of_returns hends]

/-- Every event is answered by the first body of a case at or after its label. -/
theorem resolve_gives_answered (hswitch : r.IsSwitch) (e : String) :
    Option.Rel (Gives r) (Simulation.resolve (EventName.normalize e) r.transformations)
      (r.switch.answered e) := by
  have hbranches := branches_of_isSwitch hswitch
  rcases hswitch with ⟨hblock, ⟨n, hn, hkind, _, body, hbody, hclauses⟩, hends, hlast⟩
  rw [Option.mem_def] at hn hbody
  have hnodes : body.parts = r.clauseNodes := by
    unfold Routine.clauseNodes
    rw [hn, Option.bind_some, hbody]
    rfl
  have hstart : Reads r ({}, []) (fun _ => none) none (fun _ => false) := by
    constructor
    · intro e
      exact Option.Rel.none
    · exact Option.Rel.none
    · intro e
      rfl
  rw [hnodes] at hclauses
  rcases reads_clauses hclauses hstart with ⟨waiting, hreads⟩
  have hfinal := rel_finalReturn? (List.eq_cons_of_mem_head? hn) hkind hends hlast
  rw [Routine.resolve_transformations hblock, Routine.fallThrough?, hbranches,
    Switch.answered_eq_readOn]
  exact rel_or (hreads.special e) (rel_or hfinal hreads.fallback)

end

/-- The transformation that is resolved for an event gives the first body of a case at or
after the label of the event, and else what follows the switch or the body of the default.
That is what a run gives if the switch is orderly, and for distinct labels and answers only
if it is. -/
theorem resolve_follows_switch {prepareFunctions generators : List String} {path : String}
    {program : Node} {r : Routine}
    (hroutine : routine? prepareFunctions generators path program = some r)
    (hswitch : r.IsSwitch) (hlabels : (r.switch.clauses.map Clause.label).Nodup) :
    (forall e, Option.Rel (Gives r)
      (Simulation.resolve (EventName.normalize e)
        (contracts prepareFunctions generators path program)) (r.switch.answered e)) ∧
    (r.switch.Orderly -> forall e, r.switch.Spells e -> forall a, r.switch.returned e = some a ->
      exists t, Simulation.resolve (EventName.normalize e)
        (contracts prepareFunctions generators path program) = some t ∧ Gives r t a) ∧
    (r.switch.spellings.Nodup -> r.switch.answers.Nodup -> r.switch.ReadAsRun ->
      r.switch.Orderly) := by
  have hcontracts : contracts prepareFunctions generators path program = r.transformations := by
    unfold contracts
    rw [hroutine]
    rfl
  rw [hcontracts]
  refine ⟨resolve_gives_answered hswitch, ?_, Switch.orderly_of_readAsRun⟩
  intro horderly e hspells a hreturned
  have hanswered := Switch.answered_of_orderly hlabels horderly hspells hreturned
  have hgives := resolve_gives_answered hswitch e
  rw [hanswered] at hgives
  cases hresolve : Simulation.resolve (EventName.normalize e) r.transformations with
  | none =>
      rw [hresolve] at hgives
      cases hgives
  | some t =>
      rw [hresolve] at hgives
      cases hgives with
      | some hgives =>
          exact ⟨t, rfl, hgives⟩

instance {α : Type} (s : Switch α) (event : String) : Decidable (s.Spells event) :=
  inferInstanceAs (Decidable (forall c, c ∈ s.clauses -> _))

def groupedSource : String :=
  "function f(e, d) \x7b switch (e) \x7b case 'a': case 'b': return \x7b x \x7d;
  default: return \x7b ...d \x7d; \x7d \x7d"

theorem grouped_resolved :
    exists program r, parseSource "f.js" groupedSource = .ok program ∧
      routine? ["f"] [] "f.js" program = some r ∧ r.IsSwitch ∧ r.switch.Orderly ∧
      (exists t, Simulation.resolve "a" (contracts ["f"] [] "f.js" program) = some t ∧
        Prepares t [.key "x"]) ∧
      exists t, Simulation.resolve "c" (contracts ["f"] [] "f.js" program) = some t ∧
        Prepares t [.payload] := by
  have hread : parsesTo "f.js" groupedSource (fun program =>
      (routine? ["f"] [] "f.js" program).any fun r =>
        decide (r.IsSwitch ∧ (r.switch.clauses.map Clause.label).Nodup ∧ r.switch.Orderly ∧
          r.switch.Spells "a" ∧ r.switch.Spells "c" ∧ Unhidden "d" r.body ∧
          (exists a, a ∈ r.switch.returned "a" ∧ Returns "d" [.key "x"] a.ret) ∧
          exists a, a ∈ r.switch.returned "c" ∧ Returns "d" [.payload] a.ret ∧
            Unhidden "d" a.scope.node)) = true := by
    decide +kernel
  rcases exists_of_parsesTo hread with ⟨program, hparse, hprogram⟩
  rcases (Option.any_eq_true ..).mp hprogram with ⟨r, hroutine, hfacts⟩
  rcases of_decide_eq_true hfacts with ⟨hswitch, hlabels, horderly, ha, hc, hunhidden,
    ⟨first, hfirst, hkeys⟩, second, hsecond, hspread, hunhidden'⟩
  have hresolve := (resolve_follows_switch hroutine hswitch hlabels).2.1 horderly
  have hevent : EventName.normalize "a" = "a" ∧ EventName.normalize "c" = "c" := by
    decide +kernel
  rcases hresolve "a" ha first hfirst with ⟨t, ht, hgives⟩
  rcases hresolve "c" hc second hsecond with ⟨t', ht', hgives'⟩
  rw [hevent.1] at ht
  rw [hevent.2] at ht'
  refine ⟨program, r, hparse, hroutine, hswitch, horderly, ⟨t, ht, ?_⟩, t', ht', ?_⟩
  · apply hgives.keys "d" _ hkeys
    intro hpayload
    cases List.mem_singleton.mp hpayload
  · exact hgives'.keys "d" _ hspread fun _ => ⟨hunhidden', hunhidden⟩

def trailingSource : String :=
  "function f(e, d) \x7b switch (e) \x7b case 'a': return \x7b x \x7d;
  default: return \x7b y \x7d; \x7d return \x7b z \x7d; \x7d"

/-- A return that is never reached takes the place of the default. -/
theorem trailing_overrides_default :
    exists program r a t, parseSource "f.js" trailingSource = .ok program ∧
      routine? ["f"] [] "f.js" program = some r ∧ r.IsSwitch ∧
      r.switch.spellings.Nodup ∧ r.switch.Spells "c" ∧
      r.switch.returned "c" = some a ∧ Returns "d" [.key "y"] a.ret ∧
      Simulation.resolve "c" (contracts ["f"] [] "f.js" program) = some t ∧
      t.mappedNames = ["z"] := by
  have hread : parsesTo "f.js" trailingSource (fun program =>
      (routine? ["f"] [] "f.js" program).any fun r =>
        decide (r.IsSwitch ∧ r.switch.spellings.Nodup ∧ r.switch.Spells "c" ∧
          (exists a, a ∈ r.switch.returned "c" ∧ Returns "d" [.key "y"] a.ret) ∧
          exists t, t ∈ Simulation.resolve "c" (contracts ["f"] [] "f.js" program) ∧
            t.mappedNames = ["z"])) = true := by
    decide +kernel
  rcases exists_of_parsesTo hread with ⟨program, hparse, hprogram⟩
  rcases (Option.any_eq_true ..).mp hprogram with ⟨r, hroutine, hfacts⟩
  rcases of_decide_eq_true hfacts with ⟨hswitch, hspellings, hspells, ⟨a, ha, hkeys⟩, t, ht, hnames⟩
  exact ⟨program, r, a, t, hparse, hroutine, hswitch, hspellings, hspells, ha, hkeys, ht, hnames⟩

end Broker
end PayloadFlow
