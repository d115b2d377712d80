import PayloadFlow.Extract.Broker.Transformation
import PayloadFlow.Proofs.Comments.Shape

/-!
# Transformations and comments

Without comments a routine has the same transformations, guards and values as written
apart.
-/

namespace PayloadFlow

/-- A transformation without the texts of its guard and of its values. -/
def BrokerTransformation.withoutTexts (t : BrokerTransformation) : BrokerTransformation :=
  { t with
    condition := t.condition.map fun _ => ""
    outputMappings := t.outputMappings.map fun mapping => (mapping.1, "") }

namespace Broker

open Script Node BrokerTransformation

/-!
# One transformation
-/

theorem map_insert (name value : String) (table : List (String × String)) :
    ((Listing.insert name value table).map fun entry => (entry.1, "")) =
      Listing.insert name "" (table.map fun entry => (entry.1, "")) := by
  unfold Listing.insert
  induction table with
  | nil =>
      rfl
  | cons entry rest ih =>
      rw [List.map_cons, Listing.alterBy, Listing.alterBy]
      cases compare name entry.1 with
      | lt =>
          rfl
      | eq =>
          rfl
      | gt =>
          exact congrArg (List.cons (entry.1, "")) ih

theorem map_foldl_insert {r : Routine} {entries others : List (String × String)}
    (h : List.Forall₂ (Shape.EntryAlike r) entries others) :
    ((others.foldl (fun t entry => Listing.insert entry.1 entry.2 t) []).map
        fun entry => (entry.1, "")) =
      (entries.foldl (fun t entry => Listing.insert entry.1 entry.2 t) []).map
        fun entry => (entry.1, "") := by
  refine List.rel_foldl
    (P := fun table other : List (String × String) =>
      (other.map fun entry => (entry.1, "")) = table.map fun entry => (entry.1, "")) ?_ rfl h
  intro table other htable entry entry' hentry
  dsimp only
  rw [map_insert, map_insert, htable, hentry.name]

namespace Routine

variable {r : Routine} {scope : Scope}

theorem added_of_alike (hasSpread : Bool) {entries others : List (String × String)}
    (h : List.Forall₂ (Shape.EntryAlike r) entries others) :
    (others.filter fun e => hasSpread || r.uncommented.isGenerated e.1 e.2).map (·.1) =
      (entries.filter fun e => hasSpread || r.isGenerated e.1 e.2).map (·.1) := by
  induction h with
  | nil =>
      rfl
  | @cons entry other rest rest' halike _ ih =>
      have hgenerated : r.uncommented.isGenerated other.1 other.2 =
          r.isGenerated entry.1 entry.2 := by
        have htraceable : r.uncommented.isTraceable other.2 = r.isTraceable entry.2 :=
          halike.text.traceable
        unfold isGenerated
        rw [halike.name, halike.text.generated, htraceable]
        rfl
      rw [List.filter_cons, List.filter_cons, hgenerated]
      split
      · rw [List.map_cons, List.map_cons, ih, halike.name]
      · exact ih

theorem transformation_of_alike {s t : Shape} (h : s.Alike r t) (event : String)
    {condition other : Option String}
    (hcondition : (other.map fun _ => "") = condition.map fun _ => "") (removed : List String)
    (line : Nat) :
    (r.uncommented.transformation event other t removed line).withoutTexts =
      (r.transformation event condition s removed line).withoutTexts := by
  unfold transformation withoutTexts
  dsimp only
  rw [hcondition, map_foldl_insert h.entries, h.hasSpread, added_of_alike s.hasSpread h.entries]
  rfl

theorem fallbackOf?_uncommented (hr : r.Tidied) (hvalues : r.ValuesAlike)
    (hscope : scope.Inside r.body) (line : Nat) :
    (r.uncommented.fallbackOf? scope.uncommented line).map withoutTexts =
      (r.fallbackOf? scope line).map withoutTexts := by
  have hshape := scopeShape?_uncommented hr hvalues hscope
  unfold fallbackOf?
  rw [removedIn_uncommented hr hvalues hscope]
  generalize r.scopeShape? scope = shape at hshape
  generalize r.uncommented.scopeShape? scope.uncommented = other at hshape
  cases hshape with
  | none =>
      rfl
  | some halike =>
      exact congrArg some (transformation_of_alike halike defaultEvent rfl _ line)

theorem guardedBranch_uncommented (hr : r.Tidied) (hvalues : r.ValuesAlike)
    (hscope : scope.Inside r.body) (events : List String) (condition other : String) (line : Nat) :
    (r.uncommented.guardedBranch events other scope.uncommented line).map withoutTexts =
      (r.guardedBranch events condition scope line).map withoutTexts := by
  have hshape := scopeShape?_uncommented hr hvalues hscope
  unfold guardedBranch
  rw [removedIn_uncommented hr hvalues hscope]
  generalize r.scopeShape? scope = shape at hshape
  generalize r.uncommented.scopeShape? scope.uncommented = shape' at hshape
  cases hshape with
  | none =>
      rfl
  | some halike =>
      dsimp only
      rw [List.map_map, List.map_map]
      apply List.map_congr_left
      intro event _
      exact transformation_of_alike halike (EventName.normalize event) rfl _ line

end Routine

/-!
# Branches

Which branches are kept is decided by their events, so that texts may be left out before
or after.
-/

namespace Branches

def withoutTexts (b : Branches) : Branches :=
  { special := b.special.map BrokerTransformation.withoutTexts
    fallback := b.fallback.map BrokerTransformation.withoutTexts }

theorem push_withoutTexts (b : Branches) (t : BrokerTransformation) :
    (b.push t).withoutTexts = b.withoutTexts.push t.withoutTexts := by
  have hany : ((b.special.map BrokerTransformation.withoutTexts).any fun other =>
      other.event == t.withoutTexts.event) = b.special.any fun other => other.event == t.event := by
    rw [List.any_map]
    rfl
  unfold push withoutTexts
  dsimp only
  rw [hany]
  split
  · rfl
  · rw [List.map_append]
    rfl

theorem pushAll_withoutTexts (b : Branches) (ts : List BrokerTransformation) :
    (b.pushAll ts).withoutTexts =
      b.withoutTexts.pushAll (ts.map BrokerTransformation.withoutTexts) := by
  unfold pushAll
  induction ts generalizing b with
  | nil =>
      rfl
  | cons t rest ih =>
      rw [List.foldl_cons, List.map_cons, List.foldl_cons, ih, push_withoutTexts]

theorem pushAll_congr {b b' : Branches} {ts ts' : List BrokerTransformation}
    (hb : b'.withoutTexts = b.withoutTexts)
    (hts : ts'.map BrokerTransformation.withoutTexts = ts.map BrokerTransformation.withoutTexts) :
    (b'.pushAll ts').withoutTexts = (b.pushAll ts).withoutTexts := by
  rw [pushAll_withoutTexts, pushAll_withoutTexts, hb, hts]

theorem orFallback_congr {b b' : Branches} {t t' : Option BrokerTransformation}
    (hb : b'.withoutTexts = b.withoutTexts)
    (ht : t'.map BrokerTransformation.withoutTexts = t.map BrokerTransformation.withoutTexts) :
    (b'.orFallback t').withoutTexts = (b.orFallback t).withoutTexts := by
  have hspecial := congrArg special hb
  have hfallback := congrArg fallback hb
  unfold withoutTexts at hspecial hfallback ⊢
  unfold orFallback
  dsimp only at hspecial hfallback ⊢
  rw [hspecial, Option.map_or, Option.map_or, hfallback, ht]

end Branches

namespace Routine

variable {r : Routine} {b b' : Branches}

/-!
# Conditional statements
-/

theorem guardedBranches_uncommented (hr : r.Tidied) (hvalues : r.ValuesAlike)
    {n condition consequence : Node} (hcondition : condition.Tidied)
    (hconsequence : consequence ∈ r.body.family) (hb : b'.withoutTexts = b.withoutTexts) :
    (r.uncommented.guardedBranches n.uncommented condition.uncommented consequence.uncommented
        b').withoutTexts =
      (r.guardedBranches n condition consequence b).withoutTexts := by
  unfold guardedBranches
  rw [unwrap_uncommented hcondition, guardEvents_uncommented hr _ hcondition.unwrap,
    line_uncommented, Scope.ofBranch_uncommented]
  cases r.guardEvents condition.unwrap with
  | none =>
      exact hb
  | some events =>
      exact Branches.pushAll_congr hb
        (guardedBranch_uncommented hr hvalues (Scope.inside_ofBranch hconsequence) events _ _ _)

theorem ifChain_uncommented (hr : r.Tidied) (hvalues : r.ValuesAlike) (guarded : Bool) (n : Node)
    (hn : n ∈ r.body.family) (b b' : Branches) (hb : b'.withoutTexts = b.withoutTexts) :
    (r.uncommented.ifChain guarded n.uncommented b').withoutTexts =
      (r.ifChain guarded n b).withoutTexts := by
  have h := hr.body.of_mem_family hn
  rw [ifChain_eq, ifChain_eq r, child?_uncommented h, child?_uncommented h, child?_uncommented h]
  cases hcondition : n.child? .condition with
  | none =>
      exact hb
  | some condition =>
      cases hconsequence : n.child? .consequence with
      | none =>
          exact hb
      | some consequence =>
          have hc := h.child hcondition
          have hguarded := guardedBranches_uncommented (n := n) hr hvalues hc
            (mem_family_child hn hconsequence) hb
          simp only [Option.map_some, unwrap_uncommented hc,
            guardEvents_uncommented hr _ hc.unwrap]
          cases halternative : n.child? .alternative with
          | none =>
              exact hguarded
          | some alternative =>
              simp only [Option.map_some, Option.bind_some, parts_uncommented, List.head?_map]
              cases hnext : alternative.parts.head? with
              | none =>
                  exact hguarded
              | some next =>
                  have hmem := mem_family_part (mem_family_child hn halternative)
                    (List.mem_of_head? hnext)
                  simp only [Option.map_some, kind_uncommented, line_uncommented,
                    Scope.ofBranch_uncommented]
                  split
                  · exact ifChain_uncommented hr hvalues _ next hmem _ _ hguarded
                  · split
                    · exact Branches.orFallback_congr hguarded
                        (fallbackOf?_uncommented hr hvalues (Scope.inside_ofBranch hmem) next.line)
                    · exact hguarded
termination_by sizeOf n
decreasing_by
  exact Nat.lt_trans (sizeOf_lt_of_mem_parts (List.mem_of_head? hnext))
    (sizeOf_lt_of_child? halternative)

/-!
# Switches
-/

def labelWithoutText (label : CaseLabel) : CaseLabel :=
  { label with condition := "" }

theorem caseLabel?_uncommented {clause : Node} (h : clause.Tidied) :
    (caseLabel? clause.uncommented).map labelWithoutText =
      (caseLabel? clause).map labelWithoutText := by
  unfold caseLabel?
  rw [child?_uncommented h, line_uncommented]
  cases hvalue : clause.child? .value with
  | none =>
      rfl
  | some value =>
      simp only [Option.map_some, Option.bind_eq_bind, Option.bind_some,
        stringValue?_uncommented (h.child hvalue)]
      cases value.stringValue? with
      | none =>
          rfl
      | some event =>
          rfl

theorem clauseScope_uncommented (clause : Node) :
    clauseScope clause.uncommented = (clauseScope clause).uncommented := by
  unfold clauseScope Scope.uncommented
  dsimp only
  rw [parts_uncommented, List.filter_map]
  congr 2
  apply List.filter_congr
  intro c _
  rw [Function.comp_apply, label_uncommented]

theorem inside_clauseScope {tree clause : Node} (hclause : clause ∈ tree.family) :
    (clauseScope clause).Inside tree := by
  constructor
  · exact hclause
  · intro s hs
    exact mem_family_part hclause (List.mem_filter.mp hs).1

/-- States of a switch with the same branches and labels, texts apart. -/
structure StateAlike (state other : Branches × List CaseLabel) : Prop where
  branches : other.1.withoutTexts = state.1.withoutTexts
  pending : other.2.map labelWithoutText = state.2.map labelWithoutText

theorem map_transformation_of_alike {s t : Shape} (h : s.Alike r t) (removed : List String)
    {pending pending' : List CaseLabel}
    (hpending : pending'.map labelWithoutText = pending.map labelWithoutText) :
    ((pending'.map fun label => r.uncommented.transformation (EventName.normalize label.event)
        (some label.condition) t removed label.line).map BrokerTransformation.withoutTexts) =
      (pending.map fun label => r.transformation (EventName.normalize label.event)
        (some label.condition) s removed label.line).map BrokerTransformation.withoutTexts := by
  let common (label : CaseLabel) : BrokerTransformation :=
    (r.transformation (EventName.normalize label.event) (some label.condition) s removed
      label.line).withoutTexts
  calc
    _ = (pending'.map labelWithoutText).map common := by
        rw [List.map_map, List.map_map]
        apply List.map_congr_left
        intro label _
        exact transformation_of_alike h (EventName.normalize label.event) rfl removed label.line
    _ = (pending.map labelWithoutText).map common := by
        rw [hpending]
    _ = _ := by
        rw [List.map_map, List.map_map]
        rfl

theorem switchClause_uncommented (hr : r.Tidied) (hvalues : r.ValuesAlike)
    {state other : Branches × List CaseLabel} (hstate : StateAlike state other) {clause : Node}
    (hclause : clause ∈ r.body.family) :
    StateAlike (r.switchClause state clause)
      (r.uncommented.switchClause other clause.uncommented) := by
  have hscope := inside_clauseScope hclause
  rw [switchClause_eq, switchClause_eq, kind_uncommented, clauseScope_uncommented,
    line_uncommented, removedIn_uncommented hr hvalues hscope]
  have hempty : (clauseScope clause).uncommented.statements.isEmpty =
      (clauseScope clause).statements.isEmpty := List.isEmpty_map
  have hpending : (other.2 ++ (caseLabel? clause.uncommented).toList).map labelWithoutText =
      (state.2 ++ (caseLabel? clause).toList).map labelWithoutText := by
    rw [List.map_append, List.map_append, hstate.pending, ← toList_map, ← toList_map,
      caseLabel?_uncommented (hr.body.of_mem_family hclause)]
  rw [hempty]
  cases clause.kind with
  | switchCase =>
      dsimp only
      split
      · exact ⟨hstate.branches, hpending⟩
      · have hshape := scopeShape?_uncommented hr hvalues hscope
        generalize r.scopeShape? (clauseScope clause) = shape at hshape
        generalize r.uncommented.scopeShape? (clauseScope clause).uncommented = shape' at hshape
        cases hshape with
        | none =>
            exact ⟨hstate.branches, rfl⟩
        | some halike =>
            exact ⟨Branches.pushAll_congr hstate.branches
              (map_transformation_of_alike halike _ hpending), rfl⟩
  | switchDefault =>
      exact ⟨Branches.orFallback_congr hstate.branches
        (fallbackOf?_uncommented hr hvalues hscope clause.line), hstate.pending⟩
  | _ =>
      exact hstate

theorem switchCases_uncommented (hr : r.Tidied) (hvalues : r.ValuesAlike) {n : Node}
    (hn : n ∈ r.body.family) (hb : b'.withoutTexts = b.withoutTexts) :
    (r.uncommented.switchCases n.uncommented b').withoutTexts =
      (r.switchCases n b).withoutTexts := by
  have h := hr.body.of_mem_family hn
  unfold switchCases
  rw [child?_uncommented h, child?_uncommented h]
  cases hvalue : n.child? .value with
  | none =>
      exact hb
  | some value =>
      cases hbody : n.child? .body with
      | none =>
          exact hb
      | some body =>
          simp only [Option.map_some, isEventRef_uncommented hr (h.child hvalue),
            parts_uncommented]
          split
          · have hclauses := forall₂_map_uncommented body.parts fun clause hclause =>
              mem_family_part (mem_family_child hn hbody) hclause
            have hstart : StateAlike (b, []) (b', []) := ⟨hb, rfl⟩
            refine (List.rel_foldl (P := StateAlike) ?_ hstart hclauses).branches
            rintro state other hstate clause _ ⟨rfl, hclause⟩
            exact switchClause_uncommented hr hvalues hstate hclause
          · exact hb

/-!
# Whole routines
-/

theorem addStatement_uncommented (hr : r.Tidied) (hvalues : r.ValuesAlike) {statement : Node}
    (hstatement : statement ∈ r.body.family) (hb : b'.withoutTexts = b.withoutTexts) :
    (r.uncommented.addStatement b' statement.uncommented).withoutTexts =
      (r.addStatement b statement).withoutTexts := by
  unfold addStatement
  rw [kind_uncommented]
  split
  · exact ifChain_uncommented hr hvalues false statement hstatement b b' hb
  · exact switchCases_uncommented hr hvalues hstatement hb
  · exact hb

theorem filter_kind_uncommented (p : Kind -> Bool) (n : Node) :
    (n.uncommented.parts.filter fun s => p s.kind) =
      (n.parts.filter fun s => p s.kind).map Node.uncommented := by
  rw [parts_uncommented, List.filter_map]
  congr 1
  apply List.filter_congr
  intro s _
  rw [Function.comp_apply, kind_uncommented]

theorem defaultScope_uncommented (r : Routine) :
    r.uncommented.defaultScope = r.defaultScope.uncommented := by
  unfold defaultScope Scope.uncommented
  dsimp only
  rw [← filter_kind_uncommented fun kind => kind != .ifStatement && kind != .switchStatement]
  rfl

theorem inside_defaultScope (r : Routine) : r.defaultScope.Inside r.body := by
  constructor
  · exact mem_family_self r.body
  · intro s hs
    exact mem_family_part (mem_family_self r.body) (List.mem_filter.mp hs).1

theorem finalReturn?_uncommented (hr : r.Tidied) (hvalues : r.ValuesAlike) :
    r.uncommented.finalReturn?.map BrokerTransformation.withoutTexts =
      r.finalReturn?.map BrokerTransformation.withoutTexts := by
  have hreturns := filter_kind_uncommented (fun kind => kind == .returnStatement) r.body
  have hbody : r.uncommented.body = r.body.uncommented := rfl
  unfold finalReturn?
  rw [defaultScope_uncommented, removedIn_uncommented hr hvalues (inside_defaultScope r), hbody,
    hreturns, List.getLast?_map]
  cases hlast : (r.body.parts.filter fun s => s.kind == .returnStatement).getLast? with
  | none =>
      rfl
  | some ret =>
      rcases List.mem_filter.mp (List.mem_of_getLast? hlast) with ⟨hpart, hkind⟩
      have hshape := returnShape?_uncommented hr hvalues (inside_defaultScope r)
        (beq_iff_eq.mp hkind) (mem_family_part (mem_family_self r.body) hpart)
      simp only [Option.map_some, Option.bind_eq_bind, Option.bind_some, line_uncommented]
      generalize r.returnShape? r.defaultScope ret = shape at hshape
      generalize r.uncommented.returnShape? r.defaultScope.uncommented ret.uncommented = other
        at hshape
      cases hshape with
      | none =>
          rfl
      | some halike =>
          exact congrArg some (transformation_of_alike halike defaultEvent rfl _ ret.line)

theorem transformations_uncommented (hr : r.Tidied) (hvalues : r.ValuesAlike) :
    r.uncommented.transformations.map BrokerTransformation.withoutTexts =
      r.transformations.map BrokerTransformation.withoutTexts := by
  have hbody : r.uncommented.body = r.body.uncommented := rfl
  unfold transformations
  rw [hbody, kind_uncommented, parts_uncommented, line_uncommented]
  split
  · have hparts := forall₂_map_uncommented r.body.parts fun s hs =>
      mem_family_part (mem_family_self r.body) hs
    have hbranches : ((r.body.parts.map Node.uncommented).foldl r.uncommented.addStatement
        {}).withoutTexts = (r.body.parts.foldl r.addStatement {}).withoutTexts := by
      refine List.rel_foldl
        (P := fun b b' : Branches => b'.withoutTexts = b.withoutTexts) ?_ rfl hparts
      rintro b b' hb statement _ ⟨rfl, hstatement⟩
      exact addStatement_uncommented hr hvalues hstatement hb
    have hspecial := congrArg Branches.special hbranches
    have hfallback := congrArg Branches.fallback hbranches
    unfold Branches.withoutTexts at hspecial hfallback
    dsimp only at hspecial hfallback ⊢
    rw [List.map_append, List.map_append, ← toList_map, ← toList_map, Option.map_or,
      Option.map_or, hspecial, hfallback, finalReturn?_uncommented hr hvalues]
  · have hinside : (Scope.mk r.body []).Inside r.body := by
      constructor
      · exact mem_family_self r.body
      · intro s hs
        cases hs
    have hshape := shapeOf?_uncommented hr hvalues hinside resolveDepth (mem_family_self r.body)
    have hscope : (Scope.mk r.body []).uncommented = ⟨r.body.uncommented, []⟩ := rfl
    rw [hscope] at hshape
    generalize r.shapeOf? ⟨r.body, []⟩ resolveDepth r.body = shape at hshape
    generalize r.uncommented.shapeOf? ⟨r.body.uncommented, []⟩ resolveDepth r.body.uncommented =
      other at hshape
    cases hshape with
    | none =>
        rfl
    | some halike =>
        exact congrArg (fun t => [t])
          (transformation_of_alike halike defaultEvent rfl [] r.body.line)

end Routine

/-!
# Contracts
-/

theorem findFunction_uncommented (names : List String) {program : Node} (h : program.Tidied) :
    (names.findSome? fun name => program.uncommented.functions.find? fun f => f.name == name) =
      (names.findSome? fun name => program.functions.find? fun f => f.name == name).map
        FunctionNode.uncommented := by
  rw [functions_uncommented h]
  induction names with
  | nil =>
      rfl
  | cons name rest ih =>
      have hfind : ((program.functions.map FunctionNode.uncommented).find? fun f =>
          f.name == name) =
          (program.functions.find? fun f => f.name == name).map FunctionNode.uncommented := by
        rw [List.find?_map]
        rfl
      rw [List.findSome?_cons, List.findSome?_cons, hfind]
      cases program.functions.find? fun f => f.name == name with
      | none =>
          exact ih
      | some f =>
          rfl

/-- Comments leave the transformations of the broker as they are, texts of guards and of
values apart. -/
theorem contracts_uncommented {prepareFunctions generators : List String} {path : String}
    {program : Node} (h : program.Tidied)
    (hvalues : forall r, r ∈ routine? prepareFunctions generators path program -> r.ValuesAlike) :
    (contracts prepareFunctions generators path program.uncommented).map withoutTexts =
      (contracts prepareFunctions generators path program).map withoutTexts := by
  unfold contracts
  unfold routine? at hvalues ⊢
  dsimp only at hvalues ⊢
  rw [findFunction_uncommented prepareFunctions h]
  cases hfound : prepareFunctions.findSome? fun name =>
      program.functions.find? fun f => f.name == name with
  | none =>
      rfl
  | some f =>
      rcases List.exists_of_findSome?_eq_some hfound with ⟨name, _, hf⟩
      have hftidied := tidied_of_mem_functions h (List.mem_of_find?_eq_some hf)
      rw [hfound] at hvalues
      have halike := hvalues _ rfl
      simp only [Option.map_some, Option.getD_some,
        Routine.ofFunction_uncommented hftidied halike]
      exact Routine.transformations_uncommented (Routine.tidied_ofFunction hftidied path generators)
        halike

end Broker
end PayloadFlow
