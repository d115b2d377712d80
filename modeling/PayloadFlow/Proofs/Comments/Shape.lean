import PayloadFlow.Extract.Broker.Shape
import PayloadFlow.Proofs.Comments.Routine
import PayloadFlow.Proofs.Preparation.Reading

/-!
# Shapes and comments

A region of a routine gives back the same properties without comments.  The texts of
their values may differ, but they are told from made up values in the same way.
-/

namespace PayloadFlow
namespace Broker

open Script Node

/-!
# Shapes side by side
-/

namespace Shape

structure TextAlike (r : Routine) (text other : String) : Prop where
  generated : (Expression.classify other == .generated) = (Expression.classify text == .generated)
  traceable : r.isTraceable other = r.isTraceable text

structure EntryAlike (r : Routine) (entry other : String × String) : Prop where
  name : other.1 = entry.1
  text : TextAlike r entry.2 other.2

/-- Shapes with the same properties, whose values are told apart in the same way. -/
structure Alike (r : Routine) (s t : Shape) : Prop where
  entries : List.Forall₂ (EntryAlike r) s.entries t.entries
  hasSpread : t.hasSpread = s.hasSpread

theorem TextAlike.refl (r : Routine) (text : String) : TextAlike r text text :=
  ⟨rfl, rfl⟩

variable {r : Routine} {s t : Shape}

theorem Alike.empty (r : Routine) : Alike r {} {} :=
  ⟨List.Forall₂.nil, rfl⟩

theorem Alike.spread (h : Alike r s t) : Alike r s.spread t.spread :=
  ⟨h.entries, rfl⟩

theorem forall₂_setEntry (name : String) {text other : String} (htext : TextAlike r text other)
    {entries others : List (String × String)} (h : List.Forall₂ (EntryAlike r) entries others) :
    List.Forall₂ (EntryAlike r) (setEntry name text entries) (setEntry name other others) := by
  induction h with
  | nil =>
      exact List.Forall₂.cons ⟨rfl, htext⟩ List.Forall₂.nil
  | @cons entry entry' rest rest' halike hrest ih =>
      unfold setEntry
      rw [halike.name]
      split
      · exact List.Forall₂.cons ⟨rfl, htext⟩ hrest
      · exact List.Forall₂.cons halike ih

theorem Alike.set (h : Alike r s t) (name : String) {text other : String}
    (htext : TextAlike r text other) : Alike r (s.set name text) (t.set name other) :=
  ⟨forall₂_setEntry name htext h.entries, h.hasSpread⟩

end Shape

namespace Routine

variable {r : Routine}

theorem isTraceable_of_mentionsAlike {value : Node} (h : MentionsAlike r.traceable value) :
    r.isTraceable value.uncommented.text = r.isTraceable value.text := by
  unfold isTraceable
  rw [Bool.eq_iff_iff, Derivation.any_contains_iff, Derivation.any_contains_iff]
  constructor
  · rintro ⟨name, hname, hmem⟩
    exact ⟨name, (h name hmem).mp hname, hmem⟩
  · rintro ⟨name, hname, hmem⟩
    exact ⟨name, (h name hmem).mpr hname, hmem⟩

theorem ValueAlike.textAlike {value : Node} (h : r.ValueAlike value) :
    Shape.TextAlike r value.text value.uncommented.text :=
  ⟨h.generated, isTraceable_of_mentionsAlike h.mentions⟩

end Routine

namespace Shape

variable {r : Routine} {s t : Shape} {onSpread other : Node -> Shape -> Shape}

theorem addEntry_uncommented
    (hspread : forall argument, argument ∈ r.body.family -> forall s t, Alike r s t ->
      Alike r (onSpread argument s) (other argument.uncommented t))
    {e : ObjectEntry} (he : e.Within r.body r.ValueAlike) (h : Alike r s t) :
    Alike r (addEntry onSpread s e) (addEntry other t e.uncommented) := by
  cases e with
  | pair key value line =>
      exact h.set key (Routine.ValueAlike.textAlike he)
  | shorthand name line =>
      exact h.set name (TextAlike.refl r name)
  | method name line =>
      exact h.set name (TextAlike.refl r "")
  | spread argument line =>
      exact hspread argument he s t h

theorem addObject_uncommented (hr : r.Tidied) (hvalues : r.ValuesAlike)
    (hspread : forall argument, argument ∈ r.body.family -> forall s t, Alike r s t ->
      Alike r (onSpread argument s) (other argument.uncommented t))
    {object : Node} (hobject : object ∈ r.body.family) (h : Alike r s t) :
    Alike r (addObject onSpread object s) (addObject other object.uncommented t) := by
  unfold addObject
  refine List.rel_foldl (P := Alike r) ?_ h
    (forall₂_objectEntries hr.body hvalues.written hobject)
  rintro s t hst e _ ⟨rfl, he⟩
  exact addEntry_uncommented hspread he hst

end Shape

/-!
# Regions
-/

namespace Scope

def uncommented (scope : Scope) : Scope :=
  ⟨scope.node.uncommented, scope.statements.map Node.uncommented⟩

structure Inside (tree : Node) (scope : Scope) : Prop where
  node : scope.node ∈ tree.family
  statements : forall s, s ∈ scope.statements -> s ∈ tree.family

theorem ofBranch_uncommented (branch : Node) :
    ofBranch branch.uncommented = (ofBranch branch).uncommented := by
  unfold ofBranch uncommented
  rw [kind_uncommented, parts_uncommented]
  cases branch.kind == .statementBlock with
  | true =>
      rfl
  | false =>
      rfl

theorem inside_ofBranch {tree branch : Node} (hbranch : branch ∈ tree.family) :
    (ofBranch branch).Inside tree := by
  constructor
  · exact hbranch
  · intro s hs
    unfold ofBranch at hs
    dsimp only at hs
    split at hs
    · exact mem_family_part hbranch hs
    · rw [List.mem_singleton.mp hs]
      exact hbranch

end Scope

/-!
# Returns
-/

theorem lastReturn?_of_other {n : Node} (hreturn : n.kind ≠ .returnStatement)
    (hblock : n.kind ≠ .statementBlock) : lastReturn? n = none := by
  rw [lastReturn?]
  split
  · rename_i hkind
    exact absurd hkind hreturn
  · rename_i hkind
    exact absurd hkind hblock
  · rfl

theorem lastReturn?_of_return {n : Node} (hkind : n.kind = .returnStatement) :
    lastReturn? n = some n := by
  rw [lastReturn?, hkind]

theorem lastReturn?_uncommented (n : Node) :
    lastReturn? n.uncommented = (lastReturn? n).map Node.uncommented := by
  by_cases hreturn : n.kind = .returnStatement
  · rw [lastReturn?_of_return hreturn, lastReturn?_of_return (by rw [kind_uncommented, hreturn])]
    rfl
  by_cases hblock : n.kind = .statementBlock
  · rw [lastReturn?_of_block hblock, lastReturn?_of_block (by rw [kind_uncommented, hblock]),
      parts_uncommented, terminalReturn?, terminalReturn?, ← List.map_reverse]
    apply findSome?_uncommented
    intro s hs
    exact lastReturn?_uncommented s
  · rw [lastReturn?_of_other hreturn hblock,
      lastReturn?_of_other (by rwa [kind_uncommented]) (by rwa [kind_uncommented])]
    rfl
termination_by sizeOf n
decreasing_by exact sizeOf_lt_of_mem_parts (List.mem_reverse.mp hs)

theorem terminalReturn?_uncommented (statements : List Node) :
    terminalReturn? (statements.map Node.uncommented) =
      (terminalReturn? statements).map Node.uncommented := by
  unfold terminalReturn?
  rw [← List.map_reverse]
  exact findSome?_uncommented _ fun s _ => lastReturn?_uncommented s

theorem lastReturn?_spec {tree : Node} (n : Node) (hn : n ∈ tree.family) {ret : Node}
    (hret : lastReturn? n = some ret) : ret.kind = .returnStatement ∧ ret ∈ tree.family := by
  by_cases hreturn : n.kind = .returnStatement
  · rw [lastReturn?_of_return hreturn] at hret
    cases hret
    exact ⟨hreturn, hn⟩
  by_cases hblock : n.kind = .statementBlock
  · rw [lastReturn?_of_block hblock] at hret
    rcases List.exists_of_findSome?_eq_some hret with ⟨s, hs, hret⟩
    exact lastReturn?_spec s (mem_family_part hn (List.mem_reverse.mp hs)) hret
  · rw [lastReturn?_of_other hreturn hblock] at hret
    cases hret
termination_by sizeOf n
decreasing_by exact sizeOf_lt_of_mem_parts (List.mem_reverse.mp hs)

theorem terminalReturn?_spec {tree : Node} {statements : List Node}
    (hstatements : forall s, s ∈ statements -> s ∈ tree.family) {ret : Node}
    (hret : terminalReturn? statements = some ret) :
    ret.kind = .returnStatement ∧ ret ∈ tree.family := by
  rcases List.exists_of_findSome?_eq_some hret with ⟨s, hs, hret⟩
  exact lastReturn?_spec s (hstatements s (List.mem_reverse.mp hs)) hret

/-!
# Returned expressions
-/

namespace Routine

variable {r : Routine} {scope : Scope}

theorem localValue?_uncommented (hr : r.Tidied) (hscope : scope.Inside r.body) (name : String) :
    r.uncommented.localValue? scope.uncommented name =
      (r.localValue? scope name).map Node.uncommented := by
  have hnode := Node.localValue?_uncommented (hr.body.of_mem_family hscope.node) name
  have hbody := Node.localValue?_uncommented hr.body name
  unfold localValue? uncommented Scope.uncommented
  dsimp only
  rw [hnode, hbody, Option.map_or]

theorem mem_family_of_localValue? (hscope : scope.Inside r.body) {name : String} {value : Node}
    (hvalue : r.localValue? scope name = some value) : value ∈ r.body.family := by
  rcases Option.or_eq_some_iff.mp hvalue with hvalue | ⟨_, hvalue⟩
  · exact family_subset_of_mem_family _ hscope.node (Node.mem_family_of_localValue? hvalue)
  · exact Node.mem_family_of_localValue? hvalue

theorem localObject?_uncommented (hr : r.Tidied) (hscope : scope.Inside r.body) (name : String) :
    r.uncommented.localObject? scope.uncommented name =
      (r.localObject? scope name).map Node.uncommented := by
  unfold localObject?
  rw [localValue?_uncommented hr hscope]
  cases hvalue : r.localValue? scope name with
  | none =>
      rfl
  | some value =>
      have htidied := hr.body.of_mem_family (mem_family_of_localValue? hscope hvalue)
      simp only [Option.map_some, unwrap_uncommented htidied, Option.filter_some,
        kind_uncommented]
      cases value.unwrap.kind == .object with
      | true =>
          rfl
      | false =>
          rfl

theorem mem_family_of_localObject? (hscope : scope.Inside r.body) {name : String} {object : Node}
    (hobject : r.localObject? scope name = some object) : object ∈ r.body.family := by
  rcases Option.filter_eq_some_iff.mp hobject with ⟨hmap, _⟩
  rcases Option.map_eq_some_iff.mp hmap with ⟨value, hvalue, rfl⟩
  exact mem_family_unwrap (mem_family_of_localValue? hscope hvalue)

theorem mergeSource_uncommented (hr : r.Tidied) (hvalues : r.ValuesAlike)
    (hscope : scope.Inside r.body) (depth : Nat) (source : Node) (hsource : source ∈ r.body.family)
    (s t : Shape) (h : s.Alike r t) :
    (r.mergeSource scope depth source s).Alike r
      (r.uncommented.mergeSource scope.uncommented depth source.uncommented t) := by
  induction depth using Nat.strong_induction_on generalizing source s t with
  | h depth ih =>
      cases depth with
      | zero =>
          exact h.spread
      | succ depth =>
          have htidied := hr.body.of_mem_family hsource
          have hinner := mem_family_unwrap hsource
          unfold mergeSource
          rw [unwrap_uncommented htidied]
          generalize source.unwrap = n at hinner
          simp only [kind_uncommented]
          cases hkind : n.kind with
          | object =>
              exact Shape.addObject_uncommented hr hvalues (ih depth (Nat.lt_succ_self depth))
                hinner h
          | identifier =>
              dsimp only
              rw [uncommented_of_isLeaf (hr.body.of_mem_family hinner)
                (by rw [isLeaf, hkind]), localObject?_uncommented hr hscope]
              cases hobject : r.localObject? scope n.text with
              | none =>
                  exact h.spread
              | some object =>
                  have hmem := mem_family_of_localObject? hscope hobject
                  cases depth with
                  | zero =>
                      apply Shape.addObject_uncommented hr hvalues _ hmem h
                      intro argument _ s t hst
                      exact hst.spread
                  | succ depth =>
                      exact Shape.addObject_uncommented hr hvalues (ih depth (by omega)) hmem h
          | _ =>
              exact h.spread

/-!
# Assignments
-/

theorem assignment?_uncommented (hr : r.Tidied) (hvalues : r.ValuesAlike) (name : String) {n : Node}
    (hn : n ∈ r.body.family) :
    Option.Rel (Shape.EntryAlike r) (assignment? name n) (assignment? name n.uncommented) := by
  have h := hr.body.of_mem_family hn
  unfold assignment?
  rw [kind_uncommented, child?_uncommented h, child?_uncommented h]
  cases hkind : n.kind == .assignmentExpression with
  | false =>
      exact Option.Rel.none
  | true =>
      cases hleft : n.child? .left with
      | none =>
          exact Option.Rel.none
      | some left =>
          cases hright : n.child? .right with
          | none =>
              exact Option.Rel.none
          | some right =>
              have hvalue := hvalues.assigned n hn (beq_iff_eq.mp hkind) right hright
              simp only [Option.map_some, if_true,
                memberChain?_uncommented left (h.child hleft)]
              split
              · split
                · exact Option.Rel.some ⟨rfl, hvalue.textAlike⟩
                · exact Option.Rel.none
              · exact Option.Rel.none

theorem addAssignments_uncommented (hr : r.Tidied) (hvalues : r.ValuesAlike)
    {statements : List Node} (hstatements : forall s, s ∈ statements -> s ∈ r.body.family)
    (name : String) {s t : Shape} (h : s.Alike r t) :
    (addAssignments statements name s).Alike r
      (addAssignments (statements.map Node.uncommented) name t) := by
  unfold addAssignments
  refine List.rel_foldl (P := Shape.Alike r) ?_ h
    (forall₂_map_uncommented statements hstatements)
  rintro s t hst statement _ ⟨rfl, hstatement⟩
  refine walk_uncommented_within ?_ hstatement hst
  intro s t c hc hst
  have hassigned := assignment?_uncommented hr hvalues name hc
  dsimp only [Cursor.uncommented]
  generalize assignment? name c.node = entry at hassigned
  generalize assignment? name c.node.uncommented = other at hassigned
  cases hassigned with
  | none =>
      exact ⟨hst, rfl⟩
  | some halike =>
      refine ⟨?_, rfl⟩
      dsimp only
      rw [halike.name]
      exact hst.set _ halike.text

theorem isObjectAssign_uncommented {call : Node} (h : call.Tidied) :
    isObjectAssign call.uncommented = isObjectAssign call := by
  have hcallee := callee?_uncommented h
  unfold isObjectAssign
  generalize call.callee? = callee at hcallee
  generalize call.uncommented.callee? = other at hcallee
  cases hcallee with
  | none =>
      rfl
  | some halike =>
      rw [Bool.eq_iff_iff, beq_iff_eq, beq_iff_eq, Option.some_inj, Option.some_inj]
      exact halike.eq_iff (by constructor <;> decide) "assign"

/-!
# Shapes of regions
-/

theorem shapeOf?_uncommented (hr : r.Tidied) (hvalues : r.ValuesAlike)
    (hscope : scope.Inside r.body) (depth : Nat) {expression : Node}
    (hexpression : expression ∈ r.body.family) :
    Option.Rel (Shape.Alike r) (r.shapeOf? scope depth expression)
      (r.uncommented.shapeOf? scope.uncommented depth expression.uncommented) := by
  induction depth generalizing expression with
  | zero =>
      exact Option.Rel.none
  | succ depth ih =>
      have hmerge := mergeSource_uncommented hr hvalues hscope depth
      have hinner := mem_family_unwrap hexpression
      unfold shapeOf?
      rw [unwrap_uncommented (hr.body.of_mem_family hexpression)]
      generalize expression.unwrap = n at hinner
      have hn := hr.body.of_mem_family hinner
      simp only [kind_uncommented]
      cases hkind : n.kind with
      | object =>
          exact Option.Rel.some
            (Shape.addObject_uncommented hr hvalues hmerge hinner (Shape.Alike.empty r))
      | identifier =>
          have hassign := fun s t hst => addAssignments_uncommented (s := s) (t := t) hr hvalues
            hscope.statements n.text hst
          dsimp only
          rw [uncommented_of_isLeaf hn (by rw [isLeaf, hkind]),
            localValue?_uncommented hr hscope]
          have hpayload : r.uncommented.payloadParam = r.payloadParam := rfl
          rw [hpayload]
          cases r.payloadParam == some n.text with
          | true =>
              exact Option.Rel.some (hassign _ _ (Shape.Alike.empty r).spread)
          | false =>
              cases hvalue : r.localValue? scope n.text with
              | none =>
                  exact Option.Rel.none
              | some value =>
                  have hrest := ih (mem_family_of_localValue? hscope hvalue)
                  simp only [Bool.false_eq_true, if_false, Option.map_some, Option.bind_eq_bind,
                    Option.bind_some]
                  generalize r.shapeOf? scope depth value = shape at hrest
                  generalize r.uncommented.shapeOf? scope.uncommented depth value.uncommented =
                    other at hrest
                  cases hrest with
                  | none =>
                      exact Option.Rel.none
                  | some halike =>
                      exact Option.Rel.some (hassign _ _ halike)
      | callExpression =>
          dsimp only
          rw [isObjectAssign_uncommented hn, callArguments_uncommented hn]
          split
          · apply Option.Rel.some
            refine List.rel_foldl (P := Shape.Alike r) ?_ (Shape.Alike.empty r)
              (forall₂_map_uncommented n.callArguments fun a ha => mem_family_argument hinner ha)
            rintro s t hst argument _ ⟨rfl, hargument⟩
            exact hmerge argument hargument s t hst
          · exact Option.Rel.none
      | _ =>
          exact Option.Rel.none

theorem returnShape?_uncommented (hr : r.Tidied) (hvalues : r.ValuesAlike)
    (hscope : scope.Inside r.body) {ret : Node} (hkind : ret.kind = .returnStatement)
    (hret : ret ∈ r.body.family) :
    Option.Rel (Shape.Alike r) (r.returnShape? scope ret)
      (r.uncommented.returnShape? scope.uncommented ret.uncommented) := by
  have h := hr.body.of_mem_family hret
  unfold returnShape?
  rw [firstNamed?_uncommented h (by rw [isAboutFirst, hkind]; rfl)]
  cases hfirst : ret.firstNamed? with
  | none =>
      exact Option.Rel.none
  | some expression =>
      exact shapeOf?_uncommented hr hvalues hscope resolveDepth (mem_family_firstNamed hret hfirst)

theorem scopeShape?_uncommented (hr : r.Tidied) (hvalues : r.ValuesAlike)
    (hscope : scope.Inside r.body) :
    Option.Rel (Shape.Alike r) (r.scopeShape? scope)
      (r.uncommented.scopeShape? scope.uncommented) := by
  have hterminal := terminalReturn?_uncommented scope.statements
  unfold scopeShape?
  rw [Scope.uncommented, hterminal]
  cases hret : terminalReturn? scope.statements with
  | none =>
      exact Option.Rel.none
  | some ret =>
      rcases terminalReturn?_spec hscope.statements hret with ⟨hkind, hmem⟩
      exact returnShape?_uncommented hr hvalues hscope hkind hmem

/-!
# Removed properties
-/

theorem filter_isRest_uncommented (entries : List PatternEntry) :
    ((entries.map PatternEntry.uncommented).filter fun e => !e.isRest).map (·.key) =
      (entries.filter fun e => !e.isRest).map (·.key) := by
  rw [List.filter_map, List.map_map]
  rfl

theorem any_isRest_uncommented (entries : List PatternEntry) :
    ((entries.map PatternEntry.uncommented).any fun e => e.isRest) =
      entries.any fun e => e.isRest := by
  rw [List.any_map]
  rfl

theorem removedAt_uncommented (hr : r.Tidied) (hvalues : r.ValuesAlike) {n : Node}
    (hn : n ∈ r.body.family) : r.uncommented.removedAt n.uncommented = r.removedAt n := by
  have h := hr.body.of_mem_family hn
  unfold removedAt
  rw [kind_uncommented]
  cases hkind : n.kind with
  | unaryExpression =>
      dsimp only
      rw [operator?_uncommented h, child?_uncommented h]
      cases hargument : n.child? .argument with
      | none =>
          rfl
      | some argument =>
          simp only [Option.map_some, Option.bind_some,
            memberChain?_uncommented argument (h.child hargument)]
  | variableDeclarator =>
      dsimp only
      rw [child?_uncommented h, child?_uncommented h]
      cases hname : n.child? .name with
      | none =>
          rfl
      | some name =>
          cases hvalue : n.child? .value with
          | none =>
              rfl
          | some value =>
              have htraceable : r.uncommented.isTraceable value.uncommented.text =
                  r.isTraceable value.text :=
                isTraceable_of_mentionsAlike (hvalues.declared n hn hkind value hvalue)
              simp only [Option.map_some, patternEntries_uncommented (h.child hname),
                kind_uncommented, htraceable, any_isRest_uncommented, filter_isRest_uncommented]
  | _ =>
      rfl

theorem removedIn_uncommented (hr : r.Tidied) (hvalues : r.ValuesAlike)
    (hscope : scope.Inside r.body) :
    r.uncommented.removedIn scope.uncommented = r.removedIn scope := by
  unfold removedIn Scope.uncommented
  dsimp only
  rw [List.flatMap_map]
  congr 1
  apply List.flatMap_congr
  intro statement hstatement
  congr 1
  refine (walk_uncommented_within (R := Eq) ?_ (hscope.statements statement hstatement) rfl).symm
  rintro found _ c hc rfl
  refine ⟨?_, rfl⟩
  dsimp only [Cursor.uncommented]
  rw [removedAt_uncommented hr hvalues hc]

end Routine
end Broker
end PayloadFlow
