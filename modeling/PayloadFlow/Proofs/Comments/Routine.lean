import PayloadFlow.Expression.Classify
import PayloadFlow.Extract.Broker.Guard
import PayloadFlow.Proofs.Comments.Walks
import PayloadFlow.Proofs.DerivedNames
import PayloadFlow.Proofs.Preparation.Reading

/-!
# Prepare routines and comments

The names that derive from the input of a routine and the events that its guards ask for
are the same without comments.  Derived names are read from the texts of values: there a
comment may stand as long as it mentions none of them.
-/

namespace PayloadFlow
namespace Broker

open Script Node

/-!
# Derived names
-/

namespace Derivation

theorem prefix_closure (ds : List Derivation) (rounds : Nat) (known : List String) :
    known <+: closure ds rounds known := by
  induction rounds generalizing known with
  | zero =>
      exact List.prefix_refl known
  | succ rounds ih =>
      unfold closure
      dsimp only
      split
      · exact List.prefix_refl known
      · exact (prefix_scan ds known).trans (ih _)

theorem scan_subset_closure (ds : List Derivation) (rounds : Nat) (known : List String) :
    scan ds known ⊆ closure ds (rounds + 1) known := by
  unfold closure
  dsimp only
  split
  · rename_i hlength
    have hscan := scan_eq_of_length (beq_iff_eq.mp hlength)
    exact fun name hname => hscan ▸ hname
  · exact (prefix_closure ds rounds _).subset

/-- Derivations that bind the same names and read the same ones of some names. -/
structure Alike (names : List String) (d other : Derivation) : Prop where
  binds : other.binds = d.binds
  reads : forall name, name ∈ names -> (name ∈ other.reads <-> name ∈ d.reads)

variable {names known : List String} {ds others : List Derivation}

theorem step_of_alike {d other : Derivation} (h : Alike names d other) (hknown : known ⊆ names) :
    step known other = step known d := by
  have hreads : other.reads.any known.contains = d.reads.any known.contains := by
    rw [Bool.eq_iff_iff, any_contains_iff, any_contains_iff]
    constructor
    · rintro ⟨name, hname, hmem⟩
      exact ⟨name, (h.reads name (hknown hmem)).mp hname, hmem⟩
    · rintro ⟨name, hname, hmem⟩
      exact ⟨name, (h.reads name (hknown hmem)).mpr hname, hmem⟩
  unfold step
  rw [hreads, h.binds]

theorem scan_of_alike (h : List.Forall₂ (Alike names) ds others) (hscan : scan ds known ⊆ names) :
    scan others known = scan ds known := by
  unfold scan at hscan ⊢
  induction h generalizing known with
  | nil =>
      rfl
  | @cons d other ds others hd _ ih =>
      rw [List.foldl_cons] at hscan ⊢
      have hknown : known ⊆ names := fun name hname =>
        hscan ((prefix_scan ds _).subset ((prefix_step known d).subset hname))
      rw [List.foldl_cons, step_of_alike hd hknown]
      exact ih hscan

theorem closure_of_alike (h : List.Forall₂ (Alike names) ds others) (rounds : Nat)
    (hclosure : closure ds rounds known ⊆ names) :
    closure others rounds known = closure ds rounds known := by
  induction rounds generalizing known with
  | zero =>
      rfl
  | succ rounds ih =>
      have hscan := scan_of_alike h fun _ hname =>
        hclosure (scan_subset_closure ds rounds known hname)
      unfold closure at hclosure ⊢
      dsimp only at hclosure ⊢
      rw [hscan]
      split
      · rfl
      · rename_i hlength
        rw [if_neg hlength] at hclosure
        exact ih hclosure

theorem derived_of_alike {start : List String}
    (h : List.Forall₂ (Alike (derived ds start)) ds others) :
    derived others start = derived ds start := by
  have hclosure := closure_of_alike h (ds.length + 1) fun _ hname => hname
  unfold derived
  rw [← h.length_eq, hclosure]

end Derivation

/-- Of some names, the text of a value mentions the same with its comments blanked. -/
def MentionsAlike (names : List String) (value : Node) : Prop :=
  forall name, name ∈ names ->
    (name ∈ Expression.references value.uncommented.text <->
      name ∈ Expression.references value.text)

namespace Derivation

variable {names : List String}

theorem ofDeclarator?_uncommented {n : Node} (h : n.Tidied)
    (hvalue : n.kind = .variableDeclarator -> forall value, value ∈ n.child? .value ->
      MentionsAlike names value) :
    Option.Rel (Alike names) (ofDeclarator? n) (ofDeclarator? n.uncommented) := by
  unfold ofDeclarator?
  rw [kind_uncommented, child?_uncommented h, child?_uncommented h]
  cases hkind : n.kind == .variableDeclarator with
  | false =>
      exact Option.Rel.none
  | true =>
      cases hname : n.child? .name with
      | none =>
          exact Option.Rel.none
      | some name =>
          cases hchild : n.child? .value with
          | none =>
              exact Option.Rel.none
          | some value =>
              apply Option.Rel.some
              constructor
              · exact boundNames_uncommented name (h.child hname)
              · exact hvalue (beq_iff_eq.mp hkind) value hchild

theorem ofBody_uncommented {body : Node} (h : body.Tidied)
    (hvalues : forall n, n ∈ body.family -> n.kind = .variableDeclarator ->
      forall value, value ∈ n.child? .value -> MentionsAlike names value) :
    List.Forall₂ (Alike names) (ofBody body) (ofBody body.uncommented) := by
  apply List.rel_reverse
  refine walk_uncommented_within ?_ (mem_family_self body) List.Forall₂.nil
  intro found others c hc hfound
  refine ⟨List.rel_append ?_ hfound, rfl⟩
  have hdeclared := ofDeclarator?_uncommented (h.of_mem_family hc) (hvalues c.node hc)
  dsimp only [Cursor.uncommented]
  generalize ofDeclarator? c.node = d at hdeclared
  generalize ofDeclarator? c.node.uncommented = other at hdeclared
  cases hdeclared with
  | none =>
      exact List.Forall₂.nil
  | some halike =>
      exact List.Forall₂.cons halike List.Forall₂.nil

end Derivation

/-!
# Routines
-/

namespace Routine

/-- A routine in the tree without comments. -/
def uncommented (r : Routine) : Routine :=
  { r with body := r.body.uncommented }

structure Tidied (r : Routine) : Prop where
  body : r.body.Tidied
  eventParam : forall name, name ∈ r.eventParam -> IsWord name

/-- A value is told from values that the broker makes up in the same way without its comments. -/
structure ValueAlike (r : Routine) (value : Node) : Prop where
  generated : (Expression.classify value.uncommented.text == .generated) =
    (Expression.classify value.text == .generated)
  mentions : MentionsAlike r.traceable value

structure ValuesAlike (r : Routine) : Prop where
  declared : forall n, n ∈ r.body.family -> n.kind = .variableDeclarator ->
    forall value, value ∈ n.child? .value -> MentionsAlike r.traceable value
  written : forall n, n ∈ r.body.family -> n.kind = .pair ->
    forall value, value ∈ n.child? .value -> r.ValueAlike value
  assigned : forall n, n ∈ r.body.family -> n.kind = .assignmentExpression ->
    forall value, value ∈ n.child? .right -> r.ValueAlike value

instance (names : List String) (value : Node) : Decidable (MentionsAlike names value) :=
  inferInstanceAs (Decidable (forall name, name ∈ names ->
    (name ∈ Expression.references value.uncommented.text <->
      name ∈ Expression.references value.text)))

instance (r : Routine) (value : Node) : Decidable (r.ValueAlike value) :=
  decidable_of_iff
    ((Expression.classify value.uncommented.text == .generated) =
        (Expression.classify value.text == .generated) ∧ MentionsAlike r.traceable value)
    ⟨fun ⟨generated, mentions⟩ => ⟨generated, mentions⟩, fun h => ⟨h.generated, h.mentions⟩⟩

instance (r : Routine) : Decidable r.ValuesAlike :=
  decidable_of_iff
    ((forall n, n ∈ r.body.family -> n.kind = .variableDeclarator ->
        forall value, value ∈ n.child? .value -> MentionsAlike r.traceable value) ∧
      (forall n, n ∈ r.body.family -> n.kind = .pair ->
        forall value, value ∈ n.child? .value -> r.ValueAlike value) ∧
      (forall n, n ∈ r.body.family -> n.kind = .assignmentExpression ->
        forall value, value ∈ n.child? .right -> r.ValueAlike value))
    ⟨fun ⟨declared, written, assigned⟩ => ⟨declared, written, assigned⟩,
      fun h => ⟨h.declared, h.written, h.assigned⟩⟩

theorem ofFunction_uncommented {f : FunctionNode} (h : f.Tidied) {path : String}
    {generators : List String} (hvalues : (ofFunction f path generators).ValuesAlike) :
    ofFunction f.uncommented path generators = (ofFunction f path generators).uncommented := by
  have hnames : f.uncommented.params.map (·.parameterName?) = f.params.map (·.parameterName?) := by
    unfold FunctionNode.uncommented
    dsimp only
    rw [List.map_map]
    apply List.map_congr_left
    intro p hp
    exact parameterName?_uncommented (h.params p hp)
  have hderived := Derivation.derived_of_alike
    (Derivation.ofBody_uncommented h.body hvalues.declared)
  unfold ofFunction at hderived ⊢
  unfold uncommented
  dsimp only at hderived ⊢
  rw [hnames]
  exact congrArg (fun names => Routine.mk _ _ _ names _ _) hderived

theorem isWord_of_parameterName? {n : Node} (h : n.Tidied) {name : String}
    (hname : n.parameterName? = some name) : IsWord name := by
  unfold parameterName? at hname
  dsimp only at hname
  split at hname
  · rename_i hkind
    cases hname
    exact isWord_of_identifier h.parameterPattern (beq_iff_eq.mp hkind)
  · cases hname

theorem tidied_ofFunction {f : FunctionNode} (h : f.Tidied) (path : String)
    (generators : List String) : (ofFunction f path generators).Tidied := by
  constructor
  · exact h.body
  · intro name hname
    rw [Option.mem_def] at hname
    unfold ofFunction at hname
    dsimp only at hname
    have hmem : some name ∈ f.params.map (·.parameterName?) := by
      rw [Option.join_eq_some_iff] at hname
      exact List.mem_of_getElem? hname
    rcases List.mem_map.mp hmem with ⟨p, hp, hparameter⟩
    exact isWord_of_parameterName? (h.params p hp) hparameter

/-!
# Guards
-/

variable {r : Routine}

theorem isEventRef_uncommented (hr : r.Tidied) {n : Node} (h : n.Tidied) :
    r.uncommented.isEventRef n.uncommented = r.isEventRef n := by
  have hinner := h.unwrap
  have htext : (r.eventParam == some n.unwrap.uncommented.text) =
      (r.eventParam == some n.unwrap.text) := by
    cases hevent : r.eventParam with
    | none =>
        rfl
    | some event =>
        have hword := text_uncommented_eq_iff hinner (hr.eventParam event hevent)
        rw [Bool.eq_iff_iff, beq_iff_eq, beq_iff_eq, Option.some_inj, Option.some_inj]
        rw [eq_comm, hword, eq_comm]
  unfold isEventRef uncommented
  dsimp only
  rw [unwrap_uncommented h, memberChain?_uncommented _ hinner, htext]

theorem equalityEvents_uncommented (hr : r.Tidied) {left right : Node} (hleft : left.Tidied)
    (hright : right.Tidied) :
    r.uncommented.equalityEvents left.uncommented right.uncommented =
      r.equalityEvents left right := by
  unfold equalityEvents
  rw [isEventRef_uncommented hr hleft, isEventRef_uncommented hr hright,
    stringValue?_uncommented hleft, stringValue?_uncommented hright]

theorem filterMap_stringValue?_uncommented {n : Node} (h : n.Tidied) :
    n.uncommented.parts.filterMap (·.stringValue?) = n.parts.filterMap (·.stringValue?) := by
  rw [parts_uncommented, List.filterMap_map]
  apply List.filterMap_congr
  intro c hc
  exact stringValue?_uncommented (h.part hc)

theorem inclusionEvents_uncommented (hr : r.Tidied) {call : Node} (h : call.Tidied) :
    r.uncommented.inclusionEvents call.uncommented = r.inclusionEvents call := by
  have hcallee := callee?_uncommented h
  unfold inclusionEvents
  rw [child?_uncommented h, callArguments_uncommented h, List.head?_map]
  generalize call.callee? = callee at hcallee
  generalize call.uncommented.callee? = other at hcallee
  cases hcallee with
  | none =>
      rfl
  | some halike =>
      cases hfunction : call.child? .function with
      | none =>
          rfl
      | some function =>
          have hf := (h.child hfunction).unwrap
          simp only [Option.bind_eq_bind, Option.bind_some, Option.map_some,
            unwrap_uncommented (h.child hfunction), child?_uncommented hf]
          cases hobject : function.unwrap.child? .object with
          | none =>
              rfl
          | some object =>
              cases hargument : call.callArguments.head? with
              | none =>
                  rfl
              | some argument =>
                  have hlist := (hf.child hobject).unwrap
                  simp only [Option.bind_some, Option.map_some,
                    unwrap_uncommented (hf.child hobject), kind_uncommented, halike.name,
                    isEventRef_uncommented hr (h.argument (List.mem_of_head? hargument)),
                    filterMap_stringValue?_uncommented hlist]

theorem guardEvents_uncommented (hr : r.Tidied) (condition : Node) (h : condition.Tidied) :
    r.uncommented.guardEvents condition.uncommented = r.guardEvents condition := by
  have hinner := h.unwrap
  rw [guardEvents_eq, guardEvents_eq r, unwrap_uncommented h, kind_uncommented]
  cases hkind : condition.unwrap.kind with
  | binaryExpression =>
      dsimp only
      rw [child?_uncommented hinner, child?_uncommented hinner, operator?_uncommented hinner]
      cases hleft : condition.unwrap.child? .left with
      | none =>
          rfl
      | some left =>
          cases hright : condition.unwrap.child? .right with
          | none =>
              rfl
          | some right =>
              have hl := guardEvents_uncommented hr left (hinner.child hleft)
              have hr' := guardEvents_uncommented hr right (hinner.child hright)
              simp only [Option.map_some, Option.bind_some, hl, hr']
              unfold operandEvents
              rw [equalityEvents_uncommented hr (hinner.child hleft) (hinner.child hright)]
  | callExpression =>
      exact inclusionEvents_uncommented hr hinner
  | _ =>
      rfl
termination_by sizeOf condition
decreasing_by
  · exact Nat.lt_of_lt_of_le (sizeOf_lt_of_child? hleft) (sizeOf_unwrap_le condition)
  · exact Nat.lt_of_lt_of_le (sizeOf_lt_of_child? hright) (sizeOf_unwrap_le condition)

end Routine
end Broker
end PayloadFlow
