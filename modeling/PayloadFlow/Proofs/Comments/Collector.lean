import PayloadFlow.Extract.Consumer.Collector
import PayloadFlow.Proofs.Comments.Walks

/-!
# Accesses and comments

A handler reads its payload in the same places and in the same ways without comments.
-/

namespace PayloadFlow
namespace Consumer

open Script Node

/-!
# Contexts
-/

theorem beq_text_uncommented {n : Node} (h : n.Tidied) {word : String} (hword : IsWord word) :
    (n.uncommented.text == word) = (n.text == word) := by
  rw [Bool.eq_iff_iff, beq_iff_eq, beq_iff_eq]
  exact text_uncommented_eq_iff h hword

theorem comparisonContext_uncommented (equality negated isTypeof : Bool) {other : Node}
    (h : other.Tidied) :
    comparisonContext equality negated isTypeof other.uncommented =
      comparisonContext equality negated isTypeof other := by
  have hundefined : IsWord "undefined" := by
    constructor
    · decide
    · decide
  have hnull : IsWord "null" := by
    constructor
    · decide
    · decide
  unfold comparisonContext
  rw [beq_text_uncommented h hundefined, beq_text_uncommented h hnull, stringValue?_uncommented h]

theorem operandContext_uncommented (negated isTypeof : Bool) {parent : Node} (h : parent.Tidied)
    (current : Node) :
    operandContext negated isTypeof parent.uncommented current.uncommented =
      operandContext negated isTypeof parent current := by
  have hother : otherOperand? parent.uncommented current.uncommented =
      (otherOperand? parent current).map Node.uncommented := by
    unfold otherOperand?
    rw [label_uncommented, child?_uncommented h]
  unfold operandContext
  rw [operator?_uncommented h, label_uncommented, hother]
  cases hfound : otherOperand? parent current with
  | none =>
      rfl
  | some other =>
      simp only [Option.map_some, comparisonContext_uncommented _ negated isTypeof (h.child hfound)]

theorem contextFrom_uncommented (negated isTypeof : Bool) (current : Node) {above : List Node}
    (habove : forall n, n ∈ above -> n.Tidied) :
    contextFrom negated isTypeof current.uncommented (above.map Node.uncommented) =
      contextFrom negated isTypeof current above := by
  induction above generalizing negated isTypeof current with
  | nil =>
      rfl
  | cons parent above ih =>
      have hparent := habove parent List.mem_cons_self
      have hnext := fun negated isTypeof => ih negated isTypeof parent fun n hn =>
        habove n (List.mem_cons_of_mem parent hn)
      rw [List.map_cons]
      unfold contextFrom
      rw [kind_uncommented, operator?_uncommented hparent, label_uncommented,
        operandContext_uncommented negated isTypeof hparent]
      simp only [hnext]

theorem contextOf_uncommented {place : Cursor} (h : place.Tidied) :
    contextOf place.uncommented = contextOf place :=
  contextFrom_uncommented false false place.node h.above

theorem parent?_uncommented (place : Cursor) :
    place.uncommented.parent? = place.parent?.map Node.uncommented := by
  unfold Cursor.parent? Cursor.uncommented
  dsimp only
  rw [List.head?_map]

theorem isWriteTarget_uncommented (place : Cursor) :
    isWriteTarget place.uncommented = isWriteTarget place := by
  have hlabel : place.uncommented.node.label = place.node.label := label_uncommented place.node
  unfold isWriteTarget
  rw [hlabel, parent?_uncommented]
  cases place.parent? with
  | none =>
      rfl
  | some parent =>
      simp only [Option.map_some, kind_uncommented]

theorem isCalled_uncommented (place : Cursor) : isCalled place.uncommented = isCalled place := by
  have hlabel : place.uncommented.node.label = place.node.label := label_uncommented place.node
  unfold isCalled
  rw [hlabel, parent?_uncommented]
  cases place.parent? with
  | none =>
      rfl
  | some parent =>
      simp only [Option.map_some, Option.any_some, kind_uncommented]

namespace Collector

variable {n : Node} {place : Cursor}

theorem resolveNode?_uncommented (c : Collector) (h : n.Tidied) :
    c.resolveNode? n.uncommented = c.resolveNode? n := by
  unfold resolveNode?
  rw [unwrap_uncommented h, memberChain?_uncommented _ h.unwrap]

/-!
# Patterns
-/

def takeEntry (path : List String) (isSafe : Bool) (c : Collector) (e : PatternEntry) : Collector :=
  if e.isRest then c
  else
    let path := path ++ [e.key]
    let c := c.readEntry e path isSafe
    match e.nested with
    | some inner => readPattern inner path (isSafe || e.hasDefault) c
    | none =>
        match e.localName with
        | some name => c.addSource name path (isSafe || e.hasDefault)
        | none => c

theorem readPattern_eq (pattern : Node) (path : List String) (isSafe : Bool) (c : Collector) :
    readPattern pattern path isSafe c =
      pattern.patternEntries.foldl (takeEntry path isSafe) c := by
  rw [readPattern, List.foldl_subtype (g := takeEntry path isSafe), List.unattach_attach]
  intro c e he
  unfold takeEntry
  dsimp only
  split
  · rfl
  · split
    · rename_i inner hinner
      simp only [hinner]
    · rename_i hnone
      cases hname : e.localName with
      | none =>
          simp only [hnone]
      | some name =>
          simp only [hnone]

theorem readPattern_uncommented (pattern : Node) (h : pattern.Tidied) (path : List String)
    (isSafe : Bool) (c : Collector) :
    readPattern pattern.uncommented path isSafe c = readPattern pattern path isSafe c := by
  rw [readPattern_eq, readPattern_eq, patternEntries_uncommented h, List.foldl_map]
  apply List.foldl_ext
  intro c e he
  unfold takeEntry PatternEntry.uncommented readEntry
  dsimp only
  cases hnested : e.nested with
  | none =>
      rfl
  | some inner =>
      simp only [Option.map_some, Option.isNone_some]
      rw [readPattern_uncommented inner (h.nested he hnested)]
termination_by sizeOf pattern
decreasing_by exact sizeOf_lt_of_mem_patternEntries he hnested

/-!
# Nodes
-/

theorem withoutFallback?_uncommented (h : n.Tidied) :
    withoutFallback? n.uncommented =
      (withoutFallback? n).map fun found => (found.1.uncommented, found.2) := by
  unfold withoutFallback?
  rw [kind_uncommented, operator?_uncommented h, child?_uncommented h]
  split
  · cases n.child? .left with
    | none =>
        rfl
    | some left =>
        rfl
  · rfl

theorem mem_family_of_withoutFallback? {tree base : Node} {hasFallback : Bool}
    (hn : n ∈ tree.family) (hbase : withoutFallback? n = some (base, hasFallback)) :
    base ∈ tree.family := by
  unfold withoutFallback? at hbase
  split at hbase
  · rcases Option.map_eq_some_iff.mp hbase with ⟨left, hleft, hpair⟩
    cases hpair
    exact mem_family_child hn hleft
  · cases hbase
    exact hn

theorem tidied_of_withoutFallback? (h : n.Tidied) {base : Node} {hasFallback : Bool}
    (hbase : withoutFallback? n = some (base, hasFallback)) : base.Tidied :=
  h.of_mem_family (mem_family_of_withoutFallback? (mem_family_self n) hbase)

theorem atDeclarator_uncommented (c : Collector) (h : n.Tidied) :
    c.atDeclarator n.uncommented = c.atDeclarator n := by
  unfold atDeclarator
  simp only [child?_uncommented h, Option.bind_eq_bind]
  cases hname : n.child? .name with
  | none =>
      rfl
  | some name =>
      cases hvalue : n.child? .value with
      | none =>
          rfl
      | some value =>
          have hn := h.child hname
          have hv := (h.child hvalue).unwrap
          simp only [Option.map_some, Option.bind_some, unwrap_uncommented (h.child hvalue),
            withoutFallback?_uncommented hv]
          cases hbase : withoutFallback? value.unwrap with
          | none =>
              rfl
          | some found =>
              rcases found with ⟨base, hasFallback⟩
              simp only [Option.map_some, Option.bind_some,
                resolveNode?_uncommented c (tidied_of_withoutFallback? hv hbase)]
              cases c.resolveNode? base with
              | none =>
                  rfl
              | some r =>
                  simp only [Option.bind_some, kind_uncommented, line_uncommented]
                  cases hkind : name.kind with
                  | objectPattern =>
                      dsimp only
                      rw [readPattern_uncommented name hn]
                  | identifier =>
                      dsimp only
                      rw [uncommented_of_isLeaf hn (by rw [isLeaf, hkind])]
                  | _ =>
                      rfl

theorem ownPropertyTest?_uncommented (h : n.Tidied) :
    ownPropertyTest? n.uncommented =
      (ownPropertyTest? n).map fun found => (found.1.uncommented, found.2.uncommented) := by
  have hcallee := callee?_uncommented h
  unfold ownPropertyTest?
  simp only [callArguments_uncommented h, child?_uncommented h, List.getElem?_map]
  generalize n.callee? = callee at hcallee
  generalize n.uncommented.callee? = other at hcallee
  cases hcallee with
  | none =>
      rfl
  | @some callee other halike =>
      have hobject : IsWord "Object" := by
        constructor
        · decide
        · decide
      have hown : (other == ⟨some "Object", "hasOwn"⟩) = (callee == ⟨some "Object", "hasOwn"⟩) := by
        rw [Bool.eq_iff_iff, beq_iff_eq, beq_iff_eq]
        exact halike.eq_iff hobject "hasOwn"
      simp only [Option.bind_eq_bind, Option.bind_some, hown, halike.name, halike.isSome]
      split
      · cases n.callArguments[0]? with
        | none =>
            rfl
        | some object =>
            cases n.callArguments[1]? with
            | none =>
                rfl
            | some key =>
                rfl
      · split
        · cases hfunction : n.child? .function with
          | none =>
              rfl
          | some function =>
              have hf := h.child hfunction
              simp only [Option.map_some, Option.bind_some, unwrap_uncommented hf,
                child?_uncommented hf.unwrap]
              cases function.unwrap.child? .object with
              | none =>
                  rfl
              | some object =>
                  cases n.callArguments[0]? with
                  | none =>
                      rfl
                  | some key =>
                      rfl
        · rfl

theorem mem_family_of_ownPropertyTest? {tree object key : Node} (hn : n ∈ tree.family)
    (hfound : ownPropertyTest? n = some (object, key)) :
    object ∈ tree.family ∧ key ∈ tree.family := by
  unfold ownPropertyTest? at hfound
  rcases Option.bind_eq_some_iff.mp hfound with ⟨callee, _, hfound⟩
  dsimp only at hfound
  split at hfound
  · rcases Option.bind_eq_some_iff.mp hfound with ⟨first, hfirst, hfound⟩
    rcases Option.bind_eq_some_iff.mp hfound with ⟨second, hsecond, hfound⟩
    cases hfound
    exact ⟨mem_family_argument hn (List.mem_of_getElem? hfirst),
      mem_family_argument hn (List.mem_of_getElem? hsecond)⟩
  · split at hfound
    · rcases Option.bind_eq_some_iff.mp hfound with ⟨function, hfunction, hfound⟩
      rcases Option.bind_eq_some_iff.mp hfound with ⟨member, hmember, hfound⟩
      rcases Option.bind_eq_some_iff.mp hfound with ⟨first, hfirst, hfound⟩
      cases hfound
      exact ⟨mem_family_child (mem_family_unwrap (mem_family_child hn hfunction)) hmember,
        mem_family_argument hn (List.mem_of_getElem? hfirst)⟩
    · cases hfound

theorem tidied_of_ownPropertyTest? (h : n.Tidied) {object key : Node}
    (hfound : ownPropertyTest? n = some (object, key)) : object.Tidied ∧ key.Tidied := by
  rcases mem_family_of_ownPropertyTest? (mem_family_self n) hfound with ⟨hobject, hkey⟩
  exact ⟨h.of_mem_family hobject, h.of_mem_family hkey⟩

theorem atCall_uncommented (c : Collector) (h : n.Tidied) :
    c.atCall n.uncommented = c.atCall n := by
  unfold atCall
  rw [ownPropertyTest?_uncommented h, line_uncommented]
  cases hfound : ownPropertyTest? n with
  | none =>
      rfl
  | some found =>
      rcases found with ⟨object, key⟩
      rcases tidied_of_ownPropertyTest? h hfound with ⟨hobject, hkey⟩
      simp only [Option.map_some, Option.bind_eq_bind, Option.bind_some,
        resolveNode?_uncommented c hobject, stringValue?_uncommented hkey]

theorem atIn_uncommented (c : Collector) (h : place.Tidied) :
    c.atIn place.uncommented = c.atIn place := by
  have hnode : place.uncommented.node = place.node.uncommented := rfl
  unfold atIn
  simp only [hnode, child?_uncommented h.node, line_uncommented, contextOf_uncommented h,
    Option.bind_eq_bind]
  cases hleft : place.node.child? .left with
  | none =>
      rfl
  | some left =>
      cases hright : place.node.child? .right with
      | none =>
          simp only [Option.map_some, Option.map_none, Option.bind_some,
            stringValue?_uncommented (h.node.child hleft)]
      | some right =>
          simp only [Option.map_some, Option.bind_some,
            stringValue?_uncommented (h.node.child hleft),
            resolveNode?_uncommented c (h.node.child hright)]

theorem atMember_uncommented (c : Collector) (h : place.Tidied) :
    c.atMember place.uncommented = c.atMember place := by
  have hnode : place.uncommented.node = place.node.uncommented := rfl
  unfold atMember
  rw [hnode, memberChain?_uncommented _ h.node, isWriteTarget_uncommented, isCalled_uncommented,
    contextOf_uncommented h, line_uncommented]

theorem atIdentifier_uncommented (c : Collector) (h : place.Tidied)
    (hkind : place.node.kind = .identifier) :
    c.atIdentifier place.uncommented = c.atIdentifier place := by
  have hnode : place.uncommented.node = place.node :=
    uncommented_of_isLeaf h.node (by rw [isLeaf, hkind])
  unfold atIdentifier
  rw [hnode, isWriteTarget_uncommented, contextOf_uncommented h]

theorem parameterNames_uncommented {f : FunctionNode} (h : f.Tidied) :
    (f.uncommented.params.flatMap fun p => p.parameterPattern.1.boundNames) =
      f.params.flatMap fun p => p.parameterPattern.1.boundNames := by
  unfold FunctionNode.uncommented
  dsimp only
  rw [List.flatMap_map]
  apply List.flatMap_congr
  intro p hp
  rw [parameterPattern_uncommented (h.params p hp),
    boundNames_uncommented _ (h.params p hp).parameterPattern]

theorem atFunction_uncommented (c : Collector) (h : n.Tidied) :
    c.atFunction n.uncommented = c.atFunction n := by
  unfold atFunction
  rw [function?_uncommented h]
  cases hf : n.function? "" false with
  | none =>
      rfl
  | some f =>
      simp only [Option.map_some, parameterNames_uncommented (tidied_of_function? h hf)]

theorem visit_uncommented (c : Collector) (h : place.Tidied) :
    c.visit place.uncommented = c.visit place := by
  have hnode : place.uncommented.node = place.node.uncommented := rfl
  unfold visit
  simp only [hnode, kind_uncommented, operator?_uncommented h.node]
  cases hfunction : place.node.kind.isFunctionLike with
  | true =>
      exact atFunction_uncommented c h.node
  | false =>
      cases hkind : place.node.kind with
      | variableDeclarator =>
          exact atDeclarator_uncommented c h.node
      | callExpression =>
          exact atCall_uncommented c h.node
      | binaryExpression =>
          simp only [Bool.false_eq_true, if_false, atIn_uncommented c h]
      | memberExpression =>
          exact atMember_uncommented c h
      | identifier =>
          exact atIdentifier_uncommented c h hkind
      | _ =>
          rfl

/-!
# Whole bodies
-/

theorem collect_eq (n : Node) (above : List Node) (c : Collector) :
    collect n above c =
      match c.visit ⟨n, above⟩ with
      | .skip c => c
      | .descend c => n.parts.foldl (fun c part => collect part (n :: above) c) c
      | .body c hidden =>
          match n.child? .body with
          | some body =>
              let c := collect body (n :: above) c
              { c with sources := c.sources.restore hidden }
          | none => { c with sources := c.sources.restore hidden } := by
  rw [collect]
  cases c.visit ⟨n, above⟩ with
  | skip c =>
      rfl
  | descend c =>
      dsimp only
      rw [List.foldl_subtype (g := fun c part => collect part (n :: above) c) (fun _ _ _ => rfl),
        List.unattach_attach]
  | body c hidden =>
      dsimp only
      split
      · rename_i body hbody
        rw [hbody]
      · rename_i hnone
        rw [hnone]

/-- A body is gone through in the same way with and without comments. -/
theorem collect_uncommented (n : Node) (above : List Node) (h : Cursor.Tidied ⟨n, above⟩)
    (c : Collector) :
    collect n.uncommented (above.map Node.uncommented) c = collect n above c := by
  have hvisit := visit_uncommented c h
  have hbelow : forall m, m.Tidied -> Cursor.Tidied ⟨m, n :: above⟩ := by
    intro m hm
    constructor
    · exact hm
    · intro k hk
      rcases List.mem_cons.mp hk with rfl | hk
      · exact h.node
      · exact h.above k hk
  unfold Cursor.uncommented at hvisit
  rw [collect_eq, collect_eq n, hvisit]
  cases c.visit ⟨n, above⟩ with
  | skip c =>
      rfl
  | descend c =>
      dsimp only
      rw [parts_uncommented, List.foldl_map]
      apply List.foldl_ext
      intro c part hpart
      exact collect_uncommented part (n :: above) (hbelow part (h.node.part hpart)) c
  | body c hidden =>
      dsimp only
      rw [child?_uncommented h.node]
      cases hbody : n.child? .body with
      | none =>
          rfl
      | some body =>
          have hcollect := collect_uncommented body (n :: above)
            (hbelow body (h.node.child hbody)) c
          rw [List.map_cons] at hcollect
          simp only [Option.map_some, hcollect]
termination_by sizeOf n
decreasing_by
  · exact sizeOf_lt_of_mem_parts hpart
  · exact sizeOf_lt_of_child? hbody

end Collector
end Consumer
end PayloadFlow
