import Mathlib.Data.List.Forall2
import PayloadFlow.Proofs.Comments.Constructs

/-!
# Walks without comments

A walk through a tree never shows a comment, so that walks through the tree with and
without comments go side by side.
-/

namespace PayloadFlow
namespace Script

namespace Cursor

/-- A place in the tree without comments. -/
def uncommented (c : Cursor) : Cursor :=
  ⟨c.node.uncommented, c.above.map Node.uncommented⟩

structure Tidied (c : Cursor) : Prop where
  node : c.node.Tidied
  above : forall n, n ∈ c.above -> n.Tidied

theorem parts_uncommented (c : Cursor) : c.uncommented.parts = c.parts.map uncommented := by
  unfold parts uncommented
  dsimp only
  rw [Node.parts_uncommented, List.map_map, List.map_map]
  rfl

theorem Tidied.part {c d : Cursor} (h : c.Tidied) (hd : d ∈ c.parts) : d.Tidied := by
  rcases List.mem_map.mp hd with ⟨n, hn, rfl⟩
  constructor
  · exact h.node.part hn
  · intro m hm
    rcases List.mem_cons.mp hm with rfl | hm
    · exact h.node
    · exact h.above m hm

end Cursor

/-- Two visitors that agree at all places of some kind lead two walks to the same end. -/
theorem walkStack_uncommented {σ τ : Type} {visit : Visitor σ} {other : Visitor τ}
    {R : σ -> τ -> Prop} {P : Cursor -> Prop} (hparts : forall c d, P c -> d ∈ c.parts -> P d)
    (hvisit : forall s t c, P c -> R s t ->
      R (visit s c).1 (other t c.uncommented).1 ∧ (other t c.uncommented).2 = (visit s c).2)
    (stack : List Cursor) (hstack : forall c, c ∈ stack -> P c) (s : σ) (t : τ) (hst : R s t) :
    R (walkStack visit s stack) (walkStack other t (stack.map Cursor.uncommented)) := by
  fun_induction walkStack visit s stack generalizing t with
  | case1 s =>
      rw [List.map_nil, walkStack]
      exact hst
  | case2 s c rest seen hgo ih =>
      rcases hvisit s t c (hstack c List.mem_cons_self) hst with ⟨hnext, hflag⟩
      rw [List.map_cons, walkStack]
      simp only [hflag]
      rw [if_pos hgo, Cursor.parts_uncommented, ← List.map_append]
      refine ih ?_ _ hnext
      intro d hd
      rcases List.mem_append.mp hd with hd | hd
      · exact hparts c d (hstack c List.mem_cons_self) hd
      · exact hstack d (List.mem_cons_of_mem c hd)
  | case3 s c rest seen hstop ih =>
      rcases hvisit s t c (hstack c List.mem_cons_self) hst with ⟨hnext, hflag⟩
      rw [List.map_cons, walkStack]
      simp only [hflag]
      rw [if_neg hstop]
      exact ih (fun d hd => hstack d (List.mem_cons_of_mem c hd)) _ hnext

theorem walk_uncommented {σ τ : Type} {visit : Visitor σ} {other : Visitor τ}
    {R : σ -> τ -> Prop} {P : Cursor -> Prop} (hparts : forall c d, P c -> d ∈ c.parts -> P d)
    (hvisit : forall s t c, P c -> R s t ->
      R (visit s c).1 (other t c.uncommented).1 ∧ (other t c.uncommented).2 = (visit s c).2)
    {root : Node} (hroot : P (.root root)) {s : σ} {t : τ} (hst : R s t) :
    R (walk visit s root) (walk other t root.uncommented) := by
  refine walkStack_uncommented hparts hvisit [Cursor.root root] ?_ s t hst
  intro c hc
  rw [List.mem_singleton.mp hc]
  exact hroot

theorem Cursor.tidied_root {root : Node} (h : root.Tidied) : (Cursor.root root).Tidied := by
  constructor
  · exact h
  · intro n hn
    cases hn

theorem walk_uncommented_eq {σ : Type} {visit : Visitor σ}
    (hvisit : forall s c, c.Tidied -> visit s c.uncommented = visit s c) {root : Node}
    (h : root.Tidied) (s : σ) : walk visit s root.uncommented = walk visit s root := by
  refine (walk_uncommented (R := Eq) (P := Cursor.Tidied) ?_ ?_ (Cursor.tidied_root h) rfl).symm
  · intro c d hc hd
    exact hc.part hd
  · rintro s t c hc rfl
    rw [hvisit s c hc]
    exact ⟨rfl, rfl⟩

/-!
# Searches and local values
-/

namespace Node

variable {n m : Node}

theorem nodes_uncommented (n : Node) : n.uncommented.nodes = n.nodes.map uncommented := by
  rw [nodes_eq, nodes_eq n, List.map_cons, parts_uncommented, List.flatMap_map, List.map_flatMap]
  congr 1
  apply List.flatMap_congr
  intro c hc
  exact nodes_uncommented c
termination_by sizeOf n
decreasing_by exact sizeOf_lt_of_mem_parts hc

theorem mem_family_of_mem_nodes (n : Node) (hm : m ∈ n.nodes) : m ∈ n.family := by
  rw [nodes_eq] at hm
  rcases List.mem_cons.mp hm with rfl | hm
  · exact mem_family_self m
  · rcases List.mem_flatMap.mp hm with ⟨c, hc, hm⟩
    exact family_subset_of_mem_children (List.mem_filter.mp hc).1 (mem_family_of_mem_nodes c hm)
termination_by sizeOf n
decreasing_by exact sizeOf_lt_of_mem_parts hc

/-- A search among nodes without comments finds what it finds among the nodes. -/
theorem findSome?_uncommented {α β : Type} {test : Node -> Option α} {other : Node -> Option β}
    {f : α -> β} (ns : List Node)
    (htest : forall m, m ∈ ns -> other m.uncommented = (test m).map f) :
    (ns.map uncommented).findSome? other = (ns.findSome? test).map f := by
  induction ns with
  | nil =>
      rfl
  | cons m rest ih =>
      rw [List.map_cons, List.findSome?_cons, List.findSome?_cons, htest m List.mem_cons_self]
      cases test m with
      | none =>
          exact ih fun k hk => htest k (List.mem_cons_of_mem m hk)
      | some a =>
          rfl

theorem findFirst_uncommented {α β : Type} {test : Node -> Option α} {other : Node -> Option β}
    {f : α -> β} (htest : forall m, m ∈ n.nodes -> other m.uncommented = (test m).map f) :
    findFirst other n.uncommented = (findFirst test n).map f := by
  rw [findFirst_eq, findFirst_eq, nodes_uncommented]
  exact findSome?_uncommented n.nodes htest

theorem declaredValue?_uncommented (h : n.Tidied) (name : String) :
    n.uncommented.declaredValue? name = (n.declaredValue? name).map uncommented := by
  unfold declaredValue?
  rw [kind_uncommented]
  split
  · simp only [child?_uncommented h]
    cases hbound : n.child? .name with
    | none =>
        rfl
    | some bound =>
        cases n.child? .value with
        | none =>
            rfl
        | some value =>
            simp only [Option.map_some, kind_uncommented]
            cases hkind : bound.kind == .identifier with
            | false =>
                rfl
            | true =>
                rw [uncommented_of_isLeaf (h.child hbound)
                  (by rw [isLeaf, beq_iff_eq.mp hkind])]
                cases bound.text == name with
                | false =>
                    rfl
                | true =>
                    rfl
  · rfl

theorem localValue?_uncommented (h : n.Tidied) (name : String) :
    n.uncommented.localValue? name = (n.localValue? name).map uncommented := by
  apply findFirst_uncommented
  intro m hm
  exact declaredValue?_uncommented (h.of_mem_family (mem_family_of_mem_nodes n hm)) name

theorem mem_family_of_localValue? {name : String} {value : Node}
    (hvalue : n.localValue? name = some value) : value ∈ n.family := by
  rw [localValue?_eq] at hvalue
  rcases List.exists_of_findSome?_eq_some hvalue with ⟨m, hm, hdeclared⟩
  apply family_subset_of_mem_family n (mem_family_of_mem_nodes n hm)
  unfold declaredValue? at hdeclared
  split at hdeclared
  · split at hdeclared
    · rename_i bound declared hbound hchild
      split at hdeclared
      · cases hdeclared
        exact family_subset_of_mem_children (List.mem_of_find?_eq_some hchild) (mem_family_self _)
      · cases hdeclared
    · cases hdeclared
  · cases hdeclared

/-!
# Side by side
-/

/-- A list and the list of the same nodes without comments, side by side. -/
theorem forall₂_map_uncommented {P : Node -> Prop} (ns : List Node)
    (hns : forall n, n ∈ ns -> P n) :
    List.Forall₂ (fun n m => m = n.uncommented ∧ P n) ns (ns.map uncommented) := by
  rw [List.forall₂_map_right_iff, List.forall₂_same]
  intro n hn
  exact ⟨rfl, hns n hn⟩

theorem any_eq_of_rel {α β : Type} {R : α -> β -> Prop} {a : Option α} {b : Option β}
    {p : α -> Bool} {q : β -> Bool} (h : Option.Rel R a b)
    (hpq : forall x y, R x y -> q y = p x) : b.any q = a.any p := by
  cases h with
  | none =>
      rfl
  | some hxy =>
      exact hpq _ _ hxy

theorem any_callee?_uncommented {n : Node} (h : n.Tidied) (p : String -> Bool) :
    (n.uncommented.callee?.any fun c => p c.name) = n.callee?.any fun c => p c.name := by
  apply any_eq_of_rel (callee?_uncommented h)
  intro callee other halike
  rw [halike.name]

end Node

/-- Two visitors that agree at the nodes of a tree lead walks inside it to the same end. -/
theorem walk_uncommented_within {σ τ : Type} {visit : Visitor σ} {other : Visitor τ}
    {R : σ -> τ -> Prop} {tree : Node}
    (hvisit : forall s t c, c.node ∈ tree.family -> R s t ->
      R (visit s c).1 (other t c.uncommented).1 ∧ (other t c.uncommented).2 = (visit s c).2)
    {root : Node} (hroot : root ∈ tree.family) {s : σ} {t : τ} (hst : R s t) :
    R (walk visit s root) (walk other t root.uncommented) := by
  refine walk_uncommented (P := fun c => c.node ∈ tree.family) ?_ hvisit hroot hst
  intro c d hc hd
  rcases List.mem_map.mp hd with ⟨part, hpart, rfl⟩
  exact Node.mem_family_part hc hpart

/-- An entry of an object literal in a tree, whose value has a property. -/
def ObjectEntry.Within (tree : Node) (P : Node -> Prop) : ObjectEntry -> Prop
  | pair _ value _ => P value
  | spread argument _ => argument ∈ tree.family
  | shorthand _ _ => True
  | method _ _ => True

namespace Node

variable {tree object : Node} {P : Node -> Prop}

theorem within_of_mem_objectEntries
    (hvalues : forall n, n ∈ tree.family -> n.kind = .pair ->
      forall value, value ∈ n.child? .value -> P value)
    (hobject : object ∈ tree.family) {e : ObjectEntry} (he : e ∈ object.objectEntries) :
    e.Within tree P := by
  rcases List.mem_filterMap.mp he with ⟨part, hpart, hentry⟩
  have hmem := mem_family_part hobject hpart
  unfold objectPart? at hentry
  split at hentry
  · rename_i hkind
    split at hentry
    · rename_i key value hkey hvalue
      cases hentry
      exact hvalues part hmem hkind value hvalue
    · cases hentry
  · cases hentry
    trivial
  · rcases Option.map_eq_some_iff.mp hentry with ⟨argument, hargument, rfl⟩
    exact mem_family_firstNamed hmem hargument
  · rcases Option.map_eq_some_iff.mp hentry with ⟨name, _, rfl⟩
    trivial
  · cases hentry

theorem forall₂_objectEntries (h : tree.Tidied)
    (hvalues : forall n, n ∈ tree.family -> n.kind = .pair ->
      forall value, value ∈ n.child? .value -> P value)
    (hobject : object ∈ tree.family) :
    List.Forall₂ (fun e other => other = ObjectEntry.uncommented e ∧ e.Within tree P)
      object.objectEntries object.uncommented.objectEntries := by
  rw [objectEntries_uncommented (h.of_mem_family hobject), List.forall₂_map_right_iff,
    List.forall₂_same]
  intro e he
  exact ⟨rfl, within_of_mem_objectEntries hvalues hobject he⟩

end Node

end Script
end PayloadFlow
