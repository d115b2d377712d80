import PayloadFlow.Extract.Error
import PayloadFlow.Script.Scope

/-!
# The nodes of a tree

The nodes that a walk can come to, as a list: a node, then those of its parts from
left to right.  A walk makes the calls that the recursion over the tree makes, and these go
through the list in order.  What a walk finds first is what the list has first, and a walk to
the end comes to all of the list.
-/

namespace PayloadFlow
namespace Script

namespace Node

/-- A node and all nodes below it, comments left out. -/
def nodes (n : Node) : List Node :=
  n :: n.parts.attach.flatMap fun ⟨c, _⟩ => nodes c
termination_by sizeOf n
decreasing_by exact sizeOf_lt_of_mem_parts ‹_›

theorem nodes_eq (n : Node) : n.nodes = n :: n.parts.flatMap nodes := by
  rw [nodes, List.flatMap_subtype (g := nodes) (fun _ _ => rfl), List.unattach_attach]

theorem mem_nodes_of_mem_parts {n c m : Node} (hc : c ∈ n.parts) (hm : m ∈ c.nodes) :
    m ∈ n.nodes := by
  rw [nodes_eq]
  exact List.mem_cons_of_mem _ (List.mem_flatMap.mpr ⟨c, hc, hm⟩)

theorem mem_parts_of_child? {n c : Node} {l : Label} (hchild : n.child? l = some c)
    (hc : c.isPart = true) : c ∈ n.parts :=
  List.mem_filter.mpr ⟨List.mem_of_find?_eq_some hchild, hc⟩

end Node

/-!
# Walks as recursions
-/

section

variable {σ : Type}

abbrev Calls (σ : Type) := List (σ × Cursor)

theorem Cursor.sizeOf_node_lt {c d : Cursor} (hd : d ∈ c.parts) :
    sizeOf d.node < sizeOf c.node := by
  rcases List.mem_map.mp hd with ⟨n, hn, rfl⟩
  exact Node.sizeOf_lt_of_mem_parts hn

/-- The recursion over a tree: the state at the end, and the calls in order. -/
def goThrough (visit : Visitor σ) (state : σ) (c : Cursor) : σ × Calls σ :=
  let seen := visit state c
  if seen.2 then
    c.parts.attach.foldl
      (fun done ⟨d, _⟩ =>
        let next := goThrough visit done.1 d
        (next.1, done.2 ++ next.2))
      (seen.1, [(state, c)])
  else (seen.1, [(state, c)])
termination_by sizeOf c.node
decreasing_by
  rename_i hd
  exact Cursor.sizeOf_node_lt hd

/-- The recursion over one more tree. -/
def goOn (visit : Visitor σ) (done : σ × Calls σ) (c : Cursor) : σ × Calls σ :=
  let next := goThrough visit done.1 c
  (next.1, done.2 ++ next.2)

theorem goOn_mk (visit : Visitor σ) (state : σ) (log : Calls σ) (c : Cursor) :
    goOn visit (state, log) c = ((goThrough visit state c).1, log ++ (goThrough visit state c).2) :=
  rfl

theorem mem_parts_of_mem_ite {go : Bool} {c d : Cursor} (hd : d ∈ if go then c.parts else []) :
    d ∈ c.parts := by
  split at hd
  · exact hd
  · cases hd

theorem goThrough_eq (visit : Visitor σ) (state : σ) (c : Cursor) :
    goThrough visit state c =
      (if (visit state c).2 then c.parts else []).foldl (goOn visit)
        ((visit state c).1, [(state, c)]) := by
  rw [goThrough]
  split
  · exact (List.foldl_subtype (g := goOn visit) (fun _ _ _ => rfl)).trans
      (by rw [List.unattach_attach])
  · rfl

theorem foldl_goOn (visit : Visitor σ) (state : σ) (log : Calls σ) (cs : List Cursor) :
    cs.foldl (goOn visit) (state, log) =
      ((cs.foldl (goOn visit) (state, [])).1, log ++ (cs.foldl (goOn visit) (state, [])).2) := by
  induction cs generalizing state log with
  | nil =>
      rw [List.foldl_nil, List.foldl_nil, List.append_nil]
  | cons c rest ih =>
      rw [List.foldl_cons, List.foldl_cons, goOn_mk, goOn_mk, List.nil_append, ih,
        ih _ (goThrough visit state c).2, List.append_assoc]

/-- The first of some trees is gone through by a call, and then by way of its parts. -/
theorem foldl_goOn_cons (visit : Visitor σ) (state : σ) (log : Calls σ) (c : Cursor)
    (rest : List Cursor) :
    (c :: rest).foldl (goOn visit) (state, log) =
      ((if (visit state c).2 then c.parts else []) ++ rest).foldl (goOn visit)
        ((visit state c).1, log ++ [(state, c)]) := by
  have hfirst : goOn visit (state, log) c =
      (if (visit state c).2 then c.parts else []).foldl (goOn visit)
        ((visit state c).1, log ++ [(state, c)]) := by
    rw [goOn_mk, goThrough_eq, foldl_goOn, foldl_goOn visit _ (log ++ [(state, c)]),
      List.append_assoc]
  rw [List.foldl_cons, List.foldl_append, hfirst]

theorem walkStack_eq (visit : Visitor σ) (state : σ) (log : Calls σ) (stack : List Cursor) :
    walkStack visit state stack = (stack.foldl (goOn visit) (state, log)).1 := by
  fun_induction walkStack visit state stack generalizing log with
  | case1 state =>
      rfl
  | case2 state c rest seen hgo ih =>
      rw [foldl_goOn_cons, if_pos hgo]
      exact ih _
  | case3 state c rest seen hstop ih =>
      rw [foldl_goOn_cons, if_neg hstop]
      exact ih _

def recorded (visit : Visitor σ) : Visitor (σ × Calls σ) :=
  fun done c =>
    let seen := visit done.1 c
    ((seen.1, done.2 ++ [(done.1, c)]), seen.2)

theorem walkStack_recorded (visit : Visitor σ) (done : σ × Calls σ) (stack : List Cursor) :
    walkStack (recorded visit) done stack = stack.foldl (goOn visit) done := by
  fun_induction walkStack (recorded visit) done stack with
  | case1 done =>
      rfl
  | case2 done c rest seen hgo ih =>
      have hflag : (visit done.1 c).2 = true := hgo
      rw [ih, foldl_goOn_cons visit done.1 done.2, if_pos hflag]
      rfl
  | case3 done c rest seen hstop ih =>
      have hflag : ¬ (visit done.1 c).2 = true := hstop
      rw [ih, foldl_goOn_cons visit done.1 done.2, if_neg hflag]
      rfl

theorem walk_eq_goThrough (visit : Visitor σ) (state : σ) (root : Node) :
    walk visit state root = (goThrough visit state (.root root)).1 :=
  walkStack_eq visit state [] [Cursor.root root]

theorem walk_recorded (visit : Visitor σ) (state : σ) (root : Node) :
    walk (recorded visit) (state, []) root = goThrough visit state (.root root) :=
  walkStack_recorded visit (state, []) [Cursor.root root]

/-!
# The nodes that are shown
-/

/-- The nodes that a call is the last word on: the node itself, and all nodes below it if it is
refused. -/
def settled (visit : Visitor σ) (call : σ × Cursor) : List Node :=
  if (visit call.1 call.2).2 then [call.2.node] else call.2.node.nodes

theorem flatMap_settled_foldl {visit : Visitor σ} {cs : List Cursor}
    (hcs : forall c, c ∈ cs -> forall state,
      (goThrough visit state c).2.flatMap (settled visit) = c.node.nodes)
    (done : σ × Calls σ) :
    (cs.foldl (goOn visit) done).2.flatMap (settled visit) =
      done.2.flatMap (settled visit) ++ cs.flatMap fun c => c.node.nodes := by
  induction cs generalizing done with
  | nil =>
      rw [List.foldl_nil, List.flatMap_nil, List.append_nil]
  | cons c rest ih =>
      rw [List.foldl_cons, ih (fun d hd => hcs d (List.mem_cons_of_mem c hd)), List.flatMap_cons]
      unfold goOn
      dsimp only
      rw [List.flatMap_append, hcs c List.mem_cons_self, List.append_assoc]

/-- The calls go through the nodes of a tree in order: a node at each call, and with a refused
one all nodes below it. -/
theorem flatMap_settled (visit : Visitor σ) (state : σ) (c : Cursor) :
    (goThrough visit state c).2.flatMap (settled visit) = c.node.nodes := by
  have hparts : forall d, d ∈ (if (visit state c).2 then c.parts else []) -> forall s,
      (goThrough visit s d).2.flatMap (settled visit) = d.node.nodes := by
    intro d hd s
    have hmem := mem_parts_of_mem_ite hd
    exact flatMap_settled visit s d
  rw [goThrough_eq, flatMap_settled_foldl hparts, List.flatMap_singleton, settled, Node.nodes_eq]
  split
  · rw [Cursor.parts, List.flatMap_map]
    rfl
  · exact List.append_nil _
termination_by sizeOf c.node
decreasing_by exact Cursor.sizeOf_node_lt hmem

def shown (visit : Visitor σ) (state : σ) (root : Node) : List Node :=
  (goThrough visit state (.root root)).2.map fun call => call.2.node

end

/-!
# What a walk keeps
-/

theorem walkStack_keeps {σ : Type} {P : σ -> Prop} {visit : Visitor σ}
    (hvisit : forall state c, P state -> P (visit state c).1) {state : σ} (hstate : P state)
    (stack : List Cursor) : P (walkStack visit state stack) := by
  fun_induction walkStack visit state stack with
  | case1 state =>
      exact hstate
  | case2 state c rest seen _ ih =>
      exact ih (hvisit state c hstate)
  | case3 state c rest seen _ ih =>
      exact ih (hvisit state c hstate)

theorem walk_keeps {σ : Type} {P : σ -> Prop} {visit : Visitor σ}
    (hvisit : forall state c, P state -> P (visit state c).1) {state : σ} (hstate : P state)
    (root : Node) : P (walk visit state root) :=
  walkStack_keeps hvisit hstate [Cursor.root root]

/-!
# What a search finds
-/

section

variable {α : Type} (test : Node -> Option α)

def seek (found : Option α) (c : Cursor) : Option α × Bool :=
  match found with
  | some a => (some a, false)
  | none =>
      match test c.node with
      | some a => (some a, false)
      | none => (none, true)

/-- What a search has found is the first result among the nodes of its calls, and among those
that the calls settle. -/
structure Sought (done : Option α × Calls (Option α)) : Prop where
  shown : (done.2.findSome? fun call => test call.2.node) = done.1
  settled : (done.2.flatMap (settled (seek test))).findSome? test = done.1

variable {test}

theorem Sought.recorded {done : Option α × Calls (Option α)} (h : Sought test done) (c : Cursor) :
    Sought test (recorded (seek test) done c).1 := by
  rcases done with ⟨found, log⟩
  constructor
  · show ((log ++ [(found, c)]).findSome? _) = (seek test found c).1
    rw [List.findSome?_append, h.shown, List.findSome?_singleton]
    cases found with
    | some a =>
        rfl
    | none =>
        unfold seek
        dsimp only
        cases test c.node with
        | some a =>
            rfl
        | none =>
            rfl
  · show ((log ++ [(found, c)]).flatMap _).findSome? test = (seek test found c).1
    rw [List.flatMap_append, List.findSome?_append, h.settled, List.flatMap_singleton]
    cases found with
    | some a =>
        rfl
    | none =>
        unfold Script.settled seek
        dsimp only
        cases htest : test c.node with
        | some a =>
            dsimp only
            rw [if_neg Bool.false_ne_true, Node.nodes_eq, List.findSome?_cons, htest]
            rfl
        | none =>
            dsimp only
            rw [if_pos rfl, List.findSome?_singleton, htest]
            rfl

variable (test)

theorem sought_goThrough (root : Node) :
    Sought test (goThrough (seek test) none (.root root)) := by
  rw [← walk_recorded]
  exact walk_keeps (fun _ c h => h.recorded c) ⟨rfl, rfl⟩ root

theorem findFirst_eq_goThrough (root : Node) :
    findFirst test root = (goThrough (seek test) none (.root root)).1 :=
  walk_eq_goThrough (seek test) none root

theorem findFirst_eq_shown (root : Node) :
    findFirst test root = (shown (seek test) none root).findSome? test := by
  rw [findFirst_eq_goThrough, ← (sought_goThrough test root).shown, shown, List.findSome?_map]
  rfl

/-- A search finds the first result among the nodes of a tree. -/
theorem findFirst_eq (root : Node) : findFirst test root = root.nodes.findSome? test := by
  rw [findFirst_eq_goThrough, ← (sought_goThrough test root).settled, flatMap_settled]
  rfl

end

/-!
# What a walk to the end gathers
-/

section

variable {σ : Type} (gather : σ -> Node -> σ)

theorem walkStack_gather (state : σ) (stack : List Cursor) :
    walkStack (fun s c => (gather s c.node, true)) state stack =
      (stack.flatMap fun c => c.node.nodes).foldl gather state := by
  fun_induction walkStack (fun s c => (gather s c.node, true)) state stack with
  | case1 state =>
      rfl
  | case2 state c rest seen hgo ih =>
      rw [ih, List.flatMap_append, Cursor.parts, List.flatMap_map, List.flatMap_cons,
        Node.nodes_eq c.node, List.cons_append, List.foldl_cons]
  | case3 state c rest seen hstop ih =>
      exact absurd rfl hstop

/-- A walk that never turns back shows all nodes of a tree in order. -/
theorem walk_gather (state : σ) (root : Node) :
    walk (fun s c => (gather s c.node, true)) state root = root.nodes.foldl gather state := by
  have hwalk := walkStack_gather gather state [Cursor.root root]
  rw [List.flatMap_singleton] at hwalk
  exact hwalk

end

namespace Node

theorem localValue?_eq (scope : Node) (name : String) :
    scope.localValue? name = scope.nodes.findSome? (declaredValue? name) :=
  findFirst_eq (declaredValue? name) scope

end Node

end Script

/-!
# Trees of sources
-/

open Script

def parsesTo (path source : String) (p : Node -> Bool) : Bool :=
  match parseSource path source with
  | .ok program => p program
  | .error _ => false

theorem exists_of_parsesTo {path source : String} {p : Node -> Bool}
    (h : parsesTo path source p = true) :
    exists program, parseSource path source = .ok program ∧ p program = true := by
  unfold parsesTo at h
  split at h
  · rename_i program hparse
    exact ⟨program, hparse, h⟩
  · cases h

end PayloadFlow
