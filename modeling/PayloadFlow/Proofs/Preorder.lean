import Mathlib.Logic.Function.Iterate
import PayloadFlow.Extract.Producer
import PayloadFlow.Proofs.Comments.Collector

/-!
# Walks as recursions

A walk keeps the nodes that are yet to come on a stack.  It makes the calls that the
recursion over the tree makes, in the same order and in the same states: a node first, and
then, unless the visitor refuses it, its parts from left to right.  So a walk shows the
nodes of the tree in order, except for those below a refused one.
-/

namespace PayloadFlow
namespace Script

variable {σ : Type}

theorem foldl_goOn_fst (visit : Visitor σ) (state : σ) (log : Calls σ) (cs : List Cursor) :
    (cs.foldl (goOn visit) (state, log)).1 =
      cs.foldl (fun state c => (goThrough visit state c).1) state := by
  induction cs generalizing state log with
  | nil =>
      rfl
  | cons c rest ih =>
      rw [List.foldl_cons, List.foldl_cons, goOn_mk, ih]

theorem length_foldl_goOn_cons (visit : Visitor σ) (state : σ) (c : Cursor) (rest : List Cursor) :
    ((c :: rest).foldl (goOn visit) (state, [])).2.length =
      (((if (visit state c).2 then c.parts else []) ++ rest).foldl (goOn visit)
        ((visit state c).1, [])).2.length + 1 := by
  rw [foldl_goOn_cons, foldl_goOn, List.nil_append, List.length_append, List.length_singleton,
    Nat.add_comm]

/-!
# The stack
-/

/-- One turn of a loop over a stack that has its top at the end: the top is taken off and
shown, and unless it is refused, its parts are put on the stack from the last to the first. -/
def turn (visit : Visitor σ) (loop : σ × List Cursor) : σ × List Cursor :=
  match loop.2.getLast? with
  | none => loop
  | some c =>
      let seen := visit loop.1 c
      (seen.1, loop.2.dropLast ++ if seen.2 then c.parts.reverse else [])

theorem turn_concat (visit : Visitor σ) (state : σ) (c : Cursor) (rest : List Cursor) :
    turn visit (state, (c :: rest).reverse) =
      ((visit state c).1, ((if (visit state c).2 then c.parts else []) ++ rest).reverse) := by
  unfold turn
  dsimp only
  rw [List.reverse_cons, List.getLast?_concat, List.dropLast_concat, List.reverse_append]
  dsimp only
  split
  · rfl
  · rfl

/-- The loop empties its stack in as many turns as the recursion makes calls. -/
theorem iterate_turn (visit : Visitor σ) (state : σ) (stack : List Cursor) :
    (turn visit)^[(stack.foldl (goOn visit) (state, [])).2.length] (state, stack.reverse) =
      (walkStack visit state stack, []) := by
  fun_induction walkStack visit state stack with
  | case1 state =>
      rfl
  | case2 state c rest seen hgo ih =>
      rw [length_foldl_goOn_cons, Function.iterate_succ_apply, turn_concat, if_pos hgo]
      exact ih
  | case3 state c rest seen hstop ih =>
      rw [length_foldl_goOn_cons, Function.iterate_succ_apply, turn_concat, if_neg hstop]
      exact ih

end Script

open Script

/-!
# Calls of the broker
-/

namespace Producer

theorem brokerCall?_eq (entryPoints : List String) (body : Node) :
    brokerCall? entryPoints body = body.nodes.find? (isBrokerCall entryPoints) :=
  (findFirst_eq _ body).trans List.findSome?_guard

end Producer

/-!
# Handlers
-/

namespace Consumer
namespace Collector

def afterBody (c : Collector) (place : Cursor) (hidden : Sources) : Collector :=
  let after :=
    match place.node.child? .body with
    | some body => collect body (place.node :: place.above) c
    | none => c
  { after with sources := after.sources.restore hidden }

/-- What the collector does at a node, as a visitor.  A body inside which names are hidden is
gone through at once. -/
def step (c : Collector) (place : Cursor) : Collector × Bool :=
  match c.visit place with
  | .skip c => (c, false)
  | .descend c => (c, true)
  | .body c hidden => (c.afterBody place hidden, false)

theorem collect_eq_goThrough (n : Node) (above : List Node) (c : Collector) :
    collect n above c = (goThrough step c ⟨n, above⟩).1 := by
  rw [collect_eq, goThrough_eq, foldl_goOn_fst]
  unfold step
  cases c.visit ⟨n, above⟩ with
  | skip c =>
      rfl
  | descend c =>
      dsimp only
      rw [if_pos rfl, Cursor.parts, List.foldl_map]
      apply List.foldl_ext
      intro c part hpart
      exact collect_eq_goThrough part (n :: above) c
  | body c hidden =>
      unfold afterBody
      cases n.child? .body with
      | some body =>
          rfl
      | none =>
          rfl
termination_by sizeOf n
decreasing_by exact Node.sizeOf_lt_of_mem_parts hpart

theorem collect_eq_walk (n : Node) (c : Collector) : collect n [] c = walk step c n :=
  (collect_eq_goThrough n [] c).trans (walk_eq_goThrough step c n).symm

end Collector
end Consumer

/-- A walk with a stack makes the calls of the recursion over the tree, in order and in the same
states.  They go through the nodes of the tree in order and leave out those below a refused one.
The accesses of a handler are collected on such a walk, and the values of local names and the
calls of the broker that are found are the first ones in the tree. -/
theorem walk_in_preorder {σ : Type} (visit : Visitor σ) (state : σ) (root : Node) :
    walk (recorded visit) (state, []) root = goThrough visit state (.root root) ∧
    walk visit state root = (goThrough visit state (.root root)).1 ∧
    (turn visit)^[(goThrough visit state (.root root)).2.length] (state, [.root root]) =
      (walk visit state root, []) ∧
    (goThrough visit state (.root root)).2.flatMap (settled visit) = root.nodes ∧
    (forall c, Consumer.Collector.collect root [] c = walk Consumer.Collector.step c root) ∧
    (forall name,
      root.localValue? name =
          (shown (seek (Node.declaredValue? name)) none root).findSome? (Node.declaredValue? name) ∧
        root.localValue? name = root.nodes.findSome? (Node.declaredValue? name)) ∧
    forall entryPoints,
      Producer.brokerCall? entryPoints root =
          (shown (seek (Option.guard (Producer.isBrokerCall entryPoints))) none root).find?
            (Producer.isBrokerCall entryPoints) ∧
        Producer.brokerCall? entryPoints root =
          root.nodes.find? (Producer.isBrokerCall entryPoints) := by
  refine ⟨walk_recorded visit state root,
    walk_eq_goThrough visit state root, iterate_turn visit state [Cursor.root root],
    flatMap_settled visit state (.root root),
    Consumer.Collector.collect_eq_walk root, ?_, ?_⟩
  · intro name
    exact ⟨findFirst_eq_shown (Node.declaredValue? name) root, Node.localValue?_eq root name⟩
  · intro entryPoints
    refine ⟨?_, Producer.brokerCall?_eq entryPoints root⟩
    exact (findFirst_eq_shown (Option.guard (Producer.isBrokerCall entryPoints)) root).trans
      List.findSome?_guard

end PayloadFlow
