import PayloadFlow.Script.Node

/-!
# Walking through a tree

A walk shows the nodes of a tree to a visitor, each before its parts and the
parts from left to right.  The visitor carries a state and says at each node
whether its parts are of interest.  Comments are never shown.
-/

namespace PayloadFlow
namespace Script

/-- A node in its place: with the nodes around it, the nearest first. -/
structure Cursor where
  node : Node
  above : List Node

namespace Cursor

def root (n : Node) : Cursor :=
  ⟨n, []⟩

def parts (c : Cursor) : List Cursor :=
  c.node.parts.map fun n => ⟨n, c.node :: c.above⟩

def parent? (c : Cursor) : Option Node :=
  c.above.head?

noncomputable def total : List Cursor -> Nat
  | [] => 0
  | c :: cs => sizeOf c.node + total cs

theorem total_append (as bs : List Cursor) : total (as ++ bs) = total as + total bs := by
  induction as with
  | nil => simp [total]
  | cons a as ih =>
      simp only [List.cons_append, total, ih]
      omega

theorem total_map (above : List Node) (ns : List Node) :
    total (ns.map fun n => ⟨n, above⟩) = Node.total ns := by
  induction ns with
  | nil => rfl
  | cons n ns ih => simp only [List.map_cons, total, Node.total, ih]

theorem total_parts_lt (c : Cursor) : total c.parts < sizeOf c.node := by
  rw [parts, total_map]
  exact Node.total_parts_lt c.node

end Cursor

/-- A visitor: the new state, and whether to go on to the parts. -/
abbrev Visitor (σ : Type) := σ -> Cursor -> σ × Bool

variable {σ : Type}

def walkStack (visit : Visitor σ) (state : σ) (stack : List Cursor) : σ :=
  match stack with
  | [] => state
  | c :: rest =>
      let seen := visit state c
      if seen.2 then walkStack visit seen.1 (c.parts ++ rest) else walkStack visit seen.1 rest
termination_by Cursor.total stack
decreasing_by
  · have h := Cursor.total_parts_lt c
    rw [Cursor.total_append]
    simp only [Cursor.total]
    omega
  · have h : 0 < sizeOf c.node := by
      cases c.node
      simp only [Node.mk.sizeOf_spec]
      omega
    simp only [Cursor.total]
    omega

def walk (visit : Visitor σ) (state : σ) (root : Node) : σ :=
  walkStack visit state [Cursor.root root]

/-- The first result that a test gives on a walk through a tree.  The parts of a
node are looked at only if the test gives nothing there. -/
def findFirst {α : Type} (test : Node -> Option α) (root : Node) : Option α :=
  walk (fun found c =>
    match found with
    | some a => (some a, false)
    | none =>
        match test c.node with
        | some a => (some a, false)
        | none => (none, true)) none root

end Script
end PayloadFlow
