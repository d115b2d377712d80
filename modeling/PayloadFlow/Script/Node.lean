import PayloadFlow.Script.Kind

/-!
# Syntax trees

A syntax tree keeps the text of every construct as written, its place in the
source, and its parts in source order.  Comments are nodes of their own.
-/

namespace PayloadFlow
namespace Script

structure Node where
  kind : Kind
  /-- the part played in the enclosing node -/
  label : Option Label
  /-- number of characters before the node in the source -/
  start : Nat
  /-- line of the first character, counted from 1 -/
  line : Nat
  /-- the node as written -/
  text : String
  children : List Node
  deriving Repr, Inhabited

namespace Node

def as (n : Node) (l : Label) : Node :=
  { n with label := some l }

def child? (n : Node) (l : Label) : Option Node :=
  n.children.find? fun c => c.label == some l

/-- Whether a node counts when the parts of a construct are listed. -/
def isPart (n : Node) : Bool :=
  n.kind.isNamed && n.kind != .comment

/-- The children that are constructs, comments left out. -/
def parts (n : Node) : List Node :=
  n.children.filter isPart

/-- The first child that is a construct or a comment. -/
def firstNamed? (n : Node) : Option Node :=
  n.children.find? fun c => c.kind.isNamed

/-- The operator of a unary, binary, update or assignment expression. -/
def operator? (n : Node) : Option String :=
  (n.child? .operator).map (·.text)

/-- Number of characters of the source up to the end of the node. -/
def stop (n : Node) : Nat :=
  n.start + n.text.length

/-! ## Parts are smaller -/

theorem sizeOf_lt_of_mem_children {n c : Node} (h : c ∈ n.children) : sizeOf c < sizeOf n := by
  have hc := List.sizeOf_lt_of_mem h
  cases n
  simp only [Node.mk.sizeOf_spec] at hc ⊢
  omega

theorem sizeOf_lt_of_child? {n c : Node} {l : Label} (h : n.child? l = some c) :
    sizeOf c < sizeOf n :=
  sizeOf_lt_of_mem_children (List.mem_of_find?_eq_some h)

theorem sizeOf_lt_of_firstNamed? {n c : Node} (h : n.firstNamed? = some c) :
    sizeOf c < sizeOf n :=
  sizeOf_lt_of_mem_children (List.mem_of_find?_eq_some h)

theorem sizeOf_lt_of_mem_parts {n c : Node} (h : c ∈ n.parts) : sizeOf c < sizeOf n :=
  sizeOf_lt_of_mem_children (List.mem_filter.1 h).1

noncomputable def total : List Node -> Nat
  | [] => 0
  | n :: ns => sizeOf n + total ns

theorem total_le_sizeOf (ns : List Node) : total ns ≤ sizeOf ns := by
  induction ns with
  | nil => simp [total]
  | cons n ns ih =>
      simp only [total, List.cons.sizeOf_spec]
      omega

theorem total_filter_le (p : Node -> Bool) (ns : List Node) :
    total (ns.filter p) ≤ total ns := by
  induction ns with
  | nil => simp [total]
  | cons n ns ih =>
      simp only [total, List.filter_cons]
      split
      · simp only [total]
        omega
      · omega

theorem total_parts_lt (n : Node) : total n.parts < sizeOf n := by
  have h := Nat.le_trans (total_filter_le isPart n.children) (total_le_sizeOf n.children)
  have hn : sizeOf n.children < sizeOf n := by
    cases n
    simp only [Node.mk.sizeOf_spec]
    omega
  exact Nat.lt_of_le_of_lt h hn

end Node

end Script
end PayloadFlow
