import PayloadFlow.Script.Value

/-!
# Member chains and calls

A chain such as `data.context?.id` is a root and the names that lead on from it.
-/

namespace PayloadFlow
namespace Script

structure Segment where
  name : String
  /-- reached through `?.` -/
  isOptional : Bool
  deriving DecidableEq, Repr

structure MemberChain where
  root : String
  segments : List Segment
  deriving DecidableEq, Repr

namespace MemberChain

def names (c : MemberChain) : List String :=
  c.segments.map (·.name)

def push (c : MemberChain) (s : Segment) : MemberChain :=
  { c with segments := c.segments ++ [s] }

end MemberChain

namespace Node

def between (n left right : Node) : List Char :=
  (n.text.toList.drop (left.stop - n.start)).take (right.start - left.stop)

def segment? (n object property : Node) : Option Segment :=
  match property.kind with
  | .propertyIdentifier | .privatePropertyIdentifier =>
      some ⟨property.text, (n.between object property).contains '?'⟩
  | _ => none

/-- The chain of members that an expression is, if it starts from an identifier
or from `this` and leads through no call and no index. -/
def memberChain? (n : Node) : Option MemberChain :=
  match n.kind with
  | .identifier | .thisWord => some ⟨n.text, []⟩
  | .parenthesizedExpression | .nonNullExpression =>
      match _ : n.firstNamed? with
      | some inner => memberChain? inner
      | none => none
  | .memberExpression =>
      match _ : n.child? .object, n.child? .property with
      | some object, some property =>
          match n.segment? object property with
          | some s => (memberChain? object).map (·.push s)
          | none => none
      | _, _ => none
  | _ => none
termination_by sizeOf n
decreasing_by
  · exact sizeOf_lt_of_firstNamed? ‹_›
  · exact sizeOf_lt_of_child? ‹_›

/-- What a call calls: a function by name, or a method of a receiver. -/
structure Callee where
  receiver : Option String
  name : String
  deriving DecidableEq, Repr

def callee? (n : Node) : Option Callee := do
  let function := (← n.child? .function).unwrap
  match function.kind with
  | .identifier => some ⟨none, function.text⟩
  | .memberExpression =>
      let object ← function.child? .object
      let property ← function.child? .property
      some ⟨some object.text, property.text⟩
  | _ => none

def callArguments (n : Node) : List Node :=
  match n.child? .arguments with
  | some list => list.parts
  | none => []

end Node
end Script
end PayloadFlow
