import PayloadFlow.Script.Value
import PayloadFlow.Script.Walk

/-!
# Accesses to a payload

One place where a handler reads a property of its payload, and the way the value
is used there.
-/

namespace PayloadFlow
namespace Consumer

open Script

inductive Context where
  | plain
  /-- with something else to fall back on -/
  | fallback
  /-- as a condition; a negated one holds if the value is absent -/
  | test (negated : Bool)
  deriving DecidableEq, Repr

structure Access where
  /-- the properties from the payload on -/
  path : List String
  /-- for each property, whether it is reached in a way that allows for absence -/
  optional : List Bool
  context : Context
  /-- read by a pattern -/
  destructured : Bool
  hasDefault : Bool
  line : Nat
  deriving DecidableEq, Repr

namespace Access

def isSafe (a : Access) : Bool :=
  (a.optional.take 2).any fun o => o

end Access

/-! ## Contexts -/

def otherOperand? (parent current : Node) : Option Node :=
  parent.child? (if current.label == some .left then .right else .left)

def comparisonContext (equality negated isTypeof : Bool) (other : Node) : Context :=
  let isMissing :=
    other.text == "undefined" || other.text == "null" ||
      (isTypeof && other.stringValue? == some "undefined")
  if isMissing then .test (negated != equality)
  else if isTypeof then .test (negated != !equality)
  else .plain

def operandContext (negated isTypeof : Bool) (parent current : Node) : Context :=
  let isLeft := current.label == some .left
  match parent.operator? with
  | some "||" | some "??" => if isLeft then .fallback else .plain
  | some "&&" => if isLeft then .test negated else .plain
  | some "===" | some "==" =>
      match otherOperand? parent current with
      | some other => comparisonContext true negated isTypeof other
      | none => .plain
  | some "!==" | some "!=" =>
      match otherOperand? parent current with
      | some other => comparisonContext false negated isTypeof other
      | none => .plain
  | _ => .plain

/-- The context of a node, found by going up through parentheses, `!` and `typeof`
to the place where the value is used. -/
def contextFrom (negated isTypeof : Bool) (current : Node) : List Node -> Context
  | [] => .plain
  | parent :: above =>
      match parent.kind with
      | .parenthesizedExpression => contextFrom negated isTypeof parent above
      | .unaryExpression =>
          match parent.operator? with
          | some "!" => contextFrom (!negated) isTypeof parent above
          | some "typeof" => contextFrom negated true parent above
          | _ => .plain
      | .binaryExpression => operandContext negated isTypeof parent current
      | .ifStatement | .whileStatement | .doStatement | .ternaryExpression =>
          if current.label == some .condition then .test negated else .plain
      | _ => .plain

def contextOf (c : Cursor) : Context :=
  contextFrom false false c.node c.above

def isWriteTarget (c : Cursor) : Bool :=
  c.node.label == some .left &&
    match c.parent? with
    | some parent =>
        parent.kind == .assignmentExpression || parent.kind == .augmentedAssignmentExpression
    | none => false

def isCalled (c : Cursor) : Bool :=
  c.node.label == some .function && c.parent?.any fun parent => parent.kind == .callExpression

end Consumer
end PayloadFlow
