import PayloadFlow.Script.Parser.Basic

/-!
# Goals of the grammar

The constructs that contain each other.  Every rule of the grammar is written
against a parser for the goals; the knot is tied in one place, by recursion on a
bound for the depth.
-/

namespace PayloadFlow
namespace Script

inductive Goal where
  | statement
  | block
  /-- an expression without a comma at its top -/
  | expression
  /-- an expression or several ones separated by commas -/
  | expressions
  /-- an operand with its prefix operators -/
  | unary
  /-- operands joined by binary operators of at least a given level -/
  | binary (level : Nat)
  | pattern
  | type
  | decorator
  | jsx
  deriving DecidableEq, Repr

/-- What a rule of the grammar refers to: the other goals, and whether `<` may
open a JSX element. -/
structure Rules where
  jsx : Bool
  parse : Goal -> Parser Node

namespace Rules

def statement (r : Rules) : Parser Node := r.parse .statement
def block (r : Rules) : Parser Node := r.parse .block
def expression (r : Rules) : Parser Node := r.parse .expression
def expressions (r : Rules) : Parser Node := r.parse .expressions
def unary (r : Rules) : Parser Node := r.parse .unary
def pattern (r : Rules) : Parser Node := r.parse .pattern
def type (r : Rules) : Parser Node := r.parse .type

def initializer (r : Rules) : Parser Node := do
  Parser.mark "="
  return (← r.expression).as .value

end Rules

end Script
end PayloadFlow
