import PayloadFlow.Script.Grammar.Statement

/-!
# From source text to syntax tree

Sources are read as TypeScript, with casts in angle brackets, or as TypeScript
with JSX, which includes plain JavaScript.
-/

namespace PayloadFlow
namespace Script

/-- The two ways to read an opening angle bracket. -/
inductive Dialect where
  /-- casts such as `<T>x` -/
  | typescript
  /-- JSX elements -/
  | jsx
  deriving DecidableEq, Repr

namespace Grammar

def rule (r : Rules) : Goal -> Parser Node
  | .statement => statementRule r
  | .block => block r
  | .expression => expressionRule r
  | .expressions => expressionsRule r
  | .unary => unaryRule r
  | .binary level => binaryRule r level
  | .pattern => pattern r
  | .type => typeRule r
  | .decorator => decorator r
  | .jsx => jsxElement r

/-- The rules tied together, up to a given depth. -/
def parseGoal (jsx : Bool) : Nat -> Goal -> Parser Node
  | 0, _ => Parser.fail
  | depth + 1, goal => rule ⟨jsx, parseGoal jsx depth⟩ goal

end Grammar

/-- Constructs nest at most this deep in a source of a given size: between two
characters that are read there are only so many rules. -/
def depthBound (size : Nat) : Nat :=
  16 * (size + 2)

/-- The syntax tree of a source, or the line at which it cannot be continued. -/
def parse (dialect : Dialect) (source : String) : Except Nat Node :=
  let place := Place.ofSource source
  let size := place.rest.length
  let rules : Rules := ⟨dialect == .jsx, Grammar.parseGoal (dialect == .jsx) (depthBound size)⟩
  match Grammar.program rules ⟨size, place, 1, [], ⟨0, 1⟩⟩ with
  | .ok (tree, _) => .ok tree
  | .error failure => .error failure.line

end Script
end PayloadFlow
