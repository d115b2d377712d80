import PayloadFlow.Script.Walk

/-!
# Local values

The value that a declaration inside a construct gives to a name.
-/

namespace PayloadFlow
namespace Script
namespace Node

def declaredValue? (name : String) (n : Node) : Option Node :=
  if n.kind == .variableDeclarator then
    match n.child? .name, n.child? .value with
    | some bound, some value =>
        if bound.kind == .identifier && bound.text == name then some value else none
    | _, _ => none
  else none

/-- The value of the first declaration of a name inside a construct. -/
def localValue? (scope : Node) (name : String) : Option Node :=
  findFirst (declaredValue? name) scope

end Node
end Script
end PayloadFlow
