import PayloadFlow.Script.Value

/-!
# Object literals

The entries of an object literal in source order.
-/

namespace PayloadFlow
namespace Script

inductive ObjectEntry where
  | pair (key : String) (value : Node) (line : Nat)
  | shorthand (name : String) (line : Nat)
  | spread (argument : Node) (line : Nat)
  | method (name : String) (line : Nat)

namespace ObjectEntry

/-- The property that an entry defines; a spread defines none of its own. -/
def key? : ObjectEntry -> Option String
  | .pair key _ _ => some key
  | .shorthand name _ => some name
  | .method name _ => some name
  | .spread _ _ => none

end ObjectEntry

namespace Node

/-- The entry that a part of an object literal stands for. -/
def objectPart? (n : Node) : Option ObjectEntry :=
  match n.kind with
  | .pair =>
      match n.child? .key, n.child? .value with
      | some key, some value => some (.pair key.propertyKey value n.line)
      | _, _ => none
  | .shorthandProperty => some (.shorthand n.text n.line)
  | .spreadElement => n.firstNamed?.map fun argument => .spread argument n.line
  | .methodDefinition => (n.child? .name).map fun name => .method name.text n.line
  | _ => none

def objectEntries (n : Node) : List ObjectEntry :=
  n.parts.filterMap objectPart?

end Node
end Script
end PayloadFlow
