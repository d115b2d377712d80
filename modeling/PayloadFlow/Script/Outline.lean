import PayloadFlow.Script.Chain
import PayloadFlow.Script.Function
import PayloadFlow.Script.ObjectLiteral
import PayloadFlow.Script.Walk

/-!
# Outlines

Everything in a source that contracts are read from: its functions, and from
the whole tree the object literals, object patterns, member chains, calls and
string literals.
-/

namespace PayloadFlow
namespace Script

structure Call where
  callee : Option Node.Callee
  arguments : List Node
  line : Nat

structure Outline where
  functions : List FunctionNode := []
  objects : List (List ObjectEntry) := []
  patterns : List (List PatternEntry) := []
  chains : List MemberChain := []
  calls : List Call := []
  /-- literals with substitutions have no value -/
  strings : List (Option String) := []

namespace Outline

/-- The outline with what one node adds.  The parts of a chain are no chains of
their own. -/
def visit (o : Outline) (c : Cursor) : Outline × Bool :=
  let n := c.node
  match n.kind with
  | .object => ({ o with objects := n.objectEntries :: o.objects }, true)
  | .objectPattern => ({ o with patterns := n.patternEntries :: o.patterns }, true)
  | .memberExpression =>
      match n.memberChain? with
      | some chain => ({ o with chains := chain :: o.chains }, false)
      | none => (o, true)
  | .callExpression =>
      ({ o with calls := ⟨n.callee?, n.callArguments, n.line⟩ :: o.calls }, true)
  | .string | .templateString => ({ o with strings := n.stringValue? :: o.strings }, true)
  | _ => (o, true)

def ofProgram (program : Node) : Outline :=
  let o := walk visit {} program
  { functions := program.functions
    objects := o.objects.reverse
    patterns := o.patterns.reverse
    chains := o.chains.reverse
    calls := o.calls.reverse
    strings := o.strings.reverse }

end Outline
end Script
end PayloadFlow
