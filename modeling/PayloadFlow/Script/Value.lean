import PayloadFlow.Script.Node

/-!
# Values as written

Expressions without the wrappers around them, and the texts of literals.
-/

namespace PayloadFlow
namespace Script
namespace Node

/-- An expression without the parentheses, casts and assertions around it. -/
def unwrap (n : Node) : Node :=
  if n.kind.isWrapper then
    match _ : n.firstNamed? with
    | some inner => unwrap inner
    | none => n
  else n
termination_by sizeOf n
decreasing_by exact sizeOf_lt_of_firstNamed? ‹_›

theorem sizeOf_unwrap_le (n : Node) : sizeOf n.unwrap ≤ sizeOf n := by
  fun_induction unwrap n with
  | case1 n _ inner h ih =>
      have hlt := sizeOf_lt_of_firstNamed? h
      omega
  | case2 n _ _ => exact Nat.le_refl _
  | case3 n _ => exact Nat.le_refl _

theorem unwrap_of_not_isWrapper {n : Node} (hkind : n.kind.isWrapper = false) : n.unwrap = n := by
  rw [unwrap, hkind]
  rfl

theorem unwrap_unwrap (n : Node) : n.unwrap.unwrap = n.unwrap := by
  fun_induction unwrap n with
  | case1 n hkind inner hinner ih =>
      exact ih
  | case2 n hkind hinner =>
      rw [unwrap, if_pos hkind]
      split
      · rename_i inner hsome
        rw [hinner] at hsome
        cases hsome
      · rfl
  | case3 n hkind =>
      exact unwrap_of_not_isWrapper (by simpa using hkind)

/-- The text between the first and the last character. -/
def inside (n : Node) : String :=
  String.ofList (n.text.toList.drop 1).dropLast

/-- The text of a string literal, or of a template literal without
substitutions. -/
def stringValue? (n : Node) : Option String :=
  let n := n.unwrap
  if n.text.length < 2 then none
  else
    match n.kind with
    | .string => some n.inside
    | .templateString =>
        if n.parts.any fun c => c.kind == .templateSubstitution then none else some n.inside
    | _ => none

/-- The name of a property: a literal without its quotes, anything else as
written. -/
def propertyKey (n : Node) : String :=
  n.stringValue?.getD n.text

end Node
end Script
end PayloadFlow
