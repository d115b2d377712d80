import PayloadFlow.Script.Value

/-!
# Names bound by parameters and patterns

A parameter binds a name or a pattern, with or without a default.  An object
pattern reads properties and binds them to names or to patterns again.
-/

namespace PayloadFlow
namespace Script

structure PatternEntry where
  /-- the property -/
  key : String
  /-- the name it is bound to, if it is bound to a name -/
  localName : Option String
  hasDefault : Bool
  /-- the object pattern it is bound to, if it is bound to one -/
  nested : Option Node
  /-- collects what the other entries leave -/
  isRest : Bool
  line : Nat

namespace Node

/-- A pattern without its default, and whether it has one. -/
def withoutDefault (n : Node) : Node × Bool :=
  if n.kind == .assignmentPattern then
    match n.child? .left with
    | some left => (left, true)
    | none => (n, false)
  else (n, false)

/-- The pattern of a parameter, and whether the parameter may be left out. -/
def parameterPattern (n : Node) : Node × Bool :=
  match n.kind with
  | .requiredParameter | .optionalParameter =>
      let bound := ((n.child? .pattern).getD n).withoutDefault
      let hasDefault := (n.child? .value).isSome || n.kind == .optionalParameter
      (bound.1, hasDefault || bound.2)
  | _ => n.withoutDefault

def parameterName? (n : Node) : Option String :=
  let pattern := n.parameterPattern.1
  if pattern.kind == .identifier then some pattern.text else none

/-- The entry of an object pattern that binds the value of a property to a
pattern. -/
def pairEntry (n key value : Node) : PatternEntry :=
  let bound := value.withoutDefault
  { key := key.propertyKey
    localName := if bound.1.kind == .identifier then some bound.1.text else none
    hasDefault := bound.2
    nested := if bound.1.kind == .objectPattern then some bound.1 else none
    isRest := false
    line := n.line }

/-- The entry that a part of an object pattern stands for. -/
def patternPart? (n : Node) : Option PatternEntry :=
  match n.kind with
  | .shorthandPropertyPattern => some ⟨n.text, some n.text, false, none, false, n.line⟩
  | .objectAssignmentPattern =>
      (n.child? .left).map fun left => ⟨left.text, some left.text, true, none, false, n.line⟩
  | .pairPattern =>
      match n.child? .key, n.child? .value with
      | some key, some value => some (n.pairEntry key value)
      | _, _ => none
  | .restPattern =>
      let name := (n.firstNamed?.map (·.text)).getD ""
      some ⟨name, some name, false, none, true, n.line⟩
  | _ => none

def patternEntries (n : Node) : List PatternEntry :=
  n.parts.filterMap patternPart?

theorem sizeOf_withoutDefault_le (n : Node) : sizeOf n.withoutDefault.1 ≤ sizeOf n := by
  unfold withoutDefault
  split
  · split
    · rename_i h
      exact Nat.le_of_lt (sizeOf_lt_of_child? h)
    · exact Nat.le_refl _
  · exact Nat.le_refl _

theorem sizeOf_lt_of_patternPart? {n m : Node} {e : PatternEntry}
    (h : n.patternPart? = some e) (hm : e.nested = some m) : sizeOf m < sizeOf n := by
  unfold patternPart? at h
  split at h
  · cases h
    cases hm
  · cases hl : n.child? .left with
    | none => simp [hl] at h
    | some left =>
        simp only [hl, Option.map_some, Option.some.injEq] at h
        subst h
        cases hm
  · split at h
    · rename_i key value hk hv
      simp only [Option.some.injEq] at h
      subst h
      simp only [pairEntry] at hm
      split at hm
      · simp only [Option.some.injEq] at hm
        subst hm
        exact Nat.lt_of_le_of_lt (sizeOf_withoutDefault_le value) (sizeOf_lt_of_child? hv)
      · cases hm
    · cases h
  · cases h
    cases hm
  · cases h

theorem sizeOf_lt_of_mem_patternEntries {n m : Node} {e : PatternEntry}
    (h : e ∈ n.patternEntries) (hm : e.nested = some m) : sizeOf m < sizeOf n := by
  obtain ⟨c, hc, he⟩ := List.mem_filterMap.1 h
  exact Nat.lt_trans (sizeOf_lt_of_patternPart? he hm) (sizeOf_lt_of_mem_parts hc)

def boundNames (n : Node) : List String :=
  match n.kind with
  | .identifier => [n.text]
  | .objectPattern =>
      n.patternEntries.attach.flatMap fun ⟨e, _⟩ =>
        match e.localName, _ : e.nested with
        | some name, _ => [name]
        | none, some inner => boundNames inner
        | none, none => []
  | .arrayPattern =>
      n.parts.attach.flatMap fun ⟨c, _⟩ => boundNames c.withoutDefault.1
  | .restPattern =>
      match _ : n.firstNamed? with
      | some inner => boundNames inner
      | none => []
  | _ => []
termination_by sizeOf n
decreasing_by
  · exact sizeOf_lt_of_mem_patternEntries ‹_ ∈ _› ‹_ = some _›
  · exact Nat.lt_of_le_of_lt (sizeOf_withoutDefault_le c) (sizeOf_lt_of_mem_parts ‹_›)
  · exact sizeOf_lt_of_firstNamed? ‹_›

end Node
end Script
end PayloadFlow
