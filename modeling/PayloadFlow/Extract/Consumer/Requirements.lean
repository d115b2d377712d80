import PayloadFlow.Contract
import PayloadFlow.Extract.Consumer.Access
import PayloadFlow.Listing
import PayloadFlow.Text.Search

/-!
# Requirements of a handler

What a handler needs, read off all its accesses together.  A property is required
if a pattern reads it without a default, if its absence is guarded against, or if
it is read somewhere and nothing shows that it may be absent.
-/

namespace PayloadFlow
namespace Consumer

def dotted (path : List String) : String :=
  String.ofList (Text.joinWith ['.'] (path.map (·.toList)))

structure Summary where
  line : Nat
  destructured : Bool := false
  defaulted : Bool := false
  guarded : Bool := false
  unconditional : Bool := false
  fallback : Bool := false
  safe : Bool := false
  tested : Bool := false
  /-- read by name, and not only through a deeper path -/
  direct : Bool := false
  deepest : Option (List String) := none
  deriving DecidableEq, Repr

namespace Summary

def covered (s : Summary) : Bool :=
  s.fallback || s.safe || s.tested || s.defaulted

def required (s : Summary) : Bool :=
  s.destructured || s.guarded || (s.unconditional && !s.covered)

/-- Whether a test or a default protects all that is read below the property. -/
def protects (s : Summary) : Bool :=
  s.tested || s.defaulted || s.fallback

def noteUse (s : Summary) (a : Access) : Summary :=
  let isTop := a.path.length == 1
  if a.destructured then
    if a.hasDefault && isTop then { s with defaulted := true }
    else if !a.optional.head?.getD false then { s with destructured := true }
    else { s with safe := true }
  else if a.isSafe then { s with safe := true }
  else
    match a.context with
    | .fallback => if isTop then { s with fallback := true } else { s with unconditional := true }
    | .test true => { s with guarded := true }
    | .test false => if isTop then { s with tested := true } else { s with unconditional := true }
    | .plain => { s with unconditional := true }

def notePath (s : Summary) (a : Access) : Summary :=
  if a.path.length == 1 then { s with direct := true }
  else if s.deepest.all fun d => d.length < a.path.length then { s with deepest := some a.path }
  else s

def note (s : Summary) (a : Access) : Summary :=
  notePath (noteUse { s with line := min s.line a.line } a) a

end Summary

def noteAccess (name : String) (a : Access) : List (String × Summary) -> List (String × Summary)
  | [] => [(name, Summary.note { line := a.line } a)]
  | entry :: rest =>
      if entry.1 == name then (name, entry.2.note a) :: rest else entry :: noteAccess name a rest

def summaries (accesses : List Access) : List (String × Summary) :=
  accesses.foldl
    (fun table a =>
      match a.path.head? with
      | some name => noteAccess name a table
      | none => table)
    []

/-! ## Nested properties -/

abbrev NestedKey := String × String

def nestedOrder (a b : NestedKey) : Ordering :=
  (compare a.1 b.1).then (compare a.2 b.2)

structure NestedUse where
  isRequired : Bool
  line : Nat
  deriving DecidableEq, Repr

namespace NestedUse

def merge (u : NestedUse) : Option NestedUse -> NestedUse
  | none => u
  | some earlier => ⟨earlier.isRequired || u.isRequired, min earlier.line u.line⟩

end NestedUse

/-- The nested properties that an access reads: at every depth the step from the
path so far, required unless one of the steps up to it allows for absence. -/
def nestedUses (a : Access) : List (NestedKey × NestedUse) :=
  (List.range (a.path.length - 1)).filterMap fun i =>
    let depth := i + 1
    (a.path[depth]?).map fun name =>
      ((dotted (a.path.take depth), name),
        ⟨!(a.optional.take (depth + 1)).any fun o => o, a.line⟩)

/-- The nested properties of a list of accesses, in order of path and name. -/
def nestedTable (accesses : List Access) : List (NestedKey × NestedUse) :=
  (accesses.flatMap nestedUses).foldl
    (fun table entry => Listing.alterBy nestedOrder entry.1 entry.2.merge table) []

/-- The property at an entry of the table.  What is read below a property that
the handler protects is not required. -/
def nestedProperty (table : List (String × Summary)) (entry : NestedKey × NestedUse) :
    NestedProperty :=
  let property : NestedProperty := ⟨entry.1.1, entry.1.2, entry.2.isRequired, entry.2.line⟩
  let isProtected := (Listing.find? property.root table).any (·.protects)
  { property with isRequired := property.isRequired && !isProtected }

/-! ## The three lists -/

structure Requirements where
  required : List RequiredProperty
  optional : List OptionalProperty
  nested : List NestedProperty
  deriving DecidableEq, Repr

namespace Requirements

def requiredProperty (entry : String × Summary) : RequiredProperty :=
  let s := entry.2
  ⟨entry.1, !s.direct, if s.direct then none else s.deepest.map dotted, s.line⟩

def optionalProperty (entry : String × Summary) : OptionalProperty :=
  ⟨entry.1, entry.2.fallback || entry.2.defaulted, entry.2.line⟩

/-- Nested properties are listed by line, then by path and name. -/
def nestedLe (a b : NestedProperty) : Bool :=
  ((compare a.line b.line).then
    (nestedOrder (a.parentPath, a.name) (b.parentPath, b.name))).isLE

def ofAccesses (accesses : List Access) : Requirements :=
  let table := summaries accesses
  let needed := table.filter fun entry => entry.2.required
  let others := table.filter fun entry => !entry.2.required
  { required := (needed.map requiredProperty).mergeSort fun a b => a.line ≤ b.line
    optional := (others.map optionalProperty).mergeSort fun a b => a.line ≤ b.line
    nested := ((nestedTable accesses).map (nestedProperty table)).mergeSort nestedLe }

end Requirements
end Consumer
end PayloadFlow
