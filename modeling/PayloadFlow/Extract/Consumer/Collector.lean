import PayloadFlow.Extract.Consumer.Access
import PayloadFlow.Script.Chain
import PayloadFlow.Script.Function

/-!
# Collecting accesses

A handler reads its payload through a parameter and through the names that come
to stand for the payload or for a property of it.  The body is gone through from
left to right, and the names are kept up to date on the way.
-/

namespace PayloadFlow
namespace Consumer

open Script

structure SourceRef where
  path : List String
  /-- reached in a way that allows for absence -/
  isSafe : Bool
  deriving DecidableEq, Repr

abbrev Sources := List (String × SourceRef)

namespace Sources

def find? (sources : Sources) (name : String) : Option SourceRef :=
  List.lookup name sources

def erase (sources : Sources) (name : String) : Sources :=
  sources.filter fun entry => entry.1 != name

def set (sources : Sources) (name : String) (source : SourceRef) : Sources :=
  (name, source) :: sources.erase name

/-- The names without some, and what these referred to. -/
def shadow : List String -> Sources -> Sources × Sources
  | [], sources => (sources, [])
  | name :: rest, sources =>
      match sources.find? name with
      | some source =>
          let (left, hidden) := shadow rest (sources.erase name)
          (left, (name, source) :: hidden)
      | none => shadow rest sources

/-- The names with hidden ones back in force. -/
def restore (sources hidden : Sources) : Sources :=
  hidden.foldl (fun s entry => s.set entry.1 entry.2) sources

end Sources

/-- A path into the payload with a mark on each step that allows for absence. -/
structure Reach where
  path : List String
  optional : List Bool
  deriving DecidableEq, Repr

namespace Reach

def push (r : Reach) (name : String) : Reach :=
  ⟨r.path ++ [name], r.optional ++ [false]⟩

def pop (r : Reach) : Reach :=
  ⟨r.path.dropLast, r.optional.dropLast⟩

end Reach

/-- The names in force and the accesses found so far. -/
structure Collector where
  sources : Sources := []
  accesses : List Access := []

namespace Collector

def addSource (c : Collector) (name : String) (path : List String) (isSafe : Bool) : Collector :=
  { c with sources := c.sources.set name ⟨path, isSafe⟩ }

def push (c : Collector) (a : Access) : Collector :=
  { c with accesses := c.accesses ++ [a] }

def read (c : Collector) (r : Reach) (context : Context) (line : Nat) : Collector :=
  c.push ⟨r.path, r.optional, context, false, false, line⟩

def reachOf (source : SourceRef) : Reach :=
  ⟨source.path, source.path.map fun _ => source.isSafe⟩

def resolve? (c : Collector) (chain : MemberChain) : Option Reach :=
  (c.sources.find? chain.root).map fun source =>
    let start := reachOf source
    ⟨start.path ++ chain.names, start.optional ++ chain.segments.map (·.isOptional)⟩

def resolveNode? (c : Collector) (n : Node) : Option Reach := do
  c.resolve? (← n.unwrap.memberChain?)

/-! ## Patterns -/

/-- The access of a pattern to a property.  A property that is taken apart further
without a default is only read through the deeper paths. -/
def readEntry (c : Collector) (e : PatternEntry) (path : List String) (isSafe : Bool) :
    Collector :=
  if e.nested.isNone || e.hasDefault then
    c.push ⟨path, path.map fun _ => isSafe, .plain, true, e.hasDefault, e.line⟩
  else c

def readPattern (pattern : Node) (path : List String) (isSafe : Bool) (c : Collector) :
    Collector :=
  pattern.patternEntries.attach.foldl
    (fun c ⟨e, _⟩ =>
      if e.isRest then c
      else
        let path := path ++ [e.key]
        let c := c.readEntry e path isSafe
        match _ : e.nested with
        | some inner => readPattern inner path (isSafe || e.hasDefault) c
        | none =>
            match e.localName with
            | some name => c.addSource name path (isSafe || e.hasDefault)
            | none => c)
    c
termination_by sizeOf pattern
decreasing_by exact Node.sizeOf_lt_of_mem_patternEntries ‹_ ∈ _› ‹_ = some _›

/-! ## Nodes -/

inductive Next where
  /-- leave its parts out -/
  | skip (collector : Collector)
  /-- go on to its parts -/
  | descend (collector : Collector)
  /-- go through a body inside which some names are hidden -/
  | body (collector : Collector) (hidden : Sources)

/-- A value of a declared variable without the alternative it falls back on. -/
def withoutFallback? (value : Node) : Option (Node × Bool) :=
  if value.kind == .binaryExpression &&
      (value.operator? == some "||" || value.operator? == some "??") then
    (value.child? .left).map fun left => (left, true)
  else some (value, false)

/-- A variable that takes over a part of the payload or takes it apart. -/
def atDeclarator (c : Collector) (n : Node) : Next :=
  let found : Option (Node × Node × Bool × Reach) := do
    let name ← n.child? .name
    let value ← n.child? .value
    let (base, hasFallback) ← withoutFallback? value.unwrap
    some (name, base, hasFallback, ← c.resolveNode? base)
  match found with
  | none => .descend c
  | some (name, base, hasFallback, r) =>
      let isSafe := hasFallback || r.optional.any fun o => o
      match name.kind with
      | .objectPattern => .skip (readPattern name r.path isSafe c)
      | .identifier =>
          let c :=
            if hasFallback && !r.path.isEmpty then c.read r .fallback base.line
            else if r.path.length > 1 then c.read r .plain base.line
            else c
          .skip (c.addSource name.text r.path isSafe)
      | _ => .descend c

def ownPropertyTest? (n : Node) : Option (Node × Node) := do
  let callee ← n.callee?
  let arguments := n.callArguments
  if callee == ⟨some "Object", "hasOwn"⟩ then
    some (← arguments[0]?, ← arguments[1]?)
  else if callee.receiver.isSome && callee.name == "hasOwnProperty" then
    let object ← (← n.child? .function).unwrap.child? .object
    some (object, ← arguments[0]?)
  else none

def atCall (c : Collector) (n : Node) : Next :=
  let found : Option Reach := do
    let (object, key) ← ownPropertyTest? n
    let r ← c.resolveNode? object
    some (r.push (← key.stringValue?))
  match found with
  | some r => .skip (c.read r (.test false) n.line)
  | none => .descend c

def atIn (c : Collector) (place : Cursor) : Next :=
  let n := place.node
  let found : Option Reach := do
    let key ← (← n.child? .left).stringValue?
    some ((← c.resolveNode? (← n.child? .right)).push key)
  match found with
  | some r => .skip (c.read r (.test (contextOf place == .test true)) n.line)
  | none => .descend c

/-- A chain of members.  The name of a method that is called is no property. -/
def atMember (c : Collector) (place : Cursor) : Next :=
  match place.node.memberChain?.bind c.resolve? with
  | none => .descend c
  | some r =>
      if isWriteTarget place then .skip c
      else
        let r := if isCalled place then r.pop else r
        if r.path.isEmpty then .skip c
        else .skip (c.read r (contextOf place) place.node.line)

def atIdentifier (c : Collector) (place : Cursor) : Next :=
  match c.sources.find? place.node.text with
  | none => .skip c
  | some source =>
      if source.path.isEmpty || isWriteTarget place then .skip c
      else .skip (c.read (reachOf source) (contextOf place) place.node.line)

/-- A function inside the handler.  Its parameters hide names of the payload. -/
def atFunction (c : Collector) (n : Node) : Next :=
  match n.function? "" false with
  | none => .descend c
  | some f =>
      let names := f.params.flatMap fun p => p.parameterPattern.1.boundNames
      match Sources.shadow names c.sources with
      | (_, []) => .descend c
      | (left, hidden) => .body { c with sources := left } hidden

def visit (c : Collector) (place : Cursor) : Next :=
  let n := place.node
  if n.kind.isFunctionLike then c.atFunction n
  else
    match n.kind with
    | .variableDeclarator => c.atDeclarator n
    | .callExpression => c.atCall n
    | .binaryExpression => if n.operator? == some "in" then c.atIn place else .descend c
    | .memberExpression => c.atMember place
    | .identifier => c.atIdentifier place
    | _ => .descend c

def collect (n : Node) (above : List Node) (c : Collector) : Collector :=
  match c.visit ⟨n, above⟩ with
  | .skip c => c
  | .descend c => n.parts.attach.foldl (fun c ⟨part, _⟩ => collect part (n :: above) c) c
  | .body c hidden =>
      match _ : n.child? .body with
      | some body =>
          let c := collect body (n :: above) c
          { c with sources := c.sources.restore hidden }
      | none => { c with sources := c.sources.restore hidden }
termination_by sizeOf n
decreasing_by
  · exact Node.sizeOf_lt_of_mem_parts ‹_›
  · exact Node.sizeOf_lt_of_child? ‹_›

end Collector
end Consumer
end PayloadFlow
