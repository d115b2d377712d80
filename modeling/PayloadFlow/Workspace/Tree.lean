import PayloadFlow.Extract.Error

/-!
# File trees

The files that a run can see.  Paths lead from the root of the tree; `.` stays in
a directory, `..` goes back to the one around it, and a path that ends in a slash
leads to a directory.
-/

namespace PayloadFlow
namespace Workspace

inductive Entry where
  | file (content : ByteArray)
  | directory (entries : List (RawText × Entry))

namespace Entry

def isDirectory : Entry -> Bool
  | .directory _ => true
  | .file _ => false

def child? (name : RawText) : Entry -> Option Entry
  | .directory entries => (entries.find? fun e => e.1 == name).map (·.2)
  | .file _ => none

def lookup? : List RawText -> Entry -> Option Entry
  | [], e => some e
  | name :: rest, e =>
      match e.child? name with
      | some inner => lookup? rest inner
      | none => none

/-- Entries with a new one under a name; an old one gives up its place. -/
def putChild (name : RawText) (entry : Entry) : List (RawText × Entry) -> List (RawText × Entry)
  | [] => [(name, entry)]
  | e :: rest => if e.1 == name then (name, entry) :: rest else e :: putChild name entry rest

/-- The entries of a directory; a file has none. -/
def entries : Entry -> List (RawText × Entry)
  | .directory entries => entries
  | .file _ => []

/-- The tree with an entry changed where a list of names leads to, in directories
that are made if need be. -/
def alter (change : Option Entry -> Entry) : List RawText -> Option Entry -> Entry
  | [], old => change old
  | name :: rest, old =>
      let inner := old.bind (child? name)
      .directory (putChild name (alter change rest inner) ((old.map entries).getD []))

def write (place : List RawText) (content : ByteArray) (root : Entry) : Entry :=
  alter (fun _ => .file content) place (some root)

/-- The tree with a directory, which is empty unless it is there. -/
def makeDirectory (place : List RawText) (root : Entry) : Entry :=
  alter (fun old => .directory ((old.map entries).getD [])) place (some root)

def remove : List RawText -> Entry -> Entry
  | [], e => e
  | [name], .directory entries => .directory (entries.filter fun e => e.1 != name)
  | name :: rest, .directory entries =>
      .directory (entries.map fun e => if e.1 == name then (e.1, remove rest e.2) else e)
  | _, .file content => .file content

end Entry

abbrev Tree := Entry

namespace Tree

def empty : Tree :=
  .directory []

/-- Where some steps lead to, from a place with its entry. -/
def follow (root : Tree) (place : List RawText) (here : Entry) :
    List RawText -> Except AccessError (List RawText × Entry)
  | [] => .ok (place, here)
  | step :: rest =>
      if !here.isDirectory then .error .notADirectory
      else if step == .empty || step == Path.here then follow root place here rest
      else if step == Path.parent then
        match place with
        | [] => .error .notFound
        | _ =>
            match root.lookup? place.dropLast with
            | some around => follow root place.dropLast around rest
            | none => .error .notFound
      else
        match here.child? step with
        | some inner => follow root (place ++ [step]) inner rest
        | none => .error .notFound

def resolve (root : Tree) (path : RawText) : Except AccessError (List RawText × Entry) :=
  if path == .empty then .error .notFound
  else follow root [] root (Path.steps path)

def isDirectory (root : Tree) (path : RawText) : Bool :=
  match root.resolve path with
  | .ok (_, e) => e.isDirectory
  | .error _ => false

def isFile (root : Tree) (path : RawText) : Bool :=
  match root.resolve path with
  | .ok (_, e) => !e.isDirectory
  | .error _ => false

def content? (root : Tree) (path : RawText) : Except AccessError ByteArray :=
  match root.resolve path with
  | .ok (_, .file content) => .ok content
  | .ok (_, .directory _) => .error .isADirectory
  | .error e => .error e

end Tree

/-- The names that a path is made of, with `..` taken back. -/
def placeOf (path : RawText) : List RawText :=
  (Path.components path).foldl
    (fun place step =>
      if step == Path.top || step == Path.here then place
      else if step == Path.parent then place.dropLast
      else place ++ [step])
    []

end Workspace
end PayloadFlow
