import PayloadFlow.RoleMatcher
import PayloadFlow.Workspace.Ignore

/-!
# Discovery

The sources of a module with their roles, found by a scan of its directory.  Paths are
bytes.  Reports, errors and the keys of the cache have their texts, in which what is not
UTF-8 turns into a mark: two paths of this kind may have one text.
-/

namespace PayloadFlow
namespace Workspace

structure SourceFile where
  /-- the path that leads to the file -/
  path : RawText
  /-- the path from the root of the scan, as reports show it -/
  displayPath : String
  role : Role
  deriving DecidableEq, Repr

structure Discovery where
  producers : List SourceFile := []
  consumers : List SourceFile := []
  broker : Option SourceFile := none
  deriving DecidableEq, Repr

namespace Discovery

/-- All files: the broker, then the producers, then the consumers. -/
def files (d : Discovery) : List SourceFile :=
  d.broker.toList ++ d.producers ++ d.consumers

end Discovery

/-! ## Scans -/

mutual

/-- The files in and below a directory, as places from the root of the tree. -/
def filesIn (levels : List IgnoreLevel) (place : List RawText) : Entry -> List (List RawText)
  | .file _ => []
  | .directory entries =>
      filesAmong
        (IgnoreLevel.ofDirectory place.length (.directory entries) :: levels) place entries

def filesAmong (levels : List IgnoreLevel) (place : List RawText) :
    List (RawText × Entry) -> List (List RawText)
  | [] => []
  | (name, entry) :: rest =>
      (if isLeftOut levels (place ++ [name]) name entry.isDirectory then []
        else
          match entry with
          | .file _ => [place ++ [name]]
          | .directory _ => filesIn levels (place ++ [name]) entry) ++
        filesAmong levels place rest

end

/-- The ignore files above a place, the nearest first. -/
def levelsAbove (root : Tree) (place : List RawText) : List IgnoreLevel :=
  ((List.range place.length).filterMap fun depth =>
    (root.lookup? (place.take depth)).map (IgnoreLevel.ofDirectory depth)).reverse

def placeLe (a b : List RawText) : Bool :=
  (List.compareLex compare a b).isLE

/-- The sources below the directory at a path, as places from there, in order. -/
def sourcesBelow (root : Tree) (path : RawText) : List (List RawText) :=
  match root.resolve path with
  | .ok (place, directory) =>
      let found := filesIn (levelsAbove root place) place directory
      let below := found.map fun p => p.drop place.length
      (below.filter fun p => Script.isSource (Path.ofNames p)).mergeSort placeLe
  | .error _ => []

/-! ## Modules -/

def shown (steps : List RawText) : String :=
  String.intercalate "/" (steps.map RawText.text)

/-- A path as seen from a root; a path that does not lead below the root stays as it
is. -/
def displayPath (root path : RawText) : String :=
  let steps := Path.components path
  shown (((Path.components root).isPrefixOf? steps).getD steps)

def sourceFile (root : RawText) (place : List RawText) (role : Role) : SourceFile :=
  ⟨Path.join root (Path.ofNames place), shown place, role⟩

def sourcesInRole (matcher : RoleMatcher) (root : RawText) (places : List (List RawText))
    (role : Role) : List SourceFile :=
  (places.filter fun p => matcher.roleOf (shown p) == some role).map
    fun p => sourceFile root p role

def projectBroker? (tree : Tree) (matcher : RoleMatcher) (root : RawText) : Option SourceFile :=
  if tree.isDirectory root then
    (sourcesInRole matcher root (sourcesBelow tree root) .broker).head?
  else none

/-- The file that the configuration names as the broker, from the module root unless
the path is absolute. -/
def explicitBroker? (config : Config) (root : RawText) : Option RawText :=
  config.broker.path.map fun path => if Path.isAbsolute path then path else Path.join root path

/-- The broker of a module: the configured one, else the first one found, else the
first one of the project. -/
def brokerOf? (tree : Tree) (config : Config) (matcher : RoleMatcher) (root : RawText)
    (candidates : List SourceFile) : Option SourceFile :=
  let configured := (explicitBroker? config root).bind fun path =>
    if tree.isFile path then some ⟨path, displayPath root path, Role.broker⟩ else none
  (configured.or candidates.head?).or
    (config.projectRoot.bind fun project => projectBroker? tree matcher project)

def discover (tree : Tree) (root : RawText) (config : Config) : Except DiscoveryError Discovery :=
  match tree.resolve root with
  | .error _ => .error (.missing root)
  | .ok (_, .file _) => .error (.notADirectory root)
  | .ok (_, .directory _) =>
      match RoleMatcher.ofPatterns config.roles config.ignorePatterns with
      | .error e => .error e
      | .ok matcher =>
          let isExplicit (place : List RawText) : Bool :=
            (explicitBroker? config root).any fun path =>
              Path.components path == Path.components (Path.join root (Path.ofNames place))
          let places := (sourcesBelow tree root).filter fun p => !isExplicit p
          .ok
            { producers := sourcesInRole matcher root places .producer
              consumers := sourcesInRole matcher root places .consumer
              broker :=
                brokerOf? tree config matcher root (sourcesInRole matcher root places .broker) }

end Workspace
end PayloadFlow
