import PayloadFlow.ConfigFile
import PayloadFlow.Validation

/-!
# Sessions

A session works on a file tree with one cache: files change, modules are
validated, and the steps on the way can be looked at one by one.
-/

namespace PayloadFlow
namespace Workspace

open Validation

def configDirectory : String := ".flowcheck"

def configFile : String := "flowcheck.json"

def loadConfig (tree : Tree) (directory : RawText) : Config :=
  match tree.content? (Path.join directory configFile) with
  | .ok content => Config.load (some content)
  | .error _ => Config.load none

def moduleConfig (tree : Tree) (modulePath : RawText) : Config :=
  loadConfig tree (Path.join modulePath configDirectory)

structure Session where
  tree : Tree := Tree.empty
  cache : Cache := {}

inductive Request where
  | write (path : RawText) (content : ByteArray)
  | makeDirectory (path : RawText)
  | remove (path : RawText)
  | newCache
  | validate (modulePath : RawText) (moduleName : String) (config : Option Config)
  | traced (modulePath : RawText) (moduleName : String) (config : Option Config)
  | validateAll (modules : List (String × RawText))
  | discover (modulePath : RawText) (config : Option Config)
  | readSource (path : RawText) (displayPath : String) (maxBytes : Nat)
  | loadConfig (directory : RawText)
  | extractFile (file : SourceFile) (config : Config)
  | cachePut (key : CacheKey) (contracts : List Contract)
  | cacheGet (key : CacheKey)

inductive Answer where
  | ok
  | absent
  | validated (report : Report) (cache : Cache)
  | traced (report : Report) (trace : List Stage)
  | batch (report : BatchReport)
  | discovered (result : Except DiscoveryError Discovery)
  | source (result : Except ExtractionError String)
  | config (config : Config)
  | extracted (extraction : FileExtraction) (cache : Cache)
  | cached (found : Option (List Contract)) (cache : Cache)

/-- The reports of some modules, validated one after the other with one cache, each
with its own configuration. -/
def moduleReports (tree : Tree) (cache : Cache) : List (String × RawText) -> List (String × Report)
  | [] => []
  | (name, path) :: rest =>
      let r := run tree (moduleConfig tree path) path name cache
      (name, r.report) :: moduleReports tree r.cache rest

/-- The batch of a table of modules, in order of their names. -/
def validateAll (tree : Tree) (modules : List (String × RawText)) : BatchReport :=
  BatchReport.ofReports (moduleReports tree {} modules)

namespace Session

def handle (s : Session) : Request -> Session × Answer
  | .write path content => ({ s with tree := s.tree.write (placeOf path) content }, .ok)
  | .makeDirectory path => ({ s with tree := s.tree.makeDirectory (placeOf path) }, .ok)
  | .remove path =>
      match s.tree.resolve path with
      | .ok (place, _) => ({ s with tree := s.tree.remove place }, .ok)
      | .error _ => (s, .absent)
  | .newCache => ({ s with cache := {} }, .ok)
  | .validate path name config =>
      let r := run s.tree (config.getD (moduleConfig s.tree path)) path name s.cache
      ({ s with cache := r.cache }, .validated r.report r.cache)
  | .traced path name config =>
      let r := run s.tree (config.getD (moduleConfig s.tree path)) path name {}
      (s, .traced r.report r.trace)
  | .validateAll modules => (s, .batch (Workspace.validateAll s.tree modules))
  | .discover path config =>
      (s, .discovered
        (Workspace.discover s.tree path (config.getD (moduleConfig s.tree path))))
  | .readSource path displayPath maxBytes =>
      (s, .source (Workspace.readSource s.tree path displayPath maxBytes))
  | .loadConfig directory => (s, .config (Workspace.loadConfig s.tree directory))
  | .extractFile file config =>
      let (x, cache) := Workspace.extractFile s.tree config s.cache file
      ({ s with cache }, .extracted x cache)
  | .cachePut key contracts =>
      let cache := s.cache.put key contracts
      ({ s with cache }, .cached none cache)
  | .cacheGet key =>
      let (found, cache) := s.cache.get key
      ({ s with cache }, .cached found cache)

def answers (s : Session) : List Request -> List Answer
  | [] => []
  | r :: rest =>
      let (s, a) := s.handle r
      a :: answers s rest

def ofFiles (files : List (RawText × ByteArray)) : Session :=
  { tree := files.foldl (fun tree f => tree.write (placeOf f.1) f.2) Tree.empty }

end Session

end Workspace
end PayloadFlow
