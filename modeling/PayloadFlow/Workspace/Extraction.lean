import PayloadFlow.Digest.Xxh64
import PayloadFlow.Extract.Contracts
import PayloadFlow.Workspace.Cache
import PayloadFlow.Workspace.Discovery

/-!
# Extraction of files

Files are read, looked up in the cache by their content, and extracted if they
are not there.
-/

namespace PayloadFlow
namespace Workspace

/-- The text of the file at a path, unless it is too large. -/
def readSource (tree : Tree) (path : RawText) (displayPath : String) (maxBytes : Nat) :
    Except ExtractionError String :=
  match tree.content? path with
  | .error reason => .error (.unreadable displayPath reason.message)
  | .ok content =>
      if maxBytes > 0 && content.size > maxBytes then
        .error (.tooLarge displayPath content.size maxBytes)
      else
        match String.fromUTF8? content with
        | some text => .ok text
        | none => .error (.notUtf8 displayPath)

/-- The key of a file with a given text.  It holds the path as it is shown, so two paths that
are not UTF-8 can have one key. -/
def cacheKey (path : RawText) (role : Role) (text : String) : CacheKey :=
  ⟨path.text, role, Digest.Xxh64.hashText text⟩

structure FileExtraction where
  file : SourceFile
  result : Except ExtractionError (List Contract)
  cacheHit : Bool

def extractText (config : Config) (cache : Cache) (file : SourceFile) (text : String) :
    FileExtraction × Cache :=
  let key := cacheKey file.path file.role text
  match cache.get key with
  | (some contracts, cache) => (⟨file, .ok contracts, true⟩, cache)
  | (none, cache) =>
      match extract config file.role file.displayPath text with
      | .ok contracts => (⟨file, .ok contracts, false⟩, cache.put key contracts)
      | .error e => (⟨file, .error e, false⟩, cache)

def extractFile (tree : Tree) (config : Config) (cache : Cache) (file : SourceFile) :
    FileExtraction × Cache :=
  match readSource tree file.path file.displayPath config.limits.maxFileBytes.toNat with
  | .error e => (⟨file, .error e, false⟩, cache)
  | .ok text => extractText config cache file text

def extractFiles (tree : Tree) (config : Config) (cache : Cache) :
    List SourceFile -> List FileExtraction × Cache
  | [] => ([], cache)
  | file :: rest =>
      let (first, cache) := extractFile tree config cache file
      let (others, cache) := extractFiles tree config cache rest
      (first :: others, cache)

end Workspace
end PayloadFlow
