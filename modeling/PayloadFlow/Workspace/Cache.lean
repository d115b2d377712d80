import PayloadFlow.Contract

/-!
# Extraction cache

Contracts of files that have been read, kept by path, role and digest of the
content, so that a file that has changed is not found. The count of hits has no
bound; in 32 bits it is the same as long as it stays below `2 ^ 32`.
-/

namespace PayloadFlow
namespace Workspace

structure CacheKey where
  path : String
  role : Role
  digest : UInt64
  deriving DecidableEq, Repr

structure Cache where
  entries : List (CacheKey × List Contract) := []
  /-- the number of look-ups that found something -/
  hits : Nat := 0

namespace Cache

def find? (c : Cache) (key : CacheKey) : Option (List Contract) :=
  (c.entries.find? fun e => e.1 == key).map (·.2)

/-- A look-up, which counts if it finds something. -/
def get (c : Cache) (key : CacheKey) : Option (List Contract) × Cache :=
  match c.find? key with
  | some contracts => (some contracts, { c with hits := c.hits + 1 })
  | none => (none, c)

/-- The cache with contracts under a key, in place of older ones. -/
def put (c : Cache) (key : CacheKey) (contracts : List Contract) : Cache :=
  { c with entries := (key, contracts) :: c.entries.filter fun e => e.1 != key }

def size (c : Cache) : Nat :=
  c.entries.length

end Cache

end Workspace
end PayloadFlow
