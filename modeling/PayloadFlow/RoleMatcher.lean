import PayloadFlow.Config
import PayloadFlow.Contract
import PayloadFlow.Glob.Match

/-!
# Roles of files

Patterns decide which role a file plays.  Files to be ignored play none; after
that broker patterns win over consumer patterns, and these over producer
patterns.  The directories of a tree can all be listed, so that no scan ends with
`unreadable`.
-/

namespace PayloadFlow

inductive DiscoveryError where
  | missing (path : RawText)
  | notADirectory (path : RawText)
  | unreadable (path : RawText) (reason : String)
  | invalidPattern (pattern : String) (reason : Glob.PatternError)
  deriving DecidableEq, Repr

namespace DiscoveryError

def message : DiscoveryError -> String
  | .missing path => "module path does not exist: " ++ path.text
  | .notADirectory path => "module path is not a directory: " ++ path.text
  | .unreadable path reason => "module path is unreadable: " ++ path.text ++ ": " ++ reason
  | .invalidPattern pattern reason =>
      "invalid role pattern `" ++ pattern ++ "`: error parsing glob '" ++ pattern ++ "': "
        ++ reason.message

end DiscoveryError

structure RoleMatcher where
  producer : List (List Glob.Piece)
  consumer : List (List Glob.Piece)
  broker : List (List Glob.Piece)
  ignored : List (List Glob.Piece)

namespace RoleMatcher

/-- The patterns of a list; the first bad one is reported. -/
def patterns : List String -> Except DiscoveryError (List (List Glob.Piece))
  | [] => .ok []
  | p :: rest =>
      match Glob.parse p with
      | .error e => .error (.invalidPattern p e)
      | .ok pieces =>
          match patterns rest with
          | .error e => .error e
          | .ok others => .ok (pieces :: others)

def ofPatterns (roles : RolePatterns) (ignorePatterns : List String) :
    Except DiscoveryError RoleMatcher := do
  let producer ← patterns roles.producer
  let consumer ← patterns roles.consumer
  let broker ← patterns roles.broker
  let ignored ← patterns ignorePatterns
  return { producer, consumer, broker, ignored }

def matchesAny (patterns : List (List Glob.Piece)) (path : String) : Bool :=
  patterns.any fun p => Glob.isMatch false p path

/-- The role of the file at a path, named from the module root. -/
def roleOf (m : RoleMatcher) (path : String) : Option Role :=
  if matchesAny m.ignored path then none
  else if matchesAny m.broker path then some .broker
  else if matchesAny m.consumer path then some .consumer
  else if matchesAny m.producer path then some .producer
  else none

end RoleMatcher

end PayloadFlow
