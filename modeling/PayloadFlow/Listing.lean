/-!
# Lists in order and without repetition

Tables are lists of pairs in strictly increasing order of their keys, and sets
are such lists of names.
-/

namespace PayloadFlow
namespace Listing

variable {κ α : Type}

/-- The entries of a list, of those with one key only the first. -/
def distinctBy [BEq κ] (key : α -> κ) : List α -> List α
  | [] => []
  | a :: rest => a :: (distinctBy key rest).filter fun b => key b != key a

/-- A table with a new value under a key, which may depend on the old one. -/
def alterBy (cmp : κ -> κ -> Ordering) (key : κ) (value : Option α -> α) :
    List (κ × α) -> List (κ × α)
  | [] => [(key, value none)]
  | entry :: rest =>
      match cmp key entry.1 with
      | .lt => (key, value none) :: entry :: rest
      | .eq => (key, value (some entry.2)) :: rest
      | .gt => entry :: alterBy cmp key value rest

/-- A table of names with a value under a name. -/
def insert (name : String) (value : α) (table : List (String × α)) : List (String × α) :=
  alterBy compare name (fun _ => value) table

def find? (name : String) (table : List (String × α)) : Option α :=
  (table.find? fun entry => entry.1 == name).map (·.2)

def insertName (name : String) : List String -> List String
  | [] => [name]
  | other :: rest =>
      match compare name other with
      | .lt => name :: other :: rest
      | .eq => other :: rest
      | .gt => other :: insertName name rest

def sortedNames (names : List String) : List String :=
  names.foldl (fun set name => insertName name set) []

end Listing
end PayloadFlow
