import PayloadFlow.Text.Blank
import PayloadFlow.Text.Lowercase
import PayloadFlow.Text.Numeric
import PayloadFlow.Text.Search

/-!
# Event names

Producers name an event by a text, handlers by the name of a function.  Both are
reduced to one spelling: the words of the name in lower case, joined by dashes.
-/

namespace PayloadFlow
namespace EventName

open Text

/-- A capital letter starts a word after a small letter or a digit, and as the
last capital of a run of capitals. -/
def startsWord (previous c : Char) (next : Option Char) : Bool :=
  isUppercase c &&
    (isLowercase previous || previous.isDigit || (isUppercase previous && next.any isLowercase))

/-- The words of a text in lower case, given the last character and the part of
the current word that have been read. -/
def wordsFrom (previous : Char) (word : List Char) : List Char -> List (List Char)
  | [] => if word.isEmpty then [] else [word]
  | c :: rest =>
      if !isAlphanumeric c then
        (if word.isEmpty then [] else [word]) ++ wordsFrom c [] rest
      else if !word.isEmpty && startsWord previous c rest.head? then
        word :: wordsFrom c (lowerChars c) rest
      else
        wordsFrom c (word ++ lowerChars c) rest

def words (text : List Char) : List (List Char) :=
  wordsFrom ' ' [] (trim text)

/-- The common spelling of an event: its words joined by dashes. -/
def normalize (raw : String) : String :=
  String.ofList (joinWith ['-'] (words raw.toList))

/-- The event that a handler name stands for under one prefix.  What follows the
prefix must begin with a capital letter or an underscore. -/
def afterPrefix (name handlerPrefix : String) : Option String :=
  match handlerPrefix.toList.isPrefixOf? name.toList with
  | some (first :: rest) =>
      if isUppercase first || first == '_' then
        let event := normalize (String.ofList (first :: rest))
        if event.isEmpty then none else some event
      else none
  | _ => none

/-- The event that a handler name stands for: the first prefix that fits decides. -/
def ofHandler (prefixes : List String) (name : String) : Option String :=
  prefixes.findSome? (afterPrefix name)

/-- The alphanumeric characters of a text in lower case. -/
def squash (text : String) : String :=
  String.ofList (lowerEach (text.toList.filter isAlphanumeric))

/-- Whether one of two texts contains the other once both are squashed. -/
def overlap (a b : String) : Bool :=
  let a := (squash a).toList
  let b := (squash b).toList
  !a.isEmpty && !b.isEmpty && (occursIn b a || occursIn a b)

end EventName
end PayloadFlow
