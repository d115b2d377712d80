import PayloadFlow.Expression.Identifier
import PayloadFlow.Text.Blank

/-!
# Identifiers that an expression refers to

The words of an expression outside string literals that are neither property
names after a dot, nor object keys before a colon, nor keywords.  Substitutions
of template literals are read as expressions.
-/

namespace PayloadFlow
namespace Expression

open Text

inductive Scanning where
  | plain
  /-- inside a word that has been dealt with -/
  | word
  /-- inside a number -/
  | number
  | quoted (quote : Char)
  | escaped (quote : Char)
  /-- before the brace that opens a substitution -/
  | opening
  deriving DecidableEq, Repr

/-- The state of the reader: where it stands, how many braces are open, and the
numbers of open braces around the open substitutions. -/
structure Scanner where
  scanning : Scanning
  braces : Nat
  substitutions : List Nat
  deriving DecidableEq, Repr

namespace Scanner

def start : Scanner :=
  ⟨.plain, 0, []⟩

/-- The state after a character outside words, numbers and literals. -/
def plainStep (s : Scanner) (c : Char) : Scanner :=
  if isQuote c then { s with scanning := .quoted c }
  else if c == '\x7b' then { s with scanning := .plain, braces := s.braces + 1 }
  else if c == '\x7d' then
    let braces := s.braces - 1
    if s.substitutions.head? == some braces then
      ⟨.quoted '\x60', braces, s.substitutions.tail⟩
    else { s with scanning := .plain, braces := braces }
  else if isWordStart c then { s with scanning := .word }
  else if c.isDigit then { s with scanning := .number }
  else { s with scanning := .plain }

def step (s : Scanner) (c : Char) (next : Option Char) : Scanner :=
  match s.scanning with
  | .plain => s.plainStep c
  | .word => if isWordChar c then s else s.plainStep c
  | .number => if c.isAlphanum || c == '.' then s else s.plainStep c
  | .escaped q => { s with scanning := .quoted q }
  | .opening => { s with scanning := .plain }
  | .quoted q =>
      if c == '\\' then { s with scanning := .escaped q }
      else if q == '\x60' && c == '$' && next == some '\x7b' then
        ⟨.opening, s.braces + 1, s.braces :: s.substitutions⟩
      else if c == q then { s with scanning := .plain }
      else s

def startsWord (s : Scanner) (c : Char) : Bool :=
  match s.scanning with
  | .plain => isWordStart c
  | .number => isWordStart c && !c.isAlphanum
  | _ => false

end Scanner

/-- Whether the reversed text before a word ends in a single dot. -/
def isAfterDot (before : List Char) : Bool :=
  let before := trimStart before
  before.head? == some '.' && !(['.', '.', '.'].isPrefixOf before)

/-- Whether the text after a word makes it an object key. -/
def isBeforeColon (after : List Char) : Bool :=
  let after := trimStart after
  after.head? == some ':' && !"::".toList.isPrefixOf after

/-- The word at the start of a text, if it is a reference in its place. -/
def referenceAt (s : Scanner) (before text : List Char) : Option String :=
  let word := String.ofList (text.takeWhile isWordChar)
  let isKey := s.braces > 0 && isBeforeColon (text.dropWhile isWordChar)
  if isAfterDot before || isKey || keywordLiterals.contains word || keywords.contains word then
    none
  else some word

/-- The references of a text, given the reader's state and the reversed text
before it. -/
def referencesFrom (s : Scanner) (before : List Char) : List Char -> List String
  | [] => []
  | c :: rest =>
      let found := if s.startsWord c then (referenceAt s before (c :: rest)).toList else []
      found ++ referencesFrom (s.step c rest.head?) (c :: before) rest

def references (text : String) : List String :=
  referencesFrom .start [] text.toList

def leading (text : String) : Option String :=
  (references text).head?

end Expression
end PayloadFlow
