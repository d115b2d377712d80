import PayloadFlow.Contract
import PayloadFlow.Expression.TopLevel
import PayloadFlow.Text.Blank
import PayloadFlow.Text.Search

/-!
# The kind of a value expression

A value is classified by its text alone.  In order of precedence it is a
template, a conditional, something generated, a member of something, a bare
identifier, and otherwise a literal.
-/

namespace PayloadFlow
namespace Expression

open Text

theorem length_trimStart_le (cs : List Char) : (trimStart cs).length ≤ cs.length :=
  (List.dropWhile_suffix isBlank).length_le

theorem length_trimEnd_le (cs : List Char) : (trimEnd cs).length ≤ cs.length := by
  have h := (List.dropWhile_suffix (l := cs.reverse) isBlank).length_le
  simpa [trimEnd] using h

theorem length_trim_le (cs : List Char) : (trim cs).length ≤ cs.length :=
  Nat.le_trans (length_trimEnd_le _) (length_trimStart_le cs)

/-- A text without the parentheses that enclose all of it, and without blanks
inside them. -/
def stripParens : List Char -> List Char
  | [] => []
  | c :: rest =>
      if c == '(' && closesAtEnd (c :: rest) then stripParens (trim rest.dropLast) else c :: rest
termination_by text => text.length
decreasing_by
  have h := length_trim_le rest.dropLast
  have h' : rest.dropLast.length = rest.length - 1 := List.length_dropLast
  simp only [List.length_cons]
  omega

def afterBacktick : List Char -> Option (List Char)
  | [] => none
  | '\\' :: _ :: rest => afterBacktick rest
  | c :: rest => if c == '\x60' then some rest else afterBacktick rest

/-- A template literal, or a text that looks like one because it starts and ends
with a backtick and holds a substitution. -/
def isTemplate : List Char -> Bool
  | [] => false
  | c :: rest =>
      c == '\x60' && rest.getLast? == some '\x60' &&
        match afterBacktick rest with
        | some tail => tail.isEmpty || occursIn ['$', '\x7b'] (c :: rest)
        | none => false

/-- Whether `||`, `??` or both marks of a ternary stand at bracket depth 0.
`asked` says that a question mark of a ternary has been read. -/
def hasAlternative (asked : Bool) : List Spot -> Bool
  | [] => false
  | s :: rest =>
      if s.depth != 0 then hasAlternative asked rest
      else
        match s.char with
        | '|' => s.rest.head? == some '|' || hasAlternative asked rest
        | '?' =>
            if s.rest.head? == some '?' then true
            else if s.previous == some '?' then hasAlternative asked rest
            else if s.rest.head? == some '.' then
              hasAlternative (asked || (s.rest.drop 1).head?.any Char.isDigit) rest
            else hasAlternative true rest
        | ':' => asked || hasAlternative asked rest
        | _ => hasAlternative asked rest

/-- What a character outside literals adds to a chain of members and calls. -/
inductive Link where
  | call
  | access
  | neutral
  /-- not part of a chain -/
  | foreign
  deriving DecidableEq, Repr

/-- The link that a spot stands for. -/
def linkOf (s : Spot) : Link :=
  if s.char == '(' && s.depth == 1 then .call
  else if s.char == '[' && s.depth == 1 then .access
  else if s.char == '.' && s.depth == 0 then .access
  else if s.depth > 0 then .neutral
  else if s.char == ')' || s.char == ']' || s.char == '\x7d' then .neutral
  else if s.char == '?' && s.rest.head? == some '.' then .neutral
  else if isAlphanumeric s.char || s.char == '_' || s.char == '$' then .neutral
  else .foreign

def chainLinks? (text : List Char) : Option (List Link) :=
  let links := (spots text).map linkOf
  if text.head?.any isWordStart && !links.contains .foreign && text.getLast? != some '.' then
    some links
  else none

/-- The kind of a text without enclosing blanks and parentheses. -/
def classifyBare (text : List Char) : BindingKind :=
  if text.isEmpty then .literal
  else if isTemplate text then .template
  else if hasAlternative false (spots text) then .conditional
  else if "new ".toList.isPrefixOf text || "await ".toList.isPrefixOf text then .generated
  else
    match chainLinks? text with
    | some links =>
        if links.contains .call then .generated
        else if links.contains .access then .propertyAccess
        else if isIdentifier text && !keywordLiterals.contains (String.ofList text) then .parameter
        else .literal
    | none => .literal

def classify (text : String) : BindingKind :=
  classifyBare (stripParens (trim text.toList))

end Expression
end PayloadFlow
