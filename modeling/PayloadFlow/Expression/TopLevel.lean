import PayloadFlow.Expression.Identifier

/-!
# Characters of an expression outside its literals

An expression is read character by character with the depth of its brackets.
Characters inside string and template literals, and the quotes themselves, are
left out.
-/

namespace PayloadFlow
namespace Expression

/-- A character outside literals, with its neighbours in the text. -/
structure Spot where
  previous : Option Char
  char : Char
  rest : List Char
  /-- bracket depth after the character -/
  depth : Int
  deriving DecidableEq, Repr

def depthAfter (depth : Int) (c : Char) : Int :=
  if c == '(' || c == '[' || c == '\x7b' then depth + 1
  else if c == ')' || c == ']' || c == '\x7d' then depth - 1
  else depth

inductive Reading where
  | plain
  | quoted (quote : Char)
  | escaped (quote : Char)
  deriving DecidableEq, Repr

def spotsFrom (reading : Reading) (depth : Int) (previous : Option Char) :
    List Char -> List Spot
  | [] => []
  | c :: rest =>
      match reading with
      | .escaped q => spotsFrom (.quoted q) depth (some c) rest
      | .quoted q =>
          if c == '\\' then spotsFrom (.escaped q) depth (some c) rest
          else if c == q then spotsFrom .plain depth (some c) rest
          else spotsFrom (.quoted q) depth (some c) rest
      | .plain =>
          if isQuote c then spotsFrom (.quoted c) depth (some c) rest
          else
            ⟨previous, c, rest, depthAfter depth c⟩ ::
              spotsFrom .plain (depthAfter depth c) (some c) rest

def spots (text : List Char) : List Spot :=
  spotsFrom .plain 0 none text

/-- Whether the bracket that opens a text is closed by its last character. -/
def closesAtEnd (text : List Char) : Bool :=
  match (spots text).find? fun s => s.char == ')' && s.depth == 0 with
  | some s => s.rest.isEmpty
  | none => false

end Expression
end PayloadFlow
