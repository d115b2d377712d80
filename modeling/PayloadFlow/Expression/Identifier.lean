import PayloadFlow.Text.Numeric

/-!
# Identifiers and words of the expression language

The words that a value expression may hold: identifiers, keywords that stand for
a value, and keywords that do something.
-/

namespace PayloadFlow
namespace Expression

open Text

/-- Words that stand for a value of their own. -/
def keywordLiterals : List String :=
  ["true", "false", "null", "undefined", "NaN", "Infinity", "this"]

def keywords : List String :=
  ["new", "await", "typeof", "void", "delete", "in", "instanceof", "return",
   "function", "const", "let", "var", "async"]

def isIdentifier : List Char -> Bool
  | [] => false
  | c :: rest =>
      (isAlphabetic c || c == '_' || c == '$') &&
        rest.all fun d => isAlphanumeric d || d == '_' || d == '$'

def isWordStart (c : Char) : Bool :=
  c.isAlpha || c == '_' || c == '$'

def isWordChar (c : Char) : Bool :=
  c.isAlphanum || c == '_' || c == '$'

/-- A character that opens or closes a string or template literal. -/
def isQuote (c : Char) : Bool :=
  c == '\x27' || c == '"' || c == '\x60'

end Expression
end PayloadFlow
