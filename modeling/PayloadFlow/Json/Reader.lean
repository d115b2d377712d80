import PayloadFlow.Json.Value

/-!
# Reading JSON

JSON is read strictly: one value with nothing but blanks around it, no comments,
no trailing commas.  The text is first cut into tokens; the tokens are then put
together with a stack of the arrays and objects that are still open.
-/

namespace PayloadFlow
namespace Json

inductive Token where
  | openArray
  | closeArray
  | openObject
  | closeObject
  | comma
  | colon
  | scalar (value : Json)
  | text (text : Option String)

/-! ## Numbers -/

def dropDigits (cs : List Char) : List Char :=
  cs.dropWhile Char.isDigit

def startsWithDigit (cs : List Char) : Bool :=
  cs.head?.any Char.isDigit

/-- Whether what follows the digits is nothing or an exponent. -/
def isExponent : List Char -> Bool
  | [] => true
  | c :: rest =>
      (c == 'e' || c == 'E') &&
        let digits :=
          match rest with
          | '+' :: digits => digits
          | '-' :: digits => digits
          | digits => digits
        startsWithDigit digits && (dropDigits digits).isEmpty

/-- Whether what follows the whole part is a fraction and an exponent, or less. -/
def isFraction : List Char -> Bool
  | '.' :: rest => startsWithDigit rest && isExponent (dropDigits rest)
  | rest => isExponent rest

/-- Whether a text is a number without its sign. -/
def isUnsigned : List Char -> Bool
  | '0' :: rest => isFraction rest
  | digits => startsWithDigit digits && isFraction (dropDigits digits)

def isNumber : List Char -> Bool
  | '-' :: rest => isUnsigned rest
  | text => isUnsigned text

/-! ## Strings -/

inductive StringPart where
  | char (c : Char)
  | unit (code : Nat)

/-- The text of a string.  Two code units that are halves of one character must
stand together. -/
def textOf? : List StringPart -> Option (List Char)
  | [] => some []
  | .char c :: rest => (textOf? rest).map (c :: ·)
  | .unit high :: rest =>
      if 0xD800 ≤ high && high < 0xDC00 then
        match rest with
        | .unit low :: rest =>
            if 0xDC00 ≤ low && low < 0xE000 then
              (textOf? rest).map
                (Char.ofNat (0x10000 + (high - 0xD800) * 0x400 + (low - 0xDC00)) :: ·)
            else none
        | _ => none
      else if 0xDC00 ≤ high && high < 0xE000 then none
      else (textOf? rest).map (Char.ofNat high :: ·)

/-- The character that a short escape stands for. -/
def escapeOf? : Char -> Option Char
  | '"' => some '"'
  | '\\' => some '\\'
  | '/' => some '/'
  | 'b' => some (Char.ofNat 8)
  | 'f' => some (Char.ofNat 12)
  | 'n' => some '\n'
  | 'r' => some '\r'
  | 't' => some '\t'
  | _ => none

def hexDigit? (c : Char) : Option Nat :=
  if c.isDigit then some (c.toNat - '0'.toNat)
  else if 'a' ≤ c && c ≤ 'f' then some (c.toNat - 'a'.toNat + 10)
  else if 'A' ≤ c && c ≤ 'F' then some (c.toNat - 'A'.toNat + 10)
  else none

/-! ## Tokens -/

/-- What is being read; parts of strings and words are kept in reverse. -/
inductive Mode where
  | between
  | number (read : List Char)
  | word (read : List Char)
  | string (parts : List StringPart)
  | escape (parts : List StringPart)
  /-- a code unit of which some digits are missing -/
  | hex (parts : List StringPart) (missing value : Nat)

def wordToken? (word : List Char) : Option Token :=
  if word == "null".toList then some (.scalar .null)
  else if word == "true".toList then some (.scalar (.bool true))
  else if word == "false".toList then some (.scalar (.bool false))
  else none

def numberToken? (text : List Char) : Option Token :=
  if isNumber text then some (.scalar (.number (String.ofList text))) else none

def isJsonBlank (c : Char) : Bool :=
  c == ' ' || c == '\t' || c == '\n' || c == '\r'

def isNumberChar (c : Char) : Bool :=
  c.isDigit || c == '-' || c == '+' || c == '.' || c == 'e' || c == 'E'

def begin? (tokens : List Token) (c : Char) : Option (Mode × List Token) :=
  if isJsonBlank c then some (.between, tokens)
  else if c.isDigit || c == '-' then some (.number [c], tokens)
  else if c.isAlpha then some (.word [c], tokens)
  else
    match c with
    | '"' => some (.string [], tokens)
    | '[' => some (.between, .openArray :: tokens)
    | ']' => some (.between, .closeArray :: tokens)
    | '\x7b' => some (.between, .openObject :: tokens)
    | '\x7d' => some (.between, .closeObject :: tokens)
    | ',' => some (.between, .comma :: tokens)
    | ':' => some (.between, .colon :: tokens)
    | _ => none

/-- The mode and the tokens after one more character; tokens are kept in reverse. -/
def lexStep (mode : Mode) (tokens : List Token) (c : Char) : Option (Mode × List Token) :=
  match mode with
  | .between => begin? tokens c
  | .number read =>
      if isNumberChar c then some (.number (c :: read), tokens)
      else do begin? ((← numberToken? read.reverse) :: tokens) c
  | .word read =>
      if c.isAlpha then some (.word (c :: read), tokens)
      else do begin? ((← wordToken? read.reverse) :: tokens) c
  | .string parts =>
      if c == '"' then
        some (.between, .text ((textOf? parts.reverse).map String.ofList) :: tokens)
      else if c == '\\' then some (.escape parts, tokens)
      else if c.toNat < 0x20 then none
      else some (.string (.char c :: parts), tokens)
  | .escape parts =>
      if c == 'u' then some (.hex parts 4 0, tokens)
      else (escapeOf? c).map fun e => (.string (.char e :: parts), tokens)
  | .hex parts missing value =>
      (hexDigit? c).map fun d =>
        let value := value * 16 + d
        if missing ≤ 1 then (.string (.unit value :: parts), tokens)
        else (.hex parts (missing - 1) value, tokens)

def lexFrom (mode : Mode) (tokens : List Token) : List Char -> Option (List Token)
  | [] =>
      match mode with
      | .between => some tokens.reverse
      | .number read => (numberToken? read.reverse).map fun t => (t :: tokens).reverse
      | .word read => (wordToken? read.reverse).map fun t => (t :: tokens).reverse
      | _ => none
  | c :: rest =>
      match lexStep mode tokens c with
      | some (mode, tokens) => lexFrom mode tokens rest
      | none => none

/-! ## Values -/

inductive Frame where
  | array (items : List Json)
  | object (members : List (Option String × Json)) (key : Option String)

/-- What may come next, with the open arrays and objects from the inside out. -/
inductive Expect where
  | value (stack : List Frame)
  | itemOrEnd (stack : List Frame)
  | keyOrEnd (stack : List Frame)
  | key (members : List (Option String × Json)) (stack : List Frame)
  | colon (members : List (Option String × Json)) (key : Option String) (stack : List Frame)
  /-- a value is complete -/
  | rest (value : Json) (stack : List Frame)

def valueStep (stack : List Frame) : Token -> Option Expect
  | .scalar v => some (.rest v stack)
  | .text t => some (.rest (.string t) stack)
  | .openArray => some (.itemOrEnd stack)
  | .openObject => some (.keyOrEnd stack)
  | _ => none

def tokenStep : Expect -> Token -> Option Expect
  | .value stack, t => valueStep stack t
  | .itemOrEnd stack, .closeArray => some (.rest (.array []) stack)
  | .itemOrEnd stack, t => valueStep (.array [] :: stack) t
  | .keyOrEnd stack, .closeObject => some (.rest (.object []) stack)
  | .keyOrEnd stack, .text key => some (.colon [] key stack)
  | .key members stack, .text key => some (.colon members key stack)
  | .colon members key stack, .colon => some (.value (.object members key :: stack))
  | .rest v (.array items :: stack), .comma => some (.value (.array (items ++ [v]) :: stack))
  | .rest v (.array items :: stack), .closeArray => some (.rest (.array (items ++ [v])) stack)
  | .rest v (.object members key :: stack), .comma => some (.key (members ++ [(key, v)]) stack)
  | .rest v (.object members key :: stack), .closeObject =>
      some (.rest (.object (members ++ [(key, v)])) stack)
  | _, _ => none

def readTokens (expect : Expect) : List Token -> Option Json
  | [] =>
      match expect with
      | .rest v [] => some v
      | _ => none
  | t :: rest =>
      match tokenStep expect t with
      | some expect => readTokens expect rest
      | none => none

def parse? (text : String) : Option Json :=
  match lexFrom .between [] text.toList with
  | some tokens => readTokens (.value []) tokens
  | none => none

end Json
end PayloadFlow
