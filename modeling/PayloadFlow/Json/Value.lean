/-!
# JSON values

JSON as written: numbers keep their digits, objects keep the order of their
members and may name one twice.
-/

namespace PayloadFlow

inductive Json where
  | null
  | bool (value : Bool)
  /-- a number as written -/
  | number (digits : String)
  /-- a string; there is no text if its escapes do not make one -/
  | string (text : Option String)
  | array (items : List Json)
  | object (members : List (Option String × Json))
  deriving Repr, Inhabited

namespace Json

def ofStrings (texts : List String) : Json :=
  .array (texts.map fun t => .string (some t))

def ofNat (n : Nat) : Json :=
  .number (String.ofList (Nat.toDigits 10 n))

def ofOption : Option String -> Json
  | some text => .string (some text)
  | none => .null

def record (members : List (String × Json)) : Json :=
  .object (members.map fun m => (some m.1, m.2))

/-! ## Reading values of a given form -/

def asBool? : Json -> Option Bool
  | .bool b => some b
  | _ => none

def asText? : Json -> Option String
  | .string text => text
  | _ => none

def asOptionalText? : Json -> Option (Option String)
  | .null => some none
  | .string (some text) => some (some text)
  | _ => none

/-- The number that some digits stand for. -/
def natOfDigits? (digits : List Char) : Option Nat :=
  if digits.all Char.isDigit && !digits.isEmpty then some (Nat.ofDigitChars 10 digits 0) else none

/-- A number of 64 bits, written without sign, point or exponent. -/
def asWord? : Json -> Option UInt64
  | .number digits =>
      match natOfDigits? digits.toList with
      | some n => if n < UInt64.size then some (UInt64.ofNat n) else none
      | none => none
  | _ => none

def asTexts? : Json -> Option (List String)
  | .array items => items.mapM asText?
  | _ => none

end Json

end PayloadFlow
