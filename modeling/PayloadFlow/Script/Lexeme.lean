import PayloadFlow.Text.Blank

/-!
# Lexemes

How far a word, a number, a literal or a comment reaches.  Each function takes
the characters from some place on and gives the number of characters that belong
to the lexeme.
-/

namespace PayloadFlow
namespace Script
namespace Lexeme

open Text

/-- Characters between lexemes: blanks, byte order marks and invisible joiners. -/
def isSpace (c : Char) : Bool :=
  isBlank c || c == '\uFEFF' || c == '\u2060' || c == '\u200B'

def isLineEnd (c : Char) : Bool :=
  c == '\n' || c == '\r' || c == '\u2028' || c == '\u2029'

/-- Characters that never belong to a word. -/
def isPunctuation (c : Char) : Bool :=
  "!\"#%&'()*+,-./:;<=>?@[\\]^`\x7b|\x7d~".toList.contains c

/-- A character that starts a word.  Every character does that is neither a
control character, nor a space, nor a digit, nor punctuation. -/
def isWordStart (c : Char) : Bool :=
  c.toNat ≥ 0x20 && !isSpace c && !c.isDigit && !isPunctuation c

def isWordPart (c : Char) : Bool :=
  isWordStart c || c.isDigit

def isHexDigit (c : Char) : Bool :=
  c.isDigit || ('a' ≤ c && c ≤ 'f') || ('A' ≤ c && c ≤ 'F')

/-- The part of a Unicode escape after `\u`: four hexadecimal digits, or some in
braces. -/
def unicodeEscape? : List Char -> Option Nat
  | '\x7b' :: rest =>
      let digits := rest.takeWhile isHexDigit
      if !digits.isEmpty && (rest.drop digits.length).head? == some '\x7d' then
        some (digits.length + 2)
      else none
  | cs => if (cs.take 4).length == 4 && (cs.take 4).all isHexDigit then some 4 else none

def escape? : List Char -> Option Nat
  | [] => none
  | 'u' :: rest => (unicodeEscape? rest).map (· + 1)
  | 'x' :: rest =>
      if (rest.take 2).length == 2 && (rest.take 2).all isHexDigit then some 3 else none
  | '\r' :: '\n' :: _ => some 2
  | c :: rest =>
      if '0' ≤ c && c ≤ '7' then
        some (1 + ((rest.take 2).takeWhile fun d => '0' ≤ d && d ≤ '7').length)
      else some 1

/-- Characters of a word.  `skip` characters belong to an escape and are taken
as they are. -/
def wordFrom : Nat -> (Char -> Bool) -> List Char -> Nat
  | _, _, [] => 0
  | skip + 1, accepts, _ :: rest => 1 + wordFrom skip accepts rest
  | 0, accepts, c :: rest =>
      if c == '\\' then
        match rest with
        | 'u' :: tail =>
            match unicodeEscape? tail with
            | some n => 1 + wordFrom (n + 1) isWordPart rest
            | none => 0
        | _ => 0
      else if accepts c then 1 + wordFrom 0 isWordPart rest
      else 0

/-- Length of the word at the start of a text, 0 if there is none. -/
def word (cs : List Char) : Nat :=
  wordFrom 0 isWordStart cs

/-- Length of a run of digits in which single underscores may stand between
digits. -/
def digitRun (isDigit : Char -> Bool) : List Char -> Nat
  | [] => 0
  | c :: rest =>
      if isDigit c then
        1 + digitRun isDigit rest
      else if c == '_' && rest.head?.any isDigit then
        1 + digitRun isDigit rest
      else 0

/-- Digits that do not start with an underscore. -/
def digits (isDigit : Char -> Bool) (cs : List Char) : Nat :=
  if cs.head?.any isDigit then digitRun isDigit cs else 0

/-- Length of the exponent of a decimal number, 0 if there is none. -/
def exponent : List Char -> Nat
  | 'e' :: rest | 'E' :: rest =>
      match rest with
      | '+' :: tail | '-' :: tail =>
          let n := digits Char.isDigit tail
          if n == 0 then 0 else n + 2
      | _ =>
          let n := digits Char.isDigit rest
          if n == 0 then 0 else n + 1
  | _ => 0

def fraction : List Char -> Nat
  | '.' :: rest =>
      let n := 1 + digits Char.isDigit rest
      n + exponent (rest.drop (n - 1))
  | cs => exponent cs

/-- A number with a base mark, and an `n` that makes it a big integer. -/
def based (isDigit : Char -> Bool) (cs : List Char) : Nat :=
  let n := digits isDigit (cs.drop 2)
  if n == 0 then 0
  else if (cs.drop (n + 2)).head? == some 'n' then n + 3 else n + 2

def decimal (cs : List Char) : Nat :=
  let whole := digits Char.isDigit cs
  if whole == 0 then
    match cs with
    | '.' :: rest => if rest.head?.any Char.isDigit then fraction cs else 0
    | _ => 0
  else if (cs.drop whole).head? == some 'n' then whole + 1
  else whole + fraction (cs.drop whole)

/-- Length of the number at the start of a text, 0 if there is none. -/
def number (cs : List Char) : Nat :=
  let inBase :=
    match cs with
    | '0' :: 'x' :: _ | '0' :: 'X' :: _ => based isHexDigit cs
    | '0' :: 'b' :: _ | '0' :: 'B' :: _ => based (fun c => c == '0' || c == '1') cs
    | '0' :: 'o' :: _ | '0' :: 'O' :: _ => based (fun c => '0' ≤ c && c ≤ '7') cs
    | _ => 0
  if inBase == 0 then decimal cs else inBase

/-- Length of what follows an opening quote up to its closing quote.  `skip`
characters belong to an escape. -/
def quotedFrom (quote : Char) : Nat -> List Char -> Option Nat
  | _, [] => none
  | skip + 1, _ :: rest => (quotedFrom quote skip rest).map (· + 1)
  | 0, c :: rest =>
      if c == quote then some 1
      else if c == '\n' || c == '\r' then none
      else if c == '\\' then
        match escape? rest with
        | some n => (quotedFrom quote n rest).map (· + 1)
        | none => none
      else (quotedFrom quote 0 rest).map (· + 1)

def quoted? : List Char -> Option Nat
  | [] => none
  | c :: rest =>
      if c == '"' || c == '\x27' then (quotedFrom c 0 rest).map (· + 1) else none

def templateText : List Char -> Nat
  | [] => 0
  | '$' :: '\x7b' :: _ => 0
  | c :: rest => if c == '\x60' || c == '\\' then 0 else templateText rest + 1

/-- Length of the rest of a regular expression up to its closing slash.
`inClass` holds between square brackets. -/
def patternFrom : Bool -> List Char -> Option Nat
  | _, [] => none
  | inClass, '\\' :: c :: rest =>
      if c == '\n' then none else (patternFrom inClass rest).map (· + 2)
  | inClass, c :: rest =>
      if c == '\n' || c == '\\' then none
      else if inClass then (patternFrom (c != ']') rest).map (· + 1)
      else if c == '/' then some 1
      else (patternFrom (c == '[') rest).map (· + 1)

def regex? : List Char -> Option Nat
  | '/' :: c :: rest =>
      if c == '/' || c == '*' then none
      else
        match patternFrom false (c :: rest) with
        | some n =>
            let flags := ((c :: rest).drop n).takeWhile fun d => 'a' ≤ d && d ≤ 'z'
            some (1 + n + flags.length)
        | none => none
  | _ => none

def blockFrom : List Char -> Option Nat
  | [] => none
  | '*' :: '/' :: _ => some 2
  | _ :: rest => (blockFrom rest).map (· + 1)

def comment? : List Char -> Option Nat
  | '/' :: '/' :: rest => some (2 + (rest.takeWhile fun c => !isLineEnd c).length)
  | '/' :: '*' :: rest => (blockFrom rest).map (· + 2)
  | _ => none

/-- The operators and marks of the language, longer ones before their beginnings. -/
def marks : List (List Char) :=
  [">>>=", "...", "===", "!==", "**=", "<<=", ">>=", ">>>", "&&=", "||=", "??=",
   "=>", "==", "!=", "<=", ">=", "&&", "||", "??", "?.", "++", "--", "+=", "-=", "*=", "/=",
   "%=", "&=", "|=", "^=", "<<", ">>", "**",
   "\x7b", "\x7d", "(", ")", "[", "]", ";", ",", "<", ">", "+", "-", "*", "/", "%", "&", "|",
   "^", "!", "~", "?", ":", "=", ".", "@", "#"].map String.toList

/-- The mark at the start of a text: the longest one that fits, or nothing. -/
def mark (cs : List Char) : List Char :=
  (marks.find? fun m => m.isPrefixOf cs).getD []

end Lexeme
end Script
end PayloadFlow
