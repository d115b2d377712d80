import PayloadFlow.Glob.Pattern
import PayloadFlow.Listing
import PayloadFlow.Path

/-!
# Matching paths

A pattern is matched against the bytes of a path.  Each piece takes a beginning
of what is left and leaves the rest; a path matches if all pieces together can
leave nothing.
-/

namespace PayloadFlow
namespace Glob

abbrev Bytes := List UInt8

/-- All ends of a text, from the whole to nothing. -/
def tails : Bytes -> List Bytes
  | [] => [[]]
  | b :: rest => (b :: rest) :: tails rest

/-- The ends that are left once any number of bytes but slashes has been taken. -/
def tailsInStep : Bytes -> List Bytes
  | [] => [[]]
  | b :: rest => (b :: rest) :: if b == Path.slash then [] else tailsInStep rest

def afterSlashes : Bytes -> List Bytes
  | [] => []
  | b :: rest => if b == Path.slash then rest :: afterSlashes rest else afterSlashes rest

def charBytes (c : Char) : Bytes :=
  String.utf8EncodeChar c

/-- Whether a byte is in a range.  A range is written byte by byte: all bytes but
the last of its lower end and all but the first of its upper end stand for
themselves. -/
def inRange (b : UInt8) (range : Char × Char) : Bool :=
  let low := charBytes range.1
  let high := charBytes range.2
  if range.1 == range.2 then low.contains b
  else
    low.dropLast.contains b || high.tail.contains b ||
      match low.getLast?, high.head? with
      | some l, some h => l ≤ b && b ≤ h
      | _, _ => false

mutual

/-- Whether a piece is written as nothing. -/
def Piece.isBlank : Piece -> Bool
  | .alternates branches => allBlank branches
  | _ => false

def isBlank : List Piece -> Bool
  | [] => true
  | p :: rest => p.isBlank && isBlank rest

def allBlank : List (List Piece) -> Bool
  | [] => true
  | branch :: rest => isBlank branch && allBlank rest

end

mutual

/-- What a piece can leave of a text.  If slashes are literal, neither `?` nor `*`
takes one. -/
def Piece.rests (literalSlash : Bool) : Piece -> Bytes -> List Bytes
  | .literal c, text => ((charBytes c).isPrefixOf? text).toList
  | .any, text =>
      match text with
      | [] => []
      | b :: rest => if literalSlash && b == Path.slash then [] else [rest]
  | .many, text => if literalSlash then tailsInStep text else tails text
  | .leadingSteps, text => text :: afterSlashes text
  | .trailingSteps, text =>
      match text with
      | [] => []
      | b :: rest => if b == Path.slash then tails rest else []
  | .innerSteps, text =>
      match text with
      | [] => []
      | b :: rest => if b == Path.slash then rest :: afterSlashes rest else []
  | .oneOf negated ranges, text =>
      match text with
      | [] => []
      | b :: rest => if ranges.any (inRange b) != negated then [rest] else []
  | .alternates branches, text =>
      if allBlank branches then [text] else branchRests literalSlash branches text

def pieceRests (literalSlash : Bool) : List Piece -> List Bytes -> List Bytes
  | [], texts => texts
  | p :: rest, texts =>
      pieceRests literalSlash rest
        (Listing.distinctBy List.length (texts.flatMap fun text => p.rests literalSlash text))

/-- What one of some branches can leave of a text; branches that are written as
nothing do not count. -/
def branchRests (literalSlash : Bool) : List (List Piece) -> Bytes -> List Bytes
  | [], _ => []
  | branch :: rest, text =>
      (if isBlank branch then [] else pieceRests literalSlash branch [text]) ++
        branchRests literalSlash rest text

end

def isEverything : List Piece -> Bool
  | [.leadingSteps] => true
  | _ => false

def isMatch (literalSlash : Bool) (pattern : List Piece) (path : RawText) : Bool :=
  isEverything pattern ||
    (pieceRests literalSlash pattern [path.bytes]).any List.isEmpty

end Glob
end PayloadFlow
