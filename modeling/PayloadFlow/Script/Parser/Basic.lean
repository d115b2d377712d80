import PayloadFlow.Script.Lexeme
import PayloadFlow.Script.Node

/-!
# Parsers over source text

A parser reads a source from some place on.  It gives a result and the place
where it stopped, or it fails.  A failure carries the furthest place at which a
parser could not go on, so that a rejected source is reported at the first
lexeme that cannot continue it.
-/

namespace PayloadFlow
namespace Script

/-- A place in a source: the characters that follow, how many stand before, and
the line. -/
structure Place where
  rest : List Char
  offset : Nat
  line : Nat
  deriving Repr

namespace Place

def ofSource (source : String) : Place :=
  ⟨source.toList, 0, 1⟩

def advance (p : Place) (n : Nat) : Place where
  rest := p.rest.drop n
  offset := p.offset + n
  line := p.line + (p.rest.take n).count '\n'

def textTo (p : Place) (stop : Nat) : String :=
  String.ofList (p.rest.take (stop - p.offset))

end Place

structure Failure where
  offset : Nat
  line : Nat
  deriving Repr

namespace Failure

def further (a b : Failure) : Failure :=
  if a.offset < b.offset then b else a

end Failure

structure State where
  /-- number of characters of the source -/
  size : Nat
  /-- end of the last lexeme -/
  place : Place
  /-- line of the last lexeme -/
  lastLine : Nat
  /-- comments that belong to no node yet, the latest first -/
  comments : List Node
  /-- the furthest failure so far -/
  furthest : Failure

def Parser (α : Type) : Type :=
  State -> Except Failure (α × State)

namespace Parser

variable {α β : Type}

instance : Monad Parser where
  pure a := fun s => .ok (a, s)
  bind p f := fun s =>
    match p s with
    | .ok (a, s') => f a s'
    | .error e => .error e

/-- Tries a second parser where the first one fails. -/
def orElse (p : Parser α) (q : Unit -> Parser α) : Parser α := fun s =>
  match p s with
  | .ok r => .ok r
  | .error e => q () { s with furthest := s.furthest.further e }

instance : OrElse (Parser α) := ⟨orElse⟩

def optional (p : Parser α) : Parser (Option α) :=
  (some <$> p) <|> pure none

/-- The first parser of a list that does not fail, else the last one. -/
def firstOf : List (Parser α) -> Parser α -> Parser α
  | [], last => last
  | p :: rest, last => p <|> firstOf rest last

/-- A parser for a bounded number of repetitions; it stops where an item fails
or reads nothing. -/
def manyUpTo (p : Parser α) : Nat -> Parser (List α)
  | 0 => pure []
  | n + 1 => fun s =>
      match p s with
      | .error e => .ok ([], { s with furthest := s.furthest.further e })
      | .ok (a, s') =>
          if s'.place.offset == s.place.offset then .ok ([a], s')
          else
            match manyUpTo p n s' with
            | .ok (as, s'') => .ok (a :: as, s'')
            | .error e => .error e

def many (p : Parser α) : Parser (List α) := fun s =>
  manyUpTo p (s.size + 1) s

/-- A step that is repeated on its own result until it gives nothing. -/
def iterateUpTo (step : α -> Parser (Option α)) : Nat -> α -> Parser α
  | 0, a => pure a
  | n + 1, a => do
      match ← step a with
      | some a' => iterateUpTo step n a'
      | none => pure a

/-- Repeats a step until it gives nothing. -/
def iterate (step : α -> Parser (Option α)) (a : α) : Parser α := fun s =>
  iterateUpTo step (s.size + 1) a s

/-! ## Places and comments -/

def skipFrom : Nat -> Place -> List Node -> Place × List Node
  | 0, p, comments => (p, comments)
  | fuel + 1, p, comments =>
      let spaces := (p.rest.takeWhile Lexeme.isSpace).length
      let p := if spaces == 0 then p else p.advance spaces
      match Lexeme.comment? p.rest with
      | some n =>
          let node : Node := ⟨.comment, none, p.offset, p.line, p.textTo (p.offset + n), []⟩
          skipFrom fuel (p.advance n) (node :: comments)
      | none => (p, comments)

def skipped (s : State) : State :=
  let (place, comments) := skipFrom (s.size + 1) s.place s.comments
  { s with place, comments }

/-- The start of the next lexeme, which is not read. -/
def here : Parser Place := fun s =>
  .ok ((skipped s).place, s)

def ahead : Parser (List Char) := do
  return (← here).rest

/-- Fails at the next lexeme.  At the end of the source, the last lexeme counts. -/
def fail : Parser α := fun s =>
  let p := (skipped s).place
  let line := if p.rest.isEmpty then s.lastLine else p.line
  .error (s.furthest.further ⟨p.offset, line⟩)

def check (b : Bool) : Parser Unit :=
  if b then pure () else fail

/-- Reads `n` characters from the next lexeme on, as one lexeme. -/
def take (n : Nat) : Parser String := fun s =>
  let s' := skipped s
  let stop := s'.place.advance n
  .ok (s'.place.textTo stop.offset, { s' with place := stop, lastLine := s'.place.line })

/-- Reads `n` characters right here, without skipping anything. -/
def takeHere (n : Nat) : Parser Unit := fun s =>
  .ok ((), { s with place := s.place.advance n })

def current : Parser Place := fun s =>
  .ok (s.place, s)

def rest : Parser (List Char) := fun s =>
  .ok (s.place.rest, s)

/-- Whether a line ends between the last lexeme and the next one. -/
def onNewLine : Parser Bool := fun s =>
  .ok (s.place.line < (skipped s).place.line, s)

/-! ## Lexemes -/

def nextWord : Parser String := do
  let cs ← ahead
  return String.ofList (cs.take (Lexeme.word cs))

def nextMark : Parser String := do
  return String.ofList (Lexeme.mark (← ahead))

def mark (m : String) : Parser Unit := do
  check ((← nextMark) == m)
  let _ ← take m.length

/-- Reads characters that need not be the longest mark at their place. -/
def piece (m : String) : Parser Unit := do
  check (m.toList.isPrefixOf (← ahead))
  let _ ← take m.length

def atMark (m : String) : Parser Bool := do
  return (← nextMark) == m

def atWord (w : String) : Parser Bool := do
  return (← nextWord) == w

def markIf (m : String) : Parser Bool := do
  if ← atMark m then
    mark m
    return true
  else return false

def keyword (w : String) : Parser Unit := do
  check ((← nextWord) == w)
  let _ ← take w.length

def keywordIf (w : String) : Parser Bool := do
  if ← atWord w then
    keyword w
    return true
  else return false

/-! ## Nodes -/

def mergeByStart : Nat -> List Node -> List Node -> List Node
  | 0, as, bs => as ++ bs
  | _, [], bs => bs
  | _, as, [] => as
  | fuel + 1, a :: as, b :: bs =>
      if a.start ≤ b.start then a :: mergeByStart fuel as (b :: bs)
      else b :: mergeByStart fuel (a :: as) bs

/-- A node that reaches from a place to the last lexeme.  Comments in between
that belong to no part become parts of the node. -/
def node (kind : Kind) (start : Place) (children : List Node) : Parser Node := fun s =>
  let inside := s.comments.takeWhile fun c => start.offset ≤ c.start
  let children := mergeByStart (children.length + inside.length) children inside.reverse
  .ok (⟨kind, none, start.offset, start.line, start.textTo s.place.offset, children⟩,
    { s with comments := s.comments.drop inside.length })

/-- A lexeme of a given length as a node without parts. -/
def leaf (kind : Kind) (length : Nat) : Parser Node := do
  check (length != 0)
  let start ← here
  let _ ← take length
  node kind start []

def wordNode (kind : Kind) : Parser Node := do
  leaf kind (Lexeme.word (← ahead))

def keywordNode (kind : Kind) (w : String) : Parser Node := do
  check ((← nextWord) == w)
  leaf kind w.length

def stringNode : Parser Node := do
  leaf .string ((Lexeme.quoted? (← ahead)).getD 0)

def numberNode : Parser Node := do
  leaf .number (Lexeme.number (← ahead))

def operatorNode (length : Nat) : Parser Node := do
  return (← leaf .operator length).as .operator

/-- Items separated by commas, at least one, with an optional comma at the end. -/
def commaList (item : Parser α) : Parser (List α) := do
  let first ← item
  let more ← many do
    mark ","
    item
  let _ ← markIf ","
  return first :: more

def looseList (item : Parser α) : Parser (List α) := do
  let first ← optional item
  let more ← many do
    mark ","
    optional item
  return (first :: more).filterMap id

end Parser

end Script
end PayloadFlow
