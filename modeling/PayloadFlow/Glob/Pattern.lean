/-!
# Glob patterns

The parts of a pattern on paths and how they are written: `?` and `*`, `**` as a
whole step, classes in brackets, alternatives in braces, and a backslash before a
character that stands for itself.
-/

namespace PayloadFlow
namespace Glob

inductive PatternError where
  | unclosedClass
  | invalidRange (low high : Char)
  | unclosedAlternates
  | unopenedAlternates
  | danglingEscape
  deriving DecidableEq, Repr

namespace PatternError

def message : PatternError -> String
  | .unclosedClass => "unclosed character class; missing ']'"
  | .invalidRange low high =>
      "invalid range; '" ++ String.singleton low ++ "' > '" ++ String.singleton high ++ "'"
  | .unclosedAlternates =>
      "unclosed alternate group; missing '\x7d' (maybe escape '\x7b' with '[\x7b]'?)"
  | .unopenedAlternates =>
      "unopened alternate group; missing '\x7b' (maybe escape '\x7d' with '[\x7d]'?)"
  | .danglingEscape => "dangling '\\'"

end PatternError

inductive Piece where
  | literal (c : Char)
  /-- `?` -/
  | any
  /-- `*` -/
  | many
  /-- `**` at the start: any steps, or none -/
  | leadingSteps
  /-- `**` at the end: all that lies below -/
  | trailingSteps
  /-- `**` in between: any steps, or none -/
  | innerSteps
  | oneOf (negated : Bool) (ranges : List (Char × Char))
  | alternates (branches : List (List Piece))
  deriving Repr

structure OpenClass where
  negated : Bool
  ranges : List (Char × Char) := []
  /-- nothing has been read yet -/
  isFirst : Bool := true
  /-- a dash has been read that may make a range -/
  inRange : Bool := false

namespace OpenClass

/-- The class with the last character made the start of a range. -/
def extend (c : OpenClass) (high : Char) : Except PatternError OpenClass :=
  match c.ranges.getLast? with
  | some (low, _) =>
      if high < low then .error (.invalidRange low high)
      else
        .ok { c with
          ranges := c.ranges.dropLast ++ [(low, high)]
          inRange := false
          isFirst := false }
  | none => .ok { c with inRange := false, isFirst := false }

def add (c : OpenClass) (ch : Char) : OpenClass :=
  { c with ranges := c.ranges ++ [(ch, ch)], inRange := false, isFirst := false }

/-- The class after a character that does not close it. -/
def step (c : OpenClass) (ch : Char) : Except PatternError OpenClass :=
  if ch == '-' && !c.isFirst && !c.inRange then .ok { c with inRange := true }
  else if c.inRange then c.extend ch
  else .ok (c.add ch)

/-- The piece of a class that is closed.  A dash at its end stands for itself. -/
def close (c : OpenClass) : Piece :=
  .oneOf c.negated (if c.inRange then c.ranges ++ [('-', '-')] else c.ranges)

end OpenClass

structure OpenGroup where
  /-- the pieces before the group -/
  before : List Piece
  /-- the alternatives that are complete -/
  finished : List (List Piece)

structure Builder where
  pieces : List Piece := []
  groups : List OpenGroup := []
  openClass : Option OpenClass := none
  /-- the last character read -/
  previous : Option Char := none

namespace Builder

def push (b : Builder) (p : Piece) (last : Char) : Builder :=
  { b with pieces := b.pieces ++ [p], previous := some last }

def openGroup (b : Builder) : Builder :=
  { b with pieces := [], groups := ⟨b.pieces, []⟩ :: b.groups, previous := some '\x7b' }

/-- A comma starts the next alternative; outside of groups it stands for itself. -/
def comma (b : Builder) : Builder :=
  match b.groups with
  | [] => b.push (.literal ',') ','
  | g :: outer =>
      { b with
        pieces := []
        groups := ⟨g.before, g.finished ++ [b.pieces]⟩ :: outer
        previous := some ',' }

def closeGroup (b : Builder) : Except PatternError Builder :=
  match b.groups with
  | [] => .error .unopenedAlternates
  | g :: outer =>
      .ok { b with
        pieces := g.before ++ [.alternates (g.finished ++ [b.pieces])]
        groups := outer
        previous := some '\x7d' }

def twoStars (b : Builder) : Builder :=
  (b.push .many '*').push .many '*'

/-- Whether a step can begin here: after a slash, or where an alternative begins. -/
def atStepStart (b : Builder) : Bool :=
  match b.previous with
  | some '/' => true
  | some ',' | some '\x7b' => !b.groups.isEmpty
  | _ => false

/-- A step `**` in place of the slash before it. -/
def steps (b : Builder) (p : Piece) (last : Char) : Builder :=
  let kept :=
    match b.pieces.getLast? with
    | some .leadingSteps => Piece.leadingSteps
    | some .trailingSteps => Piece.trailingSteps
    | _ => p
  { b with pieces := b.pieces.dropLast ++ [kept], previous := some last }

def classStep (b : Builder) (c : OpenClass) (ch : Char) : Except PatternError Builder :=
  if ch == ']' && !c.isFirst then
    .ok { b.push c.close ']' with openClass := none }
  else
    match c.step ch with
    | .ok c => .ok { b with openClass := some c, previous := some ch }
    | .error e => .error e

def read (b : Builder) : List Char -> Except PatternError Builder
  | [] => if b.openClass.isSome then .error .unclosedClass else .ok b
  | ch :: rest =>
      match b.openClass with
      | some c =>
          match classStep b c ch with
          | .ok b => read b rest
          | .error e => .error e
      | none =>
          match ch, rest with
          | '\\', [] => .error .danglingEscape
          | '\\', escaped :: rest => read (b.push (.literal escaped) escaped) rest
          | '?', rest => read (b.push .any '?') rest
          | '[', '!' :: rest =>
              read { b with openClass := some { negated := true }, previous := some '!' } rest
          | '[', '^' :: rest =>
              read { b with openClass := some { negated := true }, previous := some '^' } rest
          | '[', rest =>
              read { b with openClass := some { negated := false }, previous := some '[' } rest
          | '\x7b', rest => read b.openGroup rest
          | '\x7d', rest =>
              match b.closeGroup with
              | .ok b => read b rest
              | .error e => .error e
          | ',', rest => read b.comma rest
          | '*', '*' :: '/' :: rest =>
              if b.pieces.isEmpty then read (b.push .leadingSteps '/') rest
              else if b.atStepStart then read (b.steps .innerSteps '/') rest
              else read (b.twoStars.push (.literal '/') '/') rest
          | '*', ['*'] =>
              if b.pieces.isEmpty then read (b.push .leadingSteps '*') []
              else if b.atStepStart then read (b.steps .trailingSteps '*') []
              else read b.twoStars []
          | '*', '*' :: next :: rest =>
              if !b.pieces.isEmpty && b.atStepStart && !b.groups.isEmpty &&
                  (next == ',' || next == '\x7d') then
                read (b.steps .trailingSteps '*') (next :: rest)
              else read b.twoStars (next :: rest)
          | '*', rest => read (b.push .many '*') rest
          | c, rest => read (b.push (.literal c) c) rest

end Builder

def parse (pattern : String) : Except PatternError (List Piece) :=
  match Builder.read {} pattern.toList with
  | .ok b => if b.groups.isEmpty then .ok b.pieces else .error .unclosedAlternates
  | .error e => .error e

end Glob
end PayloadFlow
