import PayloadFlow.Glob.Match
import PayloadFlow.Text.Blank
import PayloadFlow.Text.Search
import PayloadFlow.Workspace.Tree

/-!
# Ignore files

Directories can hold files that list what a scan leaves out.  Each line is a
pattern; a later line wins over an earlier one, and a line that starts with `!`
takes files in again.
-/

namespace PayloadFlow
namespace Workspace

structure IgnoreRule where
  /-- takes files in again -/
  isException : Bool
  onlyDirectories : Bool
  pattern : List Glob.Piece

inductive Verdict where
  | leaveOut
  | takeIn
  deriving DecidableEq, Repr

namespace IgnoreRule

def endsEscaped (line : List Char) : Bool :=
  Text.endsWith ['\\', ' '] line

/-- A line without the marks before its pattern: whether it is an exception,
whether the pattern starts at the directory of the file, and the pattern. -/
def unmark : List Char -> Bool × Bool × List Char
  | '\\' :: '!' :: rest => (false, false, '!' :: rest)
  | '\\' :: '#' :: rest => (false, false, '#' :: rest)
  | '!' :: '/' :: rest => (true, true, rest)
  | '!' :: rest => (true, false, rest)
  | '/' :: rest => (false, true, rest)
  | line => (false, false, line)

/-- A pattern without the slash at its end, and whether it had one. -/
def withoutSlash (line : List Char) : List Char × Bool :=
  if line.getLast? == some '/' then
    let line := line.dropLast
    (if line.getLast? == some '\\' then line.dropLast else line, true)
  else (line, false)

/-- The pattern that is matched.  One without a slash fits at any depth, and one
that ends in `/**` fits only what lies below. -/
def anchored (isAbsolute : Bool) (line : List Char) : List Char :=
  let line :=
    if !isAbsolute && !line.contains '/' && line != ['*', '*'] then '*' :: '*' :: '/' :: line
    else line
  if Text.endsWith ['/', '*', '*'] line then line ++ ['/', '*'] else line

/-- The rule of a line.  Blank lines, comments and lines that are no pattern give
none. -/
def ofLine? (line : List Char) : Option IgnoreRule :=
  if line.head? == some '#' then none
  else
    let line := if endsEscaped line then line else Text.trimEnd line
    if line.isEmpty then none
    else
      let (isException, isAbsolute, pattern) := unmark line
      let (pattern, onlyDirectories) := withoutSlash pattern
      match Glob.parse (String.ofList (anchored isAbsolute pattern)) with
      | .ok pieces => some ⟨isException, onlyDirectories, pieces⟩
      | .error _ => none

def verdict (r : IgnoreRule) : Verdict :=
  if r.isException then .takeIn else .leaveOut

/-- Whether a rule applies to a path, named from the directory of the file. -/
def applies (r : IgnoreRule) (path : RawText) (isDirectory : Bool) : Bool :=
  (!r.onlyDirectories || isDirectory) && Glob.isMatch true r.pattern path

end IgnoreRule

/-! ## Files -/

def byteLines : List UInt8 -> List (List UInt8)
  | [] => [[]]
  | b :: rest =>
      match byteLines rest with
      | [] => [[b]]
      | line :: lines => if b == 10 then [] :: line :: lines else (b :: line) :: lines

/-- The text of a line without the carriage return at its end, if it is UTF-8. -/
def lineText? (line : List UInt8) : Option (List Char) :=
  let line := if line.getLast? == some 13 then line.dropLast else line
  (String.fromUTF8? ⟨line.toArray⟩).map String.toList

def textLines (content : ByteArray) : List (List Char) :=
  (((byteLines content.toList).map lineText?).takeWhile Option.isSome).filterMap fun l => l

/-- The lines of an ignore file; marks of the byte order at its start do not
count. -/
def ignoreLines (content : ByteArray) : List (List Char) :=
  match textLines content with
  | [] => []
  | first :: rest => first.dropWhile (· == Char.ofNat 0xFEFF) :: rest

def rulesOf (content : ByteArray) : List IgnoreRule :=
  (ignoreLines content).filterMap IgnoreRule.ofLine?

/-- What a list of rules says of a path: the last rule that applies decides. -/
def ruleVerdict? (rules : List IgnoreRule) (path : RawText) (isDirectory : Bool) :
    Option Verdict :=
  (rules.reverse.find? fun r => r.applies path isDirectory).map (·.verdict)

def ignoreFiles : List (List RawText) :=
  [[".flowcheckignore"], [".ignore"], [".gitignore"], [".git", "info", "exclude"]]

/-- The rules of a directory at some depth below the root, one list for each kind
of file. -/
structure IgnoreLevel where
  depth : Nat
  rules : List (List IgnoreRule)

namespace IgnoreLevel

def rulesAt (directory : Entry) (file : List RawText) : List IgnoreRule :=
  match directory.lookup? file with
  | some (.file content) => rulesOf content
  | _ => []

def ofDirectory (depth : Nat) (directory : Entry) : IgnoreLevel :=
  ⟨depth, ignoreFiles.map (rulesAt directory)⟩

/-- What the rules of one kind in a directory say of a place below it. -/
def verdict? (l : IgnoreLevel) (kind : Nat) (place : List RawText) (isDirectory : Bool) :
    Option Verdict :=
  ruleVerdict? (l.rules.getD kind []) (Path.ofNames (place.drop l.depth)) isDirectory

end IgnoreLevel

/-- What all ignore files say of a place.  The kind of the file decides first, then
the nearest directory; the directories are given from the nearest on. -/
def verdict? (levels : List IgnoreLevel) (place : List RawText) (isDirectory : Bool) :
    Option Verdict :=
  (List.range ignoreFiles.length).findSome? fun kind =>
    levels.findSome? fun l => l.verdict? kind place isDirectory

def isHidden (name : RawText) : Bool :=
  name.bytes.head? == some Path.dot

/-- Whether a scan leaves out an entry.  Hidden ones are left out unless a rule
takes them in. -/
def isLeftOut (levels : List IgnoreLevel) (place : List RawText) (name : RawText)
    (isDirectory : Bool) : Bool :=
  match verdict? levels place isDirectory with
  | some .leaveOut => true
  | some .takeIn => false
  | none => isHidden name

end Workspace
end PayloadFlow
