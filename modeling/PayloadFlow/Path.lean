import PayloadFlow.Text.Raw

/-!
# Paths

Paths are bytes with slashes between their steps.  Two paths are the same if their
steps are: repeated slashes and steps `.` after the first do not count.  An absolute
path starts with a slash, which is a step of its own.
-/

namespace PayloadFlow
namespace Path

def slash : UInt8 := 0x2f

def dot : UInt8 := 0x2e

def top : RawText := ⟨[slash]⟩

def here : RawText := ⟨[dot]⟩

def parent : RawText := ⟨[dot, dot]⟩

def cut : List UInt8 -> List (List UInt8)
  | [] => [[]]
  | b :: rest =>
      match cut rest with
      | [] => [[b]]
      | step :: steps => if b == slash then [] :: step :: steps else (b :: step) :: steps

def steps (path : RawText) : List RawText :=
  (cut path.bytes).map RawText.mk

/-- Whether what stands between slashes counts wherever it stands. -/
def isStep (step : RawText) : Bool :=
  step != .empty && step != here

def isAbsolute (path : RawText) : Bool :=
  path.bytes.head? == some slash

/-- The steps of a path.  A `.` is kept only where the path starts with it. -/
def components (path : RawText) : List RawText :=
  let first :=
    if isAbsolute path then [top] else if (steps path).head? == some here then [here] else []
  first ++ (steps path).filter isStep

def fileName? (path : RawText) : Option RawText :=
  match (components path).getLast? with
  | some name => if name == top || name == here || name == parent then none else some name
  | none => none

/-- The part of a file name after its last dot.  A dot at the start of a name
does not count. -/
def extension? (path : RawText) : Option RawText := do
  let reversed := (← fileName? path).bytes.reverse
  match reversed.dropWhile (· != dot) with
  | [] => none
  | [_] => none
  | _ => some ⟨(reversed.takeWhile (· != dot)).reverse⟩

def join (base rest : RawText) : RawText :=
  if base == .empty || base.bytes.getLast? == some slash then base ++ rest
  else base ++ top ++ rest

def ofNames (names : List RawText) : RawText :=
  ⟨[slash].intercalate (names.map RawText.bytes)⟩

end Path
end PayloadFlow
