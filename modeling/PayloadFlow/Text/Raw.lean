/-!
# Names and paths as bytes

A file system keeps names and paths as bytes.  As a rule they are the UTF-8 form of a text.
Where they are not, each run of bytes that begins a character and does not end it is shown as
one mark, and so is each byte that begins none.
-/

namespace PayloadFlow

@[ext]
structure RawText where
  bytes : List UInt8
  deriving DecidableEq, Repr

namespace RawText

def ofString (s : String) : RawText :=
  ⟨s.toList.flatMap String.utf8EncodeChar⟩

instance : Coe String RawText :=
  ⟨ofString⟩

def empty : RawText :=
  ⟨[]⟩

instance : Append RawText :=
  ⟨fun a b => ⟨a.bytes ++ b.bytes⟩⟩

instance : Ord RawText :=
  ⟨fun a b => compare a.bytes b.bytes⟩

/-! ## Decoding -/

/-- What is shown for bytes that are no character. -/
def mark : Char :=
  Char.ofNat 0xfffd

/-- The bounds of the byte after the first one of a character, so that no character has a form
that is too long and none is a surrogate or past the last one. -/
def lowest (first : UInt8) : UInt8 :=
  if first == 0xe0 then 0xa0 else if first == 0xf0 then 0x90 else 0x80

def highest (first : UInt8) : UInt8 :=
  if first == 0xed then 0x9f else if first == 0xf4 then 0x8f else 0xbf

theorem le_lowest (first : UInt8) : 0x80 <= lowest first := by
  unfold lowest
  split
  · decide
  · split
    · decide
    · decide

/-- A character of which some bytes have been read: their value, how many bytes are still to
come, and the bounds of the next one. -/
structure Begun where
  value : Nat
  more : Nat
  low : UInt8 := 0x80
  high : UInt8 := 0xbf
  le_low : 0x80 <= low := by decide

def opening (b : UInt8) : List Char × Option Begun :=
  if b < 0x80 then ([Char.ofNat b.toNat], none)
  else if b < 0xc2 then ([mark], none)
  else if b < 0xe0 then ([], some { value := b.toNat - 0xc0, more := 1 })
  else if b < 0xf0 then
    ([], some ⟨b.toNat - 0xe0, 2, lowest b, highest b, le_lowest b⟩)
  else if b < 0xf5 then
    ([], some ⟨b.toNat - 0xf0, 3, lowest b, highest b, le_lowest b⟩)
  else ([mark], none)

def step : Option Begun -> UInt8 -> List Char × Option Begun
  | none, b => opening b
  | some c, b =>
      if c.low <= b && b <= c.high then
        let value := c.value * 0x40 + (b.toNat - 0x80)
        if c.more <= 1 then ([Char.ofNat value], none)
        else ([], some { value, more := c.more - 1 })
      else (mark :: (opening b).1, (opening b).2)

def decode : Option Begun -> List UInt8 -> List Char
  | none, [] => []
  | some _, [] => [mark]
  | begun, b :: rest => (step begun b).1 ++ decode (step begun b).2 rest

/-- How the bytes are shown as a text. -/
def text (t : RawText) : String :=
  String.ofList (decode none t.bytes)

end RawText
end PayloadFlow
