/-!
# XXH64

The 64-bit hash XXH64 with seed 0.  Bytes are read in stripes of four lanes of
eight bytes; what remains is mixed in by eight, four and one byte.
-/

namespace PayloadFlow
namespace Digest
namespace Xxh64

def prime1 : UInt64 := 0x9E3779B185EBCA87
def prime2 : UInt64 := 0xC2B2AE3D27D4EB4F
def prime3 : UInt64 := 0x165667B19E3779F9
def prime4 : UInt64 := 0x85EBCA77C2B2AE63
def prime5 : UInt64 := 0x27D4EB2F165667C5

def rotateLeft (x r : UInt64) : UInt64 :=
  (x <<< r) ||| (x >>> (64 - r))

/-- The first `n` bytes as a little-endian word. -/
def readWord (n : Nat) (bytes : List UInt8) : UInt64 :=
  (bytes.take n).foldr (fun b acc => (acc <<< 8) ||| b.toUInt64) 0

def round (acc input : UInt64) : UInt64 :=
  rotateLeft (acc + input * prime2) 31 * prime1

structure Lanes where
  v1 : UInt64
  v2 : UInt64
  v3 : UInt64
  v4 : UInt64

namespace Lanes

def start : Lanes where
  v1 := prime1 + prime2
  v2 := prime2
  v3 := 0
  v4 := 0 - prime1

def absorb (l : Lanes) (bytes : List UInt8) : Lanes where
  v1 := round l.v1 (readWord 8 bytes)
  v2 := round l.v2 (readWord 8 (bytes.drop 8))
  v3 := round l.v3 (readWord 8 (bytes.drop 16))
  v4 := round l.v4 (readWord 8 (bytes.drop 24))

/-- The accumulators after `n` stripes, and the bytes that remain. -/
def absorbMany : Nat -> Lanes -> List UInt8 -> Lanes × List UInt8
  | 0, l, bytes => (l, bytes)
  | n + 1, l, bytes => absorbMany n (l.absorb bytes) (bytes.drop 32)

def mergeRound (h v : UInt64) : UInt64 :=
  (h ^^^ round 0 v) * prime1 + prime4

def merge (l : Lanes) : UInt64 :=
  let h := rotateLeft l.v1 1 + rotateLeft l.v2 7 + rotateLeft l.v3 12 + rotateLeft l.v4 18
  mergeRound (mergeRound (mergeRound (mergeRound h l.v1) l.v2) l.v3) l.v4

end Lanes

def mixWords : Nat -> UInt64 -> List UInt8 -> UInt64 × List UInt8
  | 0, h, bytes => (h, bytes)
  | n + 1, h, bytes =>
      mixWords n (rotateLeft (h ^^^ round 0 (readWord 8 bytes)) 27 * prime1 + prime4)
        (bytes.drop 8)

def mixHalf (h : UInt64) (bytes : List UInt8) : UInt64 :=
  rotateLeft (h ^^^ (readWord 4 bytes * prime1)) 23 * prime2 + prime3

def mixByte (h : UInt64) (b : UInt8) : UInt64 :=
  rotateLeft (h ^^^ (b.toUInt64 * prime5)) 11 * prime1

/-- The last mixing, in which every bit of the state reaches every bit of the result. -/
def avalanche (h : UInt64) : UInt64 :=
  let h := (h ^^^ (h >>> 33)) * prime2
  let h := (h ^^^ (h >>> 29)) * prime3
  h ^^^ (h >>> 32)

def hash (bytes : List UInt8) : UInt64 :=
  let size := bytes.length
  let (h, tail) :=
    if size < 32 then (prime5, bytes)
    else
      let (lanes, tail) := Lanes.start.absorbMany (size / 32) bytes
      (lanes.merge, tail)
  let (h, tail) := mixWords (size % 32 / 8) (h + size.toUInt64) tail
  let (h, tail) := if size % 8 < 4 then (h, tail) else (mixHalf h tail, tail.drop 4)
  avalanche (tail.foldl mixByte h)

def hashText (text : String) : UInt64 :=
  hash text.toUTF8.toList

end Xxh64
end Digest
end PayloadFlow
