/-!
# Base 62

A 64-bit number written with the digits `0`–`9`, `A`–`Z` and `a`–`z`.  Eleven
digits are enough for every number, and all eleven are always written.
-/

namespace PayloadFlow
namespace Digest
namespace Base62

def alphabet : List Char :=
  "0123456789ABCDEFGHIJKLMNOPQRSTUVWXYZabcdefghijklmnopqrstuvwxyz".toList

def digit (d : Nat) : Char :=
  alphabet.getD d '0'

/-- The last `width` digits of a number, the most significant first. -/
def digits : Nat -> Nat -> List Char
  | 0, _ => []
  | width + 1, n => digits width (n / 62) ++ [digit (n % 62)]

def encode (n : UInt64) : String :=
  String.ofList (digits 11 n.toNat)

end Base62
end Digest
end PayloadFlow
