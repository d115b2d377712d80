import PayloadFlow.Text.CodeSpan

/-!
# Blank characters and trimming

The characters with the Unicode property White_Space, and texts without the
blanks around them.
-/

namespace PayloadFlow
namespace Text

def blankSpans : List CodeSpan := [
  ⟨0x9, 0xD, 1⟩, ⟨0x20, 0x20, 1⟩, ⟨0x85, 0x85, 1⟩, ⟨0xA0, 0xA0, 1⟩, ⟨0x1680, 0x1680, 1⟩,
  ⟨0x2000, 0x200A, 1⟩, ⟨0x2028, 0x2029, 1⟩, ⟨0x202F, 0x202F, 1⟩, ⟨0x205F, 0x205F, 1⟩, ⟨0x3000, 0x3000, 1⟩
]

def isBlank (c : Char) : Bool :=
  inSpans blankSpans c

def trimStart (cs : List Char) : List Char :=
  cs.dropWhile isBlank

def trimEnd (cs : List Char) : List Char :=
  (cs.reverse.dropWhile isBlank).reverse

def trim (cs : List Char) : List Char :=
  trimEnd (trimStart cs)

end Text
end PayloadFlow
