/-!
# Searching in texts

Parts of a text, and lists of texts put together with a separator.
-/

namespace PayloadFlow
namespace Text

/-- Whether `needle` occurs in a text as a run of neighbouring characters. -/
def occursIn (needle : List Char) : List Char -> Bool
  | [] => needle.isEmpty
  | c :: rest => needle.isPrefixOf (c :: rest) || occursIn needle rest

theorem occursIn_iff (needle text : List Char) :
    occursIn needle text = true <-> needle <:+: text := by
  induction text with
  | nil =>
      rw [occursIn, List.isEmpty_iff, List.infix_nil]
  | cons c rest ih =>
      rw [occursIn, Bool.or_eq_true, List.isPrefixOf_iff_prefix, ih, List.infix_cons_iff]

def endsWith (ending text : List Char) : Bool :=
  ending.isSuffixOf text

def joinWith (separator : List Char) : List (List Char) -> List Char
  | [] => []
  | [word] => word
  | word :: next :: rest => word ++ separator ++ joinWith separator (next :: rest)

def before (mark : Char) (text : List Char) : List Char :=
  text.takeWhile (· != mark)

end Text
end PayloadFlow
