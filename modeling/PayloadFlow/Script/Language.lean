import PayloadFlow.Path
import PayloadFlow.Script.Parse

/-!
# Languages by file name

The extension of a file decides how it is read.
-/

namespace PayloadFlow
namespace Script

/-- How the file at a path is read, if it is a source at all. -/
def dialectOf? (path : RawText) : Option Dialect :=
  let typescript : List RawText := ["ts", "mts", "cts"]
  let javascript : List RawText := ["tsx", "jsx", "js", "mjs", "cjs"]
  match Path.extension? path with
  | some extension =>
      if typescript.contains extension then some .typescript
      else if javascript.contains extension then some .jsx
      else none
  | none => none

def isSource (path : RawText) : Bool :=
  (dialectOf? path).isSome

end Script
end PayloadFlow
