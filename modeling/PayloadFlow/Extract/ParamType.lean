import PayloadFlow.Contract
import PayloadFlow.Script.Chain
import PayloadFlow.Script.Walk
import PayloadFlow.Text.Blank
import PayloadFlow.Text.Lowercase
import PayloadFlow.Text.Search

/-!
# Types of parameters

A parameter has no declared type that could be relied on, so its type is read
off its use in the body and, failing that, off its name.
-/

namespace PayloadFlow
namespace ParamType

open Text
open Script

/-- Whether a name is a word followed by a capital letter. -/
def continues (word name : List Char) : Bool :=
  match word.isPrefixOf? name with
  | some (c :: _) => isUppercase c
  | _ => false

def endsWithAny (endings : List String) (text : List Char) : Bool :=
  endings.any fun ending => endsWith ending.toList text

def continuesAny (words : List String) (name : List Char) : Bool :=
  words.any fun word => continues word.toList name

def ofName (name : String) : ParamType :=
  let lower := (lowerText name).toList
  let isOneOf (words : List String) : Bool := words.any fun word => word.toList == lower
  let name := name.toList
  if isOneOf ["id"] || endsWithAny ["Id", "ID"] name || endsWithAny ["_id"] lower then .identifier
  else if continuesAny ["is", "has", "should", "can", "was"] name then .boolean
  else if continuesAny ["on"] name ||
      endsWithAny ["callback", "cb", "handler", "fn", "listener"] lower then .callback
  else if isOneOf ["e", "ev", "evt", "event"] || endsWithAny ["event"] lower then .event
  else if isOneOf ["el"] || endsWithAny ["El"] name ||
      endsWithAny ["element", "node", "target", "container"] lower then .element
  else if isOneOf ["x", "y", "dx", "dy", "n", "i"] || endsWithAny ["X", "Y"] name ||
      endsWithAny ["count", "index", "idx", "width", "height", "size", "offset", "delta", "length",
        "total", "amount"] lower then .number
  else if endsWithAny ["name", "label", "text", "title", "message", "url", "key", "type"] lower then
    .text
  else if endsWithAny ["options", "opts", "config", "settings", "props", "data", "payload",
      "state"] lower then .object
  else .unknown

def ofMember (member : String) : Option ParamType :=
  if ["preventDefault", "stopPropagation", "clientX", "clientY", "pointerId", "currentTarget",
      "key", "button"].contains member then some .event
  else if ["getBoundingClientRect", "classList", "querySelector", "appendChild", "style", "dataset",
      "closest", "getAttribute", "setAttribute"].contains member then some .element
  else if ["trim", "toLowerCase", "toUpperCase", "startsWith", "endsWith", "split"].contains member
  then some .text
  else if ["toFixed", "toPrecision"].contains member then some .number
  else none

def ofTypeName : String -> Option ParamType
  | "number" | "bigint" => some .number
  | "string" => some .text
  | "boolean" => some .boolean
  | "function" => some .callback
  | "object" => some .object
  | _ => none

def ofComparison (c : Cursor) : Option ParamType := do
  let parent ← c.parent?
  guard (parent.kind == .binaryExpression)
  let other ← parent.child? (if c.node.label == some .left then .right else .left)
  ofTypeName (← other.stringValue?)

/-- What the use of a name at a node says about its type.  The outer `none` means
that the node does not use the name in a telling way. -/
def ofUse (name : String) (c : Cursor) : Option (Option ParamType) :=
  let n := c.node
  match n.kind with
  | .callExpression =>
      match n.child? .function with
      | some f => if f.kind == .identifier && f.text == name then some (some .callback) else none
      | none => none
  | .memberExpression =>
      match n.memberChain? with
      | some ⟨root, segment :: _⟩ => if root == name then some (ofMember segment.name) else none
      | _ => none
  | .unaryExpression =>
      match "typeof".toList.isPrefixOf? n.text.toList with
      | some operand => if trim operand == name.toList then some (ofComparison c) else none
      | none => none
  | _ => none

/-- The type that the uses of a name in a body suggest; the first telling one
decides. -/
def ofUses (name : String) (body : Node) : Option ParamType :=
  walk (fun found c =>
    match found with
    | some type => (some type, false)
    | none =>
        match ofUse name c with
        | some found => (found, false)
        | none => (none, true)) none body

end ParamType
end PayloadFlow
