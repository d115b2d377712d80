import PayloadFlow.Script.Grammar.TypeRule

/-!
# JSX

Elements, their attributes and what stands between an opening and a closing tag.
-/

namespace PayloadFlow
namespace Script
namespace Grammar

open PayloadFlow.Script.Parser

def jsxNameLength (cs : List Char) : Nat :=
  let n := Lexeme.word cs
  if n == 0 then 0
  else n + ((cs.drop n).takeWhile fun c => c == '-' || Lexeme.isWordPart c).length

def jsxName (kind : Kind) : Parser Node := do
  leaf kind (jsxNameLength (← ahead))

/-- The name of an element: a name, a member of something, or a name with a
namespace. -/
def jsxElementName : Parser Node := do
  let start ← here
  let root ← jsxName .identifier
  if ← atMark ":" then
    mark ":"
    let inner ← jsxName .identifier
    node .jsxNamespaceName start [root, inner]
  else
    iterate (fun object => do
      if ← atMark "." then
        mark "."
        let property ← wordNode .propertyIdentifier
        some <$> node .memberExpression start [object.as .object, property.as .property]
      else pure none) root

def jsxExpression (r : Rules) : Parser Node := do
  let start ← here
  mark "\x7b"
  let inner ← do
    match ← nextMark with
    | "\x7d" => pure none
    | "..." => do
        let start ← here
        mark "..."
        let argument ← r.expression
        some <$> node .spreadElement start [argument]
    | _ => some <$> r.expressions
  mark "\x7d"
  node .jsxExpression start inner.toList

/-- A text between quotes, which knows no escapes. -/
def jsxString : Parser Node := do
  match ← ahead with
  | c :: rest =>
      check (c == '"' || c == '\x27')
      let inner := (rest.takeWhile (· != c)).length
      check ((rest.drop inner).head? == some c)
      leaf .string (inner + 2)
  | [] => fail

def jsxAttribute (r : Rules) : Parser Node := do
  if ← atMark "\x7b" then jsxExpression r
  else
    let start ← here
    let first ← jsxName .propertyIdentifier
    let name ←
      if ← atMark ":" then do
        mark ":"
        let inner ← jsxName .propertyIdentifier
        node .jsxNamespaceName start [first, inner]
      else pure first
    let value ←
      if ← atMark "=" then do
        mark "="
        match ← nextMark with
        | "\x7b" => some <$> jsxExpression r
        | "<" => some <$> r.parse .jsx
        | _ => some <$> jsxString
      else pure none
    node .jsxAttribute start ([name] ++ value.toList)

def jsxChild (r : Rules) : Parser Node := do
  match ← Parser.rest with
  | '<' :: '/' :: _ => fail
  | '<' :: _ => r.parse .jsx
  | '\x7b' :: _ => jsxExpression r
  | cs => fun s =>
      let n := (cs.takeWhile fun c => !(['<', '>', '\x7b', '\x7d'].contains c)).length
      if n == 0 then fail s
      else
        let text : Node :=
          ⟨.jsxText, none, s.place.offset, s.place.line, s.place.textTo (s.place.offset + n), []⟩
        .ok (text, { s with place := s.place.advance n })

def jsxElement (r : Rules) : Parser Node := do
  let start ← here
  piece "<"
  let name ← if ← atMark ">" then pure none else some <$> jsxElementName
  let types ← if ← atMark "<" then some <$> typeArguments r else pure none
  let attributes ← if name.isSome then many (jsxAttribute r) else pure []
  let tag := (name.map (·.as .name)).toList ++ types.toList ++ attributes
  if name.isSome && (← nextMark) == "/" then
    piece "/"
    piece ">"
    node .jsxSelfClosingElement start tag
  else
    piece ">"
    let opening ← node .jsxOpeningElement start tag
    let children ← many (jsxChild r)
    let closeStart ← here
    piece "</"
    let closeName ← if ← atMark ">" then pure none else some <$> jsxElementName
    piece ">"
    let closing ← node .jsxClosingElement closeStart (closeName.map (·.as .name)).toList
    node .jsxElement start ([opening] ++ children ++ [closing])

end Grammar
end Script
end PayloadFlow
