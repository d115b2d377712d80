import PayloadFlow.Script.Grammar.Pattern

/-!
# Types

The type expressions of TypeScript.
-/

namespace PayloadFlow
namespace Script
namespace Grammar

open PayloadFlow.Script.Parser

def predefinedTypes : List String :=
  ["any", "number", "boolean", "string", "symbol", "unknown", "never", "object", "void"]

def typeArguments (r : Rules) : Parser Node := do
  let start ← here
  piece "<"
  let items ← commaList r.type
  piece ">"
  return (← node .typeArguments start items).as .typeArguments

def namedType (r : Rules) : Parser Node := do
  let start ← here
  let w ← nextWord
  let kind :=
    if predefinedTypes.contains w then Kind.predefinedType
    else if w == "this" then .thisType else .typeIdentifier
  let head ← wordNode kind
  let name ← iterate (fun outer => do
    if ← atMark "." then
      mark "."
      let outer :=
        if outer.kind == .nestedTypeIdentifier then { outer with kind := .nestedIdentifier }
        else { outer with kind := .identifier }
      let inner ← wordNode .typeIdentifier
      some <$> node .nestedTypeIdentifier start [outer, inner.as .name]
    else pure none) head
  if (← atMark "<") && !(← onNewLine) then
    (do
      let args ← typeArguments r
      node .genericType start [name.as .name, args]) <|> pure name
  else return name

def pathMember (start : Place) (object : Node) : Parser Node := do
  let property ← memberName
  node .memberExpression start [object.as .object, property]

def pathKey : Parser Node := do
  let w ← nextWord
  if predefinedTypes.contains w then wordNode .predefinedType
  else stringNode <|> numberNode

def importCall (r : Rules) : Parser Node := do
  let start ← here
  let function ← keywordNode .importWord "import"
  let args ← callArguments r
  node .callExpression start [function.as .function, args]

def importedType (r : Rules) : Parser Node := do
  let start ← here
  let loaded ← importCall r
  iterate (fun object => do
    match ← nextMark with
    | "." => do
        mark "."
        some <$> pathMember start object
    | "(" => do
        let args ← callArguments r
        some <$> node .callExpression start [object.as .function, args]
    | _ => pure none) loaded

def typeQuery (r : Rules) : Parser Node := do
  let start ← here
  keyword "typeof"
  let inner ← here
  let w ← nextWord
  let root ← if w == "import" then importCall r else wordNode ((valueWord? w).getD .identifier)
  let path ← iterate (fun object => do
    match ← nextMark with
    | "." => do
        mark "."
        some <$> pathMember inner object
    | "?." => do
        mark "?."
        if ← markIf "[" then
          let key ← pathKey
          mark "]"
          some <$> node .subscriptExpression inner [object.as .object, key.as .index]
        else some <$> pathMember inner object
    | "[" =>
        Parser.optional do
          mark "["
          let key ← pathKey
          mark "]"
          node .subscriptExpression inner [object.as .object, key.as .index]
    | "(" => do
        let args ← callArguments r
        some <$> node .callExpression inner [object.as .function, args]
    | _ => pure none) root
  let args ← if ← atMark "<" then Parser.optional (typeArguments r) else pure none
  node .typeQuery start ([path] ++ args.toList)

def literalType : Parser Node := do
  let start ← here
  let inner ← firstOf
    [stringNode, numberNode, keywordNode .trueWord "true", keywordNode .falseWord "false",
     keywordNode .nullWord "null", keywordNode .undefinedWord "undefined"]
    (do
      let start ← here
      let operator ← do
        match ← nextMark with
        | "-" => operatorNode 1
        | "+" => operatorNode 1
        | _ => fail
      let argument ← numberNode
      node .unaryExpression start [operator, argument.as .argument])
  node .literalType start [inner]

def templateType (r : Rules) : Parser Node := do
  let start ← here
  piece "\x60"
  let parts ← iterate (fun (done : Bool × List Node) => do
    if done.1 then return none
    let cs ← Parser.rest
    let plain := (cs.takeWhile fun c => c != '\x60' && c != '$' && c != '\\').length
    takeHere plain
    match cs.drop plain with
    | '\x60' :: _ => do
        takeHere 1
        return some (true, done.2)
    | '$' :: '\x7b' :: _ => do
        let start ← here
        let _ ← take 2
        let inner ← r.type
        mark "\x7d"
        let part ← node .templateType start [inner]
        return some (false, done.2 ++ [part])
    | _ :: _ => do
        takeHere 1
        return some (false, done.2)
    | [] => fail) (false, [])
  node .templateLiteralType start parts.2

def memberSeparator : Parser Unit := do
  match ← nextMark with
  | ";" => mark ";"
  | "," => mark ","
  | "\x7d" => pure ()
  | _ => do check (← onNewLine)

/-- An index such as `[key: string]: T`, or a mapping `[K in T]: U`. -/
def indexSignature (r : Rules) : Parser Node := do
  let start ← here
  let _ ← (do
    let _ ← (mark "+" <|> mark "-") <|> pure ()
    keyword "readonly") <|> pure ()
  mark "["
  let inner ←
    (do
      let name ← wordNode .identifier
      mark ":"
      let key ← r.type
      pure [name.as .name, key]) <|>
    (do
      let start ← here
      let name ← wordNode .typeIdentifier
      keyword "in"
      let range ← r.type
      let renamed ← Parser.optional do
        keyword "as"
        r.type
      let clause ← node .mappedTypeClause start ([name.as .name, range.as .type] ++ renamed.toList)
      pure [clause])
  mark "]"
  let _ ← (do
    let _ ← (mark "+" <|> mark "-") <|> pure ()
    mark "?") <|> pure ()
  let type ← Parser.optional (typeClause r)
  node .indexSignature start (inner ++ type.toList)

/-- Words that qualify a member of an object type when a name follows them. -/
def signatureModifier : Parser Unit := do
  let w ← nextWord
  check (["readonly", "get", "set", "async", "static"].contains w)
  keyword w
  let m ← nextMark
  check (["", "[", "#"].contains m)

def typeMember (r : Rules) : Parser Node := do
  let start ← here
  firstOf
    [indexSignature r,
     do
      let parts ← callSignature r
      node .callSignature start parts,
     do
      keyword "new"
      let parts ← callSignature r
      node .constructSignature start parts]
    (do
      let _ ← many signatureModifier
      let name ← propertyName r
      let _ ← markIf "?"
      if ["(", "<"].contains (← nextMark) then
        let parts ← callSignature r
        node .methodSignature start ([name.as .name] ++ parts)
      else
        let type ← Parser.optional (typeClause r)
        node .propertySignature start ([name.as .name] ++ type.toList))

def objectTypeAs (r : Rules) (kind : Kind) : Parser Node := do
  let start ← here
  mark "\x7b"
  let _ ← many (mark "," <|> mark ";")
  let members ← many do
    let member ← typeMember r
    memberSeparator
    pure member
  mark "\x7d"
  node kind start members

def tupleMember (r : Rules) : Parser Node := do
  let start ← here
  firstOf
    [do
      mark "..."
      let _ ← (do
        let _ ← wordNode .identifier
        mark ":") <|> pure ()
      let inner ← r.type
      node .restType start [inner],
     do
      let name ← wordNode .identifier
      let isOptional ← markIf "?"
      let type ← typeClause r
      node (if isOptional then .optionalParameter else .requiredParameter) start
        [name.as .name, type]]
    (do
      let inner ← r.type
      if ← markIf "?" then node .optionalType start [inner] else pure inner)

def tupleType (r : Rules) : Parser Node := do
  let start ← here
  mark "["
  let items ← looseList (tupleMember r)
  mark "]"
  node .tupleType start items

def primaryType (r : Rules) : Parser Node := do
  let w ← nextWord
  if w != "" then
    match w with
    | "typeof" => typeQuery r
    | "true" => literalType
    | "false" => literalType
    | "null" => literalType
    | "undefined" => literalType
    | _ => namedType r
  else
    match ← nextMark with
    | "(" => do
        let start ← here
        mark "("
        let inner ← r.type
        mark ")"
        node .parenthesizedType start [inner]
    | "\x7b" => objectTypeAs r .objectType
    | "[" => tupleType r
    | "*" => leaf .predefinedType 1
    | _ =>
        match ← ahead with
        | '\x60' :: _ => templateType r
        | _ => literalType

def postfixType (r : Rules) : Parser Node := do
  let start ← here
  let head ← primaryType r
  iterate (fun inner => do
    if (← atMark "[") && !(← onNewLine) then
      mark "["
      if ← atMark "]" then
        mark "]"
        some <$> node .arrayType start [inner]
      else
        let index ← r.type
        mark "]"
        some <$> node .lookupType start [inner, index]
    else pure none) head

def functionType (r : Rules) : Parser Node := do
  let start ← here
  let isConstructor ← (do
    let _ ← keywordIf "abstract"
    keyword "new"
    pure true) <|> pure false
  let types ← if ← atMark "<" then Parser.optional (typeParameters r) else pure none
  let parameters ← formalParameters r
  mark "=>"
  let result ←
    firstOf
      [do
        let start ← here
        let w ← nextWord
        let name ← wordNode ((valueWord? w).getD .identifier)
        keyword "is"
        let proved ← r.type
        node .typePredicate start [name.as .name, proved.as .type]]
      r.type
  node (if isConstructor then .constructorType else .functionType) start
    (types.toList ++ [parameters, result.as .returnType])

def wordedType (r : Rules) (kind : Kind) (operand : Parser Node) : Parser Node :=
  (do
    let start ← here
    let w ← nextWord
    keyword w
    let inner ← operand
    node kind start [inner]) <|> postfixType r

def inferredName (r : Rules) : Parser Node := do
  let name ← wordNode .typeIdentifier
  let _ ← Parser.optional do
    keyword "extends"
    let _ ← postfixType r
    check !(← atMark "?")
  return name

def typeOperand (r : Rules) : Parser Node := do
  match ← nextWord with
  | "keyof" => wordedType r .indexTypeQuery (postfixType r)
  | "readonly" => wordedType r .readonlyType (postfixType r)
  | "infer" => wordedType r .inferType (inferredName r)
  | "unique" => wordedType r .predefinedType (wordNode .typeIdentifier)
  | "import" => importedType r
  | "new" => functionType r
  | "abstract" => functionType r <|> postfixType r
  | "" =>
      if ["(", "<"].contains (← nextMark) then functionType r <|> postfixType r
      else postfixType r
  | _ => postfixType r

def joinedTypes (item : Parser Node) (m : String) (kind : Kind) : Parser Node := do
  let start ← here
  let leading ← markIf m
  let first ← item
  let more ← many do
    mark m
    item
  if leading || !more.isEmpty then node kind start (first :: more) else return first

def unionType (r : Rules) : Parser Node :=
  joinedTypes (joinedTypes (typeOperand r) "&" .intersectionType) "|" .unionType

def typeRule (r : Rules) : Parser Node := do
  let start ← here
  let subject ← unionType r
  if (← atWord "extends") && !(← onNewLine) then
    (do
      keyword "extends"
      let bound ← unionType r
      mark "?"
      let yes ← r.type
      mark ":"
      let no ← r.type
      node .conditionalType start
        [subject.as .left, bound.as .right, yes.as .consequence, no.as .alternative]) <|>
    pure subject
  else return subject

end Grammar
end Script
end PayloadFlow
