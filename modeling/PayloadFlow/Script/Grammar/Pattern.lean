import PayloadFlow.Script.Grammar.Goal

/-!
# Names, patterns, parameters and arguments

Property names, the patterns that bind names, the parameters of functions and
the arguments of calls.
-/

namespace PayloadFlow
namespace Script
namespace Grammar

open PayloadFlow.Script.Parser

def valueWord? : String -> Option Kind
  | "this" => some .thisWord
  | "super" => some .superWord
  | "null" => some .nullWord
  | "true" => some .trueWord
  | "false" => some .falseWord
  | "undefined" => some .undefinedWord
  | _ => none

def privateName : Parser Node := do
  match ← ahead with
  | '#' :: rest =>
      let n := Lexeme.word rest
      check (n != 0)
      leaf .privatePropertyIdentifier (n + 1)
  | _ => fail

def computedName (r : Rules) : Parser Node := do
  let start ← here
  mark "["
  let inner ← r.expression
  mark "]"
  node .computedPropertyName start [inner]

def propertyName (r : Rules) : Parser Node :=
  firstOf [wordNode .propertyIdentifier, stringNode, numberNode, privateName] (computedName r)

def memberName : Parser Node := do
  return (← (wordNode .propertyIdentifier <|> privateName)).as .property

def typeClause (r : Rules) : Parser Node := do
  let start ← here
  mark ":"
  let inner ← r.type
  return (← node .typeClause start [inner]).as .type

/-! ## Arguments -/

def spreadElement (r : Rules) : Parser Node := do
  let start ← here
  mark "..."
  let argument ← r.expression
  node .spreadElement start [argument]

def listItem (r : Rules) : Parser Node := do
  if ← atMark "..." then spreadElement r else r.expression

def callArguments (r : Rules) : Parser Node := do
  let start ← here
  mark "("
  let items ← looseList (listItem r)
  mark ")"
  return (← node .arguments start items).as .arguments

/-! ## Patterns -/

def targetPattern (r : Rules) : Parser Node := do
  let start ← here
  let w ← nextWord
  let root ← wordNode ((valueWord? w).getD .identifier)
  iterate (fun object => do
    match ← nextMark with
    | "." => do
        mark "."
        let property ← memberName
        some <$> node .memberExpression start [object.as .object, property]
    | "[" => do
        mark "["
        let index ← r.expressions
        mark "]"
        some <$> node .subscriptExpression start [object.as .object, index.as .index]
    | _ => pure none) root

def defaultedPattern (r : Rules) : Parser Node := do
  let start ← here
  let left ← r.pattern
  if ← atMark "=" then
    mark "="
    let right ← r.expression
    node .assignmentPattern start [left.as .left, right.as .right]
  else return left

def restPattern (r : Rules) : Parser Node := do
  let start ← here
  mark "..."
  let inner ← r.pattern
  node .restPattern start [inner]

def patternEntry (r : Rules) : Parser Node := do
  if ← atMark "..." then restPattern r
  else
    let start ← here
    (do
      let key ← propertyName r
      mark ":"
      let value ← defaultedPattern r
      node .pairPattern start [key.as .key, value.as .value]) <|>
    (do
      let name ← wordNode .shorthandPropertyPattern
      if ← atMark "=" then
        mark "="
        let right ← r.expression
        node .objectAssignmentPattern start [name.as .left, right.as .right]
      else return name)

def objectPattern (r : Rules) : Parser Node := do
  let start ← here
  mark "\x7b"
  let entries ← looseList (patternEntry r)
  mark "\x7d"
  node .objectPattern start entries

def arrayPattern (r : Rules) : Parser Node := do
  let start ← here
  mark "["
  let items ← looseList (defaultedPattern r)
  mark "]"
  node .arrayPattern start items

def destructuring (r : Rules) : Parser Node := do
  match ← nextMark with
  | "\x7b" => objectPattern r
  | "[" => arrayPattern r
  | _ => fail

def pattern (r : Rules) : Parser Node := do
  match ← nextMark with
  | "..." => restPattern r
  | "\x7b" => objectPattern r
  | "[" => arrayPattern r
  | _ => targetPattern r

def binding (r : Rules) : Parser Node := do
  match ← nextMark with
  | "\x7b" => objectPattern r
  | "[" => arrayPattern r
  | _ => wordNode .identifier

/-! ## Parameters -/

/-- A word that qualifies a parameter when a name or pattern follows it. -/
def parameterModifier : Parser (List Node) := do
  let w ← nextWord
  check (["public", "private", "protected", "override", "readonly"].contains w)
  let modifier ←
    match w with
    | "override" => (fun n => [n]) <$> wordNode .overrideModifier
    | "readonly" => do
        keyword "readonly"
        pure []
    | _ => (fun n => [n]) <$> wordNode .accessibilityModifier
  let follows := (← nextWord) != "" || ["\x7b", "["].contains (← nextMark)
  check follows
  return modifier

def parameter (r : Rules) : Parser Node := do
  let start ← here
  let decorators ← many (r.parse .decorator)
  let modifiers ← many parameterModifier
  let bound ← r.pattern
  let isOptional ← markIf "?"
  let type ← Parser.optional (typeClause r)
  let value ← Parser.optional r.initializer
  node (if isOptional then .optionalParameter else .requiredParameter) start
    (decorators.map (·.as .decorator) ++ modifiers.flatten ++ [bound.as .pattern] ++
      type.toList ++ value.toList)

def formalParameters (r : Rules) : Parser Node := do
  let start ← here
  mark "("
  let items ← (commaList (parameter r)) <|> pure []
  mark ")"
  return (← node .formalParameters start items).as .parameters

def typeParameter (r : Rules) : Parser Node := do
  let start ← here
  let _ ← (do
    keyword "const"
    check ((← nextWord) != "")) <|> pure ()
  let name ← wordNode .typeIdentifier
  let bound ← Parser.optional do
    let start ← here
    keyword "extends" <|> mark ":"
    let inner ← r.type
    node .constraint start [inner]
  let default ← Parser.optional do
    let start ← here
    mark "="
    let inner ← r.type
    node .defaultType start [inner]
  node .typeParameter start ([name.as .name] ++ bound.toList ++ default.toList)

def typeParameters (r : Rules) : Parser Node := do
  let start ← here
  piece "<"
  let items ← commaList (typeParameter r)
  piece ">"
  return (← node .typeParameters start items).as .typeParameters

/-- A result type, which may also say what a call proves of an argument. -/
def returnType (r : Rules) : Parser Node := do
  let start ← here
  mark ":"
  let inner ←
    firstOf
      [do
        let start ← here
        keyword "asserts"
        let name ← wordNode .identifier
        let proved ← Parser.optional do
          keyword "is"
          r.type
        node .asserts start ([name] ++ proved.toList),
       do
        let start ← here
        let w ← nextWord
        let name ← wordNode ((valueWord? w).getD .identifier)
        keyword "is"
        let proved ← r.type
        node .typePredicate start [name.as .name, proved.as .type]]
      r.type
  return (← node .typeClause start [inner]).as .returnType

def callSignature (r : Rules) : Parser (List Node) := do
  let types ← if ← atMark "<" then Parser.optional (typeParameters r) else pure none
  let parameters ← formalParameters r
  let result ← if ← atMark ":" then Parser.optional (returnType r) else pure none
  return types.toList ++ [parameters] ++ result.toList

end Grammar
end Script
end PayloadFlow
