import PayloadFlow.Script.Grammar.TypeRule

/-!
# Functions, methods and classes

Functions as values and as declarations, the methods of objects and classes, and
the bodies of classes.
-/

namespace PayloadFlow
namespace Script
namespace Grammar

open PayloadFlow.Script.Parser

/-! ## Semicolons -/

/-- Whether a text after a line break cannot continue the construct before it.
`inExpression` says that the construct ended with an expression. -/
def breaksBefore (inExpression inSignature : Bool) : List Char -> Bool
  | [] => true
  | c :: rest =>
      if "\x60,.;*%><=?^|&/:".toList.contains c then false
      else if c == '\x7b' then !inSignature
      else if c == '(' || c == '[' then !inExpression
      else if c == '+' then rest.head? == some '+'
      else if c == '-' then rest.head? == some '-'
      else if c == '!' then rest.head? != some '='
      else if c == 'i' then
        match rest with
        | 'n' :: tail =>
            if !tail.head?.any Char.isAlpha then false
            else if "stanceof".toList.isPrefixOf tail then (tail.drop 8).head?.any Char.isAlpha
            else true
        | _ => true
      else true

/-- Whether a statement ends at a place although no semicolon is written: at the
end of the source, before a closing brace, and at a line break after which the
text cannot go on. -/
def endsFrom (inExpression inSignature : Bool) : Nat -> Place -> Bool
  | 0, _ => false
  | fuel + 1, p =>
      let spaces := (p.rest.takeWhile fun c => Lexeme.isSpace c && c != '\n').length
      let p := p.advance spaces
      match Lexeme.comment? p.rest with
      | some n => endsFrom inExpression inSignature fuel (p.advance n)
      | none =>
          match p.rest with
          | [] => true
          | '\x7d' :: rest =>
              if (rest.dropWhile Lexeme.isSpace).head? == some ':' then inExpression else true
          | '\n' :: _ =>
              let (next, _) := skipFrom (fuel + 1) p []
              breaksBefore inExpression inSignature next.rest
          | _ => false

def endsHere (inExpression inSignature : Bool) : Parser Bool := fun s =>
  .ok (endsFrom inExpression inSignature (s.size + 1) s.place, s)

def semicolon (inExpression : Bool) : Parser Unit := do
  if ← endsHere inExpression false then pure ()
  else mark ";"

/-! ## Functions -/

/-- The words and marks that start a function: `async`, `function` and a star. -/
def functionHead : Parser Bool := do
  let _ ← (do
    keyword "async"
    check ((← atWord "function") && !(← onNewLine))) <|> pure ()
  keyword "function"
  markIf "*"

def functionExpression (r : Rules) : Parser Node := do
  let start ← here
  let isGenerator ← functionHead
  let name ← Parser.optional (wordNode .identifier)
  let signature ← callSignature r
  let body ← r.block
  node (if isGenerator then .generatorFunction else .functionExpression) start
    ((name.map (·.as .name)).toList ++ signature ++ [body.as .body])

def functionDeclaration (r : Rules) : Parser Node := do
  let start ← here
  let isGenerator ← functionHead
  let name ← wordNode .identifier
  let signature ← callSignature r
  let head := [name.as .name] ++ signature
  if ← atMark "\x7b" then
    let body ← r.block
    node (if isGenerator then .generatorFunctionDeclaration else .functionDeclaration) start
      (head ++ [body.as .body])
  else
    if ← endsHere false true then pure () else mark ";"
    node .functionSignature start head

/-- Words that qualify a method or field when a name follows them. -/
def memberModifiers : List String :=
  ["public", "private", "protected", "static", "override", "readonly", "abstract", "declare",
   "accessor", "async", "get", "set"]

def atMemberName : Parser Bool := do
  let cs ← ahead
  return cs.head?.any fun c =>
    Lexeme.isWordStart c || c.isDigit || c == '"' || c == '\x27' || c == '[' || c == '#' ||
      c == '*' || c == '\\'

def memberModifier : Parser (String × List Node) := do
  let w ← nextWord
  check (memberModifiers.contains w)
  let parts ←
    if ["public", "private", "protected"].contains w then
      (fun n => [n]) <$> wordNode .accessibilityModifier
    else if w == "override" then (fun n => [n]) <$> wordNode .overrideModifier
    else do
      keyword w
      pure []
  check (← atMemberName)
  return (w, parts)

def objectMethod (r : Rules) : Parser Node := do
  let start ← here
  let modifiers ← many memberModifier
  let _ ← markIf "*"
  let name ← propertyName r
  let _ ← markIf "?"
  let signature ← callSignature r
  let body ← r.block
  node .methodDefinition start
    ((modifiers.map (·.2)).flatten ++ [name.as .name] ++ signature ++ [body.as .body])

/-! ## Classes -/

/-- The end of a field or of a method without a body. -/
def memberEnd (inExpression : Bool) : Parser Unit := do
  if ← markIf "," then pure () else semicolon inExpression

def classMember (r : Rules) : Parser Node := do
  let start ← here
  let modifiers ← many memberModifier
  let isAbstract := modifiers.any (·.1 == "abstract")
  let parts := (modifiers.map (·.2)).flatten
  firstOf
    [do
      let signature ← indexSignature r
      memberEnd false
      pure signature,
     do
      let _ ← markIf "*"
      let name ← propertyName r
      let _ ← markIf "?"
      let signature ← callSignature r
      let head := parts ++ [name.as .name] ++ signature
      if (← atMark "\x7b") && !isAbstract then
        let body ← r.block
        let method ← node .methodDefinition start (head ++ [body.as .body])
        let _ ← markIf ";"
        pure method
      else
        let method ←
          node (if isAbstract then .abstractMethodSignature else .methodSignature) start head
        if ← markIf "," then pure ()
        else if ← endsHere false true then pure ()
        else mark ";"
        pure method]
    (do
      let name ← propertyName r
      let _ ← (mark "?" <|> mark "!") <|> pure ()
      let type ← if ← atMark ":" then some <$> typeClause r else pure none
      let value ← if ← atMark "=" then some <$> r.initializer else pure none
      let field ← node .fieldDefinition start
        (parts ++ [name.as .name] ++ type.toList ++ value.toList)
      memberEnd value.isSome
      pure field)

def classItem (r : Rules) : Parser (List Node) := do
  if ← markIf ";" then return []
  else
    (do
      let start ← here
      keyword "static"
      check (← atMark "\x7b")
      let body ← r.block
      let item ← node .classStaticBlock start [body.as .body]
      pure [item]) <|>
    (do
      let decorators ← many (r.parse .decorator)
      let member ← classMember r
      pure (decorators.map (·.as .decorator) ++ [member]))

def classBody (r : Rules) : Parser Node := do
  let start ← here
  mark "\x7b"
  let items ← many (classItem r)
  mark "\x7d"
  return (← node .classBody start items.flatten).as .body

def extended (r : Rules) : Parser (List Node) := do
  let value ← r.unary
  let args ← if ← atMark "<" then Parser.optional (typeArguments r) else pure none
  return [value.as .value] ++ args.toList

def classHeritage (r : Rules) : Parser Node := do
  let start ← here
  let base ← Parser.optional do
    let start ← here
    keyword "extends"
    let first ← extended r
    let more ← many do
      mark ","
      extended r
    node .extendsClause start (first ++ more.flatten)
  let interfaces ← Parser.optional do
    let start ← here
    keyword "implements"
    let first ← r.type
    let more ← many do
      mark ","
      r.type
    node .implementsClause start (first :: more)
  check (base.isSome || interfaces.isSome)
  node .classHeritage start (base.toList ++ interfaces.toList)

/-- The words and names of a class before its body.  A class that is a value
needs no name. -/
def classTail (r : Rules) (needsName : Bool) : Parser (List Node) := do
  keyword "class"
  let isNamed :=
    (← nextWord) != "" && ((← nextWord) != "extends" && (← nextWord) != "implements")
  let name ←
    if isNamed then some <$> wordNode .typeIdentifier
    else if needsName then fail
    else pure none
  let types ← if ← atMark "<" then some <$> typeParameters r else pure none
  let heritage ← Parser.optional (classHeritage r)
  let body ← classBody r
  return (name.map (·.as .name)).toList ++ types.toList ++ heritage.toList ++ [body]

def classExpression (r : Rules) : Parser Node := do
  let start ← here
  let decorators ← many (r.parse .decorator)
  let tail ← classTail r false
  node .classExpression start (decorators.map (·.as .decorator) ++ tail)

def classDeclaration (r : Rules) : Parser Node := do
  let start ← here
  let decorators ← many (r.parse .decorator)
  let isAbstract ← keywordIf "abstract"
  let tail ← classTail r true
  node (if isAbstract then .abstractClassDeclaration else .classDeclaration) start
    (decorators.map (·.as .decorator) ++ tail)

end Grammar
end Script
end PayloadFlow
