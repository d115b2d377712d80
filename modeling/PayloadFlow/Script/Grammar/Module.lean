import PayloadFlow.Script.Grammar.Expression

/-!
# Declarations, imports and exports

What a source declares, takes from other sources and offers to them.
-/

namespace PayloadFlow
namespace Script
namespace Grammar

open PayloadFlow.Script.Parser

/-! ## Declarations -/

def variableDeclarator (r : Rules) : Parser Node := do
  let start ← here
  let name ← binding r
  let _ ← (do
    mark "!"
    check (← atMark ":")) <|> pure ()
  let type ← if ← atMark ":" then some <$> typeClause r else pure none
  let value ← if ← atMark "=" then some <$> r.initializer else pure none
  node .variableDeclarator start ([name.as .name] ++ type.toList ++ value.toList)

def endsWithValue (declarators : List Node) : Bool :=
  declarators.getLast?.any fun d => (d.child? .value).isSome || (d.child? .type).isNone

def declaredVariables (r : Rules) : Parser Node := do
  let start ← here
  let w ← nextWord
  check (["var", "let", "const"].contains w)
  keyword w
  let first ← variableDeclarator r
  let more ← many do
    mark ","
    variableDeclarator r
  semicolon (endsWithValue (first :: more))
  node (if w == "var" then .variableDeclaration else .lexicalDeclaration) start (first :: more)

def typeAlias (r : Rules) : Parser Node := do
  let start ← here
  keyword "type"
  let name ← wordNode .typeIdentifier
  let types ← if ← atMark "<" then some <$> typeParameters r else pure none
  mark "="
  let value ← r.type
  semicolon false
  node .typeAliasDeclaration start ([name.as .name] ++ types.toList ++ [value.as .value])

def interface (r : Rules) : Parser Node := do
  let start ← here
  keyword "interface"
  let name ← wordNode .typeIdentifier
  let types ← if ← atMark "<" then some <$> typeParameters r else pure none
  let bases ← Parser.optional do
    let start ← here
    keyword "extends"
    let first ← r.type
    let more ← many do
      mark ","
      r.type
    node .extendsTypeClause start (first :: more)
  let body ← objectTypeAs r .interfaceBody
  node .interfaceDeclaration start
    ([name.as .name] ++ types.toList ++ bases.toList ++ [body.as .body])

def enumMember (r : Rules) : Parser Node := do
  let start ← here
  let name ← propertyName r
  if ← atMark "=" then
    let value ← r.initializer
    node .enumAssignment start [name.as .name, value]
  else return name.as .name

def enumeration (r : Rules) : Parser Node := do
  let start ← here
  let _ ← keywordIf "const"
  keyword "enum"
  let name ← wordNode .identifier
  let bodyStart ← here
  mark "\x7b"
  let members ← commaList (enumMember r) <|> pure []
  mark "\x7d"
  let body ← node .enumBody bodyStart members
  node .enumDeclaration start [name.as .name, body.as .body]

def qualifiedName : Parser Node := do
  let start ← here
  let root ← wordNode .identifier
  iterate (fun outer => do
    if ← atMark "." then
      mark "."
      let inner ← wordNode .propertyIdentifier
      some <$> node .nestedIdentifier start [outer.as .object, inner.as .property]
    else pure none) root

def namespaceDeclaration (r : Rules) : Parser Node := do
  let start ← here
  let w ← nextWord
  check (w == "namespace" || w == "module")
  keyword w
  check (!(← onNewLine))
  let name ← stringNode <|> qualifiedName
  let body ← if ← atMark "\x7b" then some <$> r.block else pure none
  if body.isNone then semicolon false
  node .namespaceDeclaration start ([name.as .name] ++ (body.map (·.as .body)).toList)

def importAlias : Parser Node := do
  let start ← here
  keyword "import"
  let name ← wordNode .identifier
  mark "="
  let value ← qualifiedName
  semicolon false
  node .importAlias start [name, value]

def plainDeclaration (r : Rules) : Parser Node := do
  match ← nextWord with
  | "function" => functionDeclaration r
  | "async" => functionDeclaration r
  | "class" => classDeclaration r
  | "abstract" => classDeclaration r
  | "var" => declaredVariables r
  | "let" => declaredVariables r
  | "const" => enumeration r <|> declaredVariables r
  | "enum" => enumeration r
  | "type" => typeAlias r
  | "interface" => interface r
  | "namespace" => namespaceDeclaration r
  | "module" => namespaceDeclaration r
  | "import" => importAlias
  | "" => if ← atMark "@" then classDeclaration r else fail
  | _ => fail

def declaration (r : Rules) : Parser Node := do
  if ← atWord "declare" then
    let start ← here
    keyword "declare"
    check (!(← onNewLine))
    let inner ←
      if ← atWord "global" then do
        keyword "global"
        r.block
      else plainDeclaration r
    node .ambientDeclaration start [inner]
  else plainDeclaration r

/-! ## Imports and exports -/

def fromClause : Parser Node := do
  keyword "from"
  return (← stringNode).as .source

def importAttribute (r : Rules) : Parser Node := do
  let start ← here
  keyword "with" <|> keyword "assert"
  let object ← objectLiteral r
  node .importAttribute start [object]

def namespaceImport : Parser Node := do
  let start ← here
  mark "*"
  keyword "as"
  let name ← wordNode .identifier
  node .namespaceImport start [name]

def moduleName : Parser Node :=
  wordNode .identifier <|> stringNode

/-- `type` or `typeof` before a name that is only imported or exported as a
type. -/
def typeOnly : Parser Unit :=
  (do
    let w ← nextWord
    check (w == "type" || w == "typeof")
    keyword w
    let next ← nextWord
    let follows :=
      (next != "" && next != "as") || ["\x7b", "*"].contains (← nextMark) ||
        (Lexeme.quoted? (← ahead)).isSome
    check follows) <|> pure ()

def importSpecifier : Parser Node := do
  let start ← here
  typeOnly
  let name ← moduleName
  let renamed ← Parser.optional do
    keyword "as"
    wordNode .identifier
  node .importSpecifier start ([name.as .name] ++ (renamed.map (·.as .alias)).toList)

def namedImports : Parser Node := do
  let start ← here
  mark "\x7b"
  let items ← commaList importSpecifier <|> pure []
  mark "\x7d"
  node .namedImports start items

def importClause : Parser Node := do
  let start ← here
  let parts ← do
    match ← nextMark with
    | "*" => (fun n => [n]) <$> namespaceImport
    | "\x7b" => (fun n => [n]) <$> namedImports
    | _ => do
        let name ← wordNode .identifier
        if ← markIf "," then
          let more ← if ← atMark "*" then namespaceImport else namedImports
          pure [name, more]
        else pure [name]
  node .importClause start parts

def importStatement (r : Rules) : Parser Node := do
  let start ← here
  keyword "import"
  let parts ← firstOf
    [do
      let source ← stringNode
      pure [source.as .source],
     do
      typeOnly
      let clause ← importClause
      let source ← fromClause
      pure [clause, source],
     do
      let clause ← importClause
      let source ← fromClause
      pure [clause, source],
     do
      let start ← here
      typeOnly
      let name ← wordNode .identifier
      mark "="
      keyword "require"
      mark "("
      let source ← stringNode
      mark ")"
      let clause ← node .importRequireClause start [name, source.as .source]
      pure [clause]]
    (do
      let name ← wordNode .identifier
      mark "="
      let value ← qualifiedName
      pure [name, value])
  let extra ← Parser.optional (importAttribute r)
  semicolon false
  node .importStatement start (parts ++ extra.toList)

def exportSpecifier : Parser Node := do
  let start ← here
  typeOnly
  let name ← moduleName
  let renamed ← Parser.optional do
    keyword "as"
    moduleName
  node .exportSpecifier start ([name.as .name] ++ (renamed.map (·.as .alias)).toList)

def exportClause : Parser Node := do
  let start ← here
  mark "\x7b"
  let items ← commaList exportSpecifier <|> pure []
  mark "\x7d"
  node .exportClause start items

def exportDefault (r : Rules) : Parser (List Node) :=
  (do
    let inner ← declaration r
    pure [inner.as .declaration]) <|>
  (do
    let value ← r.expression
    semicolon true
    pure [value.as .value])

def exportTail (r : Rules) : Parser (List Node) := do
  match ← nextMark with
  | "*" => do
      let start ← here
      mark "*"
      let renamed ←
        if ← atWord "as" then do
          keyword "as"
          let name ← moduleName
          some <$> node .namespaceExport start [name]
        else pure none
      let source ← fromClause
      semicolon false
      pure (renamed.toList ++ [source])
  | "\x7b" => do
      let clause ← exportClause
      let source ← if ← atWord "from" then some <$> fromClause else pure none
      semicolon false
      pure ([clause] ++ source.toList)
  | "=" => do
      mark "="
      let value ← r.expression
      semicolon true
      pure [value]
  | _ =>
      match ← nextWord with
      | "default" => do
          keyword "default"
          exportDefault r
      | "as" => do
          keyword "as"
          keyword "namespace"
          let name ← wordNode .identifier
          semicolon false
          pure [name]
      | "type" =>
          (do
            keyword "type"
            let clause ← exportClause
            let source ← if ← atWord "from" then some <$> fromClause else pure none
            semicolon false
            pure ([clause] ++ source.toList)) <|>
          (do
            let inner ← declaration r
            pure [inner.as .declaration])
      | _ => do
          let inner ← declaration r
          pure [inner.as .declaration]

def exportStatement (r : Rules) : Parser Node := do
  let start ← here
  let decorators ← many (r.parse .decorator)
  keyword "export"
  let parts ← exportTail r
  node .exportStatement start (decorators.map (·.as .decorator) ++ parts)

end Grammar
end Script
end PayloadFlow
