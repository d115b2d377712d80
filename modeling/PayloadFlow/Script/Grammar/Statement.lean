import PayloadFlow.Script.Grammar.Module

/-!
# Statements

The statements of a source and of a block.
-/

namespace PayloadFlow
namespace Script
namespace Grammar

open PayloadFlow.Script.Parser

def block (r : Rules) : Parser Node := do
  let start ← here
  mark "\x7b"
  let statements ← many r.statement
  mark "\x7d"
  node .statementBlock start statements

def expressionStatement (r : Rules) : Parser Node := do
  let start ← here
  let inner ← r.expressions
  semicolon true
  node .expressionStatement start [inner]

def emptyStatement : Parser Node := do
  let start ← here
  mark ";"
  node .emptyStatement start []

def condition (r : Rules) : Parser Node := do
  return (← parenthesized r).as .condition

def ifStatement (r : Rules) : Parser Node := do
  let start ← here
  keyword "if"
  let test ← condition r
  let consequence ← r.statement
  let alternative ←
    if ← atWord "else" then do
      let start ← here
      keyword "else"
      let inner ← r.statement
      some <$> node .elseClause start [inner]
    else pure none
  node .ifStatement start
    ([test, consequence.as .consequence] ++ (alternative.map (·.as .alternative)).toList)

def caseBody (r : Rules) : Parser (List Node) := do
  let statements ← many do
    let w ← nextWord
    check (w != "case" && w != "default")
    r.statement
  return statements.map (·.as .body)

def switchCase (r : Rules) : Parser Node := do
  let start ← here
  if ← atWord "default" then
    keyword "default"
    mark ":"
    let body ← caseBody r
    node .switchDefault start body
  else
    keyword "case"
    let value ← r.expressions
    mark ":"
    let body ← caseBody r
    node .switchCase start ([value.as .value] ++ body)

def switchStatement (r : Rules) : Parser Node := do
  let start ← here
  keyword "switch"
  let value ← parenthesized r
  let bodyStart ← here
  mark "\x7b"
  let cases ← many (switchCase r)
  mark "\x7d"
  let body ← node .switchBody bodyStart cases
  node .switchStatement start [value.as .value, body.as .body]

def forInHead (r : Rules) : Parser (List Node) := do
  mark "("
  let left ←
    (do
      let w ← nextWord
      check (["var", "let", "const"].contains w)
      keyword w
      let name ← binding r
      let value ← if ← atMark "=" then some <$> r.initializer else pure none
      pure ([name.as .left] ++ value.toList)) <|>
    (do
      let target ← if ← atMark "(" then parenthesized r else r.pattern
      pure [target.as .left])
  let w ← nextWord
  check (w == "in" || w == "of")
  let operator ← operatorNode 2
  let right ← r.expressions
  mark ")"
  return left ++ [operator, right.as .right]

def forHead (r : Rules) : Parser (List Node) := do
  mark "("
  let initializer ←
    firstOf [emptyStatement, declaredVariables r]
      (do
        let inner ← r.expressions
        mark ";"
        pure inner)
  let test ←
    emptyStatement <|>
    (do
      let inner ← r.expressions
      mark ";"
      pure inner)
  let increment ← if ← atMark ")" then pure none else some <$> r.expressions
  mark ")"
  return [initializer.as .initializer, test.as .condition] ++
    (increment.map (·.as .increment)).toList

def forStatement (r : Rules) : Parser Node := do
  let start ← here
  keyword "for"
  let isAwaited ← keywordIf "await"
  let head ← Parser.optional (forInHead r)
  match head with
  | some parts => do
      let body ← r.statement
      node .forInStatement start (parts ++ [body.as .body])
  | none => do
      check (!isAwaited)
      let parts ← forHead r
      let body ← r.statement
      node .forStatement start (parts ++ [body.as .body])

def whileStatement (r : Rules) : Parser Node := do
  let start ← here
  keyword "while"
  let test ← condition r
  let body ← r.statement
  node .whileStatement start [test, body.as .body]

def doStatement (r : Rules) : Parser Node := do
  let start ← here
  keyword "do"
  let body ← r.statement
  keyword "while"
  let test ← condition r
  let _ ← markIf ";"
  node .doStatement start [body.as .body, test]

def catchClause (r : Rules) : Parser Node := do
  let start ← here
  keyword "catch"
  let parameter ←
    if ← atMark "(" then do
      mark "("
      let name ← binding r
      let type ← if ← atMark ":" then some <$> typeClause r else pure none
      mark ")"
      pure ([name.as .parameter] ++ type.toList)
    else pure []
  let body ← r.block
  node .catchClause start (parameter ++ [body.as .body])

def tryStatement (r : Rules) : Parser Node := do
  let start ← here
  keyword "try"
  let body ← r.block
  let handler ← if ← atWord "catch" then some <$> catchClause r else pure none
  let finalizer ←
    if ← atWord "finally" then do
      let start ← here
      keyword "finally"
      let inner ← r.block
      some <$> node .finallyClause start [inner.as .body]
    else pure none
  node .tryStatement start
    ([body.as .body] ++ (handler.map (·.as .handler)).toList ++
      (finalizer.map (·.as .finalizer)).toList)

def withStatement (r : Rules) : Parser Node := do
  let start ← here
  keyword "with"
  let object ← parenthesized r
  let body ← r.statement
  node .withStatement start [object.as .object, body.as .body]

def jumpStatement (w : String) (kind : Kind) : Parser Node := do
  let start ← here
  keyword w
  if ← endsHere false false then node kind start []
  else if ← markIf ";" then node kind start []
  else
    let target ← wordNode .statementIdentifier
    semicolon false
    node kind start [target.as .target]

def returnStatement (r : Rules) : Parser Node := do
  let start ← here
  keyword "return"
  if ← endsHere false false then node .returnStatement start []
  else if ← markIf ";" then node .returnStatement start []
  else
    let value ← r.expressions
    semicolon true
    node .returnStatement start [value]

def throwStatement (r : Rules) : Parser Node := do
  let start ← here
  keyword "throw"
  let value ← r.expressions
  semicolon true
  node .throwStatement start [value]

def debuggerStatement : Parser Node := do
  let start ← here
  keyword "debugger"
  semicolon false
  node .debuggerStatement start []

def labeledStatement (r : Rules) : Parser Node := do
  let start ← here
  let target ← wordNode .statementIdentifier
  mark ":"
  let body ← r.statement
  node .labeledStatement start [target.as .target, body.as .body]

def wordStatement (r : Rules) : Parser Node :=
  labeledStatement r <|> expressionStatement r

def statementRule (r : Rules) : Parser Node := do
  let w ← nextWord
  if w == "" then
    match ← nextMark with
    | "\x7b" => block r <|> expressionStatement r
    | "\x7d" => fail
    | ";" => emptyStatement
    | "@" => classDeclaration r <|> exportStatement r
    | _ => expressionStatement r
  else
    match w with
    | "if" => ifStatement r
    | "switch" => switchStatement r
    | "for" => forStatement r
    | "while" => whileStatement r
    | "do" => doStatement r
    | "try" => tryStatement r
    | "with" => withStatement r
    | "break" => jumpStatement "break" .breakStatement
    | "continue" => jumpStatement "continue" .continueStatement
    | "return" => returnStatement r
    | "throw" => throwStatement r
    | "debugger" => debuggerStatement
    | "export" => exportStatement r
    | "import" => importStatement r <|> expressionStatement r
    | "var" => declaredVariables r
    | "const" => declaration r
    | "function" | "async" | "class" | "abstract" | "let" | "type" | "interface" | "enum"
    | "namespace" | "module" | "declare" => declaration r <|> wordStatement r
    | _ => wordStatement r

def hashBang : Parser Node := do
  let cs ← ahead
  check ("#!".toList.isPrefixOf cs)
  leaf .hashBang (cs.takeWhile fun c => !Lexeme.isLineEnd c).length

def program (r : Rules) : Parser Node := do
  let start ← fun s => .ok (s.place, s)
  let first ← Parser.optional hashBang
  let statements ← many r.statement
  check (← ahead).isEmpty
  fun s => node .program start (first.toList ++ statements) (skipped s)

end Grammar
end Script
end PayloadFlow
