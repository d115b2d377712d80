import PayloadFlow.Script.Grammar.Jsx
import PayloadFlow.Script.Grammar.Member

/-!
# Expressions

Literals, members, calls, operators, arrow functions and assignments.
-/

namespace PayloadFlow
namespace Script
namespace Grammar

open PayloadFlow.Script.Parser

/-! ## Literals -/

def templateString (r : Rules) : Parser Node := do
  let start ← here
  piece "\x60"
  let parts ← iterate (fun (done : Bool × List Node) => do
    if done.1 then return none
    let cs ← Parser.rest
    match cs with
    | '\x60' :: _ => do
        takeHere 1
        return some (true, done.2)
    | '$' :: '\x7b' :: _ => do
        let start ← here
        let _ ← take 2
        let inner ← r.expressions
        mark "\x7d"
        let part ← node .templateSubstitution start [inner]
        return some (false, done.2 ++ [part])
    | '\\' :: rest =>
        match Lexeme.escape? rest with
        | some n => do
            let start ← current
            takeHere (n + 1)
            let part ← node .escapeSequence start []
            return some (false, done.2 ++ [part])
        | none => fail
    | _ :: _ => do
        let start ← current
        takeHere (Lexeme.templateText cs)
        let part ← node .stringFragment start []
        return some (false, done.2 ++ [part])
    | [] => fail) (false, [])
  node .templateString start parts.2

def arrayLiteral (r : Rules) : Parser Node := do
  let start ← here
  mark "["
  let items ← looseList (listItem r)
  mark "]"
  node .array start items

def objectEntry (r : Rules) : Parser Node := do
  if ← atMark "..." then spreadElement r
  else
    let start ← here
    firstOf
      [do
        let key ← propertyName r
        mark ":"
        let value ← r.expression
        node .pair start [key.as .key, value.as .value],
       objectMethod r]
      (wordNode .shorthandProperty)

def objectLiteral (r : Rules) : Parser Node := do
  let start ← here
  mark "\x7b"
  let entries ← looseList (objectEntry r)
  mark "\x7d"
  node .object start entries

def parenthesized (r : Rules) : Parser Node := do
  let start ← here
  mark "("
  let inner ← r.expressions
  let type ←
    if (← atMark ":") && inner.kind != .sequenceExpression then Parser.optional (typeClause r)
    else pure none
  mark ")"
  node .parenthesizedExpression start ([inner] ++ type.toList)

/-! ## Arrow functions -/

def arrowBody (r : Rules) : Parser Node := do
  mark "=>"
  let body ← if ← atMark "\x7b" then r.block else r.expression
  return body.as .body

def arrowFunction (r : Rules) : Parser Node := do
  let start ← here
  let tail : Parser (List Node) := do
    match ← nextMark with
    | "(" => do
        let signature ← callSignature r
        let body ← arrowBody r
        pure (signature ++ [body])
    | "<" => do
        let signature ← callSignature r
        let body ← arrowBody r
        pure (signature ++ [body])
    | _ => do
        let parameter ← wordNode .identifier
        let body ← arrowBody r
        pure [parameter.as .parameter, body]
  let parts ←
    (do
      keyword "async"
      let joined := !(← onNewLine) || ["(", "<"].contains (← nextMark)
      check joined
      tail) <|> tail
  node .arrowFunction start parts

def atArrowFunction : Parser Bool := do
  let cs ← ahead
  let n := Lexeme.word cs
  if n == 0 then return cs.head? == some '(' || cs.head? == some '<'
  else if String.ofList (cs.take n) == "async" then return true
  else
    (do
      let _ ← take n
      atMark "=>") |> fun p => fun s =>
        match p s with
        | .ok (b, _) => .ok (b, s)
        | .error e => .error e

/-! ## Members and calls -/

/-- What follows type arguments that belong to no call. -/
def endsInstantiation : List String :=
  [")", "]", ",", ";", ":"]

/-- One more member, index, call or template behind an expression. -/
def postfixStep (r : Rules) (start : Place) (inner : Node) : Parser (Option Node) := do
  let cs ← ahead
  match Lexeme.mark cs with
  | ['.'] => do
      mark "."
      let property ← memberName
      some <$> node .memberExpression start [inner.as .object, property]
  | ['?', '.'] =>
      if (cs.drop 2).head?.any Char.isDigit then return none
      else
        mark "?."
        match ← nextMark with
        | "(" => do
            let args ← callArguments r
            some <$> node .callExpression start [inner.as .function, args]
        | "[" => do
            mark "["
            let index ← r.expressions
            mark "]"
            some <$> node .subscriptExpression start [inner.as .object, index.as .index]
        | "<" => do
            let types ← typeArguments r
            let args ← callArguments r
            some <$> node .callExpression start [inner.as .function, types, args]
        | _ => do
            let property ← memberName
            some <$> node .memberExpression start [inner.as .object, property]
  | ['['] => do
      mark "["
      let index ← r.expressions
      mark "]"
      some <$> node .subscriptExpression start [inner.as .object, index.as .index]
  | ['('] => do
      let args ← callArguments r
      some <$> node .callExpression start [inner.as .function, args]
  | '<' :: _ =>
      Parser.optional do
        let types ← typeArguments r
        if ← atMark "(" then
          let args ← callArguments r
          node .callExpression start [inner.as .function, types, args]
        else
          let atEnd := (← ahead).isEmpty || endsInstantiation.contains (← nextMark)
          check atEnd
          node .instantiationExpression start [inner, types]
  | [] =>
      match cs with
      | '\x60' :: _ => do
          let args ← templateString r
          some <$> node .callExpression start [inner.as .function, args.as .arguments]
      | _ => return none
  | _ => return none

def postfixes (r : Rules) (start : Place) (inner : Node) : Parser Node :=
  iterate (postfixStep r start) inner

def newExpression (r : Rules) (primary : Parser Node) : Parser Node := do
  let start ← here
  keyword "new"
  if ← atMark "." then
    mark "."
    keyword "target"
    node .metaProperty start []
  else
    let inner ← here
    let root ← primary
    let constructor ← iterate (fun object => do
      match ← nextMark with
      | "." => do
          mark "."
          let property ← memberName
          some <$> node .memberExpression inner [object.as .object, property]
      | "[" => do
          mark "["
          let index ← r.expressions
          mark "]"
          some <$> node .subscriptExpression inner [object.as .object, index.as .index]
      | _ => pure none) root
    let types ← if ← atMark "<" then Parser.optional (typeArguments r) else pure none
    let args ← if ← atMark "(" then some <$> callArguments r else pure none
    node .newExpression start ([constructor.as .constructor] ++ types.toList ++ args.toList)

def importExpression : Parser Node := do
  let start ← here
  let function ← keywordNode .importWord "import"
  match ← nextMark with
  | "(" => pure function
  | "." => do
      mark "."
      keyword "meta"
      node .metaProperty start []
  | _ => fail

/-- An expression without operators, members and calls, `new` apart. -/
def simplePrimary (r : Rules) : Parser Node := do
  let w ← nextWord
  if w != "" then
    match valueWord? w with
    | some kind => wordNode kind
    | none =>
        match w with
        | "function" => functionExpression r
        | "async" => functionExpression r <|> wordNode .identifier
        | "class" => classExpression r
        | "import" => importExpression
        | _ => wordNode .identifier
  else
    match ← ahead with
    | '"' :: _ | '\x27' :: _ => stringNode
    | '\x60' :: _ => templateString r
    | '(' :: _ => parenthesized r
    | '[' :: _ => arrayLiteral r
    | '\x7b' :: _ => objectLiteral r
    | '/' :: rest => leaf .regex ((Lexeme.regex? ('/' :: rest)).getD 0)
    | '#' :: _ => privateName
    | '@' :: _ => classExpression r
    | _ => numberNode

def primary (r : Rules) : Parser Node := do
  if ← atWord "new" then newExpression r (simplePrimary r) else simplePrimary r

def decorator (r : Rules) : Parser Node := do
  let start ← here
  mark "@"
  let inner ← here
  let root ← if ← atMark "(" then parenthesized r else wordNode .identifier
  let path ← iterate (fun object => do
    if ← atMark "." then
      mark "."
      let property ← memberName
      some <$> node .memberExpression inner [object.as .object, property]
    else pure none) root
  let value ←
    if ← atMark "(" then do
      let args ← callArguments r
      node .callExpression inner [path.as .function, args]
    else pure path
  node .decorator start [value]

/-! ## Operators -/

/-- The level of a binary operator; a higher one binds tighter. -/
def binaryLevel : String -> Option Nat
  | "**" => some 13
  | "*" | "/" | "%" => some 12
  | "+" | "-" => some 11
  | "<<" | ">>" | ">>>" => some 10
  | "<" | "<=" | ">" | ">=" | "instanceof" | "in" => some 9
  | "==" | "===" | "!=" | "!==" => some 8
  | "&" => some 7
  | "^" => some 6
  | "|" => some 5
  | "&&" => some 4
  | "||" => some 3
  | "??" => some 2
  | _ => none

def assignmentOperators : List String :=
  ["+=", "-=", "*=", "/=", "%=", "^=", "&=", "|=", ">>=", ">>>=", "<<=", "**=", "&&=", "||=",
   "??="]

def isAssignable : Kind -> Bool
  | .identifier | .undefinedWord | .memberExpression | .subscriptExpression
  | .parenthesizedExpression | .nonNullExpression => true
  | _ => false

def assignmentTail (r : Rules) (start : Place) (left : Node) : Parser Node := do
  if !isAssignable left.kind then return left
  else
    let m ← nextMark
    if m == "=" then
      mark "="
      let right ← r.expression
      node .assignmentExpression start [left.as .left, right.as .right]
    else if assignmentOperators.contains m then
      let operator ← operatorNode m.length
      let right ← r.expression
      node .augmentedAssignmentExpression start [left.as .left, operator, right.as .right]
    else return left

def updateTail (start : Place) (argument : Node) : Parser Node := do
  let m ← nextMark
  if (m == "++" || m == "--") && !(← onNewLine) then
    let operator ← operatorNode 2
    node .updateExpression start [argument.as .argument, operator]
  else return argument

def patternAssignment (r : Rules) : Parser Node := do
  let start ← here
  let left ← destructuring r
  mark "="
  let right ← r.expression
  node .assignmentExpression start [left.as .left, right.as .right]

def operand (r : Rules) : Parser Node := do
  let start ← here
  let root ← primary r
  let left ← postfixes r start root
  let left ← updateTail start left
  assignmentTail r start left

def nonNullStep (r : Rules) (start : Place) (inner : Node) : Parser (Option Node) := do
  if (← atMark "!") && !(← onNewLine) then
    mark "!"
    let asserted ← node .nonNullExpression start [inner]
    let left ← postfixes r start asserted
    let left ← updateTail start left
    some <$> assignmentTail r start left
  else return none

def castStep (r : Rules) (start : Place) (inner : Node) : Parser (Option Node) := do
  let w ← nextWord
  if (w == "as" || w == "satisfies") && !(← onNewLine) then
    keyword w
    if w == "as" && (← atWord "const") then
      keyword "const"
      some <$> node .asExpression start [inner]
    else
      let type ← r.type
      some <$> node (if w == "as" then .asExpression else .satisfiesExpression) start [inner, type]
  else return none

def looseTail (r : Rules) (start : Place) (inner : Node) : Parser Node :=
  iterate (fun n => do
    match ← nonNullStep r start n with
    | some n' => return some n'
    | none => castStep r start n) inner

def yieldExpression (r : Rules) : Parser Node := do
  let start ← here
  keyword "yield"
  if ← markIf "*" then
    let inner ← r.expression
    node .yieldExpression start [inner]
  else if ← endsHere false false then node .yieldExpression start []
  else
    let inner ← Parser.optional r.expression
    node .yieldExpression start inner.toList

/-- A cast written before its operand, where `<` opens no element. -/
def typeAssertion (r : Rules) : Parser Node := do
  let start ← here
  let types ← typeArguments r
  let inner ← r.unary
  node .typeAssertion start [types, inner]

def unaryRule (r : Rules) : Parser Node := do
  let start ← here
  let w ← nextWord
  let m ← nextMark
  if ["!", "~", "-", "+"].contains m || ["typeof", "void", "delete"].contains w then
    let operator ← operatorNode (if w == "" then m.length else w.length)
    let argument ← r.unary
    node .unaryExpression start [operator, argument.as .argument]
  else if m == "++" || m == "--" then
    let operator ← operatorNode 2
    let argument ← r.unary
    node .updateExpression start [operator, argument.as .argument]
  else if w == "await" then
    keyword "await"
    let inner ← here
    let argument ← r.unary
    let argument ← looseTail r inner argument
    node .awaitExpression start [argument]
  else if w == "yield" then yieldExpression r
  else if m == "<" && r.jsx then r.parse .jsx <|> arrowFunction r
  else if m == "<" then arrowFunction r <|> typeAssertion r
  else if m == "\x7b" || m == "[" then patternAssignment r <|> operand r
  else if ← atArrowFunction then
    (do
      let arrow ← arrowFunction r
      if (arrow.child? .body).any (·.kind == .statementBlock) then postfixes r start arrow
      else pure arrow) <|> operand r
  else operand r

def nextBinary : Parser (Option (String × Nat)) := do
  let w ← nextWord
  let op ← if w == "" then nextMark else pure w
  return (binaryLevel op).map fun level => (op, level)

/-- One more binary operator, of at least a given level, behind an operand. -/
def binaryStep (r : Rules) (level : Nat) (start : Place) (left : Node) :
    Parser (Option Node) := do
  match ← nextBinary with
  | none => return none
  | some (op, found) =>
      if found < level then return none
      else
        let operator ← operatorNode op.length
        let inner ← here
        let right ←
          if op == "**" then do
            let operand ← r.parse (.binary found)
            looseTail r inner operand
          else r.parse (.binary (found + 1))
        some <$> node .binaryExpression start [left.as .left, operator, right.as .right]

/-- Operands joined by binary operators of at least a given level.  Casts and
assertions bind looser than all of them. -/
def binaryRule (r : Rules) (level : Nat) : Parser Node := do
  let start ← here
  let first ← r.unary
  iterate (fun left => do
    match ← binaryStep r level start left with
    | some next => return some next
    | none =>
        if level != 0 then return none
        else
          match ← nonNullStep r start left with
          | some next => return some next
          | none => castStep r start left) first

/-- Whether the question mark that comes next asks for two alternatives. -/
def atTernary : Parser Bool := do
  match ← ahead with
  | '?' :: rest =>
      if rest.head? == some '?' then return false
      else if rest.head? == some '.' then return (rest.drop 1).head?.any Char.isDigit
      else
        let after := (rest.dropWhile Lexeme.isSpace).head?
        return !(after == some ':' || after == some ')' || after == some ',')
  | _ => return false

/-- What stands before the colon of a ternary.  Parentheses there hold an
expression if the colon would otherwise start the result type of a function. -/
def consequence (r : Rules) : Parser Node :=
  (do
    let inner ← r.expression
    mark ":"
    pure inner) <|>
  (do
    let inner ← parenthesized r
    mark ":"
    pure inner)

/-- An expression without a comma at its top. -/
def expressionRule (r : Rules) : Parser Node := do
  let start ← here
  let condition ← r.parse (.binary 0)
  if ← atTernary then
    piece "?"
    let chosen ← consequence r
    let alternative ← r.expression
    node .ternaryExpression start
      [condition.as .condition, chosen.as .consequence, alternative.as .alternative]
  else return condition

def expressionsRule (r : Rules) : Parser Node := do
  let start ← here
  let first ← r.expression
  if ← atMark "," then
    let more ← many do
      mark ","
      r.expression
    if more.isEmpty then return first else node .sequenceExpression start (first :: more)
  else return first

end Grammar
end Script
end PayloadFlow
