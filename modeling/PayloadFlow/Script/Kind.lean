/-!
# Kinds of syntax nodes

The constructs of JavaScript, TypeScript and JSX, and the labels under which a
construct holds its parts.
-/

namespace PayloadFlow
namespace Script

inductive Kind where
  -- whole files and statements
  | program
  | hashBang
  | comment
  | expressionStatement
  | emptyStatement
  | statementBlock
  | variableDeclaration
  | lexicalDeclaration
  | variableDeclarator
  | functionDeclaration
  | generatorFunctionDeclaration
  | functionSignature
  | classDeclaration
  | abstractClassDeclaration
  | ifStatement
  | elseClause
  | switchStatement
  | switchBody
  | switchCase
  | switchDefault
  | forStatement
  | forInStatement
  | whileStatement
  | doStatement
  | tryStatement
  | catchClause
  | finallyClause
  | withStatement
  | breakStatement
  | continueStatement
  | debuggerStatement
  | returnStatement
  | throwStatement
  | labeledStatement
  | statementIdentifier
  -- modules
  | importStatement
  | importClause
  | namespaceImport
  | namedImports
  | importSpecifier
  | importRequireClause
  | importAlias
  | importAttribute
  | exportStatement
  | exportClause
  | exportSpecifier
  | namespaceExport
  -- expressions
  | identifier
  | propertyIdentifier
  | privatePropertyIdentifier
  | thisWord
  | superWord
  | nullWord
  | trueWord
  | falseWord
  | undefinedWord
  | importWord
  | number
  | string
  | regex
  | templateString
  | templateSubstitution
  | stringFragment
  | escapeSequence
  | object
  | pair
  | shorthandProperty
  | spreadElement
  | methodDefinition
  | computedPropertyName
  | array
  | functionExpression
  | generatorFunction
  | arrowFunction
  | classExpression
  | parenthesizedExpression
  | sequenceExpression
  | memberExpression
  | subscriptExpression
  | callExpression
  | newExpression
  | metaProperty
  | arguments
  | unaryExpression
  | updateExpression
  | binaryExpression
  | ternaryExpression
  | assignmentExpression
  | augmentedAssignmentExpression
  | awaitExpression
  | yieldExpression
  | asExpression
  | satisfiesExpression
  | nonNullExpression
  | typeAssertion
  | instantiationExpression
  -- an operator of an expression
  | operator
  -- parameters and patterns
  | formalParameters
  | requiredParameter
  | optionalParameter
  | objectPattern
  | arrayPattern
  | assignmentPattern
  | objectAssignmentPattern
  | pairPattern
  | shorthandPropertyPattern
  | restPattern
  -- classes
  | classBody
  | classHeritage
  | extendsClause
  | implementsClause
  | classStaticBlock
  | fieldDefinition
  | methodSignature
  | abstractMethodSignature
  | decorator
  | accessibilityModifier
  | overrideModifier
  -- JSX
  | jsxElement
  | jsxOpeningElement
  | jsxClosingElement
  | jsxSelfClosingElement
  | jsxAttribute
  | jsxNamespaceName
  | jsxExpression
  | jsxText
  -- types and type-level declarations
  | typeClause
  | typeIdentifier
  | nestedTypeIdentifier
  | nestedIdentifier
  | genericType
  | typeArguments
  | typeParameters
  | typeParameter
  | constraint
  | defaultType
  | predefinedType
  | literalType
  | templateLiteralType
  | templateType
  | unionType
  | intersectionType
  | conditionalType
  | arrayType
  | tupleType
  | optionalType
  | restType
  | functionType
  | constructorType
  | parenthesizedType
  | objectType
  | propertySignature
  | callSignature
  | constructSignature
  | indexSignature
  | mappedTypeClause
  | typeQuery
  | indexTypeQuery
  | lookupType
  | readonlyType
  | inferType
  | thisType
  | typePredicate
  | asserts
  | typeAliasDeclaration
  | interfaceDeclaration
  | interfaceBody
  | extendsTypeClause
  | enumDeclaration
  | enumBody
  | enumAssignment
  | ambientDeclaration
  | namespaceDeclaration
  deriving DecidableEq, Repr, Inhabited

namespace Kind

/-- Operators are tokens; every other node stands for a construct. -/
def isNamed (k : Kind) : Bool :=
  k != .operator

/-- Expressions that only wrap another one: parentheses, casts and assertions. -/
def isWrapper : Kind -> Bool
  | .parenthesizedExpression | .asExpression | .satisfiesExpression | .nonNullExpression => true
  | _ => false

def isFunctionValue : Kind -> Bool
  | .arrowFunction | .functionExpression | .generatorFunction => true
  | _ => false

/-- Constructs with parameters and a body of their own. -/
def isFunctionLike : Kind -> Bool
  | .arrowFunction | .functionExpression | .generatorFunction | .functionDeclaration
  | .generatorFunctionDeclaration | .methodDefinition => true
  | _ => false

end Kind

/-- The part that a node plays in the construct it belongs to. -/
inductive Label where
  | name
  | value
  | key
  | object
  | property
  | index
  | function
  | arguments
  | constructor
  | operator
  | argument
  | left
  | right
  | condition
  | consequence
  | alternative
  | initializer
  | increment
  | parameter
  | parameters
  | pattern
  | body
  | handler
  | finalizer
  | declaration
  | decorator
  | source
  | alias
  | target
  | type
  | typeArguments
  | typeParameters
  | returnType
  deriving DecidableEq, Repr, Inhabited

end Script
end PayloadFlow
