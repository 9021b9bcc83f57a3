import ScriptTyping.Grammar.Lexical

/-!
# Phrases

The parsing expressions that stand for several rules at once and leave no node of their own:
statements, binding targets, the primary expressions, and the small shapes that many rules share.
-/

namespace ScriptTyping.Grammar
open Peg Peg.Expr

/-- A reserved word: some reserved word is ahead, and it begins with this one. -/
def word (w : String) : Expr Rule :=
  .seq (.ahead (.call .keyword)) (token w)

/-- A semicolon that may be left out. -/
def semicolon : Expr Rule :=
  .opt (token ";")

/-- Items between brackets, with commas between them and perhaps one more after the last; the
brackets may be empty. -/
def bracketed (opening : String) (item : Expr Rule) (closing : String) : Expr Rule :=
  all [token opening,
    .opt (all [item, .star (.seq (token ",") item), .opt (token ",")]),
    token closing]

/-- Any statement. -/
def statement : Expr Rule :=
  oneOf [
    .call .importDeclaration,
    .call .exportDeclaration,
    .call .variableDeclaration,
    .call .functionDeclaration,
    .call .classDeclaration,
    .call .returnStatement,
    .call .ifStatement,
    .call .forStatement,
    .call .whileStatement,
    .call .doWhileStatement,
    .call .tryStatement,
    .call .switchStatement,
    .call .breakStatement,
    .call .continueStatement,
    .call .throwStatement,
    .call .block,
    .call .emptyStatement,
    .call .labeledStatement,
    .call .expressionStatement]

/-- What a declaration or a parameter may bind. -/
def bindingTarget : Expr Rule :=
  oneOf [.call .identifier, .call .objectPattern, .call .arrayPattern]

/-- A keyword of declarations and what it declares. -/
def declarators : Expr Rule :=
  .seq (.call .declarationKind) (sepBy (.call .variableDeclarator) ",")

/-- The parameters of a function in parentheses, and its body. -/
def signatureAndBody : Expr Rule :=
  all [token "(", .opt (.call .parameterList), token ")", .call .functionBody]

/-- A function with its keyword. -/
def function : Expr Rule :=
  all [.opt (.call .asyncModifier), word "function", .opt (.call .generatorMarker),
    .opt (.call .identifier), signatureAndBody]

/-- A class with its keyword. -/
def classDefinition : Expr Rule :=
  all [word "class", .opt (.call .identifier), .opt (.call .classHeritage), .call .classBody]

/-- A computed or a plain key. -/
def key : Expr Rule :=
  .choice (.call .computedKey) (.call .propertyKey)

/-- The key of a class member, which may be private. -/
def memberKey : Expr Rule :=
  oneOf [.call .computedKey, .call .propertyKey, .call .privateIdentifier]

/-- A key, parameters and a body. -/
def methodTail : Expr Rule :=
  .seq memberKey signatureAndBody

/-- One argument of a call. -/
def argument : Expr Rule :=
  .choice (.call .spreadElement) (.call .assignmentExpression)

/-- An expression that is no operation on others. -/
def primaryExpression : Expr Rule :=
  oneOf [
    .call .functionExpression,
    .call .classExpression,
    .call .metaProperty,
    .call .importCall,
    .call .thisExpression,
    .call .superExpression,
    .call .bigint,
    .call .number,
    .call .string,
    .call .templateLiteral,
    .call .boolean,
    .call .null,
    .call .regex,
    .call .arrayLiteral,
    .call .objectLiteral,
    .call .parenthesizedExpression,
    .call .privateIdentifier,
    .call .identifier]

/-- One item of a list of parameters. -/
def parameter : Expr Rule :=
  .choice (.call .restElement) (.call .bindingElement)

/-- Items in square brackets of which each may be missing. -/
def listWithHoles (item : Rule) : Expr Rule :=
  .choice
    (.seq (token "[") (token "]"))
    (all [token "[", .call item, .star (.seq (token ",") (.call item)), token "]"])

/-- Spaces and tabs. -/
def inlineSpace : Expr Rule :=
  plus (charIn [' ', '\t'])

/-- A word that leaves a statement, with a label on the same line. -/
def jump (w : String) : Expr Rule :=
  all [token w, .notAhead identPart, .opt (.seq inlineSpace (.call .identifier)),
    .opt (.seq (.opt inlineSpace) (token ";"))]

/-- A text that is an operator unless one of the others follows. -/
def butNot (operator : String) (others : List String) : Expr Rule :=
  .seq (token operator) (.notAhead (oneOf (others.map token)))

/-- The operators of a level. -/
def operators : Precedence → Expr Rule
  | .logicalOr => .seq (.choice (token "||") (token "??")) (.notAhead (token "="))
  | .logicalAnd => butNot "&&" ["="]
  | .bitwiseOr => butNot "|" ["|", "="]
  | .bitwiseXor => butNot "^" ["="]
  | .bitwiseAnd => butNot "&" ["&", "="]
  | .equality => oneOf [token "===", token "!==", token "==", token "!="]
  | .relational =>
    oneOf [.choice (token "<=") (token ">="), butNot "<" ["<"], butNot ">" [">"],
      wholeWord ["instanceof", "in"]]
  | .shift => oneOf [butNot ">>>" ["="], butNot ">>" [">", "="], butNot "<<" ["="]]
  | .additive => .choice (butNot "+" ["+", "="]) (butNot "-" ["-", "="])
  | .multiplicative =>
    oneOf [butNot "**" ["="], butNot "*" ["*", "="], butNot "/" ["/", "*", "="], butNot "%" ["="]]

/-- The operands of a level: what binds tighter. -/
def operand (level : Precedence) : Expr Rule :=
  match level.next? with
  | some tighter => .call (.binaryExpression tighter)
  | none => .call .unaryExpression

end ScriptTyping.Grammar
