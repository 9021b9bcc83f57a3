import ScriptTyping.Grammar.Phrases

/-!
# The language

The grammar of JavaScript modules: a parsing expression for each rule. A semicolon at the end of a
statement may always be left out, and a statement then reaches as far as it can.
-/

namespace ScriptTyping.Grammar
open Peg Peg.Expr

/-- How each rule shows in the tree. The rules without blanks are those of tokens, and the two
statements whose label must stand on the line of its keyword. -/
def kind : Rule → RuleKind
  | .keyword | .identifier | .propertyIdentifier | .privateIdentifier | .declarationKind
  | .asyncModifier | .staticModifier | .accessorKind | .awaitMarker | .bigint | .number | .string
  | .templateLiteral | .boolean | .null | .regex | .forEachKind | .assignmentOperator
  | .binaryOperator _ | .unaryOperator | .updateSuffix | .metaObject | .metaName => .atomic
  | .breakStatement | .continueStatement => .compound
  | .templateHolePart => .silent
  | _ => .normal

/-- The operators that assign. -/
def assignmentOperators : Expr Rule :=
  oneOf (butNot "=" ["=", ">"] ::
    ["+=", "-=", "**=", "*=", "/=", "%=", "<<=", ">>>=", ">>=", "&&=", "||=", "??=", "&=", "|=",
      "^="].map token)

/-- The operators before an operand. -/
def unaryOperators : Expr Rule :=
  oneOf (["++", "--", "+", "-", "!", "~"].map token ++
    [wholeWord ["typeof", "void", "delete", "await", "yield"]])

/-- What each rule stands for. -/
def body : Rule → Expr Rule
  | .endOfInput => .finish
  | .program => all [.empty, .star statement, .call .endOfInput]
  | .keyword => keyword
  | .identifier => identifier
  | .propertyIdentifier => propertyIdentifier
  | .privateIdentifier => privateIdentifier
  | .declarationKind => wholeWord ["var", "let", "const"]
  | .asyncModifier => wholeWord ["async"]
  | .staticModifier => wholeWord ["static"]
  | .generatorMarker => token "*"
  | .accessorKind => wholeWord ["get", "set"]
  | .awaitMarker => wholeWord ["await"]
  | .bigint => bigint
  | .number => number
  | .string => string
  | .templateLiteral => templateLiteral
  | .templateHolePart => templateHolePart
  | .boolean => wholeWord ["true", "false"]
  | .null => wholeWord ["null"]
  | .regex => regex
  | .variableDeclaration => .seq declarators semicolon
  | .forDeclaration => declarators
  | .variableDeclarator =>
    .seq bindingTarget (.opt (.seq (token "=") (.call .assignmentExpression)))
  | .functionDeclaration => function
  | .functionBody => all [token "\x7b", .star statement, token "\x7d"]
  | .classDeclaration => classDefinition
  | .classHeritage => .seq (word "extends") (.call .unaryExpression)
  | .classBody =>
    all [token "\x7b", .star (.choice (.call .classMember) (token ";")), token "\x7d"]
  | .classMember =>
    .seq (.opt (.call .staticModifier)) (.choice (.call .methodProperty) (.call .classField))
  | .classField =>
    all [memberKey, .opt (.seq (token "=") (.call .assignmentExpression)), semicolon]
  | .importDeclaration =>
    all [word "import", .opt (.seq (.call .importClause) (token "from")), .call .string, semicolon]
  | .importClause =>
    oneOf [
      .seq (.call .identifier)
        (.opt (.seq (token ",") (.choice (.call .namespaceImport) (.call .namedImports)))),
      .call .namespaceImport,
      .call .namedImports]
  | .namespaceImport => all [token "*", token "as", .call .identifier]
  | .namedImports => bracketed "\x7b" (.call .importSpecifier) "\x7d"
  | .importSpecifier =>
    .seq (.call .propertyIdentifier) (.opt (.seq (token "as") (.call .identifier)))
  | .exportDeclaration =>
    all [word "export",
      oneOf [.call .exportDefault, .call .variableDeclaration, .call .functionDeclaration,
        .call .classDeclaration, .call .exportList, .call .exportAll]]
  | .exportDefault =>
    all [word "default",
      oneOf [.call .functionDeclaration, .call .classDeclaration,
        .seq (.call .assignmentExpression) semicolon]]
  | .exportList =>
    all [bracketed "\x7b" (.call .exportSpecifier) "\x7d",
      .opt (.seq (token "from") (.call .string)), semicolon]
  | .exportSpecifier =>
    .seq (.call .propertyIdentifier) (.opt (.seq (token "as") (.call .propertyIdentifier)))
  | .exportAll =>
    all [token "*", .opt (.seq (token "as") (.call .propertyIdentifier)), token "from",
      .call .string, semicolon]
  | .returnStatement => all [word "return", .opt (.call .expression), semicolon]
  | .ifStatement =>
    all [word "if", token "(", .call .expression, token ")", statement,
      .opt (.seq (word "else") statement)]
  | .whileStatement => all [word "while", token "(", .call .expression, token ")", statement]
  | .doWhileStatement =>
    all [word "do", statement, word "while", token "(", .call .expression, token ")", semicolon]
  | .forStatement =>
    all [word "for", .opt (.call .awaitMarker), token "(",
      .choice (.call .forEachHead) (.call .forClassicHead), token ")", statement]
  | .forEachHead =>
    all [.choice (.call .forDeclaration) (.call .postfixExpression), .call .forEachKind,
      .call .expression]
  | .forEachKind => wholeWord ["of", "in"]
  | .forClassicHead =>
    all [.opt (.call .forInit), token ";", .opt (.call .forTest), token ";",
      .opt (.call .forUpdate)]
  | .forInit => .choice (.call .forDeclaration) (.call .expression)
  | .forTest => .call .expression
  | .forUpdate => .call .expression
  | .tryStatement =>
    all [word "try", .call .block, .opt (.call .catchClause), .opt (.call .finallyClause)]
  | .catchClause =>
    all [word "catch", .opt (all [token "(", bindingTarget, token ")"]), .call .block]
  | .finallyClause => .seq (word "finally") (.call .block)
  | .switchStatement =>
    all [word "switch", token "(", .call .expression, token ")", token "\x7b",
      .star (.call .switchCase), token "\x7d"]
  | .switchCase =>
    all [
      .seq (.ahead (.call .keyword))
        (.choice (.seq (token "case") (.call .expression)) (token "default")),
      token ":", .star statement]
  | .breakStatement => jump "break"
  | .continueStatement => jump "continue"
  | .labeledStatement => all [.call .identifier, token ":", statement]
  | .throwStatement => all [word "throw", .call .expression, semicolon]
  | .block => all [token "\x7b", .star statement, token "\x7d"]
  | .emptyStatement => token ";"
  | .expressionStatement => .seq (.call .expression) semicolon
  | .bindingElement =>
    .seq bindingTarget (.opt (.seq (token "=") (.call .assignmentExpression)))
  | .restElement => .seq (token "...") bindingTarget
  | .objectPattern => bracketed "\x7b" (.call .patternProperty) "\x7d"
  | .patternProperty =>
    oneOf [.call .restElement, all [key, token ":", .call .bindingElement], .call .bindingElement]
  | .arrayPattern => listWithHoles .patternItem
  | .patternItem => .opt parameter
  | .parameterList => all [parameter, .star (.seq (token ",") parameter), .opt (token ",")]
  | .expression => sepBy (.call .assignmentExpression) ","
  | .assignmentExpression =>
    .choice (.call .arrowFunction)
      (.seq (.call .conditionalExpression)
        (.opt (.seq (.call .assignmentOperator) (.call .assignmentExpression))))
  | .assignmentOperator => assignmentOperators
  | .arrowFunction =>
    all [.opt (.call .asyncModifier), .call .arrowParameters, token "=>",
      .choice (.call .functionBody) (.call .assignmentExpression)]
  | .arrowParameters =>
    .choice (.call .identifier) (all [token "(", .opt (.call .parameterList), token ")"])
  | .conditionalExpression =>
    .seq (.call (.binaryExpression .logicalOr))
      (.opt (all [token "?", .call .assignmentExpression, token ":", .call .assignmentExpression]))
  | .binaryExpression level =>
    .seq (operand level) (.star (.seq (.call (.binaryOperator level)) (operand level)))
  | .binaryOperator level => operators level
  | .unaryExpression =>
    .choice (.seq (.call .unaryOperator) (.call .unaryExpression)) (.call .postfixExpression)
  | .unaryOperator => unaryOperators
  | .postfixExpression =>
    all [.choice (.call .newExpression) primaryExpression, .star (.call .postfixOperation),
      .opt (.call .updateSuffix)]
  | .postfixOperation =>
    oneOf [.call .callArguments, .call .memberAccess, .call .computedAccess]
  | .updateSuffix => .choice (token "++") (token "--")
  | .callArguments => .seq (.opt (token "?.")) (bracketed "(" argument ")")
  | .memberAccess =>
    .seq (.choice (token "?.") (token "."))
      (.choice (.call .privateIdentifier) (.call .propertyIdentifier))
  | .computedAccess => all [.opt (token "?."), token "[", .call .expression, token "]"]
  | .newExpression => all [word "new", .call .newTarget, .opt (.call .callArguments)]
  | .newTarget =>
    .seq (.choice (.call .newExpression) primaryExpression)
      (.star (.choice (.call .memberAccess) (.call .computedAccess)))
  | .thisExpression => word "this"
  | .superExpression => word "super"
  | .parenthesizedExpression => all [token "(", .call .expression, token ")"]
  | .importCall =>
    all [word "import", token "(", .call .assignmentExpression,
      .opt (.seq (token ",") (.call .assignmentExpression)), .opt (token ","), token ")"]
  | .metaProperty => all [.call .metaObject, token ".", .call .metaName]
  | .metaObject => wholeWord ["new", "import"]
  | .metaName => wholeWord ["target", "meta"]
  | .functionExpression => function
  | .classExpression => classDefinition
  | .arrayLiteral => listWithHoles .arrayItem
  | .arrayItem => .opt argument
  | .spreadElement => .seq (token "...") (.call .assignmentExpression)
  | .objectLiteral =>
    bracketed "\x7b" (.choice (.call .spreadElement) (.call .property)) "\x7d"
  | .property =>
    oneOf [all [key, token ":", .call .assignmentExpression], .call .methodProperty,
      .call .shorthandProperty]
  | .methodProperty =>
    .choice (.seq (.call .accessorKind) methodTail)
      (all [.opt (.call .asyncModifier), .opt (.call .generatorMarker), methodTail])
  | .shorthandProperty => .call .identifier
  | .propertyKey => oneOf [.call .propertyIdentifier, .call .string, .call .number]
  | .computedKey => all [token "[", .call .assignmentExpression, token "]"]

end ScriptTyping.Grammar

namespace ScriptTyping

/-- The grammar of the language. -/
def language : Peg.Grammar Rule :=
  { kind := Grammar.kind, body := Grammar.body, blank := Grammar.blank }

end ScriptTyping
