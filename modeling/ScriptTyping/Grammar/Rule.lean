/-!
# The rules of the language

One constructor for each phrase of the language that can be named in a message. The ten levels of
binary operators are one rule over `Precedence`. `Rule.all` lists the rules in the order in which
messages name them.
-/

namespace ScriptTyping

/-- The levels of binary operators, from the loosest to the tightest. -/
inductive Precedence where
  | logicalOr
  | logicalAnd
  | bitwiseOr
  | bitwiseXor
  | bitwiseAnd
  | equality
  | relational
  | shift
  | additive
  | multiplicative
  deriving DecidableEq, Repr

namespace Precedence

/-- The levels in order. -/
def all : List Precedence :=
  [logicalOr, logicalAnd, bitwiseOr, bitwiseXor, bitwiseAnd, equality, relational, shift, additive,
    multiplicative]

/-- The name of a level in messages. -/
def name : Precedence → String
  | logicalOr => "logical_or"
  | logicalAnd => "logical_and"
  | bitwiseOr => "bitwise_or"
  | bitwiseXor => "bitwise_xor"
  | bitwiseAnd => "bitwise_and"
  | equality => "equality"
  | relational => "relational"
  | shift => "shift"
  | additive => "additive"
  | multiplicative => "multiplicative"

/-- The next tighter level. -/
def next? : Precedence → Option Precedence
  | logicalOr => some logicalAnd
  | logicalAnd => some bitwiseOr
  | bitwiseOr => some bitwiseXor
  | bitwiseXor => some bitwiseAnd
  | bitwiseAnd => some equality
  | equality => some relational
  | relational => some shift
  | shift => some additive
  | additive => some multiplicative
  | multiplicative => none

end Precedence

/-- The rules of the language. -/
inductive Rule where
  | endOfInput
  | program
  | keyword
  | identifier
  | propertyIdentifier
  | privateIdentifier
  | declarationKind
  | asyncModifier
  | staticModifier
  | generatorMarker
  | accessorKind
  | awaitMarker
  | bigint
  | number
  | string
  | templateLiteral
  | templateHolePart
  | boolean
  | null
  | regex
  | variableDeclaration
  | forDeclaration
  | variableDeclarator
  | functionDeclaration
  | functionBody
  | classDeclaration
  | classHeritage
  | classBody
  | classMember
  | classField
  | importDeclaration
  | importClause
  | namespaceImport
  | namedImports
  | importSpecifier
  | exportDeclaration
  | exportDefault
  | exportList
  | exportSpecifier
  | exportAll
  | returnStatement
  | ifStatement
  | whileStatement
  | doWhileStatement
  | forStatement
  | forEachHead
  | forEachKind
  | forClassicHead
  | forInit
  | forTest
  | forUpdate
  | tryStatement
  | catchClause
  | finallyClause
  | switchStatement
  | switchCase
  | breakStatement
  | continueStatement
  | labeledStatement
  | throwStatement
  | block
  | emptyStatement
  | expressionStatement
  | bindingElement
  | restElement
  | objectPattern
  | patternProperty
  | arrayPattern
  | patternItem
  | parameterList
  | expression
  | assignmentExpression
  | assignmentOperator
  | arrowFunction
  | arrowParameters
  | conditionalExpression
  | binaryExpression (level : Precedence)
  | binaryOperator (level : Precedence)
  | unaryExpression
  | unaryOperator
  | postfixExpression
  | postfixOperation
  | updateSuffix
  | callArguments
  | memberAccess
  | computedAccess
  | newExpression
  | newTarget
  | thisExpression
  | superExpression
  | parenthesizedExpression
  | importCall
  | metaProperty
  | metaObject
  | metaName
  | functionExpression
  | classExpression
  | arrayLiteral
  | arrayItem
  | spreadElement
  | objectLiteral
  | property
  | methodProperty
  | shorthandProperty
  | propertyKey
  | computedKey
  deriving DecidableEq, Repr

namespace Rule

/-- The name of a rule in messages. -/
def name : Rule → String
  | endOfInput => "EOI"
  | program => "program"
  | keyword => "keyword"
  | identifier => "identifier"
  | propertyIdentifier => "property_identifier"
  | privateIdentifier => "private_identifier"
  | declarationKind => "declaration_kind"
  | asyncModifier => "async_modifier"
  | staticModifier => "static_modifier"
  | generatorMarker => "generator_marker"
  | accessorKind => "accessor_kind"
  | awaitMarker => "await_marker"
  | bigint => "bigint"
  | number => "number"
  | string => "string"
  | templateLiteral => "template_literal"
  | templateHolePart => "template_hole_char"
  | boolean => "boolean"
  | null => "null"
  | regex => "regex"
  | variableDeclaration => "variable_declaration"
  | forDeclaration => "for_declaration"
  | variableDeclarator => "variable_declarator"
  | functionDeclaration => "function_declaration"
  | functionBody => "function_body"
  | classDeclaration => "class_declaration"
  | classHeritage => "class_heritage"
  | classBody => "class_body"
  | classMember => "class_member"
  | classField => "class_field"
  | importDeclaration => "import_declaration"
  | importClause => "import_clause"
  | namespaceImport => "namespace_import"
  | namedImports => "named_imports"
  | importSpecifier => "import_specifier"
  | exportDeclaration => "export_declaration"
  | exportDefault => "export_default"
  | exportList => "export_list"
  | exportSpecifier => "export_specifier"
  | exportAll => "export_all"
  | returnStatement => "return_statement"
  | ifStatement => "if_statement"
  | whileStatement => "while_statement"
  | doWhileStatement => "do_while_statement"
  | forStatement => "for_statement"
  | forEachHead => "for_in_of_head"
  | forEachKind => "for_in_of_kind"
  | forClassicHead => "for_classic_head"
  | forInit => "for_init"
  | forTest => "for_test"
  | forUpdate => "for_update"
  | tryStatement => "try_statement"
  | catchClause => "catch_clause"
  | finallyClause => "finally_clause"
  | switchStatement => "switch_statement"
  | switchCase => "switch_case"
  | breakStatement => "break_statement"
  | continueStatement => "continue_statement"
  | labeledStatement => "labeled_statement"
  | throwStatement => "throw_statement"
  | block => "block"
  | emptyStatement => "empty_statement"
  | expressionStatement => "expression_statement"
  | bindingElement => "binding_element"
  | restElement => "rest_element"
  | objectPattern => "object_pattern"
  | patternProperty => "pattern_property"
  | arrayPattern => "array_pattern"
  | patternItem => "pattern_item"
  | parameterList => "parameter_list"
  | expression => "expression"
  | assignmentExpression => "assignment_expression"
  | assignmentOperator => "assignment_operator"
  | arrowFunction => "arrow_function"
  | arrowParameters => "arrow_parameters"
  | conditionalExpression => "conditional_expression"
  | binaryExpression level => level.name ++ "_expression"
  | binaryOperator level => level.name ++ "_op"
  | unaryExpression => "unary_expression"
  | unaryOperator => "unary_op"
  | postfixExpression => "postfix_expression"
  | postfixOperation => "postfix_op"
  | updateSuffix => "update_suffix"
  | callArguments => "call_arguments"
  | memberAccess => "member_access"
  | computedAccess => "computed_access"
  | newExpression => "new_expression"
  | newTarget => "new_target"
  | thisExpression => "this_expression"
  | superExpression => "super_expression"
  | parenthesizedExpression => "parenthesized_expression"
  | importCall => "import_call"
  | metaProperty => "meta_property"
  | metaObject => "meta_object"
  | metaName => "meta_name"
  | functionExpression => "function_expression"
  | classExpression => "class_expression"
  | arrayLiteral => "array_literal"
  | arrayItem => "array_item"
  | spreadElement => "spread_element"
  | objectLiteral => "object_literal"
  | property => "property"
  | methodProperty => "method_property"
  | shorthandProperty => "shorthand_property"
  | propertyKey => "property_key"
  | computedKey => "computed_key"

/-- The rules in the order of messages. -/
def all : List Rule :=
  [endOfInput, program, keyword, identifier, propertyIdentifier, privateIdentifier,
    declarationKind, asyncModifier, staticModifier, generatorMarker, accessorKind, awaitMarker,
    bigint, number, string, templateLiteral, templateHolePart, boolean, null, regex,
    variableDeclaration, forDeclaration, variableDeclarator, functionDeclaration, functionBody,
    classDeclaration, classHeritage, classBody, classMember, classField, importDeclaration,
    importClause, namespaceImport, namedImports, importSpecifier, exportDeclaration, exportDefault,
    exportList, exportSpecifier, exportAll, returnStatement, ifStatement, whileStatement,
    doWhileStatement, forStatement, forEachHead, forEachKind, forClassicHead, forInit, forTest,
    forUpdate, tryStatement, catchClause, finallyClause, switchStatement, switchCase,
    breakStatement, continueStatement, labeledStatement, throwStatement, block, emptyStatement,
    expressionStatement, bindingElement, restElement, objectPattern, patternProperty, arrayPattern,
    patternItem, parameterList, expression, assignmentExpression, assignmentOperator,
    arrowFunction, arrowParameters, conditionalExpression] ++
  Precedence.all.map binaryExpression ++ Precedence.all.map binaryOperator ++
  [unaryExpression, unaryOperator, postfixExpression, postfixOperation, updateSuffix,
    callArguments, memberAccess, computedAccess, newExpression, newTarget, thisExpression,
    superExpression, parenthesizedExpression, importCall, metaProperty, metaObject, metaName,
    functionExpression, classExpression, arrayLiteral, arrayItem, spreadElement, objectLiteral,
    property, methodProperty, shorthandProperty, propertyKey, computedKey]

/-- Every rule is listed. -/
theorem mem_all (r : Rule) : r ∈ all := by
  cases r with
  | binaryExpression level => cases level <;> decide
  | binaryOperator level => cases level <;> decide
  | _ => decide +kernel

end Rule

end ScriptTyping
