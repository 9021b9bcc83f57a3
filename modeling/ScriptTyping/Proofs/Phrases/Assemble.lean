import ScriptTyping.Peg.Tree
import ScriptTyping.Proofs.Phrases.Binding
import ScriptTyping.Proofs.Phrases.Expression
import ScriptTyping.Proofs.Phrases.Statement
import ScriptTyping.Reading.Fault

/-!
# Phrases from parse trees

`phrase?` chooses for each rule how its parts make up a phrase, and `assemble` does so from the
leaves of a parse tree up. The only rule whose match may stand for nothing is that of numbers.
-/

namespace ScriptTyping.Reading

/-- The phrase that a match of a rule stands for, given those of its parts. -/
def phrase? (r : Rule) (e : Extent) (parts : List Phrase) : Option Phrase :=
  match r with
  | .endOfInput => some .finish
  | .program => program e parts
  | .keyword | .declarationKind | .asyncModifier | .staticModifier | .generatorMarker
  | .accessorKind | .awaitMarker | .forEachKind | .assignmentOperator | .binaryOperator _
  | .unaryOperator => some (.token e.string)
  | .identifier | .propertyIdentifier | .metaObject | .metaName => some (identifier e)
  | .privateIdentifier => some (privateIdentifier e)
  | .bigint => some (literal e (bigintValue e.text))
  | .number => (Literal.number? e.text).map fun m => literal e (.number m)
  | .string =>
    (inner? e.text).map fun body => literal e (.string (String.ofList (Syntax.unescape body)))
  | .templateLiteral => (inner? e.text).map (templateLiteral e)
  | .templateHolePart => none
  | .boolean => some (literal e (.boolean (e.string = "true")))
  | .null => some (literal e .null)
  | .regex => (regexValue? e.text).map (literal e)
  | .variableDeclaration | .forDeclaration => variableDeclaration e parts
  | .variableDeclarator => variableDeclarator e parts
  | .functionDeclaration =>
    (function parts).map fun f => .node (e.node (.functionDeclaration f))
  | .functionBody => functionBody e parts
  | .classDeclaration =>
    (classDefinition parts).map fun c => .node (e.node (.classDeclaration c))
  | .classHeritage => classHeritage parts
  | .classBody => classBody e parts
  | .classMember => classMember e parts
  | .classField => classField parts
  | .importDeclaration => importDeclaration e parts
  | .importClause => importClause parts
  | .namespaceImport => namespaceImport e parts
  | .namedImports => list parts
  | .importSpecifier => importSpecifier e parts
  | .exportDeclaration => exportDeclaration e parts
  | .exportDefault => exportDefault parts
  | .exportList => exportList parts
  | .exportSpecifier => exportSpecifier e parts
  | .exportAll => exportAll parts
  | .returnStatement => withOptional e .returnStatement parts
  | .ifStatement => ifStatement e parts
  | .whileStatement => withTwo e .whileStatement parts
  | .doWhileStatement => withTwo e .doWhileStatement parts
  | .forStatement => forStatement e parts
  | .forEachHead => forEachHead parts
  | .forClassicHead => forClassicHead parts
  | .forInit => oneNode .forInit parts
  | .forTest => oneNode .forTest parts
  | .forUpdate => oneNode .forUpdate parts
  | .tryStatement => tryStatement e parts
  | .catchClause => catchClause e parts
  | .finallyClause => finallyClause parts
  | .switchStatement => switchStatement e parts
  | .switchCase => switchCase e parts
  | .breakStatement => withOptional e .breakStatement parts
  | .continueStatement => withOptional e .continueStatement parts
  | .labeledStatement => withTwo e .labeledStatement parts
  | .throwStatement => withOne e .throwStatement parts
  | .block => withMany e .blockStatement parts
  | .emptyStatement => some (.node (e.node .emptyStatement))
  | .expressionStatement => withOne e .expressionStatement parts
  | .bindingElement => bindingElement e parts
  | .restElement => restElement e parts
  | .objectPattern => objectPattern e parts
  | .patternProperty => patternProperty e parts
  | .arrayPattern => arrayPattern e parts
  | .patternItem => item parts
  | .parameterList => list parts
  | .expression => sequence e parts
  | .assignmentExpression => assignment e parts
  | .arrowFunction => arrowFunction e parts
  | .arrowParameters => arrowParameters parts
  | .conditionalExpression => conditional e parts
  | .binaryExpression _ => binary parts
  | .unaryExpression => unary e parts
  | .postfixExpression => accessed parts
  | .postfixOperation => only parts
  | .updateSuffix => some (updateSuffix e)
  | .callArguments => callArguments e parts
  | .memberAccess => memberAccess e parts
  | .computedAccess => computedAccess e parts
  | .newExpression => newObject e parts
  | .newTarget => accessed parts
  | .thisExpression => some (.node (e.node .thisExpression))
  | .superExpression => some (.node (e.node .superExpression))
  | .parenthesizedExpression => only parts
  | .importCall => importCall e parts
  | .metaProperty => metaProperty e parts
  | .functionExpression =>
    (function parts).map fun f => .node (e.node (.functionExpression f))
  | .classExpression =>
    (classDefinition parts).map fun c => .node (e.node (.classExpression c))
  | .arrayLiteral => arrayLiteral e parts
  | .arrayItem => item parts
  | .spreadElement => withOne e .spreadElement parts
  | .objectLiteral => objectLiteral e parts
  | .property => property e parts
  | .methodProperty => method e parts
  | .shorthandProperty => oneNode .shorthand parts
  | .propertyKey => oneNode (.key · false) parts
  | .computedKey => oneNode (.key · true) parts
where
  /-- What the only part stands for. -/
  only : List Phrase → Option Phrase
    | [p] => some p
    | _ => none
  /-- A phrase made of the only part, a node. -/
  oneNode (f : Node → Phrase) : List Phrase → Option Phrase
    | [.node n] => some (f n)
    | _ => none

/-- What a match of a rule stands for, or why it stands for nothing. -/
def build (r : Rule) (e : Extent) (parts : List Phrase) : Except Fault Phrase :=
  match phrase? r e parts with
  | some p => .ok p
  | none =>
    match r with
    | .number => .error (.numberFormat e.string e.site)
    | .string | .templateLiteral | .regex => .error .panicked
    | _ => .error (.lacking e.site)

/-- Of several faults the one that is met first. Parts are read in order, but the body of a loop
before its head. -/
def inReadingOrder (r : Rule) (parts : List (Except Fault Phrase)) :
    Except Fault (List Phrase) :=
  match r with
  | .forStatement => (parts.reverse.mapM id).map List.reverse
  | _ => parts.mapM id

/-- What a match stands for, from what its parts stand for. -/
def step (file : String) (source : List Char) (r : Rule) (start : Nat) (text : List Char)
    (parts : List (Except Fault Phrase)) : Except Fault Phrase := do
  let parts ← inReadingOrder r parts
  build r { file, source, start, text } parts

/-- What a parse tree stands for. -/
def assemble (file : String) (source : List Char) (t : Peg.Tree Rule) : Except Fault Phrase :=
  t.fold (step file source)

end ScriptTyping.Reading
