import ScriptTyping.Building.Expression
import ScriptTyping.Peg.Tree

/-!
# Statements and programs

The builders of statements, of the items of modules, and of whole programs.
-/

namespace ScriptTyping.Building
open Reading

/-- A block of statements. -/
def block (e : Extent) (parts : List Part) : Except Fault Node := do
  let body ← parts.mapM Part.statement
  .ok (e.node (.blockStatement body))

/-- What a declaration binds, and its first value. -/
def variableDeclarator (e : Extent) (parts : List Part) : Except Fault Node := do
  let (id, parts) ← next e parts
  let id ← id.target
  let init ← optional Part.expression parts
  .ok (e.node (.variableDeclarator id init))

/-- A declaration of variables. -/
def variableDeclaration (e : Extent) (parts : List Part) : Except Fault Node := do
  let (keyword, parts) ← next e parts
  match DeclarationKind.ofSymbol? keyword.extent.string with
  | some kind =>
    let declarations ← parts.mapM fun m => variableDeclarator m.extent m.parts
    .ok (e.node (.variableDeclaration kind declarations))
  | none =>
    unexpected ("Unknown declaration keyword '" ++ keyword.extent.string ++ "'.")
      "typeify.ast.stmt.parse_variable_declaration_rule" e

/-- A choice between two statements, or one that may be skipped. -/
def ifStatement (e : Extent) (parts : List Part) : Except Fault Node := do
  let (test, parts) ← next e parts
  let test ← test.expression
  let (consequent, parts) ← next e parts
  let consequent ← consequent.statement
  let alternate ← optional Part.statement parts
  .ok (e.node (.ifStatement test consequent alternate))

/-- A loop with its test before the body. -/
def whileStatement (e : Extent) (parts : List Part) : Except Fault Node := do
  let (test, parts) ← next e parts
  let test ← test.expression
  let (body, _) ← next e parts
  let body ← body.statement
  .ok (e.node (.whileStatement test body))

/-- A loop with its test after the body. -/
def doWhileStatement (e : Extent) (parts : List Part) : Except Fault Node := do
  let (body, parts) ← next e parts
  let body ← body.statement
  let (test, _) ← next e parts
  let test ← test.expression
  .ok (e.node (.doWhileStatement body test))

/-- A head that runs through the members of something: what it binds, the word that says which
members, and what they are members of. -/
def forEachHead (e : Extent) (parts : List Part) : Except Fault (Node × String × Node) := do
  let (left, parts) ← next e parts
  let left ← match left.rule with
    | .forDeclaration => variableDeclaration left.extent left.parts
    | _ => suffixed left.extent left.parts
  let (kind, parts) ← next e parts
  let (right, _) ← next e parts
  let right ← right.expression
  .ok (left, kind.extent.string, right)

/-- What has been met of a classic head. -/
structure HeadParts where
  init : Option Node
  test : Option Node
  update : Option Node

/-- What stands in one part of a classic head. -/
def headValue (m : Part) : Except Fault Node :=
  match m.rule with
  | .forDeclaration => variableDeclaration m.extent m.parts
  | _ => m.expression

/-- Notes one part of a classic head. -/
def HeadParts.note (h : HeadParts) (m : Part) : Except Fault HeadParts := do
  match ← optional headValue m.parts with
  | none => .ok h
  | some value =>
    match m.rule with
    | .forInit => .ok { h with init := some value }
    | .forTest => .ok { h with test := some value }
    | _ => .ok { h with update := some value }

/-- The three parts of a classic head, each of which may be missing. -/
def forClassicHead (parts : List Part) : Except Fault HeadParts :=
  parts.foldlM HeadParts.note { init := none, test := none, update := none }

/-- A loop with a head of either kind. Its body is read before the head. -/
def forStatement (e : Extent) (parts : List Part) : Except Fault Node := do
  let (first, parts) ← next e parts
  let isAwait : Bool := first.rule = .awaitMarker
  let (head, parts) ← if isAwait then next e parts else .ok (first, parts)
  let (body, _) ← next e parts
  let body ← body.statement
  match head.rule with
  | .forEachHead =>
    let (left, kind, right) ← forEachHead head.extent head.parts
    if kind = "of" then .ok (e.node (.forOfStatement left right body isAwait))
    else .ok (e.node (.forInStatement left right body))
  | _ =>
    let h ← forClassicHead head.parts
    .ok (e.node (.forStatement h.init h.test h.update body))

/-- A statement that leaves another one, which a label may name. -/
def jumpStatement (form : Option Node → Form Node) (e : Extent) (parts : List Part) : Node :=
  e.node (form (parts.head?.map fun m => identifier m.extent))

/-- A statement with a label. -/
def labeledStatement (e : Extent) (parts : List Part) : Except Fault Node := do
  let (label, parts) ← next e parts
  let (body, _) ← next e parts
  let body ← body.statement
  .ok (e.node (.labeledStatement (identifier label.extent) body))

/-- What has been met of a handler for errors. -/
structure HandlerParts where
  param : Option Node
  body : Option Node

/-- Notes one part of a handler. -/
def HandlerParts.note (h : HandlerParts) (m : Part) : Except Fault HandlerParts :=
  match m.rule with
  | .block => do
    let body ← block m.extent m.parts
    .ok { h with body := some body }
  | _ => do
    let param ← m.target
    .ok { h with param := some param }

/-- A handler for errors, with or without a binding for the error. -/
def catchClause (e : Extent) (parts : List Part) : Except Fault Node := do
  let h ← parts.foldlM HandlerParts.note { param := none, body := none }
  match h.body with
  | some body => .ok (e.node (.catchClause h.param body))
  | none => unexpected "Catch clause without a body." "typeify.ast.stmt.parse_try_statement_rule" e

/-- A block that is always left through. -/
def finallyClause (e : Extent) (parts : List Part) : Except Fault Node := do
  let (m, _) ← next e parts
  block m.extent m.parts

/-- What has been met behind the block of a `try`. -/
structure TryParts where
  handler : Option Node
  finalizer : Option Node

/-- Notes one clause behind the block of a `try`. -/
def TryParts.note (t : TryParts) (m : Part) : Except Fault TryParts :=
  match m.rule with
  | .catchClause => do
    let handler ← catchClause m.extent m.parts
    .ok { t with handler := some handler }
  | _ => do
    let finalizer ← finallyClause m.extent m.parts
    .ok { t with finalizer := some finalizer }

/-- A block with a handler, a last block, both or neither. -/
def tryStatement (e : Extent) (parts : List Part) : Except Fault Node := do
  let (m, parts) ← next e parts
  let body ← block m.extent m.parts
  let t ← parts.foldlM TryParts.note { handler := none, finalizer := none }
  .ok (e.node (.tryStatement body t.handler t.finalizer))

/-- What has been met of one case. -/
structure CaseParts where
  test : Option Node
  consequent : List Node

/-- Notes one part of a case. -/
def CaseParts.note (c : CaseParts) (m : Part) : Except Fault CaseParts :=
  match m.rule with
  | .expression => do
    let test ← m.expression
    .ok { c with test := some test }
  | _ => do
    let n ← m.statement
    .ok { c with consequent := c.consequent ++ [n] }

/-- One case: a test, which the default case does not have, and statements. -/
def switchCase (e : Extent) (parts : List Part) : Except Fault Node := do
  let c ← parts.foldlM CaseParts.note { test := none, consequent := [] }
  .ok (e.node (.switchCase c.test c.consequent))

/-- A value and the cases for it. -/
def switchStatement (e : Extent) (parts : List Part) : Except Fault Node := do
  let (discriminant, parts) ← next e parts
  let discriminant ← discriminant.expression
  let cases ← parts.mapM fun m => switchCase m.extent m.parts
  .ok (e.node (.switchStatement discriminant cases))

/-- What is imported under its own name. -/
def namespaceImport (e : Extent) (parts : List Part) : Except Fault Node := do
  let (bound, _) ← next e parts
  .ok (e.node (.importNamespaceSpecifier (identifier bound.extent)))

/-- A name and the name after it, which is the same if there is none. -/
def renamed (form : Node → Node → Form Node) (e : Extent) (parts : List Part) :
    Except Fault Node := do
  let (name, parts) ← next e parts
  let name := identifier name.extent
  let other := (parts.head?.map fun m => identifier m.extent).getD name
  .ok (e.node (form name other))

/-- The specifiers of one part of an import: the default, the whole module, or a list of names. -/
def importItem (m : Part) : Except Fault (List Node) :=
  match m.rule with
  | .identifier => .ok [m.extent.node (.importDefaultSpecifier (identifier m.extent))]
  | .namespaceImport => do
    let n ← namespaceImport m.extent m.parts
    .ok [n]
  | _ => m.parts.mapM fun m => renamed .importSpecifier m.extent m.parts

/-- The specifiers of an import. -/
def importClause (parts : List Part) : Except Fault (List Node) := do
  let items ← parts.mapM importItem
  .ok items.flatten

/-- What has been met of an import, or of a list of exports. -/
structure SpecifierParts where
  specifiers : List Node
  source : Option Node

/-- Notes one part of an import. -/
def SpecifierParts.noteImport (i : SpecifierParts) (m : Part) : Except Fault SpecifierParts :=
  match m.rule with
  | .importClause => do
    let specifiers ← importClause m.parts
    .ok { i with specifiers := i.specifiers ++ specifiers }
  | rule => do
    let source ← literal rule m.extent
    .ok { i with source := some source }

/-- An import with its specifiers, if there are any. -/
def importDeclaration (e : Extent) (parts : List Part) : Except Fault Node := do
  let i ← parts.foldlM SpecifierParts.noteImport { specifiers := [], source := none }
  match i.source with
  | some source => .ok (e.node (.importDeclaration i.specifiers source))
  | none =>
    unexpected "Import declaration without a module source."
      "typeify.ast.stmt.parse_import_declaration_rule" e

/-- What a module is without a name: a function, a class or a value. -/
def exportDefault (e : Extent) (parts : List Part) : Except Fault (Form Node) := do
  let (m, _) ← next e parts
  let declaration ← match m.rule with
    | .functionDeclaration | .classDeclaration => m.statement
    | _ => m.expression
  .ok (.exportDefaultDeclaration declaration)

/-- Notes one part of a list of exports. -/
def SpecifierParts.noteExport (x : SpecifierParts) (m : Part) : Except Fault SpecifierParts :=
  match m.rule with
  | .exportSpecifier => do
    let specifier ← renamed .exportSpecifier m.extent m.parts
    .ok { x with specifiers := x.specifiers ++ [specifier] }
  | rule => do
    let source ← literal rule m.extent
    .ok { x with source := some source }

/-- Names to export, perhaps from another module. -/
def exportList (parts : List Part) : Except Fault (Form Node) := do
  let x ← parts.foldlM SpecifierParts.noteExport { specifiers := [], source := none }
  .ok (.exportNamedDeclaration none x.specifiers x.source)

/-- What has been met of an export of all that another module exports. -/
structure StarParts where
  exported : Option Node
  source : Option Node

/-- Notes one part of an export of all. -/
def StarParts.note (x : StarParts) (m : Part) : Except Fault StarParts :=
  match m.rule with
  | .propertyIdentifier => .ok { x with exported := some (identifier m.extent) }
  | rule => do
    let source ← literal rule m.extent
    .ok { x with source := some source }

/-- All that another module exports, perhaps under a name, in the export that is told. -/
def exportAll (e : Extent) (parts : List Part) : Except Fault (Form Node) := do
  let x ← parts.foldlM StarParts.note { exported := none, source := none }
  match x.source with
  | some source => .ok (.exportAllDeclaration x.exported source)
  | none =>
    unexpected "Expected a module source after `export *`."
      "typeify.ast.stmt.parse_export_declaration_rule" e

/-- An export; a declaration may be exported as it stands. -/
def exportDeclaration (e : Extent) (parts : List Part) : Except Fault Node := do
  let (item, _) ← next e parts
  let form ← match item.rule with
    | .exportDefault => exportDefault item.extent item.parts
    | .exportList => exportList item.parts
    | .exportAll => exportAll e item.parts
    | _ => do
      let declaration ← item.statement
      .ok (.exportNamedDeclaration (some declaration) [] none)
  .ok (e.node form)

/-- A statement, or an item of a module. -/
def statement (r : Rule) (e : Extent) (parts : List Part) : Except Fault Node :=
  match r with
  | .importDeclaration => importDeclaration e parts
  | .exportDeclaration => exportDeclaration e parts
  | .variableDeclaration | .forDeclaration => variableDeclaration e parts
  | .functionDeclaration => do
    let f ← function e parts
    .ok (e.node (.functionDeclaration f))
  | .classDeclaration => do
    let c ← classDefinition e parts
    .ok (e.node (.classDeclaration c))
  | .returnStatement => do
    let argument ← optional Part.expression parts
    .ok (e.node (.returnStatement argument))
  | .ifStatement => ifStatement e parts
  | .forStatement => forStatement e parts
  | .whileStatement => whileStatement e parts
  | .doWhileStatement => doWhileStatement e parts
  | .tryStatement => tryStatement e parts
  | .switchStatement => switchStatement e parts
  | .breakStatement => .ok (jumpStatement .breakStatement e parts)
  | .continueStatement => .ok (jumpStatement .continueStatement e parts)
  | .labeledStatement => labeledStatement e parts
  | .emptyStatement => .ok (e.node .emptyStatement)
  | .throwStatement => do
    let (argument, _) ← next e parts
    let argument ← argument.expression
    .ok (e.node (.throwStatement argument))
  | .block => block e parts
  | .expressionStatement => do
    let (m, _) ← next e parts
    let n ← m.expression
    .ok (e.node (.expressionStatement n))
  | other =>
    unexpected ("Unexpected statement type: " ++ other.name) "typeify.ast.stmt.parse_statement_rule" e

/-- A whole program: all that it holds but the end of the input. -/
def program (e : Extent) (parts : List Part) : Except Fault Node := do
  let body ← (parts.filter (·.rule != .endOfInput)).mapM Part.statement
  .ok (e.node (.program body))

/-- A match of a rule, with what it is as a statement, as an expression and as the target of a
binding. -/
def Part.of (r : Rule) (e : Extent) (parts : List Part) : Part :=
  .mk r e parts (Building.statement r e parts) (Building.expression r e parts)
    (Building.target r e parts)

/-- The match that a parse tree is. -/
def partOf (file : String) (source : List Char) (t : Peg.Tree Rule) : Part :=
  t.fold fun r start text parts => .of r { file, source, start, text } parts

end ScriptTyping.Building
