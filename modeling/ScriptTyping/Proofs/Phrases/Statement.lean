import ScriptTyping.Proofs.Phrases.Basic

/-!
# Statements from their parts

For each rule of statements and of the items of modules, the phrase that its parts make up.
-/

namespace ScriptTyping.Reading

/-- A whole program. -/
def program (e : Extent) (parts : List Phrase) : Option Phrase := do
  match parts.getLast? with
  | some .finish =>
    let body ← Phrase.nodes? parts.dropLast
    some (.node (e.node (.program body)))
  | _ => none

/-- A declaration of variables. -/
def variableDeclaration (e : Extent) : List Phrase → Option Phrase
  | .token keyword :: parts => do
    let kind ← DeclarationKind.ofSymbol? keyword
    let declarations ← Phrase.nodes? parts
    some (.node (e.node (.variableDeclaration kind declarations)))
  | _ => none

/-- What a declaration binds, and its first value. -/
def variableDeclarator (e : Extent) : List Phrase → Option Phrase
  | [.node id] => some (.node (e.node (.variableDeclarator id none)))
  | [.node id, .node init] => some (.node (e.node (.variableDeclarator id (some init))))
  | _ => none

/-- A form with a node that may be missing. -/
def withOptional (e : Extent) (form : Option Node → Form Node) : List Phrase → Option Phrase
  | [] => some (.node (e.node (form none)))
  | [.node n] => some (.node (e.node (form (some n))))
  | _ => none

/-- A form with one node. -/
def withOne (e : Extent) (form : Node → Form Node) : List Phrase → Option Phrase
  | [.node n] => some (.node (e.node (form n)))
  | _ => none

/-- A form with two nodes. -/
def withTwo (e : Extent) (form : Node → Node → Form Node) : List Phrase → Option Phrase
  | [.node a, .node b] => some (.node (e.node (form a b)))
  | _ => none

/-- A form with any number of nodes. -/
def withMany (e : Extent) (form : List Node → Form Node) (parts : List Phrase) : Option Phrase :=
  (Phrase.nodes? parts).map fun ns => .node (e.node (form ns))

/-- A choice between two statements, or one that may be skipped. -/
def ifStatement (e : Extent) : List Phrase → Option Phrase
  | [.node test, .node consequent] =>
    some (.node (e.node (.ifStatement test consequent none)))
  | [.node test, .node consequent, .node alternate] =>
    some (.node (e.node (.ifStatement test consequent (some alternate))))
  | _ => none

/-- The three parts of a classic head, each of which may be missing. -/
def forClassicHead (parts : List Phrase) : Option Phrase :=
  let (init, parts) := match parts with
    | .forInit n :: rest => (some n, rest)
    | parts => (none, parts)
  let (test, parts) := match parts with
    | .forTest n :: rest => (some n, rest)
    | parts => (none, parts)
  match parts with
  | [] => some (.forClassic init test none)
  | [.forUpdate n] => some (.forClassic init test (some n))
  | _ => none

/-- A head that runs through the members of something. -/
def forEachHead : List Phrase → Option Phrase
  | [.node left, .token kind, .node right] => some (.forEach left kind right)
  | _ => none

/-- A loop with a head of either kind. -/
def forStatement (e : Extent) (parts : List Phrase) : Option Phrase :=
  let (isAwait, parts) := Phrase.takeToken "await" parts
  match parts with
  | [.forEach left kind right, .node body] =>
    if kind = "of" then some (.node (e.node (.forOfStatement left right body isAwait)))
    else some (.node (e.node (.forInStatement left right body)))
  | [.forClassic init test update, .node body] =>
    some (.node (e.node (.forStatement init test update body)))
  | _ => none

/-- A handler for errors, with or without a binding for the error. -/
def catchClause (e : Extent) : List Phrase → Option Phrase
  | [.node body] => some (.node (e.node (.catchClause none body)))
  | [.node param, .node body] => some (.node (e.node (.catchClause (some param) body)))
  | _ => none

/-- A block that is always left through. -/
def finallyClause : List Phrase → Option Phrase
  | [.node n] => some (.finalizer n)
  | _ => none

/-- A block with a handler, a last block, both or neither. -/
def tryStatement (e : Extent) : List Phrase → Option Phrase
  | [.node block] => some (.node (e.node (.tryStatement block none none)))
  | [.node block, .node handler] => some (.node (e.node (.tryStatement block (some handler) none)))
  | [.node block, .finalizer finalizer] =>
    some (.node (e.node (.tryStatement block none (some finalizer))))
  | [.node block, .node handler, .finalizer finalizer] =>
    some (.node (e.node (.tryStatement block (some handler) (some finalizer))))
  | _ => none

/-- A value and the cases for it. -/
def switchStatement (e : Extent) : List Phrase → Option Phrase
  | .node discriminant :: parts =>
    (Phrase.nodes? parts).map fun cases => .node (e.node (.switchStatement discriminant cases))
  | _ => none

/-- One case: a test, which the default case does not have, and statements. The two kinds are told
apart by the word they begin with. -/
def switchCase (e : Extent) (parts : List Phrase) : Option Phrase := do
  let ns ← Phrase.nodes? parts
  if "default".toList.isPrefixOf e.text then
    some (.node (e.node (.switchCase none ns)))
  else
    match ns with
    | [] => none
    | test :: consequent => some (.node (e.node (.switchCase (some test) consequent)))

/-- What is imported under its own name. -/
def namespaceImport (e : Extent) : List Phrase → Option Phrase :=
  withOne e .importNamespaceSpecifier

/-- A name from a module, and the name it is bound to. -/
def importSpecifier (e : Extent) : List Phrase → Option Phrase
  | [.node imported] => some (.node (e.node (.importSpecifier imported imported)))
  | [.node imported, .node bound] => some (.node (e.node (.importSpecifier imported bound)))
  | _ => none

/-- The specifiers of an import; a name alone stands for the default. -/
def importClause : List Phrase → Option Phrase
  | [] => some (.nodes [])
  | .node n :: parts => do
    let specifier := match n.form with
      | .identifier _ => Node.mk (.importDefaultSpecifier n) n.site
      | _ => n
    match ← importClause parts with
    | .nodes ns => some (.nodes (specifier :: ns))
    | _ => none
  | .nodes ms :: parts => do
    match ← importClause parts with
    | .nodes ns => some (.nodes (ms ++ ns))
    | _ => none
  | _ => none

/-- An import with its specifiers, if there are any. -/
def importDeclaration (e : Extent) : List Phrase → Option Phrase
  | [.node source] => some (.node (e.node (.importDeclaration [] source)))
  | [.nodes specifiers, .node source] =>
    some (.node (e.node (.importDeclaration specifiers source)))
  | _ => none

/-- A name, and the name it is exported under. -/
def exportSpecifier (e : Extent) : List Phrase → Option Phrase
  | [.node bound] => some (.node (e.node (.exportSpecifier bound bound)))
  | [.node bound, .node exported] => some (.node (e.node (.exportSpecifier bound exported)))
  | _ => none

/-- What a module is without a name. -/
def exportDefault : List Phrase → Option Phrase
  | [.node n] => some (.exported (.exportDefaultDeclaration n))
  | _ => none

/-- Names to export, perhaps from another module. A module is named by a literal. -/
def exportList (parts : List Phrase) : Option Phrase := do
  let ns ← Phrase.nodes? parts
  match ns.getLast? with
  | none => some (.exported (.exportNamedDeclaration none [] none))
  | some last =>
    match last.form with
    | .literal .. => some (.exported (.exportNamedDeclaration none ns.dropLast (some last)))
    | _ => some (.exported (.exportNamedDeclaration none ns none))

/-- All that another module exports, perhaps under a name. -/
def exportAll : List Phrase → Option Phrase
  | [.node source] => some (.exported (.exportAllDeclaration none source))
  | [.node exported, .node source] =>
    some (.exported (.exportAllDeclaration (some exported) source))
  | _ => none

/-- An export; a declaration may be exported as it stands. -/
def exportDeclaration (e : Extent) : List Phrase → Option Phrase
  | [.exported f] => some (.node (e.node f))
  | [.node declaration] =>
    some (.node (e.node (.exportNamedDeclaration (some declaration) [] none)))
  | _ => none

end ScriptTyping.Reading
