import ScriptTyping.Declaration.Collect
import ScriptTyping.Run.Log

/-!
# What is logged of declarations

Each finding is logged when it is made, a declaration of a name that has a variable is noted where it is
passed over, and in the end the declarations are counted.
-/

namespace ScriptTyping

/-- A record of the part of the program that collects declarations. -/
def collectorRecord (weight : Weight) (message : String) : LogRecord :=
  { weight, target := "typeify_core::analyzers::declarations::collector", message }

/-- The record of a finding. -/
def Problem.logged (p : Problem) : LogRecord :=
  collectorRecord (if p.level = .info then .info else .warn) p.message

/-- The record of a declaration that is passed over. -/
def redeclared (name : String) : LogRecord :=
  collectorRecord .debug ("'" ++ name ++ "' is already declared; keeping the first declaration")

namespace Table

/-- The records of the findings that a table has and an earlier one has not. -/
def news (before after : Table) : List LogRecord :=
  (after.findings.drop before.findings.length).map Problem.logged

/-- The name of a declarator, if it has a variable. -/
def known? (t : Table) (declarator : Node) : Option String :=
  match declarator.form with
  | .variableDeclarator id _ => id.name?.filter t.contains
  | _ => none

/-- What is logged of a declarator. -/
def logVariable (source : String) (kind : DeclarationKind) (t : Table) (declarator : Node) :
    List LogRecord :=
  match t.known? declarator with
  | some name => [redeclared name]
  | none => t.news (t.recordVariable source kind declarator)

/-- A step of a walk together with what is logged of it. -/
def logging (step : Table → Node → Table) (log : Table → Node → List LogRecord)
    (x : Table × List LogRecord) (n : Node) : Table × List LogRecord :=
  (step x.1 n, x.2 ++ log x.1 n)

/-- What is logged of a node. -/
def logNode (source : String) (t : Table) (n : Node) : List LogRecord :=
  match n.form with
  | .variableDeclaration kind declarations =>
    (declarations.foldl (logging (recordVariable source kind) (logVariable source kind)) (t, [])).2
  | _ => t.news (t.record source n)

/-- The record that counts the declarations of a script. -/
def counted (t : Table) (name : String) : LogRecord :=
  collectorRecord .debug ("collected " ++ toString t.bindings.length ++ " variables and " ++
    toString t.routines.length ++ " functions from " ++ name)

end Table

/-- What is logged while the declarations of a program are collected. -/
def collectionLog (program : Node) (source name : String) : List LogRecord :=
  let (t, log) := program.preorder.foldl (Table.logging (Table.record source) (Table.logNode source))
    (Table.empty, [])
  log ++ [t.counted name]

end ScriptTyping
