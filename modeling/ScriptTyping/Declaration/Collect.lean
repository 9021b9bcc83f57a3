import ScriptTyping.Declaration.Finding
import ScriptTyping.Declaration.Table
import ScriptTyping.Inference

/-!
# The declarations of a program

`collect` walks a syntax tree and records each declaration of variables and each declaration of a
function where the walk meets it. A variable is recorded with its first declaration only.
-/

namespace ScriptTyping

namespace Node

/-- Whether a first value is copied as it stands: a literal, an array, an object, a template, or a
number with a sign. -/
def isCopied (n : Node) : Bool :=
  match n.form with
  | .literal .. | .arrayExpression _ | .objectExpression _ | .templateLiteral _ => true
  | .unaryExpression .minus argument | .unaryExpression .plus argument =>
    match argument.form with
    | .literal (.number _) _ => true
    | _ => false
  | _ => false

/-- A parameter as it is declared. A default is left out; a pattern is named by its text. -/
def parameter (source : String) (n : Node) : Parameter :=
  match _form : n.form with
  | .identifier name => .single name
  | .assignmentPattern left _ => parameter source left
  | .restElement argument => .rest (parameter source argument).name
  | _ => .single ((n.sourceText? source).getD "arg")
  termination_by sizeOf n
  decreasing_by
    all_goals exact sizeOf_lt_of_mem_children (by simp [children, _form, Form.children])

end Node

namespace Block

/-- The stretch of bytes from the first statement to the end of the last. -/
def range? (b : Block Node) : Option (Nat × Nat) :=
  (Span.join? (b.statements.head?.bind Node.span?) (b.statements.getLast?.bind Node.span?)).map
    fun s => (s.start.offset, s.stop.offset)

/-- The kind of what the first `return` among the statements gives back. -/
def returns (b : Block Node) : Kind :=
  (b.statements.findSome? fun n =>
    match n.form with
    | .returnStatement argument => some (Node.kindOf argument)
    | _ => none).getD .void

end Block

namespace Table

/-- Records a finding about a node. -/
def tell (t : Table) (f : Finding) (n : Node) : Table :=
  t.addFinding (f.problem n)

/-- The finding about a constant whose value is not copied, and the node it is about. -/
def constantFinding (name : String) (declarator : Node) : Option Node → Finding × Node
  | some init => (.computedConstant name, init)
  | none => (.emptyConstant name, declarator)

/-- Records the variable of a name with its first value, unless the name has one, and tells what is
worth telling about it. -/
def recordNamed (source : String) (kind : DeclarationKind) (t : Table) (declarator : Node)
    (name : String) (init : Option Node) : Table :=
  if t.contains name then t
  else
    let type := Node.kindOf init
    let t := match init with
      | some array => if array.isMixed then t.tell (.mixedArray name type) array else t
      | none => t
    let value := (init.filter Node.isCopied).bind (·.sourceText? source)
    let t :=
      if kind = .const ∧ value = none then
        let (finding, about) := constantFinding name declarator init
        t.tell finding about
      else t
    t.insert { name, kind, type, value, location := declarator.location? }

/-- Records what a declarator declares. -/
def recordVariable (source : String) (kind : DeclarationKind) (t : Table) (declarator : Node) :
    Table :=
  match declarator.form with
  | .variableDeclarator id init =>
    match id.name? with
    | some name => t.recordNamed source kind declarator name init
    | none => t.tell (.destructured ((id.sourceText? source).getD "pattern")) declarator
  | _ => t

/-- Records a function. -/
def recordFunction (source : String) (t : Table) (n : Node) (f : Function Node) : Table :=
  let name := (f.id.bind Node.name?).getD Routine.anonymous
  let range := f.body.range?
  let t := if range.isNone then t.tell (.emptyBody name) n else t
  t.addRoutine {
    name
    params := f.params.map (Node.parameter source)
    range
    returns := if f.isGenerator || f.isAsync then .any else f.body.returns
    location := n.location? }

/-- Records what a node declares. -/
def record (source : String) (t : Table) (n : Node) : Table :=
  match n.form with
  | .variableDeclaration kind declarations => declarations.foldl (recordVariable source kind) t
  | .functionDeclaration f => t.recordFunction source n f
  | _ => t

end Table

/-- The declarations of a program in the order of a walk through its syntax tree. -/
def collect (program : Node) (source : String) : Table :=
  program.preorder.foldl (Table.record source) Table.empty

end ScriptTyping
