import ScriptTyping.Kind
import ScriptTyping.Number.Layout
import ScriptTyping.Syntax.Node

/-!
# The kind of an expression

`Node.kind` tells the kind of an expression from its shape alone: a literal has the kind of its
value, an array that of its first element, an object one entry for each key that is spelled out, and
an arithmetic operation is a number. All else is not known.
-/

namespace ScriptTyping

/-- The kind of a literal. -/
def LiteralValue.kind : LiteralValue → Kind
  | number _ => .number
  | string _ => .string
  | boolean _ => .boolean
  | null => .null
  | regex .. | bigint _ => .any

namespace Kind

/-- Adds an entry. A key that is there already keeps its place and takes the new kind. -/
def withEntry (entries : List (String × Kind)) (entry : String × Kind) : List (String × Kind) :=
  if entries.any fun e => e.1 == entry.1 then
    entries.map fun e => if e.1 == entry.1 then entry else e
  else
    entries ++ [entry]

end Kind

namespace Node

/-- The name that a key spells out: a plain name, or a string or a number as a literal. A number
spells its digits. -/
def keyName? (key : Node) (computed : Bool) : Option String :=
  match key.form with
  | .identifier name => if computed then none else some name
  | .literal (.string s) _ => some s
  | .literal (.number m) _ => some m.plainText
  | _ => none

/-- The value of a property and the name of its key, if it spells one out. -/
def namedValue? (property : Node) : Option (String × Node) :=
  match property.form with
  | .property key value _ _ _ computed => (key.keyName? computed).map fun name => (name, value)
  | _ => none

theorem sizeOf_lt_of_namedValue? {p v : Node} {name : String} (h : p.namedValue? = some (name, v)) :
    sizeOf v < sizeOf p := by
  unfold namedValue? at h
  split at h
  · rename_i key value kind method shorthand computed form
    obtain ⟨_, _, e⟩ := Option.map_eq_some_iff.1 h
    obtain ⟨_, rfl⟩ := Prod.mk.inj e
    exact sizeOf_lt_of_mem_children (by simp [children, form, Form.children])
  · cases h

/-- The kind of an expression. -/
def kind (n : Node) : Kind :=
  match _form : n.form with
  | .literal value _ => value.kind
  | .arrayExpression [] => .array .any
  | .arrayExpression (none :: _) => .array .any
  | .arrayExpression (some first :: _) => .array first.kind
  | .objectExpression properties =>
    .object (properties.attach.foldl (fun entries ⟨p, _⟩ =>
      match _entry : p.namedValue? with
      | some (name, value) => Kind.withEntry entries (name, value.kind)
      | none => entries) [])
  | .binaryExpression operator _ _ => if operator.isArithmetic then .number else .any
  | _ => .any
  termination_by sizeOf n
  decreasing_by
    · exact sizeOf_lt_of_mem_children (by simp [children, _form, Form.children])
    · have inner := sizeOf_lt_of_namedValue? _entry
      have outer : sizeOf p < sizeOf n :=
        sizeOf_lt_of_mem_children (by simpa [children, _form, Form.children])
      omega

/-- The kind of an expression that may be missing. -/
def kindOf : Option Node → Kind
  | some n => n.kind
  | none => .any

/-- Whether an array has elements of another kind than its first. -/
def isMixed (n : Node) : Bool :=
  match n.form with
  | .arrayExpression (first :: rest) => rest.any fun e => kindOf e ≠ kindOf first
  | _ => false

end Node

end ScriptTyping
