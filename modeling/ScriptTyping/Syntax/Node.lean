import ScriptTyping.Syntax.Form

/-!
# The syntax tree

A node has a form and a site: where it begins, and what it covers. `Node.preorder` lists a node and
all below it, each before its children, and `Node.outline` writes the same walk with one line to a
node, indented by its depth.
-/

namespace ScriptTyping

/-- A node of the syntax tree. -/
inductive Node where
  | mk (form : Form Node) (site : Site)

namespace Node

/-- What a node is. -/
def form : Node → Form Node
  | mk f _ => f

/-- Where a node stands. -/
def site : Node → Site
  | mk _ s => s

/-- The place where a node begins, if it is known. -/
def location? (n : Node) : Option Location :=
  n.site.location

/-- The stretch of the source that a node covers, if it is known. -/
def span? (n : Node) : Option Span :=
  n.site.span

/-- The place of a node where one has to be told: it says nothing if this is unknown. -/
def location (n : Node) : Location :=
  n.location?.getD default

/-- The child nodes in order. -/
def children (n : Node) : List Node :=
  n.form.children

/-- The name of a node's form. -/
def label (n : Node) : String :=
  n.form.label

/-- The text that a node covers. -/
def sourceText? (n : Node) (source : String) : Option String :=
  n.span?.bind (·.slice? source)

/-- The name of an identifier. -/
def name? (n : Node) : Option String :=
  match n.form with
  | .identifier name => some name
  | _ => none

/-- A child is smaller than its node. -/
theorem sizeOf_lt_of_mem_children {n c : Node} (h : c ∈ n.children) : sizeOf c < sizeOf n := by
  obtain ⟨f, s⟩ := n
  have := Form.sizeOf_lt_of_mem_children (f := f) h
  simp only [mk.sizeOf_spec]
  omega

/-- A node and all nodes below it, each before its children. -/
def preorder (n : Node) : List Node :=
  n :: n.children.attach.flatMap fun ⟨c, _⟩ => preorder c
  termination_by sizeOf n
  decreasing_by exact sizeOf_lt_of_mem_children ‹_›

/-- A walk is the node and the walks of its children. -/
theorem preorder_eq (n : Node) : n.preorder = n :: n.children.flatMap preorder := by
  rw [preorder]
  congr 1
  rw [List.flatMap_subtype (fun c _ => rfl)]
  simp [List.unattach_attach]

/-- The line of one node in an outline. -/
def outlineLine (depth : Nat) (n : Node) : String :=
  let detail := match n.form with
    | .identifier name => " " ++ name
    | .literal _ raw => " " ++ raw
    | _ => ""
  let stretch := match n.span? with
    | some s => " [" ++ toString s.start.offset ++ ".." ++ toString s.stop.offset ++ ")"
    | none => ""
  String.ofList (List.replicate (2 * depth) ' ') ++ n.label ++ detail ++ stretch ++ "\n"

/-- The lines of a node and of all below it. -/
def outlineFrom (depth : Nat) (n : Node) : String :=
  outlineLine depth n ++
    String.join (n.children.attach.map fun ⟨c, _⟩ => outlineFrom (depth + 1) c)
  termination_by sizeOf n
  decreasing_by exact sizeOf_lt_of_mem_children ‹_›

/-- One line for each node of a walk, indented by two spaces for each level. -/
def outline (n : Node) : String :=
  outlineFrom 0 n

end Node

end ScriptTyping
