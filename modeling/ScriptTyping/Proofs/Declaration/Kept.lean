import ScriptTyping.Proofs.Reading.Composed

/-!
# Declarations of phrases

`Node.declarations` lists the declarations of variables and functions in a syntax tree in the order of
a walk, and `Phrase.declarations` those in a phrase. The phrase that the parts of a rule make up has
the declarations of the parts, in their order; a declaration comes before them, and some parts that
are read as two nodes have theirs listed twice (`accounted_of_phrase?`).
-/

namespace ScriptTyping

namespace Node

/-- The declarations of variables and functions among a node and the nodes below it, in the order of
a walk. -/
def declarations (n : Node) : List Node :=
  n.preorder.filter (·.form.declares)

lemma declarations_mk (f : Form Node) (s : Site) :
    (mk f s).declarations =
      (if f.declares then [mk f s] else []) ++ f.children.flatMap declarations := by
  rw [declarations, preorder_eq, List.filter_cons, List.filter_flatMap]
  change (if f.declares then mk f s :: f.children.flatMap declarations
    else f.children.flatMap declarations) = _
  split
  all_goals rfl

lemma declarations_of_plain {f : Form Node} (s : Site) (plain : f.declares = false) :
    (mk f s).declarations = f.children.flatMap declarations := by
  simp [declarations_mk, plain]

end Node

namespace Phrase

/-- The declarations in a phrase. -/
def declarations (p : Phrase) : List Node :=
  p.inner.flatMap Node.declarations

end Phrase

namespace Reading

/-- The declarations in several phrases. -/
def declarationsOf (parts : List Phrase) : List Node :=
  parts.flatMap Phrase.declarations

/-- A phrase has the declarations of its parts. -/
def Keeps (parts : List Phrase) (p : Phrase) : Prop :=
  p.declarations = declarationsOf parts

/-- A phrase has the declarations of its parts, and some of the first ones twice. -/
def Doubles (parts : List Phrase) (p : Phrase) : Prop :=
  ∃ before after, declarationsOf parts = before ++ after ∧
    p.declarations = before ++ (before ++ after)

/-- A phrase is a declaration that covers its match, before those of its parts. -/
def Declares (e : Extent) (parts : List Phrase) (p : Phrase) : Prop :=
  ∃ f, p = .node (e.node f) ∧ p.declarations = e.node f :: declarationsOf parts

lemma Keeps.doubles {parts : List Phrase} {p : Phrase} (h : Keeps parts p) : Doubles parts p :=
  ⟨[], _, rfl, h⟩

section Parts

variable {parts : List Phrase}

@[simp] lemma declarationsOf_nil : declarationsOf [] = [] := rfl

@[simp] lemma declarationsOf_cons (p : Phrase) (parts : List Phrase) :
    declarationsOf (p :: parts) = p.declarations ++ declarationsOf parts := rfl

lemma declarationsOf_append (ps qs : List Phrase) :
    declarationsOf (ps ++ qs) = declarationsOf ps ++ declarationsOf qs :=
  List.flatMap_append

@[simp] lemma declarations_node (n : Node) : (Phrase.node n).declarations = n.declarations := by
  simp [Phrase.declarations, Phrase.inner]

/-- The declarations of several phrases are those of their nodes. -/
lemma declarationsOf_eq (parts : List Phrase) :
    declarationsOf parts = (innerOf parts).flatMap Node.declarations :=
  List.flatMap_assoc.symm

/-- A node for a block has the declarations of the block. -/
lemma declarations_whole (p : Phrase) : p.whole.flatMap Node.declarations = p.declarations := by
  cases p
  case block b =>
    rw [Phrase.whole, List.flatMap_singleton, Node.declarations_of_plain _ rfl]
    rfl
  all_goals rfl

lemma declarationsOf_eq_whole (parts : List Phrase) :
    declarationsOf parts = (wholeOf parts).flatMap Node.declarations := by
  rw [wholeOf, List.flatMap_assoc, declarationsOf]
  exact congrArg (parts.flatMap ·) (funext fun p => (declarations_whole p).symm)

/-- The declarations of a node that is made of a match are those of its children, unless it is a
declaration itself. -/
lemma keeps_made {e : Extent} {f : Form Node} {parts : List Phrase} :
    Keeps parts (.node (e.node f)) ↔ (if f.declares then [e.node f] else []) ++
      f.children.flatMap Node.declarations = declarationsOf parts := by
  rw [Keeps, declarations_node, Extent.node, Node.declarations_mk]

/-- To put nodes below a new one keeps the declarations in them. -/
lemma declarations_of_wraps {xs ys : List Item} (h : Wraps xs ys) :
    (nodesOf ys).flatMap Node.declarations = (nodesOf xs).flatMap Node.declarations := by
  obtain ⟨-, joins⟩ := h
  rename_i before inside after k n
  have own : k.declarations = (nodesOf inside).flatMap Node.declarations := by
    rw [← joins.children]
    obtain ⟨f, s⟩ := k
    exact Node.declarations_of_plain s joins.new.declares
  simp [own]

lemma declarations_of_gathers {xs ys : List Item} (h : Gathers xs ys) :
    (nodesOf ys).flatMap Node.declarations = (nodesOf xs).flatMap Node.declarations := by
  induction h with
  | refl => rfl
  | tail _ step ih => rw [declarations_of_wraps step, ih]

end Parts

section Rules

variable {e : Extent} {parts : List Phrase} {p : Phrase} {r : Rule}

/-- The declarations in a node that covers a match. -/
lemma Covers.declarations {declares : Bool} (h : Covers declares e parts p) :
    ∃ f, p = .node (e.node f) ∧
      p.declarations = (if declares then [e.node f] else []) ++ declarationsOf parts := by
  obtain ⟨f, rfl, new, children⟩ := h
  refine ⟨f, rfl, ?_⟩
  rw [declarations_node, Extent.node, Node.declarations_mk, new.declares]
  rcases children with children | children
  · rw [children, declarationsOf_eq]
  · rw [children, declarationsOf_eq_whole]

/-- What is composed of parts has their declarations. -/
lemma Composed.keeps (h : Composed e parts p) : Keeps parts p := by
  cases h with
  | covers h =>
    obtain ⟨f, -, e⟩ := h.declarations
    exact e
  | left left _ _ _ _ =>
    rw [Keeps, declarationsOf_eq, ← left]
    rfl
  | gathers gathers _ _ _ _ =>
    have same := declarations_of_gathers gathers
    rwa [nodesOf_map_node, nodesOf_itemsOf, ← declarationsOf_eq] at same
  | encloses =>
    rw [Keeps, declarationsOf_eq]
    rfl
  | alone h =>
    subst h
    exact (List.append_nil _).symm

/-- What a shorthand binding is read from is the first that it has. -/
lemma exists_declarations_shorthandKey (binding : Node) :
    ∃ after, binding.declarations = (shorthandKey binding).declarations ++ after := by
  obtain ⟨f, s⟩ := binding
  unfold shorthandKey
  split
  · rename_i left right form
    obtain rfl : f = .assignmentPattern left right := form
    exact ⟨right.declarations, by simp [Node.declarations_mk, Form.declares, Form.children]⟩
  · exact ⟨[], (List.append_nil _).symm⟩

/-- A name that is read twice has its declarations listed twice. -/
lemma Doubled.doubles (h : Doubled r e parts p) : Doubles parts p := by
  obtain ⟨f, key, n, rfl, new, inner, children, same⟩ := h
  obtain ⟨after, binds⟩ : ∃ after, n.declarations = key.declarations ++ after := by
    rcases same with rfl | ⟨-, rfl⟩
    · exact ⟨[], (List.append_nil _).symm⟩
    · exact exists_declarations_shorthandKey n
  refine ⟨key.declarations, after, by simp [declarationsOf_eq, inner, binds], ?_⟩
  simp [Extent.node, Node.declarations_of_plain _ new.declares, children, binds]

/-- The phrase of a rule without shorthands has the declarations of its parts. -/
lemma keeps_of_phrase? (sound : Sound parts)
    (declares : isDeclaration r = false) (shorthand : isShorthand r = false) (leaf : isLeaf r = false)
    (h : phrase? r e parts = some p) : Keeps parts p :=
  (composed_of_phrase? sound declares shorthand leaf h).keeps

/-- A leaf has no declarations. -/
lemma declarations_of_leaf (leaf : isLeaf r = true) (h : phrase? r e parts = some p) :
    p.declarations = [] := by
  rcases bare_of_leaf leaf h with ⟨none, -, -⟩ | ⟨f, rfl, bare, plain, -⟩
  · rw [Phrase.declarations, none, List.flatMap_nil]
  · rw [declarations_node, Extent.node, Node.declarations_of_plain _ plain, bare, List.flatMap_nil]

/-- The match of a declaration stands for one, before those of its parts. -/
lemma declares_of_phrase? (declares : isDeclaration r = true) (h : phrase? r e parts = some p) :
    Declares e parts p :=
  (covers_of_phrase? declares h).declarations

/-- The phrase of any other rule with parts has the declarations of these, some perhaps twice. -/
lemma doubles_of_phrase? (sound : Sound parts)
    (declares : isDeclaration r = false) (leaf : isLeaf r = false) (h : phrase? r e parts = some p) :
    Doubles parts p := by
  cases shorthand : isShorthand r with
  | true => exact (doubled_of_phrase? shorthand h).elim (·.keeps.doubles) Doubled.doubles
  | false => exact (keeps_of_phrase? sound declares shorthand leaf h).doubles

/-- Where the declarations in a phrase come from: it is itself one, it has those of its parts, or it
has none. -/
def Accounted (r : Rule) (e : Extent) (parts : List Phrase) (p : Phrase) : Prop :=
  (isDeclaration r = true ∧ Declares e parts p) ∨ Doubles parts p ∨ p.declarations = []

/-- The phrase of a rule has the declarations of its parts, after itself if it is one. -/
theorem accounted_of_phrase? (sound : Sound parts)
    (h : phrase? r e parts = some p) : Accounted r e parts p := by
  cases declares : isDeclaration r with
  | true => exact .inl ⟨declares, declares_of_phrase? declares h⟩
  | false =>
    right
    cases leaf : isLeaf r with
    | true => exact .inr (declarations_of_leaf leaf h)
    | false => exact .inl (doubles_of_phrase? sound declares leaf h)

end Rules

end Reading

end ScriptTyping
