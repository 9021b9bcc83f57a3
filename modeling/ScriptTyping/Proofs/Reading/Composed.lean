import Mathlib.Logic.Relation
import ScriptTyping.Proofs.Grammar.Spelling
import ScriptTyping.Proofs.Reading.Fits

/-!
# What phrases are composed of

The phrase that the parts of a rule make up holds the nodes of the parts in their order, and new nodes
over them (`composed_of_phrase?`): one node may cover the whole match, or neighbours may be gathered
below a node that begins where the first of them does, or the node before them, and that ends with the last
of them (`Combines`). An access, a block and an operator behind its operand end somewhere too, and so these
stand among the nodes as edges (`Item`). The rules of shorthands also read a name twice, and those of
declarations and leaves make nodes of their own.
-/

namespace ScriptTyping

namespace Form

/-- Whether a form is an identifier. -/
def isIdentifier {α : Type} : Form α → Bool
  | .identifier _ => true
  | _ => false

/-- The form of a node that is made over others: it is no identifier, and perhaps a declaration. -/
structure IsNew {α : Type} (declares : Bool) (f : Form α) : Prop where
  other : f.isIdentifier = false
  declares : f.declares = declares

/-- Whether a form is an operation on two operands. -/
def isOperation {α : Type} : Form α → Bool
  | .binaryExpression .. | .logicalExpression .. => true
  | _ => false

/-- Whether nodes of a form may be made over neighbours, of which they begin with the first. -/
def isFolded {α : Type} : Form α → Bool
  | .binaryExpression .. | .logicalExpression .. | .callExpression .. | .memberExpression ..
  | .updateExpression _ false _ | .importDefaultSpecifier _ => true
  | _ => false

/-- Whether nodes of a form may be made over neighbours, not over a whole match. The function that is the value
of a method begins with the key before them. -/
def isJoint {α : Type} : Form α → Bool
  | .functionExpression _ => true
  | f => f.isFolded

end Form

namespace Node

/-- The stretch that a node covers. It says nothing if this is unknown. -/
def range (n : Node) : Span :=
  n.span?.getD default

/-- It is known what a node covers, and this begins at the place of the node. -/
def Placed (n : Node) : Prop :=
  n.site = { location := some n.range.start, span := some n.range }

lemma Placed.span {n : Node} (h : n.Placed) : n.span? = some n.range :=
  congrArg Site.span h

lemma Placed.location {n : Node} (h : n.Placed) : n.location? = some n.range.start :=
  congrArg Site.location h

/-- A node that goes on from an operand begins with it. -/
lemma Placed.siteTo {n : Node} (h : n.Placed) (s : Span) :
    n.siteTo (some s) = { location := some n.range.start, span := some (n.range.join s) } := by
  rw [Node.siteTo, h.location, h.span]
  rfl

end Node

/-- What stands in a phrase: a node, or a phrase that is no node but ends somewhere. -/
inductive Item where
  | node (n : Node)
  | edge (p : Phrase)

namespace Phrase

/-- Where a block, an access or an operator ends. -/
def stop? : Phrase → Option Location
  | block b => b.span.map (·.stop)
  | access a => some a.span.stop
  | update _ span => some span.stop
  | _ => none

end Phrase

namespace Item

/-- Where an item ends. It says nothing if this is unknown. -/
def stop : Item → Location
  | node n => n.range.stop
  | edge p => p.stop?.getD default

/-- It is known where an item stands. -/
def Placed : Item → Prop
  | node n => n.Placed
  | edge p => p.stop?.isSome = true

end Item

namespace Phrase

/-- The nodes of a phrase in order. -/
def inner : Phrase → List Node
  | node n | heritage n | finalizer n | forInit n | forTest n | forUpdate n | shorthand n => [n]
  | key n _ => [n]
  | nodes ns => ns
  | slot n => n.toList
  | block b => b.statements
  | access { kind := .call arguments, .. } => arguments
  | access { kind := .member name, .. } => [name]
  | access { kind := .index expression, .. } => [expression]
  | method m => [m.key, m.value]
  | field name _ value => name :: value.toList
  | forClassic a b c => a.toList ++ b.toList ++ c.toList
  | forEach left _ right => [left, right]
  | exported f => f.children
  | finish | token _ | update .. => []

/-- The nodes of a phrase in order, where the statements of a block are below a node for the block. -/
def whole : Phrase → List Node
  | block b => [.mk (.blockStatement b.statements) { location := b.span.map (·.start), span := b.span }]
  | p => p.inner

/-- Whether a phrase is what is exported. -/
def isExported : Phrase → Bool
  | exported _ => true
  | _ => false

/-- Whether a phrase holds nodes for the rule around it: it is no node, no block, and not what is exported. -/
def isPart : Phrase → Bool
  | node _ | block _ | exported _ => false
  | _ => true

/-- A phrase that has a span, but is no node. -/
def edges : Phrase → List Phrase
  | block b => [block b]
  | access a => [access a]
  | update operator span => [update operator span]
  | _ => []

lemma eq_of_mem_edges {p q : Phrase} (h : q ∈ p.edges) : q = p := by
  cases p
  case block | access | update => exact List.mem_singleton.1 h
  all_goals cases h

/-- The nodes of a phrase, and its edge behind them. -/
def items (p : Phrase) : List Item :=
  p.inner.map .node ++ p.edges.map .edge

end Phrase

namespace Reading

/-- The nodes of several phrases. -/
def innerOf (parts : List Phrase) : List Node :=
  parts.flatMap Phrase.inner

/-- The nodes of several phrases, with those for blocks. -/
def wholeOf (parts : List Phrase) : List Node :=
  parts.flatMap Phrase.whole

/-- The nodes among items. -/
def nodesOf (xs : List Item) : List Node :=
  xs.filterMap fun
    | .node n => some n
    | .edge _ => none

/-- The items of several phrases. -/
def itemsOf (parts : List Phrase) : List Item :=
  parts.flatMap Phrase.items

/-- A node is made over neighbours that stand behind other items. -/
inductive Combines (before : List Item) : List Item → Node → Prop where
  /-- An operation is made over its two operands. -/
  | operation {operator left right k} : combine operator left right = some k →
      Combines before [.node left, .node right] k
  /-- An access is made over its object and what it is accessed by. -/
  | access (a object) : Combines before (.node object :: (Phrase.access a).items) (a.apply object)
  /-- An update is made over its operand and the operator behind it. -/
  | update (operator span object) : Combines before [.node object, .edge (.update operator span)]
      (.mk (.updateExpression operator false object) (object.siteTo (some span)))
  /-- The value of a method is made over its parameters and its body, and begins at the key before them. -/
  | value {e key f} : .node key ∈ before.getLast? → f.id = none →
      Combines before ((f.params ++ f.body.statements).map .node ++ [.edge (.block f.body)])
        (.mk (.functionExpression f) (methodSite e key f.body))
  /-- The specifier of a default import is made over its name. -/
  | name (n) : Combines before [.node n] (.mk (.importDefaultSpecifier n) n.site)

/-- A node over neighbours begins with the given node: the first of the items, or the key before the value of a
method. It ends with the last of the items, which is the second operand of an operation. -/
structure Joins (k n : Node) (before inside : List Item) : Prop where
  new : k.form.IsNew false
  joint : k.form.isJoint = true
  children : k.children = nodesOf inside
  near : .node n ∈ inside.head? ∨ k.form.isFolded = false ∧ .node n ∈ before.getLast?
  last : k.form.isOperation = true → ∃ m, .node m ∈ inside.getLast?
  placed : k.Placed
  start : k.range.start = n.range.start
  stop : k.range.stop ∈ inside.getLast?.map Item.stop

/-- The nodes among neighbours in a list of items are put below a new node. -/
inductive Wraps : List Item → List Item → Prop where
  | intro {before inside after : List Item} {k n : Node} (makes : Combines before inside k)
      (joins : Joins k n before inside) : Wraps (before ++ inside ++ after) (before ++ .node k :: after)

/-- Neighbours in a list of items are put below new nodes, time after time. -/
def Gathers : List Item → List Item → Prop :=
  Relation.ReflTransGen Wraps

/-- A new node covers a match, and has the nodes of the parts below it. -/
def Covers (declares : Bool) (e : Extent) (parts : List Phrase) (p : Phrase) : Prop :=
  ∃ f : Form Node, p = .node (e.node f) ∧ f.IsNew declares ∧
    (f.children = innerOf parts ∨ f.children = wholeOf parts)

/-- What is known of the parts that the matches below a match stand for: of these no export is an identifier or a
declaration itself, and it is known where all their items stand. -/
structure Sound (parts : List Phrase) : Prop where
  exports : ∀ f, .exported f ∈ parts → f.IsNew false
  placed : ∀ x ∈ itemsOf parts, x.Placed

/-- What a phrase is composed of, if it is no declaration and reads nothing twice. -/
inductive Composed (e : Extent) (parts : List Phrase) : Phrase → Prop where
  /-- A new node covers the match. -/
  | covers {p} : Covers false e parts p → Composed e parts p
  /-- The nodes of the parts are left, perhaps in a phrase that ends where the match does. -/
  | left {p} : p.inner = innerOf parts → (∀ q ∈ p.edges, q.stop? = some e.span.stop) →
      p.whole = p.inner → (∀ f, p = .exported f → f.IsNew false) → (∀ n, p ≠ .node n) → Composed e parts p
  /-- The nodes of the parts are gathered. If only one is left, the first part is a node. -/
  | gathers {p} : Gathers (itemsOf parts) (p.inner.map .node) → p.edges = [] → p.whole = p.inner →
      p.isExported = false → (∀ n, p = .node n → ∃ m rest, parts = .node m :: rest) → Composed e parts p
  /-- The nodes of the parts are the statements of a block that covers the match. -/
  | encloses : Composed e parts (.block { statements := innerOf parts, span := some e.span })
  /-- The only part is left. -/
  | alone {p} : parts = [p] → Composed e parts p

/-- A new node covers a match, and has the only node of the parts below it twice. What a binding takes
its value from is the binding without its default. -/
def Doubled (r : Rule) (e : Extent) (parts : List Phrase) (p : Phrase) : Prop :=
  ∃ (f : Form Node) (key n : Node), p = .node (e.node f) ∧ f.IsNew false ∧ innerOf parts = [n] ∧
    f.children = [key, n] ∧ (key = n ∨ r = .patternProperty ∧ key = shorthandKey n)

section Items

variable {xs ys before inside : List Item} {n k : Node}

@[simp] lemma nodesOf_nil : nodesOf [] = [] := rfl

@[simp] lemma nodesOf_node (n : Node) (xs : List Item) : nodesOf (.node n :: xs) = n :: nodesOf xs := rfl

@[simp] lemma nodesOf_edge (p : Phrase) (xs : List Item) : nodesOf (.edge p :: xs) = nodesOf xs := rfl

@[simp] lemma nodesOf_append : nodesOf (xs ++ ys) = nodesOf xs ++ nodesOf ys :=
  List.filterMap_append

@[simp] lemma nodesOf_map_node (ns : List Node) : nodesOf (ns.map .node) = ns := by
  induction ns with
  | nil => rfl
  | cons n ns ih => rw [List.map_cons, nodesOf_node, ih]

@[simp] lemma nodesOf_map_edge (ps : List Phrase) : nodesOf (ps.map .edge) = [] := by
  induction ps with
  | nil => rfl
  | cons p ps ih => rw [List.map_cons, nodesOf_edge, ih]

@[simp] lemma nodesOf_items (p : Phrase) : nodesOf p.items = p.inner := by
  simp [Phrase.items]

lemma mem_nodesOf : n ∈ nodesOf xs ↔ .node n ∈ xs := by
  rw [nodesOf, List.mem_filterMap]
  constructor
  · rintro ⟨x, hx, found⟩
    cases x with
    | node m =>
      cases found
      exact hx
    | edge p => cases found
  · exact fun h => ⟨_, h, rfl⟩

/-- The node that is the last item is the last node. -/
lemma mem_getLast?_nodesOf (h : .node n ∈ xs.getLast?) : n ∈ (nodesOf xs).getLast? := by
  obtain ⟨front, rfl⟩ := List.getLast?_eq_some_iff.1 h
  simp

lemma mem_head?_nodesOf (h : .node n ∈ xs.head?) : n ∈ (nodesOf xs).head? := by
  obtain ⟨rest, rfl⟩ := List.head?_eq_some_iff.1 h
  simp

lemma Gathers.refl (xs : List Item) : Gathers xs xs :=
  Relation.ReflTransGen.refl

lemma Gathers.trans {zs : List Item} (h₁ : Gathers xs ys) (h₂ : Gathers ys zs) : Gathers xs zs :=
  Relation.ReflTransGen.trans h₁ h₂

/-- A node before others stays so when items are put in front. -/
lemma mem_getLast?_prepend (h : .node n ∈ before.getLast?) (as : List Item) :
    .node n ∈ (as ++ before).getLast? := by
  rw [List.getLast?_append, h]
  rfl

lemma Combines.prepend (h : Combines before inside k) (as : List Item) : Combines (as ++ before) inside k := by
  cases h with
  | operation made => exact .operation made
  | access a object => exact .access a object
  | update operator span object => exact .update operator span object
  | value key anonymous => exact .value (mem_getLast?_prepend key as) anonymous
  | name n => exact .name n

lemma Wraps.prepend (h : Wraps xs ys) (as : List Item) : Wraps (as ++ xs) (as ++ ys) := by
  obtain ⟨makes, joins⟩ := h
  rw [← List.append_assoc, ← List.append_assoc, ← List.append_assoc]
  exact .intro (makes.prepend as)
    { joins with near := joins.near.imp_right fun ⟨folded, here⟩ => ⟨folded, mem_getLast?_prepend here as⟩ }

lemma Gathers.prepend (h : Gathers xs ys) (as : List Item) : Gathers (as ++ xs) (as ++ ys) :=
  Relation.ReflTransGen.lift (as ++ ·) (fun _ _ (step : Wraps _ _) => step.prepend as) _ _ h

/-- An operation is a new node over its operands. -/
lemma exists_of_combine {operator : String} {left right k : Node} (h : combine operator left right = some k) :
    ∃ f : Form Node, k = .mk f (left.siteTo right.span?) ∧ f.IsNew false ∧ f.isJoint = true ∧
      f.children = [left, right] := by
  unfold combine at h
  split at h
  · cases h
    exact ⟨_, rfl, ⟨rfl, rfl⟩, rfl, rfl⟩
  · obtain ⟨op, _, rfl⟩ := Option.map_eq_some_iff.1 h
    exact ⟨_, rfl, ⟨rfl, rfl⟩, rfl, rfl⟩

/-- A node that goes on from the first of the items begins with it. -/
lemma Joins.first {f : Form Node} {s : Span} (placed : n.Placed) (new : f.IsNew false)
    (joint : f.isJoint = true) (children : f.children = n :: nodesOf xs)
    (last : f.isOperation = true → ∃ m, .node m ∈ (Item.node n :: xs).getLast?)
    (stop : s.stop ∈ (Item.node n :: xs).getLast?.map Item.stop) :
    Joins (.mk f (n.siteTo (some s))) n before (.node n :: xs) where
  new
  joint
  children
  near := .inl rfl
  last
  placed := by
    rw [placed.siteTo]
    rfl
  start := by
    rw [placed.siteTo]
    rfl
  stop := by
    rw [placed.siteTo]
    exact stop

/-- The value of a method goes from the key to the end of the body. -/
lemma methodSite_of_placed {e : Extent} {key : Node} {body : Block Node} {s : Span} (placed : key.Placed)
    (known : body.span = some s) : methodSite e key body =
      { location := some key.range.start, span := some (key.range.join s) } := by
  rw [methodSite, placed.span, known]
  rfl

/-- What is made over placed neighbours is placed. -/
lemma Combines.exists_joins (h : Combines before inside k) (placedBefore : ∀ x ∈ before, x.Placed)
    (placedInside : ∀ x ∈ inside, x.Placed) : ∃ n, Joins k n before inside := by
  cases h with
  | @operation operator left right k made =>
    obtain ⟨f, rfl, new, joint, children⟩ := exists_of_combine made
    have first : left.Placed := placedInside _ List.mem_cons_self
    have second : right.Placed := placedInside (.node right) (by simp)
    rw [second.span]
    exact ⟨left, .first first new joint children (fun _ => ⟨right, rfl⟩) rfl⟩
  | access a object =>
    have first : object.Placed := placedInside _ List.mem_cons_self
    have ends : a.span.stop ∈ (Item.node object :: (Phrase.access a).items).getLast?.map Item.stop := by
      simp [Phrase.items, Phrase.edges, List.getLast?_cons, Item.stop, Phrase.stop?]
    obtain ⟨kind, isOptional, span⟩ := a
    have inner : nodesOf (Phrase.items (.access ⟨kind, isOptional, span⟩)) =
        (Phrase.access ⟨kind, isOptional, span⟩).inner := nodesOf_items _
    cases kind
    all_goals exact ⟨object, .first first ⟨rfl, rfl⟩ rfl (by rw [inner]; rfl) (by rintro ⟨⟩) ends⟩
  | update operator span object =>
    have first : object.Placed := placedInside _ List.mem_cons_self
    exact ⟨object, .first first ⟨rfl, rfl⟩ rfl rfl (by rintro ⟨⟩) rfl⟩
  | @value e key f last anonymous =>
    have first : key.Placed := placedBefore _ (List.mem_of_getLast? last)
    -- A method begins at its key, which stands in front of what its value is made of.
    have body : (Item.edge (.block f.body)).Placed := placedInside _ (by simp)
    obtain ⟨s, known⟩ : ∃ s, f.body.span = some s := by
      simpa [Item.Placed, Phrase.stop?, Option.isSome_iff_exists] using body
    rw [methodSite_of_placed first known]
    refine ⟨key, ⟨rfl, rfl⟩, rfl, ?_, .inr ⟨rfl, last⟩, (by rintro ⟨⟩), rfl, rfl, ?_⟩
    · simp [Node.children, Node.form, Form.children, anonymous]
    · simp [Node.range, Node.span?, Node.site, Span.join, Item.stop, Phrase.stop?, known]
  | name n =>
    have first : n.Placed := placedInside _ List.mem_cons_self
    exact ⟨n, ⟨rfl, rfl⟩, rfl, rfl, .inl rfl, (by rintro ⟨⟩), first, rfl, rfl⟩

/-- Neighbours in a list of placed items are put below a new node. -/
lemma Combines.gathers {after : List Item} (h : Combines before inside k)
    (placed : ∀ x ∈ before ++ inside, x.Placed) :
    Gathers (before ++ inside ++ after) (before ++ .node k :: after) := by
  obtain ⟨placedBefore, placedInside⟩ := List.forall_mem_append.1 placed
  obtain ⟨n, joins⟩ := h.exists_joins placedBefore placedInside
  exact Relation.ReflTransGen.single (.intro h joins)

/-- Neighbours at the front of a list of placed items are put below a new node. -/
lemma Combines.gathers_front {after : List Item} (h : Combines [] inside k)
    (placed : ∀ x ∈ inside, x.Placed) : Gathers (inside ++ after) (.node k :: after) :=
  h.gathers placed

/-- Neighbours at the end of a list of placed items are put below a new node. -/
lemma Combines.gathers_last (h : Combines before inside k)
    (placed : ∀ x ∈ before ++ inside, x.Placed) : Gathers (before ++ inside) (before ++ [.node k]) := by
  have step : Gathers (before ++ inside ++ []) (before ++ [.node k]) := h.gathers placed
  rwa [List.append_nil] at step

/-- What is gathered begins with the first of the nodes. -/
lemma Gathers.start (h : Gathers xs ys) :
    (nodesOf ys).head?.map (·.range.start) = (nodesOf xs).head?.map (·.range.start) := by
  induction h with
  | refl => rfl
  | tail steps step ih =>
    rw [← ih]
    obtain ⟨-, joins⟩ := step
    rename_i before inside after k n
    -- Only a step at the front of the list changes the first node.
    simp only [nodesOf_append, nodesOf_node, List.append_assoc, List.head?_append]
    cases first : (nodesOf before).head? with
    | some m => rfl
    | none =>
      rcases joins.near with head | ⟨-, last⟩
      · rw [mem_head?_nodesOf head]
        exact congrArg some joins.start
      · have none := List.head?_eq_none_iff.1 first
        have here := mem_getLast?_nodesOf last
        simp [none] at here

/-- What is gathered of placed items is placed. -/
lemma Gathers.placed (h : Gathers xs ys) (placed : ∀ x ∈ xs, x.Placed) : ∀ y ∈ ys, y.Placed := by
  induction h with
  | refl => exact placed
  | tail _ step ih =>
    obtain ⟨-, joins⟩ := step
    simp only [List.forall_mem_append, List.forall_mem_cons] at ih ⊢
    exact ⟨ih.1.1, joins.placed, ih.2⟩

end Items

section Parts

variable {parts rest : List Phrase} {p : Phrase}

@[simp] lemma innerOf_nil : innerOf [] = [] := rfl

@[simp] lemma innerOf_cons (p : Phrase) (parts : List Phrase) :
    innerOf (p :: parts) = p.inner ++ innerOf parts := rfl

lemma innerOf_append (ps qs : List Phrase) : innerOf (ps ++ qs) = innerOf ps ++ innerOf qs :=
  List.flatMap_append

@[simp] lemma itemsOf_nil : itemsOf [] = [] := rfl

@[simp] lemma itemsOf_cons (p : Phrase) (parts : List Phrase) :
    itemsOf (p :: parts) = p.items ++ itemsOf parts := rfl

@[simp] lemma nodesOf_itemsOf (parts : List Phrase) : nodesOf (itemsOf parts) = innerOf parts := by
  induction parts with
  | nil => rfl
  | cons p parts ih => simp [ih]

lemma map_of_nodes? {ns : List Node} (h : Phrase.nodes? parts = some ns) : parts = ns.map .node := by
  induction parts generalizing ns with
  | nil =>
    cases h
    rfl
  | cons p parts ih =>
    simp only [Phrase.nodes?, List.mapM_cons, Option.bind_eq_bind, Option.bind_eq_some_iff] at h ih
    obtain ⟨n, hn, ms, hms, e⟩ := h
    cases e
    cases p
    case node m =>
      cases hn
      rw [ih hms, List.map_cons]
    all_goals cases hn

/-- Nodes are those of the phrases that they are. -/
lemma innerOf_nodes {ns : List Node} (h : Phrase.nodes? parts = some ns) : innerOf parts = ns := by
  rw [map_of_nodes? h, innerOf, List.flatMap_map]
  exact List.flatMap_singleton' ns

/-- Holes are no nodes. -/
lemma innerOf_slots {os : List (Option Node)} (h : Phrase.slots? parts = some os) :
    innerOf parts = os.filterMap id := by
  induction parts generalizing os with
  | nil =>
    cases h
    rfl
  | cons p parts ih =>
    simp only [Phrase.slots?, List.mapM_cons, Option.bind_eq_bind, Option.bind_eq_some_iff] at h ih
    obtain ⟨o, ho, qs, hqs, e⟩ := h
    cases e
    cases p
    case slot n =>
      cases ho
      rw [innerOf_cons, ih hqs]
      cases o
      all_goals rfl
    all_goals cases ho

/-- The hole at the end of a list may be left out. -/
lemma filterMap_withoutLastHole (os : List (Option Node)) :
    (withoutLastHole os).filterMap id = os.filterMap id := by
  rw [withoutLastHole]
  split
  · split
    · rename_i last _
      obtain ⟨front, rfl⟩ := List.getLast?_eq_some_iff.1 last
      simp
    · rfl
  · rfl

/-- The marker that is taken is no node. -/
lemma innerOf_takeToken {w : String} {isThere : Bool}
    (h : Phrase.takeToken w parts = (isThere, rest)) : innerOf parts = innerOf rest := by
  revert h
  fun_cases Phrase.takeToken w parts
  all_goals
    intro h
    cases h
    rfl

lemma itemsOf_takeToken {w : String} {isThere : Bool}
    (h : Phrase.takeToken w parts = (isThere, rest)) : itemsOf parts = itemsOf rest := by
  revert h
  fun_cases Phrase.takeToken w parts
  all_goals
    intro h
    cases h
    rfl

lemma wholeOf_takeToken {w : String} {isThere : Bool}
    (h : Phrase.takeToken w parts = (isThere, rest)) : wholeOf parts = wholeOf rest := by
  revert h
  fun_cases Phrase.takeToken w parts
  all_goals
    intro h
    cases h
    rfl

lemma innerOf_takeNode {id : Option Node} (h : Phrase.takeNode parts = (id, rest)) :
    innerOf parts = id.toList ++ innerOf rest := by
  revert h
  fun_cases Phrase.takeNode parts
  all_goals
    intro h
    cases h
    rfl

lemma innerOf_takeNodes {ns : List Node} (h : Phrase.takeNodes parts = (ns, rest)) :
    innerOf parts = ns ++ innerOf rest := by
  revert h
  fun_cases Phrase.takeNodes parts
  all_goals
    intro h
    cases h
    rfl

lemma itemsOf_takeNodes {ns : List Node} (h : Phrase.takeNodes parts = (ns, rest)) :
    itemsOf parts = ns.map .node ++ itemsOf rest := by
  revert h
  fun_cases Phrase.takeNodes parts
  all_goals
    intro h
    cases h
    simp [Phrase.items, Phrase.inner, Phrase.edges]

lemma subset_of_takeToken {w : String} {isThere : Bool}
    (h : Phrase.takeToken w parts = (isThere, rest)) : rest ⊆ parts := by
  revert h
  fun_cases Phrase.takeToken w parts
  all_goals
    intro h
    cases h
    simp

/-- The node that is taken is one of the parts. -/
lemma subset_of_takeNode {id : Option Node}
    (h : Phrase.takeNode parts = (id, rest)) : (∀ n ∈ id, .node n ∈ parts) ∧ rest ⊆ parts := by
  revert h
  fun_cases Phrase.takeNode parts
  all_goals
    intro h
    cases h
    simp

/-- The nodes that are taken are those of one of the parts. -/
lemma subset_of_takeNodes {ns : List Node}
    (h : Phrase.takeNodes parts = (ns, rest)) : (ns = [] ∨ .nodes ns ∈ parts) ∧ rest ⊆ parts := by
  revert h
  fun_cases Phrase.takeNodes parts
  all_goals
    intro h
    cases h
    simp

end Parts

variable {e : Extent} {parts : List Phrase} {p : Phrase}

/-- A new node covers a match, and its children are the nodes of the parts. -/
lemma Composed.made {f : Form Node} (new : f.IsNew false) (children : f.children = innerOf parts) :
    Composed e parts (.node (e.node f)) :=
  .covers ⟨f, rfl, new, .inl children⟩

/-- The nodes of the parts are left. -/
lemma Composed.same (inner : p.inner = innerOf parts) (edges : ∀ q ∈ p.edges, q.stop? = some e.span.stop)
    (part : p.isPart = true) : Composed e parts p := by
  have whole : p.whole = p.inner := by
    cases p
    case block => cases part
    all_goals rfl
  refine .left inner edges whole ?_ ?_
  · rintro f rfl
    cases part
  · rintro n rfl
    cases part

/-- A node that is composed of parts covers the match, or begins with the first part. -/
lemma Composed.covers_or {k : Node} (h : Composed e parts (.node k)) :
    (∃ f, k = e.node f) ∨ ∃ m rest, parts = .node m :: rest ∧ k.range.start = m.range.start := by
  cases h with
  | covers covers =>
    obtain ⟨f, same, -⟩ := covers
    cases same
    exact .inl ⟨f, rfl⟩
  | left _ _ _ _ other => exact absurd rfl (other k)
  | gathers gathers _ _ _ first =>
    obtain ⟨m, rest, rfl⟩ := first k rfl
    exact .inr ⟨m, rest, rfl, Option.some.inj gathers.start⟩
  | alone one => exact .inr ⟨k, [], one, rfl⟩

section Statements

/-- A program covers its match. -/
lemma node_of_program (h : program e parts = some p) :
    p = .node (e.node (.program (innerOf parts))) := by
  unfold program at h
  split at h
  · rename_i last
    obtain ⟨front, rfl⟩ := List.getLast?_eq_some_iff.1 last
    obtain ⟨ns, hns, e⟩ := Option.bind_eq_some_iff.1 h
    cases e
    rw [List.dropLast_concat] at hns
    rw [innerOf_append, innerOf_nodes hns, innerOf_cons, innerOf_nil, Phrase.inner, List.append_nil,
      List.append_nil]
  · cases h

lemma composed_program (h : program e parts = some p) : Composed e parts p := by
  rw [node_of_program h]
  exact .made ⟨rfl, rfl⟩ rfl

lemma composed_variableDeclarator (h : variableDeclarator e parts = some p) : Composed e parts p := by
  unfold variableDeclarator at h
  split at h
  all_goals cases h
  all_goals exact .made ⟨rfl, rfl⟩ rfl

lemma composed_withOptional {form : Option Node → Form Node} (new : ∀ n, (form n).IsNew false)
    (children : ∀ n, (form n).children = n.toList) (h : withOptional e form parts = some p) :
    Composed e parts p := by
  unfold withOptional at h
  split at h
  all_goals cases h
  all_goals exact .made (new _) (children _)

lemma composed_withOne {form : Node → Form Node} (new : ∀ n, (form n).IsNew false)
    (children : ∀ n, (form n).children = [n]) (h : withOne e form parts = some p) :
    Composed e parts p := by
  unfold withOne at h
  split at h
  all_goals cases h
  all_goals exact .made (new _) (children _)

lemma composed_withTwo {form : Node → Node → Form Node} (new : ∀ a b, (form a b).IsNew false)
    (children : ∀ a b, (form a b).children = [a, b]) (h : withTwo e form parts = some p) :
    Composed e parts p := by
  unfold withTwo at h
  split at h
  all_goals cases h
  all_goals exact .made (new _ _) (children _ _)

/-- A form of any number of nodes. -/
lemma composed_withMany {form : List Node → Form Node} (new : ∀ ns, (form ns).IsNew false)
    (children : ∀ ns, (form ns).children = ns)
    (h : ((Phrase.nodes? parts).map fun ns => Phrase.node (e.node (form ns))) = some p) :
    Composed e parts p := by
  obtain ⟨ns, hns, rfl⟩ := Option.map_eq_some_iff.1 h
  exact .made (new ns) ((children ns).trans (innerOf_nodes hns).symm)

lemma composed_ifStatement (h : ifStatement e parts = some p) : Composed e parts p := by
  unfold ifStatement at h
  split at h
  all_goals cases h
  all_goals exact .made ⟨rfl, rfl⟩ rfl

lemma composed_forClassicHead (h : forClassicHead parts = some p) : Composed e parts p := by
  revert h
  fun_cases forClassicHead parts
  case case3 => nofun
  case' case1 => rename_i inits _ tests
  case' case2 => rename_i inits _ _ tests
  all_goals
    intro h
    cases h
    split at inits
    all_goals
      cases inits
      split at tests
      all_goals
        cases tests
        exact .same rfl (List.forall_mem_nil _) rfl

lemma composed_forEachHead (h : forEachHead parts = some p) : Composed e parts p := by
  unfold forEachHead at h
  split at h
  all_goals cases h
  all_goals exact .same rfl (List.forall_mem_nil _) rfl

lemma composed_forStatement (h : forStatement e parts = some p) : Composed e parts p := by
  revert h
  fun_cases forStatement e parts
  case case4 => nofun
  all_goals
    rename_i taken
    intro h
    cases h
    refine .made ⟨rfl, rfl⟩ ?_
    simp [innerOf_takeToken taken, Form.children, Phrase.inner]

lemma composed_catchClause (h : catchClause e parts = some p) : Composed e parts p := by
  unfold catchClause at h
  split at h
  all_goals cases h
  all_goals exact .made ⟨rfl, rfl⟩ rfl

lemma composed_finallyClause (h : finallyClause parts = some p) : Composed e parts p := by
  unfold finallyClause at h
  split at h
  all_goals cases h
  all_goals exact .same rfl (List.forall_mem_nil _) rfl

lemma composed_tryStatement (h : tryStatement e parts = some p) : Composed e parts p := by
  unfold tryStatement at h
  split at h
  all_goals cases h
  all_goals exact .made ⟨rfl, rfl⟩ rfl

lemma composed_switchStatement (h : switchStatement e parts = some p) : Composed e parts p := by
  unfold switchStatement at h
  split at h
  · obtain ⟨ns, hns, rfl⟩ := Option.map_eq_some_iff.1 h
    refine .made ⟨rfl, rfl⟩ ?_
    rw [innerOf_cons, innerOf_nodes hns]
    rfl
  · cases h

lemma composed_switchCase (h : switchCase e parts = some p) : Composed e parts p := by
  obtain ⟨ns, hns, h⟩ := Option.bind_eq_some_iff.1 h
  split at h
  · cases h
    exact .made ⟨rfl, rfl⟩ (innerOf_nodes hns).symm
  · split at h
    · cases h
    · cases h
      exact .made ⟨rfl, rfl⟩ (innerOf_nodes hns).symm

lemma composed_importDeclaration (h : importDeclaration e parts = some p) : Composed e parts p := by
  unfold importDeclaration at h
  split at h
  all_goals cases h
  all_goals exact .made ⟨rfl, rfl⟩ rfl

/-- The specifiers of a clause; the one for the default stands around its name. -/
lemma gathers_importClause (placed : ∀ x ∈ itemsOf parts, x.Placed) (h : importClause parts = some p) :
    ∃ ns, p = .nodes ns ∧ Gathers (itemsOf parts) (ns.map .node) := by
  induction parts generalizing p with
  | nil =>
    cases h
    exact ⟨[], rfl, .refl _⟩
  | cons q parts ih =>
    obtain ⟨first, others⟩ := List.forall_mem_append.1 placed
    cases q
    case node n =>
      simp only [importClause, Option.bind_eq_bind, Option.bind_eq_some_iff] at h
      obtain ⟨r, hr, h⟩ := h
      obtain ⟨ns, rfl, rest⟩ := ih others hr
      cases h
      refine ⟨_, rfl, (rest.prepend [.node n]).trans ?_⟩
      rw [List.map_cons]
      split
      · exact (Combines.name n).gathers_front first
      · exact .refl _
    case nodes ms =>
      simp only [importClause, Option.bind_eq_bind, Option.bind_eq_some_iff] at h
      obtain ⟨r, hr, h⟩ := h
      obtain ⟨ns, rfl, rest⟩ := ih others hr
      cases h
      have items : (Phrase.nodes ms).items = ms.map .node := List.append_nil _
      refine ⟨_, rfl, ?_⟩
      rw [itemsOf_cons, items, List.map_append]
      exact rest.prepend (ms.map .node)
    all_goals cases h

lemma composed_importClause (placed : ∀ x ∈ itemsOf parts, x.Placed) (h : importClause parts = some p) :
    Composed e parts p := by
  obtain ⟨ns, rfl, gathers⟩ := gathers_importClause placed h
  exact .gathers gathers rfl rfl rfl (by simp)

/-- What is exported is a new form over the nodes of the parts. -/
def Exports (parts : List Phrase) (p : Phrase) : Prop :=
  ∃ f : Form Node, p = .exported f ∧ f.IsNew false ∧ f.children = innerOf parts

lemma exports_exportDefault (h : exportDefault parts = some p) : Exports parts p := by
  unfold exportDefault at h
  split at h
  all_goals cases h
  exact ⟨_, rfl, ⟨rfl, rfl⟩, rfl⟩

lemma exports_exportList (h : exportList parts = some p) : Exports parts p := by
  obtain ⟨ns, hns, h⟩ := Option.bind_eq_some_iff.1 h
  rw [Exports, innerOf_nodes hns]
  split at h
  · rename_i none
    obtain rfl := List.getLast?_eq_none_iff.1 none
    cases h
    exact ⟨_, rfl, ⟨rfl, rfl⟩, rfl⟩
  · rename_i last
    obtain ⟨front, rfl⟩ := List.getLast?_eq_some_iff.1 last
    split at h
    all_goals
      cases h
      exact ⟨_, rfl, ⟨rfl, rfl⟩, by simp [Form.children]⟩

lemma exports_exportAll (h : exportAll parts = some p) : Exports parts p := by
  unfold exportAll at h
  split at h
  all_goals cases h
  all_goals exact ⟨_, rfl, ⟨rfl, rfl⟩, rfl⟩

lemma Exports.composed (h : Exports parts p) : Composed e parts p := by
  obtain ⟨f, rfl, new, children⟩ := h
  refine .left children (List.forall_mem_nil _) rfl (fun g same => ?_) (by simp)
  cases same
  exact new

/-- A declaration may be exported as it stands. -/
lemma composed_exportDeclaration (exports : ∀ f, .exported f ∈ parts → f.IsNew false)
    (h : exportDeclaration e parts = some p) : Composed e parts p := by
  unfold exportDeclaration at h
  split at h
  · cases h
    exact .made (exports _ (List.mem_singleton_self _)) (List.append_nil _).symm
  · cases h
    exact .made ⟨rfl, rfl⟩ rfl
  · cases h

/-- A name alone is read as the name and what it is bound to. -/
lemma doubled_importSpecifier (h : importSpecifier e parts = some p) :
    Composed e parts p ∨ Doubled .importSpecifier e parts p := by
  unfold importSpecifier at h
  split at h
  · cases h
    exact .inr ⟨_, _, _, rfl, ⟨rfl, rfl⟩, rfl, rfl, .inl rfl⟩
  · cases h
    exact .inl (.made ⟨rfl, rfl⟩ rfl)
  · cases h

lemma doubled_exportSpecifier (h : exportSpecifier e parts = some p) :
    Composed e parts p ∨ Doubled .exportSpecifier e parts p := by
  unfold exportSpecifier at h
  split at h
  · cases h
    exact .inr ⟨_, _, _, rfl, ⟨rfl, rfl⟩, rfl, rfl, .inl rfl⟩
  · cases h
    exact .inl (.made ⟨rfl, rfl⟩ rfl)
  · cases h

end Statements

section Functions

lemma covers_variableDeclaration (h : variableDeclaration e parts = some p) : Covers true e parts p := by
  unfold variableDeclaration at h
  split at h
  · obtain ⟨kind, -, h⟩ := Option.bind_eq_some_iff.1 h
    obtain ⟨ns, hns, h⟩ := Option.bind_eq_some_iff.1 h
    cases h
    exact ⟨_, rfl, ⟨rfl, rfl⟩, .inl (innerOf_nodes hns).symm⟩
  · cases h

lemma composed_bindingElement (h : bindingElement e parts = some p) : Composed e parts p := by
  unfold bindingElement at h
  split at h
  · cases h
    exact .alone rfl
  · cases h
    exact .made ⟨rfl, rfl⟩ rfl
  · cases h

/-- A name alone is read as a key and as what is bound to it, without its default. -/
lemma doubled_patternProperty (h : patternProperty e parts = some p) :
    Composed e parts p ∨ Doubled .patternProperty e parts p := by
  unfold patternProperty at h
  split at h
  · cases h
    exact .inl (.made ⟨rfl, rfl⟩ rfl)
  · split at h
    · cases h
      exact .inl (.alone rfl)
    · cases h
      exact .inr ⟨_, _, _, rfl, ⟨rfl, rfl⟩, rfl, rfl, .inr ⟨rfl, rfl⟩⟩
  · cases h

lemma composed_item (h : item parts = some p) : Composed e parts p := by
  unfold item at h
  split at h
  all_goals cases h
  all_goals exact .same rfl (List.forall_mem_nil _) rfl

lemma composed_list (h : list parts = some p) : Composed e parts p := by
  obtain ⟨ns, hns, rfl⟩ := Option.map_eq_some_iff.1 h
  exact .same (innerOf_nodes hns).symm (List.forall_mem_nil _) rfl

lemma composed_slots {form : List (Option Node) → Form Node} (new : ∀ os, (form os).IsNew false)
    (children : ∀ os, (form os).children = os.filterMap id)
    (h : ((Phrase.slots? parts).map fun os =>
      Phrase.node (e.node (form (withoutLastHole os)))) = some p) : Composed e parts p := by
  obtain ⟨os, hos, rfl⟩ := Option.map_eq_some_iff.1 h
  refine .made (new _) ?_
  rw [children, filterMap_withoutLastHole, innerOf_slots hos]

lemma composed_functionBody (h : functionBody e parts = some p) : Composed e parts p := by
  obtain ⟨ns, hns, rfl⟩ := Option.map_eq_some_iff.1 h
  obtain rfl := innerOf_nodes hns
  exact .encloses

/-- The children of a function are the nodes of its parts. -/
lemma innerOf_function {f : Function Node} (h : function parts = some f) :
    f.id.toList ++ f.params ++ f.body.statements = innerOf parts := by
  revert h
  fun_cases function parts
  case case2 => nofun
  rename_i _ _ markers _ _ generators _ _ ids _ _ params
  intro h
  cases h
  rw [innerOf_takeToken markers, innerOf_takeToken generators, innerOf_takeNode ids,
    innerOf_takeNodes params]
  simp [Phrase.inner]

/-- The name, the parameters and the body of a function are parts that it is read from. -/
lemma parts_of_function {f : Function Node} (h : function parts = some f) :
    (∀ n ∈ f.id, .node n ∈ parts) ∧ (f.params = [] ∨ .nodes f.params ∈ parts) ∧
      .block f.body ∈ parts := by
  revert h
  fun_cases function parts
  case case2 => nofun
  rename_i _ _ markers _ _ generators _ _ ids _ _ params
  rintro ⟨⟩
  have starred := subset_of_takeToken markers
  have named := List.Subset.trans (subset_of_takeToken generators) starred
  obtain ⟨name, rest⟩ := subset_of_takeNode ids
  obtain ⟨listed, last⟩ := subset_of_takeNodes params
  exact ⟨fun n hn => named (name n hn), listed.imp_right fun h => named (rest h),
    named (rest (last List.mem_cons_self))⟩

/-- A function with a keyword covers its match. -/
lemma covers_function {declares : Bool} {form : Function Node → Form Node}
    (new : ∀ f, (form f).IsNew declares)
    (children : ∀ f, (form f).children = f.id.toList ++ f.params ++ f.body.statements)
    (h : ((function parts).map fun f => Phrase.node (e.node (form f))) = some p) :
    Covers declares e parts p := by
  obtain ⟨f, hf, rfl⟩ := Option.map_eq_some_iff.1 h
  exact ⟨_, rfl, new f, .inl ((children f).trans (innerOf_function hf))⟩

lemma composed_arrowParameters (h : arrowParameters parts = some p) : Composed e parts p := by
  unfold arrowParameters at h
  split at h
  all_goals cases h
  · exact .same rfl (List.forall_mem_nil _) rfl
  · exact .same rfl (List.forall_mem_nil _) rfl
  · exact .alone rfl

/-- The body of an arrow function that is a block becomes a node. -/
lemma composed_arrowFunction (h : arrowFunction e parts = some p) : Composed e parts p := by
  revert h
  fun_cases arrowFunction e parts
  case case3 => nofun
  case case1 markers =>
    rintro ⟨⟩
    exact .covers ⟨_, rfl, ⟨rfl, rfl⟩, .inr (wholeOf_takeToken markers).symm⟩
  case case2 markers =>
    rintro ⟨⟩
    exact .made ⟨rfl, rfl⟩ (innerOf_takeToken markers).symm

/-- A key is the only node of the phrase that it is read from. -/
lemma inner_of_memberKey {first : Phrase} {key : Node} {computed : Bool}
    (h : memberKey first = some (key, computed)) : first.inner = [key] := by
  unfold memberKey at h
  split at h
  all_goals cases h
  all_goals rfl

lemma items_of_memberKey {first : Phrase} {key : Node} {computed : Bool}
    (h : memberKey first = some (key, computed)) : first.items = [.node key] := by
  unfold memberKey at h
  split at h
  all_goals cases h
  all_goals rfl

lemma itemsOf_accessorKind {kind : PropertyKind} {rest : List Phrase}
    (h : accessorKind parts = (kind, rest)) : itemsOf parts = itemsOf rest := by
  unfold accessorKind at h
  split at h
  · split at h
    all_goals
      cases h
      rfl
  · cases h
    rfl

lemma subset_of_accessorKind {kind : PropertyKind} {rest : List Phrase}
    (h : accessorKind parts = (kind, rest)) : rest ⊆ parts := by
  unfold accessorKind at h
  split at h
  · split at h
    all_goals
      cases h
      simp
  · cases h
    exact List.Subset.refl _

/-- The function that is the value of a method begins at its key. -/
lemma composed_method (placed : ∀ x ∈ itemsOf parts, x.Placed) (h : method e parts = some p) :
    Composed e parts p := by
  rcases accessor : accessorKind parts with ⟨kind, marked⟩
  rcases async : Phrase.takeToken "async" marked with ⟨isAsync, starred⟩
  rcases star : Phrase.takeToken "*" starred with ⟨isGenerator, rest⟩
  -- The words in front of the key stand for no items.
  have same : itemsOf parts = itemsOf rest := by
    rw [itemsOf_accessorKind accessor, itemsOf_takeToken async, itemsOf_takeToken star]
  rw [method, accessor] at h
  dsimp only at h
  rw [async] at h
  dsimp only at h
  rw [star] at h
  cases rest with
  | nil => cases h
  | cons first rest =>
    obtain ⟨⟨key, computed⟩, hkey, h⟩ := Option.bind_eq_some_iff.1 h
    rcases params : Phrase.takeNodes rest with ⟨ns, tail⟩
    dsimp only at h
    rw [params] at h
    dsimp only at h
    split at h
    · rename_i body
      cases h
      refine .gathers ?_ rfl rfl rfl (by simp)
      have items : itemsOf parts = .node key ::
          ((ns ++ body.statements).map .node ++ [.edge (.block body)]) := by
        rw [same, itemsOf_cons, items_of_memberKey hkey, itemsOf_takeNodes params]
        simp [Phrase.items, Phrase.inner, Phrase.edges]
      rw [items] at placed ⊢
      let f : Function Node := { id := none, params := ns, body, isGenerator, isAsync }
      have makes : Combines [.node key] ((f.params ++ f.body.statements).map .node ++ [.edge (.block f.body)])
          (.mk (.functionExpression f) (methodSite e key f.body)) :=
        .value rfl rfl
      exact makes.gathers_last placed
    · cases h

lemma composed_classField (h : classField parts = some p) : Composed e parts p := by
  unfold classField at h
  split at h
  · obtain ⟨⟨key, computed⟩, hkey, h⟩ := Option.bind_eq_some_iff.1 h
    cases h
    refine .same ?_ (List.forall_mem_nil _) rfl
    rw [innerOf_cons, inner_of_memberKey hkey]
    rfl
  · obtain ⟨⟨key, computed⟩, hkey, h⟩ := Option.bind_eq_some_iff.1 h
    cases h
    refine .same ?_ (List.forall_mem_nil _) rfl
    rw [innerOf_cons, inner_of_memberKey hkey]
    rfl
  · cases h

lemma composed_classMember (h : classMember e parts = some p) : Composed e parts p := by
  revert h
  fun_cases classMember e parts
  case case3 => nofun
  all_goals
    rename_i markers
    intro h
    cases h
    refine .made ⟨rfl, rfl⟩ ?_
    simp [innerOf_takeToken markers, Form.children, Phrase.inner]

lemma composed_classHeritage (h : classHeritage parts = some p) : Composed e parts p := by
  unfold classHeritage at h
  split at h
  all_goals cases h
  all_goals exact .same rfl (List.forall_mem_nil _) rfl

/-- The children of a class are the nodes of its parts. -/
lemma innerOf_class {c : Class Node} (h : classDefinition parts = some c) :
    c.id.toList ++ c.superclass.toList ++ [c.body] = innerOf parts := by
  unfold classDefinition at h
  split at h
  all_goals cases h
  all_goals rfl

lemma composed_class {form : Class Node → Form Node} (new : ∀ c, (form c).IsNew false)
    (children : ∀ c, (form c).children = c.id.toList ++ c.superclass.toList ++ [c.body])
    (h : ((classDefinition parts).map fun c => Phrase.node (e.node (form c))) = some p) :
    Composed e parts p := by
  obtain ⟨c, hc, rfl⟩ := Option.map_eq_some_iff.1 h
  exact .made (new c) ((children c).trans (innerOf_class hc))

end Functions

section Expressions

lemma composed_sequence (h : sequence e parts = some p) : Composed e parts p := by
  obtain ⟨ns, hns, h⟩ := Option.bind_eq_some_iff.1 h
  split at h
  · cases h
  · cases h
    exact .alone (map_of_nodes? hns)
  · cases h
    exact .made ⟨rfl, rfl⟩ (innerOf_nodes hns).symm

lemma composed_assignment (h : assignment e parts = some p) : Composed e parts p := by
  unfold assignment at h
  split at h
  · cases h
    exact .alone rfl
  · cases h
    exact .made ⟨rfl, rfl⟩ rfl
  · cases h

lemma composed_conditional (h : conditional e parts = some p) : Composed e parts p := by
  unfold conditional at h
  split at h
  · cases h
    exact .alone rfl
  · cases h
    exact .made ⟨rfl, rfl⟩ rfl
  · cases h

/-- Operands are gathered from left to right below operations. -/
lemma gathers_chain {left n : Node} (placed : ∀ x ∈ Item.node left :: itemsOf parts, x.Placed)
    (h : chain left parts = some n) : Gathers (.node left :: itemsOf parts) [.node n] := by
  fun_induction chain left parts with
  | case1 left =>
    cases h
    exact .refl _
  | case2 left operator right rest ih =>
    obtain ⟨joined, hjoined, h⟩ := Option.bind_eq_some_iff.1 h
    have both : ∀ x ∈ [Item.node left, .node right], x.Placed := fun x hx =>
      placed x (List.mem_append_left (itemsOf rest) hx)
    have step : Gathers (.node left :: .node right :: itemsOf rest) (.node joined :: itemsOf rest) :=
      (Combines.operation hjoined).gathers_front both
    exact step.trans (ih joined (step.placed placed) h)
  | case3 => cases h

lemma composed_binary (placed : ∀ x ∈ itemsOf parts, x.Placed) (h : binary parts = some p) :
    Composed e parts p := by
  unfold binary at h
  split at h
  · obtain ⟨n, hn, rfl⟩ := Option.map_eq_some_iff.1 h
    exact .gathers (gathers_chain placed hn) rfl rfl rfl fun _ _ => ⟨_, _, rfl⟩
  · cases h

/-- An operator before an operand makes a new form, and the operand is its only child. -/
lemma unaryForm_children {w : String} {argument : Node} {f : Form Node}
    (h : unaryForm w argument = some f) : f.IsNew false ∧ f.children = [argument] := by
  unfold unaryForm at h
  repeat' split at h
  case isFalse =>
    obtain ⟨op, _, rfl⟩ := Option.map_eq_some_iff.1 h
    exact ⟨⟨rfl, rfl⟩, rfl⟩
  all_goals
    cases h
    exact ⟨⟨rfl, rfl⟩, rfl⟩

lemma composed_unary (h : unary e parts = some p) : Composed e parts p := by
  unfold unary at h
  split at h
  · cases h
    exact .alone rfl
  · obtain ⟨f, hf, rfl⟩ := Option.map_eq_some_iff.1 h
    obtain ⟨new, children⟩ := unaryForm_children hf
    exact .made new children
  · cases h

/-- An object is gathered with what it is accessed by, and with the operator behind it. -/
lemma gathers_accesses {object n : Node} (placed : ∀ x ∈ Item.node object :: itemsOf parts, x.Placed)
    (h : accesses object parts = some n) : Gathers (.node object :: itemsOf parts) [.node n] := by
  fun_induction accesses object parts with
  | case1 object =>
    cases h
    exact .refl _
  | case2 object a rest ih =>
    have here : ∀ x ∈ Item.node object :: (Phrase.access a).items, x.Placed := fun x hx =>
      placed x (List.mem_append_left (itemsOf rest) hx)
    have step : Gathers (.node object :: ((Phrase.access a).items ++ itemsOf rest))
        (.node (a.apply object) :: itemsOf rest) :=
      (Combines.access a object).gathers_front here
    exact step.trans (ih (step.placed placed) h)
  | case3 object operator span rest ih =>
    have here : ∀ x ∈ [Item.node object, .edge (.update operator span)], x.Placed := fun x hx =>
      placed x (List.mem_append_left (itemsOf rest) hx)
    have step : Gathers (.node object :: .edge (.update operator span) :: itemsOf rest)
        (.node (.mk (.updateExpression operator false object) (object.siteTo (some span))) :: itemsOf rest) :=
      (Combines.update operator span object).gathers_front here
    exact step.trans (ih (step.placed placed) h)
  | case4 => cases h

lemma composed_accessed (placed : ∀ x ∈ itemsOf parts, x.Placed) (h : accessed parts = some p) :
    Composed e parts p := by
  unfold accessed at h
  split at h
  · obtain ⟨n, hn, rfl⟩ := Option.map_eq_some_iff.1 h
    exact .gathers (gathers_accesses placed hn) rfl rfl rfl fun _ _ => ⟨_, _, rfl⟩
  · cases h

lemma composed_callArguments (h : callArguments e parts = some p) : Composed e parts p := by
  obtain ⟨ns, hns, rfl⟩ := Option.map_eq_some_iff.1 h
  exact .same (innerOf_nodes hns).symm (List.forall_mem_singleton.2 rfl) rfl

lemma composed_memberAccess (h : memberAccess e parts = some p) : Composed e parts p := by
  unfold memberAccess at h
  split at h
  all_goals cases h
  all_goals exact .same rfl (List.forall_mem_singleton.2 rfl) rfl

lemma composed_computedAccess (h : computedAccess e parts = some p) : Composed e parts p := by
  unfold computedAccess at h
  split at h
  all_goals cases h
  all_goals exact .same rfl (List.forall_mem_singleton.2 rfl) rfl

lemma composed_newObject (h : newObject e parts = some p) : Composed e parts p := by
  unfold newObject at h
  split at h
  all_goals cases h
  · exact .made ⟨rfl, rfl⟩ rfl
  · exact .made ⟨rfl, rfl⟩ (congrArg (_ :: ·) (List.append_nil _).symm)

/-- A name alone is read as a key and a value. -/
lemma doubled_property (h : property e parts = some p) :
    Composed e parts p ∨ Doubled .property e parts p := by
  unfold property at h
  split at h
  · cases h
    exact .inl (.made ⟨rfl, rfl⟩ rfl)
  · cases h
    exact .inl (.made ⟨rfl, rfl⟩ rfl)
  · cases h
    exact .inr ⟨_, _, _, rfl, ⟨rfl, rfl⟩, rfl, rfl, .inl rfl⟩
  · cases h

lemma composed_importCall (h : importCall e parts = some p) : Composed e parts p := by
  unfold importCall at h
  split at h
  all_goals cases h
  all_goals exact .made ⟨rfl, rfl⟩ rfl

end Expressions

section Rules

lemma composed_only (h : phrase?.only parts = some p) : Composed e parts p := by
  unfold phrase?.only at h
  split at h
  all_goals cases h
  exact .alone rfl

/-- The only node of the parts is the only node of the phrase. -/
lemma composed_oneNode {f : Node → Phrase} (h : phrase?.oneNode f parts = some p)
    (one : ∀ n, Composed e [.node n] (f n)) : Composed e parts p := by
  unfold phrase?.oneNode at h
  split at h
  · cases h
    exact one _
  · cases h

/-- The rules whose matches are declarations. -/
def isDeclaration : Rule → Bool
  | .variableDeclaration | .forDeclaration | .functionDeclaration => true
  | _ => false

/-- The rules with a name alone that is read as two nodes. -/
def isShorthand : Rule → Bool
  | .importSpecifier | .exportSpecifier | .patternProperty | .property => true
  | _ => false

/-- The rules whose matches are one node or one word, without parts. -/
def isLeaf (r : Rule) : Bool :=
  Grammar.kind r = .atomic ||
    r matches .endOfInput | .generatorMarker | .emptyStatement | .thisExpression | .superExpression

/-- What is exported is no identifier and no declaration. -/
lemma isNew_of_exported {r : Rule} {f : Form Node} (fits : Fits r (.exported f))
    (h : phrase? r e parts = some (.exported f)) : f.IsNew false := by
  have told (exports : Exports parts (.exported f)) : f.IsNew false := by
    obtain ⟨g, same, new, -⟩ := exports
    cases same
    exact new
  cases r
  case exportDefault => exact told (exports_exportDefault h)
  case exportList => exact told (exports_exportList h)
  case exportAll => exact told (exports_exportAll h)
  all_goals simp [Fits, IsNode, IsKey, IsField, IsAccess, IsCall, IsUpdate] at fits

/-- The match of a declaration stands for a node that covers it. -/
theorem covers_of_phrase? {r : Rule} (declares : isDeclaration r = true)
    (h : phrase? r e parts = some p) : Covers true e parts p := by
  cases r
  case variableDeclaration => exact covers_variableDeclaration h
  case forDeclaration => exact covers_variableDeclaration h
  case functionDeclaration => exact covers_function (fun _ => ⟨rfl, rfl⟩) (fun _ => rfl) h
  all_goals cases declares

/-- The match of a shorthand stands for a node that covers it, or for the only part. -/
theorem doubled_of_phrase? {r : Rule} (shorthand : isShorthand r = true)
    (h : phrase? r e parts = some p) : Composed e parts p ∨ Doubled r e parts p := by
  cases r
  case importSpecifier => exact doubled_importSpecifier h
  case exportSpecifier => exact doubled_exportSpecifier h
  case patternProperty => exact doubled_patternProperty h
  case property => exact doubled_property h
  all_goals cases shorthand

/-- The phrase of any other rule with parts is composed of theirs. -/
theorem composed_of_phrase? {r : Rule} (sound : Sound parts)
    (plain : isDeclaration r = false) (shorthand : isShorthand r = false) (leaf : isLeaf r = false)
    (h : phrase? r e parts = some p) : Composed e parts p := by
  -- Declarations and shorthands copy or keep nodes in other ways, and have lemmas of their own.
  cases r
  case program => exact composed_program h
  case variableDeclarator => exact composed_variableDeclarator h
  case functionBody => exact composed_functionBody h
  case classDeclaration => exact composed_class (fun _ => ⟨rfl, rfl⟩) (fun _ => rfl) h
  case classHeritage => exact composed_classHeritage h
  case classBody => exact composed_withMany (fun _ => ⟨rfl, rfl⟩) (fun _ => rfl) h
  case classMember => exact composed_classMember h
  case classField => exact composed_classField h
  case importDeclaration => exact composed_importDeclaration h
  case importClause => exact composed_importClause sound.placed h
  case namespaceImport => exact composed_withOne (fun _ => ⟨rfl, rfl⟩) (fun _ => rfl) h
  case namedImports => exact composed_list h
  case exportDeclaration => exact composed_exportDeclaration sound.exports h
  case exportDefault => exact (exports_exportDefault h).composed
  case exportList => exact (exports_exportList h).composed
  case exportAll => exact (exports_exportAll h).composed
  case returnStatement => exact composed_withOptional (fun _ => ⟨rfl, rfl⟩) (fun _ => rfl) h
  case ifStatement => exact composed_ifStatement h
  case whileStatement => exact composed_withTwo (fun _ _ => ⟨rfl, rfl⟩) (fun _ _ => rfl) h
  case doWhileStatement => exact composed_withTwo (fun _ _ => ⟨rfl, rfl⟩) (fun _ _ => rfl) h
  case forStatement => exact composed_forStatement h
  case forEachHead => exact composed_forEachHead h
  case forClassicHead => exact composed_forClassicHead h
  case forInit => exact composed_oneNode h fun _ => .same rfl (List.forall_mem_nil _) rfl
  case forTest => exact composed_oneNode h fun _ => .same rfl (List.forall_mem_nil _) rfl
  case forUpdate => exact composed_oneNode h fun _ => .same rfl (List.forall_mem_nil _) rfl
  case tryStatement => exact composed_tryStatement h
  case catchClause => exact composed_catchClause h
  case finallyClause => exact composed_finallyClause h
  case switchStatement => exact composed_switchStatement h
  case switchCase => exact composed_switchCase h
  case breakStatement => exact composed_withOptional (fun _ => ⟨rfl, rfl⟩) (fun _ => rfl) h
  case continueStatement => exact composed_withOptional (fun _ => ⟨rfl, rfl⟩) (fun _ => rfl) h
  case labeledStatement => exact composed_withTwo (fun _ _ => ⟨rfl, rfl⟩) (fun _ _ => rfl) h
  case throwStatement => exact composed_withOne (fun _ => ⟨rfl, rfl⟩) (fun _ => rfl) h
  case block => exact composed_withMany (fun _ => ⟨rfl, rfl⟩) (fun _ => rfl) h
  case expressionStatement => exact composed_withOne (fun _ => ⟨rfl, rfl⟩) (fun _ => rfl) h
  case bindingElement => exact composed_bindingElement h
  case restElement => exact composed_withOne (fun _ => ⟨rfl, rfl⟩) (fun _ => rfl) h
  case objectPattern => exact composed_withMany (fun _ => ⟨rfl, rfl⟩) (fun _ => rfl) h
  case arrayPattern => exact composed_slots (fun _ => ⟨rfl, rfl⟩) (fun _ => rfl) h
  case patternItem => exact composed_item h
  case parameterList => exact composed_list h
  case expression => exact composed_sequence h
  case assignmentExpression => exact composed_assignment h
  case arrowFunction => exact composed_arrowFunction h
  case arrowParameters => exact composed_arrowParameters h
  case conditionalExpression => exact composed_conditional h
  case binaryExpression => exact composed_binary sound.placed h
  case unaryExpression => exact composed_unary h
  case postfixExpression => exact composed_accessed sound.placed h
  case postfixOperation => exact composed_only h
  case callArguments => exact composed_callArguments h
  case memberAccess => exact composed_memberAccess h
  case computedAccess => exact composed_computedAccess h
  case newExpression => exact composed_newObject h
  case newTarget => exact composed_accessed sound.placed h
  case parenthesizedExpression => exact composed_only h
  case importCall => exact composed_importCall h
  case metaProperty => exact composed_withTwo (fun _ _ => ⟨rfl, rfl⟩) (fun _ _ => rfl) h
  case functionExpression =>
    exact .covers (covers_function (fun _ => ⟨rfl, rfl⟩) (fun _ => rfl) h)
  case classExpression => exact composed_class (fun _ => ⟨rfl, rfl⟩) (fun _ => rfl) h
  case arrayLiteral => exact composed_slots (fun _ => ⟨rfl, rfl⟩) (fun _ => rfl) h
  case arrayItem => exact composed_item h
  case spreadElement => exact composed_withOne (fun _ => ⟨rfl, rfl⟩) (fun _ => rfl) h
  case objectLiteral => exact composed_withMany (fun _ => ⟨rfl, rfl⟩) (fun _ => rfl) h
  case methodProperty => exact composed_method sound.placed h
  case shorthandProperty => exact composed_oneNode h fun _ => .same rfl (List.forall_mem_nil _) rfl
  case propertyKey => exact composed_oneNode h fun _ => .same rfl (List.forall_mem_nil _) rfl
  case computedKey => exact composed_oneNode h fun _ => .same rfl (List.forall_mem_nil _) rfl
  case templateHolePart => cases h
  case variableDeclaration | forDeclaration | functionDeclaration => cases plain
  case importSpecifier | exportSpecifier | patternProperty | property => cases shorthand
  all_goals cases leaf

/-- A leaf has no nodes, or it is one without children. -/
theorem bare_of_leaf {r : Rule} (leaf : isLeaf r = true) (h : phrase? r e parts = some p) :
    (p.inner = [] ∧ p.whole = [] ∧ p.isExported = false ∧ ∀ q ∈ p.edges, q.stop? = some e.span.stop) ∨
      ∃ f : Form Node, p = .node (e.node f) ∧ f.children = [] ∧ f.declares = false ∧
        (Grammar.isName r = false → f.isIdentifier = false) := by
  cases r
  case number | string | templateLiteral | regex =>
    obtain ⟨_, _, rfl⟩ := Option.map_eq_some_iff.1 h
    exact .inr ⟨_, rfl, rfl, rfl, fun _ => rfl⟩
  case identifier | propertyIdentifier | metaObject | metaName =>
    cases h
    exact .inr ⟨_, rfl, rfl, rfl, nofun⟩
  all_goals first
    | cases leaf; done
    | cases h
  all_goals first
    | exact .inl ⟨rfl, rfl, rfl, List.forall_mem_nil _⟩
    | exact .inl ⟨rfl, rfl, rfl, List.forall_mem_singleton.2 rfl⟩
    | exact .inr ⟨_, rfl, rfl, rfl, fun _ => rfl⟩

/-- The edge of a phrase whose end is known is placed. -/
lemma placed_edges {l : Location} (ends : ∀ q ∈ p.edges, q.stop? = some l) :
    ∀ x ∈ p.edges.map Item.edge, x.Placed :=
  List.forall_mem_map.2 fun q hq => Option.isSome_iff_exists.2 ⟨l, ends q hq⟩

/-- What is composed of placed parts is placed. -/
lemma Composed.placed (placed : ∀ x ∈ itemsOf parts, x.Placed) (h : Composed e parts p) :
    ∀ x ∈ p.items, x.Placed := by
  have inner : ∀ x ∈ (innerOf parts).map Item.node, x.Placed := by
    refine List.forall_mem_map.2 fun n hn => placed (.node n) ?_
    rwa [← mem_nodesOf, nodesOf_itemsOf]
  cases h with
  | covers covers =>
    obtain ⟨f, rfl, -⟩ := covers
    exact List.forall_mem_singleton.2 rfl
  | left same edges _ _ _ =>
    rw [Phrase.items, same]
    exact List.forall_mem_append.2 ⟨inner, placed_edges edges⟩
  | gathers gathers edges _ _ _ =>
    rw [Phrase.items, edges, List.map_nil, List.append_nil]
    exact gathers.placed placed
  | encloses => exact List.forall_mem_append.2 ⟨inner, List.forall_mem_singleton.2 rfl⟩
  | alone one => exact fun x hx => placed x (by simpa [one] using hx)

/-- Where all items in the parts of a rule stand is known, and so it is for those of its phrase. -/
theorem placed_of_phrase? {r : Rule} (sound : Sound parts) (h : phrase? r e parts = some p) :
    ∀ x ∈ p.items, x.Placed := by
  cases leaf : isLeaf r with
  | true =>
    rcases bare_of_leaf leaf h with ⟨inner, -, -, edges⟩ | ⟨f, rfl, -⟩
    · rw [Phrase.items, inner]
      exact placed_edges edges
    · exact List.forall_mem_singleton.2 rfl
  | false =>
    cases declares : isDeclaration r with
    | true =>
      obtain ⟨f, rfl, -⟩ := covers_of_phrase? declares h
      exact List.forall_mem_singleton.2 rfl
    | false =>
      cases shorthand : isShorthand r with
      | true =>
        rcases doubled_of_phrase? shorthand h with composed | ⟨f, _, _, rfl, -⟩
        · exact composed.placed sound.placed
        · exact List.forall_mem_singleton.2 rfl
      | false => exact (composed_of_phrase? sound declares shorthand leaf h).placed sound.placed

end Rules

end Reading

end ScriptTyping
