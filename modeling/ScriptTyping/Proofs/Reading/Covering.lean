import ScriptTyping.Proofs.Peg.Idle
import ScriptTyping.Proofs.Reading.Parsed
import ScriptTyping.Proofs.Syntax.Proper

/-!
# What nodes cover

Most nodes cover the match that they are made of. The others are made over neighbours, operation by operation
and access by access: they begin with the first of these and end with the last (`Drawn`). What a match in
parentheses stands for is the node inside, which does not cover the parentheses; so an operation or an
access begins inside them if its first operand does (`ranges_of_parse`).
-/

namespace ScriptTyping.Peg

variable {R : Type} {g : Grammar R}

/-- Whether a match of an expression begins with a match of a rule. -/
def Expr.leads (g : Grammar R) : Expr R → Bool
  | .seq a _ => a.leads g
  | .choice a b => a.leads g && b.leads g
  | .call r => g.kind r ≠ .silent
  | _ => false

/-- The first tree that such a match leaves begins where the match does. -/
lemma Reads.exists_first_tree {m : Mode} {e : Expr R} {c : Cursor} {q : Match R} (builds : m.builds = true)
    (h : Reads g m (.once e) c (some q)) (leads : e.leads g = true) :
    ∃ u us, q.trees = u :: us ∧ u.start = c.index := by
  induction e generalizing q with
  | seq a b ih =>
    cases h with
    | seq h₁ _ _ =>
      obtain ⟨u, us, same, start⟩ := ih h₁ leads
      rw [same]
      exact ⟨u, _, rfl, start⟩
  | choice a b iha ihb =>
    obtain ⟨leadsA, leadsB⟩ := Bool.and_eq_true_iff.1 leads
    cases h with
    | choiceFirst h => exact iha h leadsA
    | choiceSecond _ h => exact ihb h leadsB
  | call r =>
    have picks : (Expr.call r).picks g = true := leads
    obtain ⟨u, tree, start, -⟩ := h.trees_of_picks picks builds
    exact ⟨u, [], tree, start⟩
  | _ => cases leads

lemma Tree.IsRead.exists_first_child {source : List Char} {t : Tree R} (h : t.IsRead g source)
    (kind : g.kind t.rule = .normal) (leads : (g.body t.rule).leads g = true) :
    ∃ u us, t.children = u :: us ∧ u.start = t.start := by
  obtain ⟨_, _, m, q, builds, reads, _, below⟩ := h
  rw [below]
  refine reads.exists_first_tree ?_ leads
  simpa [kind, Mode.around, Mode.within] using builds

end ScriptTyping.Peg

namespace ScriptTyping.Reading
open Peg Peg.Expr

variable {file : String} {source : List Char} {M : Peg.Tree Rule → Prop}

/-- How a node is made, and the match that it ends with. -/
inductive Drawn (file : String) (source : List Char) : Node → Peg.Tree Rule → Prop where
  /-- The match stands for the node, and no match directly inside it does. The node covers it. -/
  | covers {k u} : assemble file source u = .ok (.node k) →
      (∀ v ∈ u.children, assemble file source v ≠ .ok (.node k)) →
      k.site = (extent file source u).site → Drawn file source k u
  /-- The match stands for a block in braces, of which the body of an arrow function is made. -/
  | body {b u k} : assemble file source u = .ok (.block b) → k ∈ (Phrase.block b).whole →
      b.span = some (extent file source u).span → Drawn file source k u
  /-- An operation ends with its second operand. -/
  | operation {operator left right k u} : combine operator left right = some k →
      Drawn file source right u → Drawn file source k u
  /-- A call of an object, or a look into it, ends with what the object is accessed by. -/
  | access {a object u} : assemble file source u = .ok (.access a) →
      a.span.stop = (extent file source u).span.stop → Drawn file source (a.apply object) u
  /-- An operator behind its operand ends the node. -/
  | update {operator span object u} : assemble file source u = .ok (.update operator span) →
      span.stop = (extent file source u).span.stop →
      Drawn file source (.mk (.updateExpression operator false object) (object.siteTo (some span))) u
  /-- The function that is the value of a method begins at the key and ends with its body. -/
  | value {e key f u} : key.Placed → assemble file source u = .ok (.block f.body) →
      f.body.span.map (·.stop) = some (extent file source u).span.stop →
      Drawn file source (.mk (.functionExpression f) (methodSite e key f.body)) u
  /-- The specifier of a default import stands where its name does. -/
  | name {n u} : Drawn file source n u → Drawn file source (.mk (.importDefaultSpecifier n) n.site) u

/-- Where a node goes on from an operand, it ends where the last of it does. -/
lemma stop_of_siteTo {operand : Node} {last : Option Span} {r : Span}
    (h : (operand.siteTo last).span = some r) : ∃ q, last = some q ∧ r.stop = q.stop := by
  change Span.join? operand.span? last = some r at h
  cases first : operand.span? with
  | none =>
    rw [first] at h
    cases h
  | some p =>
    rw [first] at h
    cases last with
    | none => cases h
    | some q =>
      cases h
      exact ⟨q, rfl, rfl⟩

/-- A node ends where the match does that it ends with, and begins with it unless it is made over
neighbours. -/
lemma Drawn.ends {k : Node} {u : Peg.Tree Rule} (h : Drawn file source k u) : ∀ {r}, k.span? = some r →
    r.stop = (extent file source u).span.stop ∧
      (r.start = (extent file source u).span.start ∨ k.form.isJoint = true) := by
  -- On how the node is made: an operation ends with its second operand, which may be made over neighbours
  -- too.
  induction h with
  | covers _ _ same =>
    intro r known
    cases (congrArg Site.span same).symm.trans known
    exact ⟨rfl, .inl rfl⟩
  | @body b u k _ block whole =>
    intro r known
    rw [Phrase.whole, List.mem_singleton] at block
    subst block
    cases whole.symm.trans known
    exact ⟨rfl, .inl rfl⟩
  | operation made _ ih =>
    intro r known
    obtain ⟨f, rfl, -, joint, -⟩ := exists_of_combine made
    obtain ⟨q, second, stop⟩ := stop_of_siteTo known
    exact ⟨stop.trans (ih second).1, .inr joint⟩
  | @access a object u _ stop =>
    intro r known
    change (object.siteTo (some a.span)).span = some r at known
    obtain ⟨q, last, same⟩ := stop_of_siteTo known
    cases last
    refine ⟨same.trans stop, .inr ?_⟩
    obtain ⟨kind, _, _⟩ := a
    cases kind
    all_goals rfl
  | update _ stop =>
    intro r known
    obtain ⟨q, last, same⟩ := stop_of_siteTo known
    cases last
    exact ⟨same.trans stop, .inr rfl⟩
  | value placed _ stop =>
    intro r known
    obtain ⟨s, body, stop⟩ := Option.map_eq_some_iff.1 stop
    rw [methodSite_of_placed placed body] at known
    cases known
    exact ⟨stop, .inr rfl⟩
  | name _ ih => exact fun known => ⟨(ih known).1, .inr rfl⟩

/-- It is known of all nodes in an item where they stand, and they are drawn. An edge is what a match stands
for, and ends where this does. -/
def IsDrawn (M : Peg.Tree Rule → Prop) (file : String) (source : List Char) : Item → Prop
  | .node n => ∀ k ∈ n.preorder, k.Placed ∧ ∃ u, M u ∧ Drawn file source k u
  | .edge p => ∃ u, M u ∧ assemble file source u = .ok p ∧
      p.stop? = some (extent file source u).span.stop

lemma isDrawn_mk {f : Form Node} {s : Site} {u : Peg.Tree Rule} (here : M u)
    (placed : (Node.mk f s).Placed) (own : Drawn file source (.mk f s) u)
    (children : ∀ c ∈ f.children, IsDrawn M file source (.node c)) :
    IsDrawn M file source (.node (.mk f s)) := by
  intro k hk
  rw [Node.preorder_eq] at hk
  rcases List.mem_cons.1 hk with rfl | hk
  · exact ⟨placed, u, here, own⟩
  · obtain ⟨c, hc, hk⟩ := List.mem_flatMap.1 hk
    exact children c hc k hk

section Items

variable {xs ys before inside : List Item} {k : Node}

/-- What is made over neighbours ends with the last of them. -/
lemma Combines.exists_drawn (makes : Combines before inside k) (placed : ∀ x ∈ before, x.Placed)
    (drawn : ∀ x ∈ inside, IsDrawn M file source x) : ∃ u, M u ∧ Drawn file source k u := by
  cases makes with
  | @operation _ left right _ made =>
    obtain ⟨-, u, hu, own⟩ := drawn (.node right) (by simp) right (Node.self_mem_preorder right)
    exact ⟨u, hu, .operation made own⟩
  | access a object =>
    obtain ⟨u, hu, made, stop⟩ := drawn (.edge (.access a)) (by simp [Phrase.items, Phrase.edges])
    exact ⟨u, hu, .access made (Option.some.inj stop)⟩
  | update operator span object =>
    obtain ⟨u, hu, made, stop⟩ := drawn (.edge (.update operator span)) (by simp)
    exact ⟨u, hu, .update made (Option.some.inj stop)⟩
  | @value _ _ f last _ =>
    obtain ⟨u, hu, made, stop⟩ := drawn (.edge (.block f.body)) (by simp)
    exact ⟨u, hu, .value (placed _ (List.mem_of_getLast? last)) made stop⟩
  | name n =>
    obtain ⟨-, u, hu, own⟩ := drawn (.node n) (by simp) n (Node.self_mem_preorder n)
    exact ⟨u, hu, .name own⟩

lemma IsDrawn.placed {x : Item} (h : IsDrawn M file source x) : x.Placed := by
  cases x with
  | node n => exact (h n (Node.self_mem_preorder n)).1
  | edge p =>
    obtain ⟨u, -, -, stop⟩ := h
    rw [Item.Placed, stop]
    rfl

/-- A new node over neighbours is drawn. -/
lemma isDrawn_of_wraps (step : Wraps xs ys) (all : ∀ x ∈ xs, IsDrawn M file source x) :
    ∀ y ∈ ys, IsDrawn M file source y := by
  obtain ⟨makes, joins⟩ := step
  simp only [List.forall_mem_append, List.forall_mem_cons] at all ⊢
  obtain ⟨u, hu, own⟩ := makes.exists_drawn (fun x hx => (all.1.1 x hx).placed) all.1.2
  rename_i k _
  obtain ⟨f, s⟩ := k
  refine ⟨all.1.1, isDrawn_mk hu joins.placed own fun c hc => ?_, all.2⟩
  exact all.1.2 _ (mem_nodesOf.1 (joins.children ▸ hc))

lemma isDrawn_of_gathers (steps : Gathers xs ys) (all : ∀ x ∈ xs, IsDrawn M file source x) :
    ∀ y ∈ ys, IsDrawn M file source y := by
  induction steps with
  | refl => exact all
  | tail _ step ih => exact isDrawn_of_wraps step ih

end Items

section Trees

variable {t : Peg.Tree Rule} {value : Peg.Tree Rule → Phrase} {p : Phrase}

/-- The items of a phrase are drawn, and so is a node for a block. -/
def IsDrawnIn (M : Peg.Tree Rule → Prop) (file : String) (source : List Char) (p : Phrase) : Prop :=
  (∀ x ∈ p.items, IsDrawn M file source x) ∧ ∀ n ∈ p.whole, IsDrawn M file source (.node n)

lemma isDrawnIn_node {n : Node} (h : IsDrawn M file source (.node n)) : IsDrawnIn M file source (.node n) :=
  ⟨List.forall_mem_singleton.2 h, List.forall_mem_singleton.2 h⟩

/-- The key that a binding is read as is the binding itself or its target. -/
lemma preorder_of_shorthandKey (n : Node) : ∀ k ∈ (shorthandKey n).preorder, k ∈ n.preorder := by
  obtain ⟨f, s⟩ := n
  unfold shorthandKey
  split
  · rename_i left right form
    obtain rfl : f = .assignmentPattern left right := form
    exact fun k hk => Node.mem_preorder_of_mem_children List.mem_cons_self hk
  · exact fun k hk => hk

/-- No node is a child of itself. -/
lemma not_mem_own_children {f : Form Node} {s : Site} : Node.mk f s ∉ f.children := fun h =>
  Nat.lt_irrefl _ (Node.sizeOf_lt_of_mem_children (n := .mk f s) h)

section Step

variable (here : M t) (made : assemble file source t = .ok p)
  (each : ∀ u ∈ t.children, assemble file source u = .ok (value u))
  (all : ∀ q ∈ t.children.map value, IsDrawnIn M file source q)

include all

lemma isDrawn_itemsOf : ∀ x ∈ itemsOf (t.children.map value), IsDrawn M file source x := by
  intro x hx
  obtain ⟨q, hq, hx⟩ := List.mem_flatMap.1 hx
  exact (all q hq).1 x hx

lemma isDrawn_innerOf : ∀ n ∈ innerOf (t.children.map value), IsDrawn M file source (.node n) := by
  intro n hn
  rw [← nodesOf_itemsOf] at hn
  exact isDrawn_itemsOf all _ (mem_nodesOf.1 hn)

lemma isDrawn_wholeOf : ∀ n ∈ wholeOf (t.children.map value), IsDrawn M file source (.node n) := by
  intro n hn
  obtain ⟨q, hq, hn⟩ := List.mem_flatMap.1 hn
  exact (all q hq).2 n hn

omit all

include here each

/-- A node that covers the match it is made of is drawn, if the nodes of the parts are its children: so no
part stands for the node itself. -/
lemma isDrawnIn_made {f : Form Node}
    (made : assemble file source t = .ok (.node ((extent file source t).node f)))
    (parts : ∀ k, .node k ∈ t.children.map value → k ∈ f.children)
    (children : ∀ c ∈ f.children, IsDrawn M file source (.node c)) :
    IsDrawnIn M file source (.node ((extent file source t).node f)) := by
  have own : ∀ v ∈ t.children, assemble file source v ≠ .ok (.node ((extent file source t).node f)) := by
    intro v hv same
    have part : value v = .node ((extent file source t).node f) :=
      Except.ok.inj ((each v hv).symm.trans same)
    have mem : value v ∈ t.children.map value := List.mem_map_of_mem hv
    exact not_mem_own_children (parts _ (part ▸ mem))
  exact isDrawnIn_node (isDrawn_mk here rfl (.covers made own rfl) children)

include made all

lemma isDrawnIn_of_covers {declares : Bool}
    (covers : Covers declares (extent file source t) (t.children.map value) p) :
    IsDrawnIn M file source p := by
  obtain ⟨f, rfl, -, children | children⟩ := covers
  · refine isDrawnIn_made here each made (fun k hk => ?_) (children ▸ isDrawn_innerOf all)
    exact children ▸ List.mem_flatMap.2 ⟨_, hk, List.mem_singleton_self k⟩
  · refine isDrawnIn_made here each made (fun k hk => ?_) (children ▸ isDrawn_wholeOf all)
    exact children ▸ List.mem_flatMap.2 ⟨_, hk, List.mem_singleton_self k⟩

/-- What is composed of drawn parts is drawn. -/
lemma isDrawnIn_of_composed (composed : Composed (extent file source t) (t.children.map value) p) :
    IsDrawnIn M file source p := by
  have inner := isDrawn_innerOf all
  have ended {ns : List Node} (nodes : ∀ n ∈ ns, IsDrawn M file source (.node n))
      (edges : ∀ q ∈ p.edges, q.stop? = some (extent file source t).span.stop) :
      ∀ x ∈ ns.map Item.node ++ p.edges.map .edge, IsDrawn M file source x := by
    refine List.forall_mem_append.2 ⟨List.forall_mem_map.2 nodes, List.forall_mem_map.2 fun q hq => ?_⟩
    exact ⟨t, here, Phrase.eq_of_mem_edges hq ▸ made, edges q hq⟩
  cases composed with
  | covers covers => exact isDrawnIn_of_covers here made each all covers
  | left same edges whole _ _ =>
    rw [IsDrawnIn, Phrase.items, whole, same]
    exact ⟨ended inner edges, inner⟩
  | gathers gathers edges whole _ _ =>
    have gathered := isDrawn_of_gathers gathers (isDrawn_itemsOf all)
    rw [IsDrawnIn, Phrase.items, edges, whole, List.map_nil, List.append_nil]
    exact ⟨gathered, List.forall_mem_map.1 gathered⟩
  | encloses =>
    refine ⟨ended inner (List.forall_mem_singleton.2 rfl), List.forall_mem_singleton.2 ?_⟩
    exact isDrawn_mk here rfl (.body made (List.mem_singleton_self _) rfl) inner
  | alone one => exact all p (one ▸ List.mem_singleton_self p)

/-- A name that is read twice is drawn twice. -/
lemma isDrawnIn_of_doubled {r : Rule}
    (doubled : Doubled r (extent file source t) (t.children.map value) p) : IsDrawnIn M file source p := by
  obtain ⟨f, key, n, rfl, -, alone, children, same⟩ := doubled
  have own : IsDrawn M file source (.node n) := isDrawn_innerOf all n (by simp [alone])
  have first : IsDrawn M file source (.node key) := by
    rcases same with rfl | ⟨-, rfl⟩
    · exact own
    · exact fun k hk => own k (preorder_of_shorthandKey n k hk)
  refine isDrawnIn_made here each made (fun k hk => ?_) ?_
  · have mem : k ∈ innerOf (t.children.map value) := List.mem_flatMap.2 ⟨_, hk, List.mem_singleton_self k⟩
    rw [alone, List.mem_singleton] at mem
    simp [children, mem]
  · rw [children]
    exact List.forall_mem_cons.2 ⟨first, List.forall_mem_singleton.2 own⟩

end Step

/-- All nodes in what a match stands for are drawn from the matches in it. -/
theorem isDrawnIn_of_isRead (read : t.IsRead language source) : ∀ {p},
    (∀ v : Peg.Tree Rule, v.Under t → M v) → assemble file source t = .ok p → IsDrawnIn M file source p := by
  refine Tree.IsRead.induction (P := fun t => ∀ {p}, (∀ v : Peg.Tree Rule, v.Under t → M v) →
    assemble file source t = .ok p → IsDrawnIn M file source p) (fun t read ih p inside made => ?_) t read
  obtain ⟨value, each, sound, found⟩ := exists_parts read made
  have here : M t := inside t .self
  have all : ∀ q ∈ t.children.map value, IsDrawnIn M file source q :=
    List.forall_mem_map.2 fun u hu => ih u hu (fun v below => inside v (.inside hu below)) (each u hu)
  cases leaf : isLeaf t.rule with
  | true =>
    rcases bare_of_leaf leaf found with ⟨inner, whole, -, edges⟩ | ⟨f, rfl, bare, -⟩
    · rw [IsDrawnIn, Phrase.items, inner, whole]
      refine ⟨List.forall_mem_map.2 fun q hq => ?_, List.forall_mem_nil _⟩
      exact ⟨t, here, Phrase.eq_of_mem_edges hq ▸ made, edges q hq⟩
    · refine isDrawnIn_made here each made (fun k hk => ?_) (by simp [bare])
      rw [children_of_leaf read leaf] at hk
      cases hk
  | false =>
    cases declares : isDeclaration t.rule with
    | true => exact isDrawnIn_of_covers here made each all (covers_of_phrase? declares found)
    | false =>
      cases shorthand : isShorthand t.rule with
      | true =>
        exact (doubled_of_phrase? shorthand found).elim (isDrawnIn_of_composed here made each all)
          (isDrawnIn_of_doubled here made each all)
      | false =>
        exact isDrawnIn_of_composed here made each all
          (composed_of_phrase? sound declares shorthand leaf found)

end Trees

section Expressions

variable {e : Extent} {parts : List Phrase} {i k : Node} {t : Peg.Tree Rule}

/-- The rules of expressions that may stand for what the first of their parts stands for. -/
def isWrapper : Rule → Bool
  | .expression | .assignmentExpression | .conditionalExpression | .binaryExpression _
  | .unaryExpression | .postfixExpression | .parenthesizedExpression => true
  | _ => false

/-- The other rules of expressions. -/
def isOperand : Rule → Bool
  | .arrowFunction | .newExpression | .functionExpression | .classExpression | .metaProperty
  | .importCall | .thisExpression | .superExpression | .bigint | .number | .string
  | .templateLiteral | .boolean | .null | .regex | .arrayLiteral | .objectLiteral
  | .privateIdentifier | .identifier => true
  | _ => false

/-- What is made by giving a form to the parts is a new node. -/
lemma exists_own_of_map {α : Type} {o : Option α} {f : α → Form Node}
    (h : (o.map fun x => Phrase.node (e.node (f x))) = some (.node i)) : ∃ f, i = e.node f := by
  obtain ⟨x, _, e⟩ := Option.map_eq_some_iff.1 h
  cases e
  exact ⟨f x, rfl⟩

/-- The other expressions are nodes of their own making. -/
lemma own_of_operand {r : Rule} (operand : isOperand r = true)
    (h : phrase? r e parts = some (.node i)) : ∃ f, i = e.node f := by
  -- What an operand stands for is always a new node, never that of a part.
  cases r
  case arrowFunction =>
    change arrowFunction e parts = _ at h
    revert h
    fun_cases arrowFunction e parts
    all_goals
      intro h
      cases h
    all_goals exact ⟨_, rfl⟩
  case newExpression =>
    change newObject e parts = _ at h
    unfold newObject at h
    split at h
    all_goals cases h
    all_goals exact ⟨_, rfl⟩
  case metaProperty =>
    change metaProperty e parts = _ at h
    unfold metaProperty at h
    split at h
    all_goals cases h
    all_goals exact ⟨_, rfl⟩
  case importCall =>
    change importCall e parts = _ at h
    unfold importCall at h
    split at h
    all_goals cases h
    all_goals exact ⟨_, rfl⟩
  case functionExpression | classExpression | number | string | templateLiteral | regex
      | arrayLiteral | objectLiteral =>
    exact exists_own_of_map h
  all_goals first
    | cases operand; done
    | cases h
  all_goals exact ⟨_, rfl⟩

/-- The first part of a rule that may stand for it is an expression again, or the operator of a
unary one. -/
lemma first_rule {t u : Peg.Tree Rule} {us : List (Peg.Tree Rule)} (h : t.IsRead language source)
    (wrapper : isWrapper t.rule = true) (below : t.children = u :: us) :
    isWrapper u.rule = true ∨ isOperand u.rule = true ∨ u.rule = .unaryOperator := by
  have kind : Grammar.kind t.rule = .normal := by
    cases rule : t.rule
    all_goals first
      | rfl
      | simp [rule, isWrapper] at wrapper
  have left : Yields language (fun r u => u.rule = r) (Grammar.body t.rule) t.children :=
    h.yields (.inl kind)
  rw [below] at left
  cases rule : t.rule
  all_goals rw [rule] at wrapper left
  case expression =>
    simp [Grammar.body, sepBy] at left
    simp [left.1, isWrapper]
  case assignmentExpression =>
    simp [Grammar.body] at left
    rcases left with ⟨-, rule⟩ | ⟨rule, -⟩
    all_goals simp [rule, isWrapper, isOperand]
  case conditionalExpression =>
    simp [Grammar.body] at left
    simp [left.1, isWrapper]
  case binaryExpression level =>
    cases level
    all_goals
      simp [Grammar.body, Grammar.operand, Precedence.next?] at left
      simp [left.1, isWrapper]
  case unaryExpression =>
    simp [Grammar.body] at left
    rcases left with ⟨rule, -⟩ | ⟨-, rule⟩
    all_goals simp [rule, isWrapper]
  case postfixExpression =>
    simp [Grammar.body, all, Grammar.primaryExpression, oneOf] at left
    obtain ⟨rule, -⟩ | ⟨rule, -⟩ | ⟨rule, -⟩ | ⟨rule, -⟩ | ⟨rule, -⟩ | ⟨rule, -⟩ | ⟨rule,
      -⟩ | ⟨rule, -⟩ | ⟨rule, -⟩ | ⟨rule, -⟩ | ⟨rule, -⟩ | ⟨rule, -⟩ | ⟨rule, -⟩ | ⟨rule,
      -⟩ | ⟨rule, -⟩ | ⟨rule, -⟩ | ⟨rule, -⟩ | ⟨rule, -⟩ | ⟨rule, -⟩ := left
    all_goals simp [rule, isWrapper, isOperand]
  case parenthesizedExpression =>
    simp [Grammar.body, all, token] at left
    simp [left.2, isWrapper]
  all_goals cases wrapper

/-- An expression begins with another one or an operator, unless it is in parentheses. -/
lemma leads_of_wrapper {r : Rule} (wrapper : isWrapper r = true) (bare : r ≠ .parenthesizedExpression) :
    Grammar.kind r = .normal ∧ (Grammar.body r).leads language = true := by
  have all : ∀ r ∈ Rule.all, isWrapper r = true → r ≠ .parenthesizedExpression →
      Grammar.kind r = .normal ∧ (Grammar.body r).leads language = true := by
    decide +kernel
  exact all r (Rule.mem_all r) wrapper bare

/-- The rules of expressions that may stand for their first part are composed of their parts. -/
lemma plain_of_wrapper {r : Rule} (wrapper : isWrapper r = true) :
    isDeclaration r = false ∧ isShorthand r = false ∧ isLeaf r = false := by
  cases r
  all_goals first
    | cases wrapper; done
    | exact ⟨rfl, rfl, rfl⟩

/-- An expression in parentheses begins with one. -/
lemma head?_of_parenthesized (h : t.IsRead language source) (rule : t.rule = .parenthesizedExpression) :
    t.text.head? = some '(' := by
  obtain ⟨_, _, m, q, _, reads, text, _⟩ := h
  rw [rule] at reads
  cases reads with
  | seq first gap rest =>
    cases first with
    | text skip =>
      obtain ⟨_, leads⟩ := gap.leads
      obtain ⟨_, leads'⟩ := rest.leads
      rw [text, (((Cursor.leads_of_skip? skip).trans leads).trans leads').upTo]
      rfl

/-- A match begins with the same character as a part that begins where it does. -/
lemma head?_of_first {u : Peg.Tree Rule} {x : Char} (h : t.IsRead language source) (hu : u ∈ t.children)
    (start : u.start = t.start) (head : u.text.head? = some x) : t.text.head? = some x := by
  obtain ⟨outer, -⟩ := h.text_eq
  obtain ⟨inner, -⟩ := (h.children u hu).text_eq
  have nonempty : u.text.length ≠ 0 := by
    intro none
    rw [List.length_eq_zero_iff.1 none] at head
    cases head
  have inside : u.stop ≤ t.stop := h.spread.le_hi u hu
  rw [Tree.stop, Tree.stop, start] at inside
  rw [inner, List.head?_take, if_neg nonempty, start] at head
  rwa [outer, List.head?_take, if_neg (by omega)]

/-- What a match of an expression stands for begins where the match does, unless this begins with a
parenthesis. -/
theorem start_of_expression (h : t.IsRead language source)
    (expression : isWrapper t.rule = true ∨ isOperand t.rule = true)
    (made : assemble file source t = .ok (.node k)) :
    k.range.start = (extent file source t).span.start ∨ t.text.head? = some '(' := by
  refine Tree.IsRead.induction (P := fun t => ∀ {k}, isWrapper t.rule = true ∨ isOperand t.rule = true →
    assemble file source t = .ok (.node k) →
    k.range.start = (extent file source t).span.start ∨ t.text.head? = some '(')
    (fun t h ih k expression made => ?_)
    t h expression made
  obtain ⟨value, each, sound, found⟩ := exists_parts h made
  -- A new node covers the match, and any other begins with the first part, which begins where the match does.
  rcases expression with wrapper | operand
  · by_cases parenthesis : t.rule = .parenthesizedExpression
    · exact .inr (head?_of_parenthesized h parenthesis)
    obtain ⟨kind, leads⟩ := leads_of_wrapper wrapper parenthesis
    obtain ⟨u, us, below, start⟩ := h.exists_first_child kind leads
    obtain ⟨plain, shorthand, leaf⟩ := plain_of_wrapper wrapper
    have hu : u ∈ t.children := below ▸ List.mem_cons_self
    rcases (composed_of_phrase? sound plain shorthand leaf found).covers_or with ⟨f, rfl⟩ | ⟨m, rest, parts, same⟩
    · exact .inl rfl
    · rw [below, List.map_cons, List.cons.injEq] at parts
      have first := each u hu
      rw [parts.1] at first
      have begins : k.range.start = m.range.start := same
      have place : (extent file source u).span.start = (extent file source t).span.start :=
        congrArg (Location.after file <| source.take ·) start
      have told (expression : isWrapper u.rule = true ∨ isOperand u.rule = true) :
          k.range.start = (extent file source t).span.start ∨ t.text.head? = some '(' :=
        (ih u hu expression first).imp (fun same => begins.trans (same.trans place)) (head?_of_first h hu start)
      rcases first_rule h wrapper below with wrapper | operand | operator
      · exact told (.inl wrapper)
      · exact told (.inr operand)
      · have fits := fits_of_assemble (h.children u hu) first
        rw [operator] at fits
        obtain ⟨_, e, _⟩ := fits
        cases e
  · obtain ⟨f, rfl⟩ := own_of_operand operand found
    exact .inl rfl

end Expressions

end ScriptTyping.Reading

namespace ScriptTyping.Script
open Peg Reading

/-- Every node covers the match that it is made of, or it is made over neighbours and ends with the last of them:
then an operation, a call, an access or a postfix operator begins with its first operand, and an operation ends
with its second one. What an expression stands for begins where the match of the expression does, unless this
begins with a parenthesis. -/
theorem ranges_of_parse {s : Script} {n : Node} (h : s.parse = .ok n) :
    ∃ t : Peg.Tree Rule, s.match? = .ok t ∧
      (∀ k ∈ n.preorder, ∃ u : Peg.Tree Rule, u.Under t ∧ Drawn s.name s.content.toList k u) ∧
      ∀ (u : Peg.Tree Rule) (k : Node), u.Under t → isWrapper u.rule = true ∨ isOperand u.rule = true →
        assemble s.name s.content.toList u = .ok (.node k) →
        ∃ r, k.span? = some r ∧
          (r.start = Location.after s.name (s.content.toList.take u.start) ∨ u.text.head? = some '(') := by
  obtain ⟨t, -, matched, made⟩ := match_of_parse h
  obtain ⟨-, -, read⟩ := isRead_of_match matched
  refine ⟨t, matched, fun k hk => ?_, fun u k below expression here => ?_⟩
  · exact ((isDrawnIn_of_isRead read (fun _ below => below) made).1 _ (List.mem_singleton_self _) k hk).2
  · have placed : k.Placed := placed_of_isRead (read.under below) here _ (List.mem_singleton_self _)
    exact ⟨_, placed.span, start_of_expression (read.under below) expression here⟩

/-- The access begins with the name in the parentheses, behind the first of these. -/
example : ((ofSource "a.js" "(a).b").parse.toOption.any fun n =>
    n.preorder.any fun k => k.form.isFolded && k.sourceText? "(a).b" = some "a).b") = true := by
  decide +kernel

end ScriptTyping.Script
