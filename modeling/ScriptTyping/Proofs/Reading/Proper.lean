import ScriptTyping.Proofs.Reading.Parsed
import ScriptTyping.Proofs.Syntax.Proper

/-!
# The syntax tree of a script is proper

What a rule stands for has nodes of certain forms only (`admits`), and a block of statements stands for
nothing but the rule of blocks. From this and from the order in which a rule leaves its parts, each node
that is made of parts has children as they are expected (`Sorted`), and so the tree of a script is proper
(`proper_of_parse`). The one flag that says what the body of an arrow function is says so: it is set
exactly if the body is no block.
-/

namespace ScriptTyping.Reading
open Peg Peg.Expr

/-- Whether a phrase of a rule may have a node of a form. -/
@[simp] def admits : Rule → Form Node → Bool
  | .variableDeclarator, f => f.isDeclarator
  | .identifier, f | .objectPattern, f | .arrayPattern, f => f.isTarget
  | .bindingElement, f | .restElement, f | .patternItem, f | .parameterList, f
  | .arrowParameters, f => f.isParameter
  | .patternProperty, f => f.isPatternPart
  | .spreadElement, f | .property, f => f.isObjectPart
  | .classMember, f => f.isMember
  | .block, f | .finallyClause, f => f.isBlock
  | .catchClause, f => f.isHandler
  | .switchCase, f => f.isCase
  | _, _ => true

/-- Whether a phrase is a node, a method or an export, of which more is said than of its nodes. -/
def isSingled : Phrase → Bool
  | .node _ | .method _ | .exported _ => true
  | _ => false

/-- The nodes of a phrase are proper and have forms that its rule admits. -/
structure Sorted (r : Rule) (p : Phrase) : Prop where
  fits : Fits r p
  nodes : ∀ n ∈ p.inner, n.Proper ∧ admits r n.form = true
  block : ∀ n, p = .node n → n.form.isBlock = true → r = .block
  method : ∀ m, p = .method m → m.value.form.isMethodValue = true
  exported : ∀ f, p = .exported f → f.Proper ∧ f.isBlock = false

/-- All nodes of some phrases are proper. -/
def AllProper (parts : List Phrase) : Prop :=
  ∀ p ∈ parts, ∀ n ∈ p.inner, n.Proper

/-- A node that is proper and no block of statements. -/
def IsValue (n : Node) : Prop :=
  n.Proper ∧ n.form.isBlock = false

/-- A phrase is a node that is proper and no block of statements. -/
def Makes (p : Phrase) : Prop :=
  ∃ n, p = .node n ∧ IsValue n

/-- A phrase is such a node, of a form of some class. -/
def MakesOf (Q : Form Node → Bool) (p : Phrase) : Prop :=
  ∃ n, p = .node n ∧ IsValue n ∧ Q n.form = true

section Parts

variable {e : Extent} {parts : List Phrase} {p : Phrase} {f : Form Node} {n : Node} {r : Rule}

@[simp] lemma allProper_nil : AllProper [] := by
  simp [AllProper]

@[simp] lemma allProper_cons :
    AllProper (p :: parts) ↔ (∀ n ∈ p.inner, n.Proper) ∧ AllProper parts :=
  List.forall_mem_cons

lemma AllProper.subset {ps : List Phrase} (h : AllProper parts) (sub : ps ⊆ parts) : AllProper ps :=
  fun p hp => h p (sub hp)

lemma allProper_map_node {ns : List Node} : AllProper (ns.map .node) ↔ ∀ n ∈ ns, n.Proper := by
  simp [AllProper, Phrase.inner]

lemma proper_of_nodes? {ns : List Node} (h : AllProper parts) (nodes : Phrase.nodes? parts = some ns) :
    ∀ n ∈ ns, n.Proper :=
  allProper_map_node.1 (map_of_nodes? nodes ▸ h)

/-- A node is made of a proper form with proper children. -/
lemma makes_made (proper : f.Proper) (children : ∀ c ∈ f.children, c.Proper)
    (open' : f.isBlock = false) : Makes (.node (e.node f)) :=
  ⟨e.node f, rfl, (Node.proper_mk f e.site).2 ⟨proper, children⟩, open'⟩

lemma makesOf_made {Q : Form Node → Bool} (proper : f.Proper) (children : ∀ c ∈ f.children, c.Proper)
    (open' : f.isBlock = false) (form : Q f = true) : MakesOf Q (.node (e.node f)) :=
  ⟨e.node f, rfl, ⟨(Node.proper_mk f e.site).2 ⟨proper, children⟩, open'⟩, form⟩

lemma MakesOf.sorted (h : MakesOf (admits r) p) (fits : Fits r p) : Sorted r p := by
  obtain ⟨n, rfl, ⟨proper, open'⟩, form⟩ := h
  refine ⟨fits, ?_, ?_, nofun, fun _ => nofun⟩
  · exact List.forall_mem_singleton.2 ⟨proper, form⟩
  · rintro m ⟨⟩ block
    rw [open'] at block
    cases block

/-- A node of a rule that admits any node. -/
lemma Makes.sorted (h : Makes p) (fits : Fits r p) (any : ∀ f, admits r f = true) : Sorted r p := by
  obtain ⟨n, rfl, value⟩ := h
  exact MakesOf.sorted ⟨n, rfl, value, any n.form⟩ fits

/-- A phrase that is not a node, a method or an export is what its nodes are. -/
lemma Sorted.of_nodes (fits : Fits r p) (nodes : ∀ n ∈ p.inner, n.Proper ∧ admits r n.form = true)
    (other : isSingled p = false) : Sorted r p := by
  refine ⟨fits, nodes, ?_, ?_, ?_⟩
  all_goals
    rintro _ rfl
    cases other

end Parts

section Makers

variable {e : Extent} {parts : List Phrase} {p : Phrase} (proper : AllProper parts)

include proper

lemma makes_withOptional {f : Option Node → Form Node} (plain : ∀ n, (f n).Proper)
    (children : ∀ n, (f n).children = n.toList) (open' : ∀ n, (f n).isBlock = false)
    (h : withOptional e f parts = some p) : Makes p := by
  unfold withOptional at h
  split at h
  · cases h
    exact makes_made (plain none) (by simp [children]) (open' none)
  · cases h
    exact makes_made (plain _) (by simpa [children, Phrase.inner] using proper) (open' _)
  · cases h

lemma makes_withOne {f : Node → Form Node} (plain : ∀ n, (f n).Proper)
    (children : ∀ n, (f n).children = [n]) (open' : ∀ n, (f n).isBlock = false)
    (h : withOne e f parts = some p) : Makes p := by
  unfold withOne at h
  split at h
  all_goals cases h
  all_goals exact makes_made (plain _) (by simpa [children, Phrase.inner] using proper) (open' _)

lemma makes_withTwo {f : Node → Node → Form Node} (plain : ∀ a b, (f a b).Proper)
    (children : ∀ a b, (f a b).children = [a, b]) (open' : ∀ a b, (f a b).isBlock = false)
    (h : withTwo e f parts = some p) : Makes p := by
  unfold withTwo at h
  split at h
  all_goals cases h
  all_goals exact makes_made (plain _ _) (by simpa [children, Phrase.inner] using proper) (open' _ _)

lemma makes_program (h : program e parts = some p) : Makes p := by
  unfold program at h
  split at h
  · obtain ⟨ns, hns, h⟩ := Option.bind_eq_some_iff.1 h
    cases h
    exact makes_made trivial (proper_of_nodes? (proper.subset (List.dropLast_subset _)) hns) rfl
  · cases h

lemma makes_ifStatement (h : ifStatement e parts = some p) : Makes p := by
  unfold ifStatement at h
  split at h
  all_goals cases h
  all_goals exact makes_made trivial (by simpa [Form.children, Phrase.inner] using proper) rfl

lemma makes_forStatement (h : forStatement e parts = some p) : Makes p := by
  revert h
  fun_cases forStatement e parts
  case case4 =>
    intro none
    cases none
  all_goals
    rename_i taken
    have rest := proper.subset (subset_of_takeToken taken)
    rintro ⟨⟩
    refine makes_made trivial ?_ rfl
    simp only [allProper_cons, Phrase.inner] at rest
    intro c hc
    simp only [Form.children, List.mem_append, List.mem_cons] at hc
    simp only [List.mem_append, List.mem_cons] at rest
    grind

lemma makes_importDeclaration (h : importDeclaration e parts = some p) : Makes p := by
  unfold importDeclaration at h
  split at h
  · cases h
    exact makes_made trivial (by simpa [Form.children, Phrase.inner] using proper) rfl
  · cases h
    refine makes_made trivial ?_ rfl
    simp only [allProper_cons, Phrase.inner] at proper
    exact List.forall_mem_append.2 ⟨proper.1, proper.2.1⟩
  · cases h

lemma makes_importSpecifier (h : importSpecifier e parts = some p) : Makes p := by
  unfold importSpecifier at h
  split at h
  all_goals cases h
  all_goals exact makes_made trivial (by simpa [Form.children, Phrase.inner] using proper) rfl

lemma makes_exportSpecifier (h : exportSpecifier e parts = some p) : Makes p := by
  unfold exportSpecifier at h
  split at h
  all_goals cases h
  all_goals exact makes_made trivial (by simpa [Form.children, Phrase.inner] using proper) rfl

lemma makes_exportDeclaration (exports : ∀ f, .exported f ∈ parts → f.Proper ∧ f.isBlock = false)
    (h : exportDeclaration e parts = some p) : Makes p := by
  unfold exportDeclaration at h
  split at h
  · rename_i f
    cases h
    obtain ⟨plain, open'⟩ := exports f (List.mem_singleton_self _)
    exact makes_made plain (by simpa [Phrase.inner] using proper) open'
  · cases h
    exact makes_made trivial (by simpa [Form.children, Phrase.inner] using proper) rfl
  · cases h

/-- The parts of a class are its children. -/
lemma makes_class (form : Class Node → Form Node) (plain : ∀ c, (form c).Proper)
    (children : ∀ c, (form c).children = c.id.toList ++ c.superclass.toList ++ [c.body])
    (open' : ∀ c, (form c).isBlock = false)
    (h : ((classDefinition parts).map fun c => Phrase.node (e.node (form c))) = some p) :
    Makes p := by
  obtain ⟨c, hc, rfl⟩ := Option.map_eq_some_iff.1 h
  refine makes_made (plain c) ?_ (open' c)
  rw [children]
  unfold classDefinition at hc
  split at hc
  all_goals cases hc
  all_goals simpa [Phrase.inner] using proper

/-- The parts of a function are its children. -/
lemma makes_function (form : Function Node → Form Node)
    (plain : ∀ f, (∀ n ∈ f.params, n.form.isParameter = true) → (form f).Proper)
    (children : ∀ f, (form f).children = f.id.toList ++ f.params ++ f.body.statements)
    (open' : ∀ f, (form f).isBlock = false)
    (params : ∀ ns, .nodes ns ∈ parts → ∀ n ∈ ns, n.form.isParameter = true)
    (h : ((function parts).map fun f => Phrase.node (e.node (form f))) = some p) : Makes p := by
  obtain ⟨f, hf, rfl⟩ := Option.map_eq_some_iff.1 h
  obtain ⟨name, listed, body⟩ := parts_of_function hf
  refine makes_made (plain f fun n hn => ?_) ?_ (open' f)
  · rcases listed with none | listed
    · simp [none] at hn
    · exact params _ listed n hn
  · rw [children]
    intro c hc
    simp only [List.mem_append, Option.mem_toList] at hc
    rcases hc with (hc | hc) | hc
    · exact proper _ (name c hc) c (List.mem_singleton_self c)
    · rcases listed with none | listed
      · simp [none] at hc
      · exact proper _ listed c hc
    · exact proper _ body c hc

/-- An arrow function tells whether its body is a block. -/
lemma makes_arrowFunction (params : ∀ ns, .nodes ns ∈ parts → ∀ n ∈ ns, n.form.isParameter = true)
    (values : ∀ n, .node n ∈ parts → n.form.isBlock = false)
    (h : arrowFunction e parts = some p) : Makes p := by
  revert h
  fun_cases arrowFunction e parts
  case case3 =>
    intro none
    cases none
  all_goals
    rename_i markers
    have sub := subset_of_takeToken markers
    have rest := proper.subset sub
    simp only [allProper_cons, Phrase.inner] at rest
    rintro ⟨⟩
  · refine makes_made ⟨params _ (sub List.mem_cons_self), by simp [blockNode, Node.form, Form.isBlock]⟩ ?_ rfl
    refine List.forall_mem_append.2 ⟨rest.1, List.forall_mem_singleton.2 ?_⟩
    exact (Node.proper_mk ..).2 ⟨trivial, rest.2.1⟩
  · rename_i body
    have value := values body (sub (List.mem_cons_of_mem _ List.mem_cons_self))
    refine makes_made ⟨params _ (sub List.mem_cons_self), by simp [value]⟩ ?_ rfl
    exact List.forall_mem_append.2 ⟨rest.1, rest.2.1⟩

end Makers

section Values

variable {e : Extent} {parts : List Phrase} {p : Phrase} (proper : AllProper parts)

lemma isValue_made {f : Form Node} {s : Site} (proper : f.Proper) (children : ∀ c ∈ f.children, c.Proper)
    (open' : f.isBlock = false) : IsValue (.mk f s) :=
  ⟨(Node.proper_mk f s).2 ⟨proper, children⟩, open'⟩

lemma isValue_combine {w : String} {left right n : Node} (hl : left.Proper) (hr : right.Proper)
    (h : combine w left right = some n) : IsValue n := by
  unfold combine at h
  split at h
  · cases h
    exact isValue_made trivial (by simp [Form.children, hl, hr]) rfl
  · obtain ⟨op, _, rfl⟩ := Option.map_eq_some_iff.1 h
    exact isValue_made trivial (by simp [Form.children, hl, hr]) rfl

include proper

lemma isValue_chain {left n : Node} (value : IsValue left) (h : chain left parts = some n) :
    IsValue n := by
  fun_induction chain left parts with
  | case1 left =>
    cases h
    exact value
  | case2 left operator right rest ih =>
    simp only [allProper_cons, Phrase.inner, List.forall_mem_singleton] at proper
    obtain ⟨joined, hjoined, h⟩ := Option.bind_eq_some_iff.1 h
    exact ih joined proper.2.2 (isValue_combine value.1 proper.2.1 hjoined) h
  | case3 => cases h

lemma isValue_accesses {object n : Node} (value : IsValue object)
    (h : accesses object parts = some n) : IsValue n := by
  fun_induction accesses object parts with
  | case1 object =>
    cases h
    exact value
  | case2 object a rest ih =>
    simp only [allProper_cons] at proper
    refine ih proper.2 ?_ h
    obtain ⟨kind, _, _⟩ := a
    cases kind
    all_goals
      exact isValue_made trivial (List.forall_mem_cons.2 ⟨value.1, proper.1⟩) rfl
  | case3 object operator span rest ih =>
    simp only [allProper_cons] at proper
    exact ih proper.2 (isValue_made trivial (List.forall_mem_singleton.2 value.1) rfl) h
  | case4 => cases h

-- No node among the parts is a block of statements.
variable (values : ∀ n, .node n ∈ parts → n.form.isBlock = false)

include values

/-- A node that is a part stands for itself. -/
lemma makes_part {n : Node} (h : .node n ∈ parts) : Makes (.node n) :=
  ⟨n, rfl, proper _ h n (List.mem_singleton_self n), values n h⟩

lemma makes_sequence (h : sequence e parts = some p) : Makes p := by
  obtain ⟨ns, hns, h⟩ := Option.bind_eq_some_iff.1 h
  have each := proper_of_nodes? proper hns
  split at h
  · cases h
  · rename_i n
    cases h
    refine makes_part proper values ?_
    simp [map_of_nodes? hns]
  · rename_i some several
    cases h
    refine makes_made (f := .sequenceExpression ns) ?_ each rfl
    have none : ns.length ≠ 0 := fun h => some (List.length_eq_zero_iff.1 h)
    have one : ns.length ≠ 1 := fun h => (List.length_eq_one_iff.1 h).elim several
    change 2 ≤ ns.length
    omega

lemma makes_assignment (h : assignment e parts = some p) : Makes p := by
  unfold assignment at h
  split at h
  · cases h
    exact makes_part proper values List.mem_cons_self
  · cases h
    exact makes_made trivial (by simpa [Form.children, Phrase.inner] using proper) rfl
  · cases h

lemma makes_conditional (h : conditional e parts = some p) : Makes p := by
  unfold conditional at h
  split at h
  · cases h
    exact makes_part proper values List.mem_cons_self
  · cases h
    exact makes_made trivial (by simpa [Form.children, Phrase.inner] using proper) rfl
  · cases h

lemma makes_binary (h : binary parts = some p) : Makes p := by
  unfold binary at h
  split at h
  · rename_i left rest
    obtain ⟨n, hn, rfl⟩ := Option.map_eq_some_iff.1 h
    simp only [allProper_cons, Phrase.inner, List.forall_mem_singleton] at proper
    exact ⟨n, rfl, isValue_chain proper.2 ⟨proper.1, values left List.mem_cons_self⟩ hn⟩
  · cases h

lemma makes_unary (h : unary e parts = some p) : Makes p := by
  unfold unary at h
  split at h
  · cases h
    exact makes_part proper values List.mem_cons_self
  · rename_i operator argument
    obtain ⟨f, hf, rfl⟩ := Option.map_eq_some_iff.1 h
    obtain ⟨-, children⟩ := unaryForm_children hf
    have plain : f.Proper ∧ f.isBlock = false := by
      unfold unaryForm at hf
      repeat' split at hf
      case isFalse =>
        obtain ⟨op, _, rfl⟩ := Option.map_eq_some_iff.1 hf
        exact ⟨trivial, rfl⟩
      all_goals
        cases hf
        exact ⟨trivial, rfl⟩
    exact makes_made plain.1 (by simpa [children, Phrase.inner] using proper) plain.2
  · cases h

lemma makes_accessed (h : accessed parts = some p) : Makes p := by
  unfold accessed at h
  split at h
  · rename_i object rest
    obtain ⟨n, hn, rfl⟩ := Option.map_eq_some_iff.1 h
    simp only [allProper_cons, Phrase.inner, List.forall_mem_singleton] at proper
    exact ⟨n, rfl, isValue_accesses proper.2 ⟨proper.1, values object List.mem_cons_self⟩ hn⟩
  · cases h

omit values

lemma makes_newObject (h : newObject e parts = some p) : Makes p := by
  unfold newObject at h
  split at h
  all_goals cases h
  all_goals exact makes_made trivial (by simpa [Form.children, Phrase.inner] using proper) rfl

lemma makes_importCall (h : importCall e parts = some p) : Makes p := by
  unfold importCall at h
  split at h
  all_goals cases h
  all_goals exact makes_made trivial (by simpa [Form.children, Phrase.inner] using proper) rfl

lemma makes_metaProperty (h : metaProperty e parts = some p) : Makes p := by
  unfold metaProperty at h
  split at h
  all_goals cases h
  all_goals exact makes_made trivial (by simpa [Form.children, Phrase.inner] using proper) rfl

end Values

section Steps

variable {r : Rule} {e : Extent} {ps : List Phrase} {p : Phrase}

/-- What a rule leaves are phrases of the rules that it calls. -/
lemma exists_sorted {g : Rule → Bool} {b : Expr Rule} (silent : g .templateHolePart = false)
    (only : b.callsOnly g = true) (h : Yields language Sorted b ps) :
    ∀ p ∈ ps, ∃ r, g r = true ∧ Sorted r p := by
  refine h.exists_rule (fun r hr => kind_ne_silent ?_) only
  rintro rfl
  rw [silent] at hr
  cases hr

lemma allProper_of_yields {g : Rule → Bool} {b : Expr Rule} (silent : g .templateHolePart = false)
    (only : b.callsOnly g = true) (h : Yields language Sorted b ps) : AllProper ps := by
  intro p hp n hn
  obtain ⟨r, -, sorted⟩ := exists_sorted silent only h p hp
  exact (sorted.nodes n hn).1

/-- The rules that stand for no block of statements and are not silent. -/
def isOpen (r : Rule) : Bool :=
  !(r matches .block | .templateHolePart)

lemma values_of_yields {b : Expr Rule} (only : b.callsOnly isOpen = true)
    (h : Yields language Sorted b ps) : ∀ n, .node n ∈ ps → n.form.isBlock = false := by
  intro n hn
  obtain ⟨r, ok, sorted⟩ := exists_sorted rfl only h _ hn
  cases block : n.form.isBlock with
  | false => rfl
  | true =>
    obtain rfl := sorted.block n rfl block
    cases ok

/-- The nodes in what a rule leaves have what the rules that it calls grant them. -/
lemma forms_of_yields {g : Rule → Bool} {b : Expr Rule} {Q : Form Node → Bool}
    (silent : g .templateHolePart = false) (only : b.callsOnly g = true)
    (told : ∀ r p, g r = true → Sorted r p → ∀ n ∈ p.inner, Q n.form = true)
    (h : Yields language Sorted b ps) : ∀ p ∈ ps, ∀ n ∈ p.inner, Q n.form = true := by
  intro p hp
  obtain ⟨r, hr, sorted⟩ := exists_sorted silent only h p hp
  exact told r p hr sorted

/-- The lists of nodes in what a rule leaves are lists of parameters. -/
lemma params_of_yields {g : Rule → Bool} {b : Expr Rule} (silent : g .templateHolePart = false)
    (only : b.callsOnly g = true)
    (told : ∀ r ns, g r = true → Fits r (.nodes ns) → r = .parameterList ∨ r = .arrowParameters)
    (h : Yields language Sorted b ps) :
    ∀ ns, .nodes ns ∈ ps → ∀ n ∈ ns, n.form.isParameter = true := by
  intro ns hns n hn
  obtain ⟨r, hr, sorted⟩ := exists_sorted silent only h _ hns
  rcases told r ns hr sorted.fits with rfl | rfl
  all_goals exact (sorted.nodes n hn).2

lemma form_of_nodes? {ns : List Node} {Q : Form Node → Bool} (hns : Phrase.nodes? ps = some ns)
    (h : ∀ p ∈ ps, ∀ n ∈ p.inner, Q n.form = true) : ∀ n ∈ ns, Q n.form = true := by
  rw [map_of_nodes? hns] at h
  intro n hn
  exact h (.node n) (List.mem_map_of_mem hn) n (List.mem_singleton_self n)

/-- What is bound comes first. -/
lemma exists_target {b : Expr Rule} (h : Yields language Sorted (.seq Grammar.bindingTarget b) ps) :
    ∃ n qs, ps = .node n :: qs ∧ n.Proper ∧ n.form.isTarget = true ∧
      Yields language Sorted b qs := by
  simp only [Grammar.bindingTarget, oneOf, yields_choice_seq, ne_eq, reduceCtorEq, not_false_eq_true,
    yields_rule_seq] at h
  obtain ⟨_, qs, rfl, ⟨⟨n, rfl⟩, nodes, -⟩, hqs⟩ | ⟨_, qs, rfl, ⟨⟨n, rfl⟩, nodes, -⟩, hqs⟩ |
    ⟨_, qs, rfl, ⟨⟨n, rfl⟩, nodes, -⟩, hqs⟩ := h
  all_goals
    obtain ⟨proper, target⟩ := nodes n (List.mem_singleton_self n)
    exact ⟨n, qs, rfl, proper, target, hqs⟩

lemma isBlock_of_isTarget {f : Form Node} (h : f.isTarget = true) : f.isBlock = false := by
  cases f
  case blockStatement => cases h
  all_goals rfl

lemma makes_variableDeclaration (h : Yields language Sorted Grammar.declarators ps)
    (made : variableDeclaration e ps = some p) : Makes p := by
  have proper : AllProper ps := allProper_of_yields (g := isOpen) rfl rfl h
  have forms : ∀ p ∈ ps, ∀ n ∈ p.inner, n.form.isDeclarator = true := by
    refine forms_of_yields (g := fun r => r matches .declarationKind | .variableDeclarator) rfl rfl
      (fun r p ok sorted n hn => ?_) h
    cases r
    case declarationKind =>
      obtain ⟨w, k, rfl, -⟩ := sorted.fits
      cases hn
    case variableDeclarator => exact (sorted.nodes n hn).2
    all_goals cases ok
  rw [Grammar.declarators, yields_rule_seq (by simp)] at h
  obtain ⟨_, qs, rfl, -, hqs⟩ := h
  rw [sepBy, yields_rule_seq (by simp)] at hqs
  obtain ⟨q, qs, rfl, -⟩ := hqs
  unfold variableDeclaration at made
  split at made
  · rename_i keyword parts whole
    cases whole
    obtain ⟨kind, -, made⟩ := Option.bind_eq_some_iff.1 made
    obtain ⟨ns, hns, made⟩ := Option.bind_eq_some_iff.1 made
    cases made
    have some : ns ≠ [] := by
      rintro rfl
      cases map_of_nodes? hns
    rw [allProper_cons] at proper
    exact makes_made ⟨some, form_of_nodes? hns (List.forall_mem_cons.1 forms).2⟩
      (proper_of_nodes? proper.2 hns) rfl
  · cases made

lemma makes_variableDeclarator (h : Yields language Sorted (Grammar.body .variableDeclarator) ps)
    (made : variableDeclarator e ps = some p) : MakesOf Form.isDeclarator p := by
  have proper : AllProper ps := allProper_of_yields (g := isOpen) rfl rfl h
  obtain ⟨id, qs, rfl, -, target, -⟩ := exists_target h
  unfold variableDeclarator at made
  split at made
  · rename_i whole
    cases whole
    cases made
    exact ⟨_, rfl, isValue_made target (by simpa [Form.children, Phrase.inner] using proper) rfl, rfl⟩
  · rename_i whole
    cases whole
    cases made
    exact ⟨_, rfl, isValue_made target (by simpa [Form.children, Phrase.inner] using proper) rfl, rfl⟩
  · cases made

lemma makes_bindingElement (h : Yields language Sorted (Grammar.body .bindingElement) ps)
    (made : bindingElement e ps = some p) : MakesOf Form.isParameter p := by
  have proper : AllProper ps := allProper_of_yields (g := isOpen) rfl rfl h
  obtain ⟨id, qs, rfl, first, target, -⟩ := exists_target h
  unfold bindingElement at made
  split at made
  · rename_i whole
    cases whole
    cases made
    exact ⟨id, rfl, ⟨first, isBlock_of_isTarget target⟩, Form.isParameter_of_isTarget target⟩
  · rename_i whole
    cases whole
    cases made
    exact ⟨_, rfl, isValue_made target (by simpa [Form.children, Phrase.inner] using proper) rfl, rfl⟩
  · cases made

/-- A rule of what is assigned to. -/
def isTargetRule : Rule → Bool
  | .identifier | .objectPattern | .arrayPattern => true
  | _ => false

lemma makes_restElement (h : Yields language Sorted (Grammar.body .restElement) ps)
    (made : restElement e ps = some p) : MakesOf Form.isParameter p := by
  have proper : AllProper ps := allProper_of_yields (g := isOpen) rfl rfl h
  have forms : ∀ p ∈ ps, ∀ n ∈ p.inner, n.form.isTarget = true := by
    refine forms_of_yields (g := isTargetRule) rfl rfl (fun r p ok sorted n hn => ?_) h
    cases r
    case identifier | objectPattern | arrayPattern => exact (sorted.nodes n hn).2
    all_goals cases ok
  unfold restElement at made
  split at made
  · rename_i target
    cases made
    have target := forms _ List.mem_cons_self target (List.mem_singleton_self target)
    exact makesOf_made target (by simpa [Form.children, Phrase.inner] using proper) rfl rfl
  · cases made

/-- A handler has a block, with or without what it binds. -/
lemma makes_catchClause (h : Yields language Sorted (Grammar.body .catchClause) ps)
    (made : catchClause e ps = some p) : MakesOf Form.isHandler p := by
  have proper : AllProper ps :=
    allProper_of_yields (g := fun r => r ≠ .templateHolePart) rfl rfl h
  have last : ∃ qs b, ps = qs ++ [.node b] ∧ b.form.isBlock = true := by
    simp only [Grammar.body, all, yields_word_seq, yields_opt_seq, yields_seq_seq, token,
      yields_text_seq] at h
    rcases h with h | h
    · obtain ⟨_, rfl, ⟨b, rfl⟩, nodes, -⟩ := (yields_rule (by simp)).1 h
      exact ⟨[], b, rfl, (nodes b (List.mem_singleton_self b)).2⟩
    · obtain ⟨param, qs, rfl, -, -, h⟩ := exists_target h
      rw [yields_text_seq] at h
      obtain ⟨_, rfl, ⟨b, rfl⟩, nodes, -⟩ := (yields_rule (by simp)).1 h
      exact ⟨[.node param], b, rfl, (nodes b (List.mem_singleton_self b)).2⟩
  obtain ⟨qs, b, rfl, block⟩ := last
  unfold catchClause at made
  split at made
  · rename_i body whole
    cases made
    obtain rfl : b = body := by simpa using congrArg List.getLast? whole
    exact makesOf_made block (by simpa [Form.children, Phrase.inner, whole] using proper) rfl rfl
  · rename_i param body whole
    cases made
    obtain rfl : b = body := by simpa using congrArg List.getLast? whole
    exact makesOf_made block (by simpa [Form.children, Phrase.inner, whole] using proper) rfl rfl
  · cases made

lemma makes_tryStatement (h : Yields language Sorted (Grammar.body .tryStatement) ps)
    (made : tryStatement e ps = some p) : Makes p := by
  have proper : AllProper ps :=
    allProper_of_yields (g := fun r => r ≠ .templateHolePart) rfl rfl h
  simp only [Grammar.body, all, yields_word_seq, ne_eq, reduceCtorEq, not_false_eq_true,
    yields_rule_seq, yields_opt_seq, yields_opt, yields_rule] at h
  obtain ⟨_, _, rfl, ⟨⟨block, rfl⟩, nodes, -⟩, h⟩ := h
  have first := (nodes block (List.mem_singleton_self block)).2
  obtain (rfl | ⟨_, rfl, ⟨⟨finalizer, rfl⟩, last, -⟩⟩) | ⟨_, _, rfl, ⟨⟨handler, rfl⟩, handles, -⟩, h⟩ := h
  · cases made
    exact makes_made ⟨first, by simp, by simp⟩ (by simpa [Form.children, Phrase.inner] using proper) rfl
  · cases made
    refine makes_made ⟨first, by simp, ?_⟩ (by simpa [Form.children, Phrase.inner] using proper) rfl
    simpa using (last finalizer (List.mem_singleton_self finalizer)).2
  · have second := (handles handler (List.mem_singleton_self handler)).2
    obtain rfl | ⟨_, rfl, ⟨⟨finalizer, rfl⟩, last, -⟩⟩ := h
    · cases made
      refine makes_made ⟨first, ?_, by simp⟩ (by simpa [Form.children, Phrase.inner] using proper) rfl
      simpa using second
    · cases made
      refine makes_made ⟨first, ?_, ?_⟩ (by simpa [Form.children, Phrase.inner] using proper) rfl
      · simpa using second
      · simpa using (last finalizer (List.mem_singleton_self finalizer)).2

lemma makes_switchStatement (h : Yields language Sorted (Grammar.body .switchStatement) ps)
    (made : switchStatement e ps = some p) : Makes p := by
  have proper : AllProper ps := allProper_of_yields (g := isOpen) rfl rfl h
  simp only [Grammar.body, all, token, yields_word_seq, yields_text_seq, ne_eq, reduceCtorEq,
    not_false_eq_true, yields_rule_seq, yields_seq_text] at h
  obtain ⟨_, qs, rfl, ⟨⟨discriminant, rfl⟩, -, -⟩, hqs⟩ := h
  obtain ⟨cases', hcases, rfl⟩ := Option.map_eq_some_iff.1 made
  have forms : ∀ p ∈ qs, ∀ n ∈ p.inner, n.form.isCase = true := by
    refine forms_of_yields (g := fun r => r = .switchCase) rfl rfl (fun r p ok sorted n hn => ?_) hqs
    obtain rfl := of_decide_eq_true ok
    exact (sorted.nodes n hn).2
  rw [allProper_cons, Phrase.inner, List.forall_mem_singleton] at proper
  refine makes_made (form_of_nodes? hcases forms) ?_ rfl
  exact List.forall_mem_cons.2 ⟨proper.1, proper_of_nodes? proper.2 hcases⟩

lemma makes_switchCase (proper : AllProper ps) (made : switchCase e ps = some p) :
    MakesOf Form.isCase p := by
  obtain ⟨ns, hns, made⟩ := Option.bind_eq_some_iff.1 made
  have each := proper_of_nodes? proper hns
  split at made
  · cases made
    exact makesOf_made trivial each rfl rfl
  · split at made
    · cases made
    · cases made
      exact makesOf_made trivial each rfl rfl

/-- A pattern or an object has parts of one rule or two. -/
lemma makesOf_nodes (form : List Node → Form Node) {Q R : Form Node → Bool} (proper : AllProper ps)
    (forms : ∀ p ∈ ps, ∀ n ∈ p.inner, Q n.form = true)
    (plain : ∀ ns, (∀ n ∈ ns, Q n.form = true) → (form ns).Proper)
    (children : ∀ ns, (form ns).children = ns) (open' : ∀ ns, (form ns).isBlock = false)
    (told : ∀ ns, R (form ns) = true)
    (made : ((Phrase.nodes? ps).map fun ns => Phrase.node (e.node (form ns))) = some p) :
    MakesOf R p := by
  obtain ⟨ns, hns, rfl⟩ := Option.map_eq_some_iff.1 made
  refine makesOf_made (plain ns (form_of_nodes? hns forms)) ?_ (open' ns) (told ns)
  rw [children]
  exact proper_of_nodes? proper hns

/-- The nodes of slots are those of the phrases that they are. -/
lemma forall_of_slots? {os : List (Option Node)} {Q : Node → Prop} (hos : Phrase.slots? ps = some os)
    (h : ∀ p ∈ ps, ∀ n ∈ p.inner, Q n) :
    ∀ slot ∈ withoutLastHole os, ∀ n ∈ slot, Q n := by
  have each : ∀ slot ∈ os, ∀ n ∈ slot, Q n := by
    induction ps generalizing os with
    | nil =>
      cases hos
      simp
    | cons p ps ih =>
      simp only [Phrase.slots?, List.mapM_cons, Option.bind_eq_bind, Option.bind_eq_some_iff] at hos ih
      obtain ⟨o, ho, qs, hqs, e⟩ := hos
      cases e
      have rest := ih hqs fun q hq => h q (List.mem_cons_of_mem p hq)
      cases p
      case slot m =>
        cases ho
        exact List.forall_mem_cons.2
          ⟨fun n hn => h _ List.mem_cons_self n (Option.mem_toList.2 hn), rest⟩
      all_goals cases ho
  intro slot hslot n hn
  have mem : n ∈ (withoutLastHole os).filterMap id := List.mem_filterMap.2 ⟨slot, hslot, hn⟩
  rw [filterMap_withoutLastHole] at mem
  obtain ⟨slot', hslot', hn'⟩ := List.mem_filterMap.1 mem
  exact each slot' hslot' n hn'

lemma makesOf_slots (form : List (Option Node) → Form Node) {R : Form Node → Bool} {Q : Node → Prop}
    (proper : AllProper ps) (forms : ∀ p ∈ ps, ∀ n ∈ p.inner, Q n)
    (plain : ∀ os, (∀ slot ∈ os, ∀ n ∈ slot, Q n) → (form os).Proper)
    (children : ∀ os, (form os).children = os.filterMap id)
    (open' : ∀ os, (form os).isBlock = false) (told : ∀ os, R (form os) = true)
    (made : ((Phrase.slots? ps).map fun os =>
      Phrase.node (e.node (form (withoutLastHole os)))) = some p) : MakesOf R p := by
  obtain ⟨os, hos, rfl⟩ := Option.map_eq_some_iff.1 made
  refine makesOf_made (plain _ (forall_of_slots? hos forms)) ?_ (open' _) (told _)
  rw [children]
  intro c hc
  obtain ⟨slot, hslot, hc⟩ := List.mem_filterMap.1 hc
  exact forall_of_slots? hos proper slot hslot c hc

/-- A part of a pattern is a property, or what is bound to the rest. -/
lemma makes_patternProperty (proper : AllProper ps)
    (values : ∀ n, .node n ∈ ps → n.form.isBlock = false) (made : patternProperty e ps = some p) :
    MakesOf Form.isPatternPart p := by
  unfold patternProperty at made
  split at made
  · cases made
    exact makesOf_made trivial (by simpa [Form.children, Phrase.inner] using proper) rfl rfl
  · rename_i binding
    rw [allProper_cons, Phrase.inner, List.forall_mem_singleton] at proper
    split at made
    · rename_i target form
      cases made
      exact ⟨binding, rfl, ⟨proper.1, values binding List.mem_cons_self⟩, by rw [form]; rfl⟩
    · cases made
      have key : (shorthandKey binding).Proper := by
        obtain ⟨f, s⟩ := binding
        unfold shorthandKey
        split
        · rename_i left right form
          obtain rfl : f = .assignmentPattern left right := form
          exact ((Node.proper_mk ..).1 proper.1).2 left List.mem_cons_self
        · exact proper.1
      exact makesOf_made trivial (by simp [Form.children, key, proper.1]) rfl rfl
  · cases made

/-- An item has the form of its part. -/
lemma sorted_item {r : Rule} (fits : Fits r p) (nodes : ∀ p ∈ ps, ∀ n ∈ p.inner,
    n.Proper ∧ admits r n.form = true) (made : item ps = some p) : Sorted r p := by
  unfold item at made
  split at made
  · cases made
    exact .of_nodes fits (by simp [Phrase.inner]) rfl
  · rename_i n
    cases made
    refine .of_nodes fits (fun m hm => ?_) rfl
    exact nodes _ List.mem_cons_self m (by simpa [Phrase.inner] using hm)
  · cases made

lemma sorted_list {r : Rule} (fits : Fits r p) (nodes : ∀ p ∈ ps, ∀ n ∈ p.inner,
    n.Proper ∧ admits r n.form = true) (made : list ps = some p) : Sorted r p := by
  obtain ⟨ns, hns, rfl⟩ := Option.map_eq_some_iff.1 made
  rw [map_of_nodes? hns] at nodes
  refine .of_nodes fits (fun n hn => ?_) rfl
  exact nodes (.node n) (List.mem_map_of_mem hn) n (List.mem_singleton_self n)

lemma sorted_arrowParameters (fits : Fits .arrowParameters p) (nodes : ∀ p ∈ ps, ∀ n ∈ p.inner,
    n.Proper ∧ n.form.isParameter = true) (made : arrowParameters ps = some p) :
    Sorted .arrowParameters p := by
  unfold arrowParameters at made
  split at made
  · cases made
    exact .of_nodes fits (by simp [Phrase.inner]) rfl
  · rename_i n
    cases made
    exact .of_nodes fits (nodes (.node n) List.mem_cons_self) rfl
  · cases made
    exact .of_nodes fits (nodes _ List.mem_cons_self) rfl
  · cases made

lemma makes_property (proper : AllProper ps) (made : property e ps = some p) :
    MakesOf Form.isObjectPart p := by
  unfold property at made
  split at made
  · cases made
    exact makesOf_made trivial (by simpa [Form.children, Phrase.inner] using proper) rfl rfl
  · cases made
    exact makesOf_made trivial (by simpa [Form.children, Phrase.inner] using proper) rfl rfl
  · cases made
    exact makesOf_made trivial (by simpa [Form.children, Phrase.inner] using proper) rfl rfl
  · cases made

lemma sorted_classField (fits : Fits .classField p) (proper : AllProper ps)
    (made : classField ps = some p) : Sorted .classField p := by
  unfold classField at made
  split at made
  · obtain ⟨⟨key, computed⟩, hkey, made⟩ := Option.bind_eq_some_iff.1 made
    cases made
    rw [allProper_cons, inner_of_memberKey hkey] at proper
    exact .of_nodes fits (by simpa [Phrase.inner] using proper.1) rfl
  · obtain ⟨⟨key, computed⟩, hkey, made⟩ := Option.bind_eq_some_iff.1 made
    cases made
    rw [allProper_cons, inner_of_memberKey hkey] at proper
    exact .of_nodes fits (by simpa [Phrase.inner] using proper) rfl
  · cases made

/-- The value of a method is a function without a name. -/
lemma sorted_methodProperty (fits : Fits .methodProperty p) (proper : AllProper ps)
    (params : ∀ ns, .nodes ns ∈ ps → ∀ n ∈ ns, n.form.isParameter = true)
    (made : method e ps = some p) : Sorted .methodProperty p := by
  rcases accessor : accessorKind ps with ⟨kind, marked⟩
  rcases async : Phrase.takeToken "async" marked with ⟨isAsync, starred⟩
  rcases star : Phrase.takeToken "*" starred with ⟨isGenerator, rest⟩
  -- The words in front are taken off, so what is left is among the parts.
  have sub : rest ⊆ ps := fun q hq =>
    subset_of_accessorKind accessor (subset_of_takeToken async (subset_of_takeToken star hq))
  rw [method, accessor] at made
  dsimp only at made
  rw [async] at made
  dsimp only at made
  rw [star] at made
  cases rest with
  | nil => cases made
  | cons first rest =>
    obtain ⟨⟨key, computed⟩, hkey, made⟩ := Option.bind_eq_some_iff.1 made
    rcases taken : Phrase.takeNodes rest with ⟨ns, tail⟩
    dsimp only at made
    rw [taken] at made
    dsimp only at made
    obtain ⟨listed, last⟩ := subset_of_takeNodes taken
    have inside := proper.subset sub
    rw [allProper_cons, inner_of_memberKey hkey, List.forall_mem_singleton] at inside
    split at made
    · rename_i body
      cases made
      have named : (∀ n ∈ ns, n.Proper) ∧ ∀ n ∈ ns, n.form.isParameter = true := by
        rcases listed with rfl | listed
        · simp
        · exact ⟨inside.2 _ listed, params ns (sub (List.mem_cons_of_mem _ listed))⟩
      have block := inside.2 _ (last List.mem_cons_self)
      refine ⟨fits, ?_, by rintro _ ⟨⟩, ?_, by rintro _ ⟨⟩⟩
      · refine List.forall_mem_cons.2 ⟨⟨inside.1, rfl⟩, List.forall_mem_singleton.2 ⟨?_, rfl⟩⟩
        refine (Node.proper_mk ..).2 ⟨named.2, ?_⟩
        simp only [Form.children, Option.toList_none, List.nil_append]
        exact List.forall_mem_append.2 ⟨named.1, block⟩
      · rintro m ⟨⟩
        rfl
    · cases made

lemma makes_classMember (proper : AllProper ps)
    (values : ∀ m, .method m ∈ ps → m.value.form.isMethodValue = true)
    (made : classMember e ps = some p) : MakesOf Form.isMember p := by
  revert made
  fun_cases classMember e ps
  case case3 =>
    intro none
    cases none
  case case1 m markers =>
    rintro ⟨⟩
    have sub := subset_of_takeToken markers
    have inside := proper.subset sub
    refine makesOf_made ⟨values m (sub List.mem_cons_self), fun constructor' => ?_⟩
      (by simpa [Form.children, Phrase.inner] using inside) rfl rfl
    unfold methodKind at constructor'
    split at constructor'
    · cases constructor'
    · cases constructor'
    · split at constructor'
      · rename_i told
        simp only [Bool.and_eq_true, Bool.not_eq_true', beq_iff_eq] at told
        exact ⟨told.1.2, told.1.1, told.2⟩
      · cases constructor'
  case case2 key computed value markers =>
    rintro ⟨⟩
    have inside := proper.subset (subset_of_takeToken markers)
    exact makesOf_made trivial (by simpa [Form.children, Phrase.inner] using inside) rfl rfl

lemma sorted_functionBody (fits : Fits .functionBody p) (proper : AllProper ps)
    (made : functionBody e ps = some p) : Sorted .functionBody p := by
  obtain ⟨ns, hns, rfl⟩ := Option.map_eq_some_iff.1 made
  exact .of_nodes fits (fun n hn => ⟨proper_of_nodes? proper hns n hn, rfl⟩) rfl

lemma sorted_importClause (fits : Fits .importClause p) (proper : AllProper ps)
    (made : importClause ps = some p) : Sorted .importClause p := by
  refine .of_nodes fits (fun n hn => ⟨?_, rfl⟩) ?_
  · clear fits
    -- On the parts: a name, or the list between braces, in front of the others.
    induction ps generalizing p n with
    | nil =>
      cases made
      cases hn
    | cons q ps ih =>
      rw [allProper_cons] at proper
      cases q
      case node m =>
        simp only [importClause, Option.bind_eq_bind, Option.bind_eq_some_iff] at made
        obtain ⟨rest, hrest, made⟩ := made
        split at made
        · cases made
          rcases List.mem_cons.1 hn with rfl | hn
          · have first := proper.1 m (List.mem_singleton_self m)
            split
            · exact (Node.proper_mk ..).2 ⟨trivial, List.forall_mem_singleton.2 first⟩
            · exact first
          · exact ih proper.2 hrest n hn
        · cases made
      case nodes ns =>
        simp only [importClause, Option.bind_eq_bind, Option.bind_eq_some_iff] at made
        obtain ⟨rest, hrest, made⟩ := made
        split at made
        · cases made
          rcases List.mem_append.1 hn with hn | hn
          · exact proper.1 n hn
          · exact ih proper.2 hrest n hn
        · cases made
      all_goals cases made
  · obtain ⟨ns, rfl⟩ := fits
    rfl

/-- What is exported is no block of statements, and its children are proper. -/
lemma sorted_exported {r : Rule} {f : Form Node} (any : ∀ f, admits r f = true)
    (fits : Fits r (.exported f)) (plain : f.Proper) (open' : f.isBlock = false)
    (children : ∀ c ∈ f.children, c.Proper) : Sorted r (.exported f) := by
  refine ⟨fits, fun n hn => ⟨children n hn, any _⟩, nofun, nofun, ?_⟩
  rintro f ⟨⟩
  exact ⟨plain, open'⟩

lemma sorted_exportDefault (fits : Fits .exportDefault p) (proper : AllProper ps)
    (made : exportDefault ps = some p) : Sorted .exportDefault p := by
  unfold exportDefault at made
  split at made
  · cases made
    exact sorted_exported (fun _ => rfl) fits trivial rfl
      (by simpa [Form.children, Phrase.inner] using proper)
  · cases made

lemma sorted_exportList (fits : Fits .exportList p) (proper : AllProper ps)
    (made : exportList ps = some p) : Sorted .exportList p := by
  obtain ⟨ns, hns, made⟩ := Option.bind_eq_some_iff.1 made
  have each := proper_of_nodes? proper hns
  split at made
  · cases made
    exact sorted_exported (fun _ => rfl) fits trivial rfl (by simp [Form.children])
  · rename_i last
    obtain ⟨front, rfl⟩ := List.getLast?_eq_some_iff.1 last
    split at made
    all_goals
      cases made
      exact sorted_exported (fun _ => rfl) fits trivial rfl (by simpa [Form.children] using each)

lemma sorted_exportAll (fits : Fits .exportAll p) (proper : AllProper ps)
    (made : exportAll ps = some p) : Sorted .exportAll p := by
  unfold exportAll at made
  split at made
  · cases made
    exact sorted_exported (fun _ => rfl) fits trivial rfl
      (by simpa [Form.children, Phrase.inner] using proper)
  · cases made
    exact sorted_exported (fun _ => rfl) fits trivial rfl
      (by simpa [Form.children, Phrase.inner] using proper)
  · cases made

lemma sorted_oneNode {r : Rule} {f : Node → Phrase} (inner : ∀ n, (f n).inner = [n])
    (other : ∀ n, isSingled (f n) = false) (fits : Fits r p)
    (nodes : ∀ p ∈ ps, ∀ n ∈ p.inner, n.Proper ∧ admits r n.form = true)
    (made : phrase?.oneNode f ps = some p) : Sorted r p := by
  unfold phrase?.oneNode at made
  split at made
  · rename_i n
    cases made
    refine .of_nodes fits ?_ (other n)
    rw [inner]
    exact nodes (.node n) List.mem_cons_self
  · cases made

lemma sorted_forEachHead (fits : Fits .forEachHead p) (proper : AllProper ps)
    (made : forEachHead ps = some p) : Sorted .forEachHead p := by
  unfold forEachHead at made
  split at made
  · cases made
    refine .of_nodes fits (fun n hn => ⟨?_, rfl⟩) rfl
    simp only [allProper_cons, Phrase.inner, List.forall_mem_singleton] at proper
    simp only [Phrase.inner, List.mem_cons, List.not_mem_nil, or_false] at hn
    rcases hn with rfl | rfl
    · exact proper.1
    · exact proper.2.2.1
  · cases made

lemma sorted_forClassicHead (fits : Fits .forClassicHead p) (proper : AllProper ps)
    (made : forClassicHead ps = some p) : Sorted .forClassicHead p := by
  suffices ∀ n ∈ p.inner, n.Proper by
    refine .of_nodes fits (fun n hn => ⟨this n hn, rfl⟩) ?_
    obtain ⟨_, _, _, rfl⟩ := fits
    rfl
  revert made
  fun_cases forClassicHead ps
  case case3 =>
    intro none
    cases none
  case' case1 => rename_i inits _ tests
  case' case2 => rename_i inits _ _ tests
  all_goals
    intro made
    cases made
    split at inits
    all_goals
      cases inits
      split at tests
      all_goals
        cases tests
        simp_all [Phrase.inner]

lemma sorted_callArguments (fits : Fits .callArguments p) (proper : AllProper ps)
    (made : callArguments e ps = some p) : Sorted .callArguments p := by
  obtain ⟨ns, hns, rfl⟩ := Option.map_eq_some_iff.1 made
  exact .of_nodes fits (fun n hn => ⟨proper_of_nodes? proper hns n hn, rfl⟩) rfl

lemma sorted_memberAccess (fits : Fits .memberAccess p) (proper : AllProper ps)
    (made : memberAccess e ps = some p) : Sorted .memberAccess p := by
  unfold memberAccess at made
  split at made
  · rename_i name
    cases made
    exact .of_nodes fits (fun n hn => ⟨proper (.node name) List.mem_cons_self n hn, rfl⟩) rfl
  · cases made

lemma sorted_computedAccess (fits : Fits .computedAccess p) (proper : AllProper ps)
    (made : computedAccess e ps = some p) : Sorted .computedAccess p := by
  unfold computedAccess at made
  split at made
  · rename_i expression
    cases made
    exact .of_nodes fits (fun n hn => ⟨proper (.node expression) List.mem_cons_self n hn, rfl⟩)
      rfl
  · cases made

/-- A leaf is a proper node without children. -/
lemma sorted_leaf {r : Rule} (leaf : isLeaf r = true) (fits : Fits r p)
    (made : phrase? r e ps = some p) : Sorted r p := by
  have plain {f : Form Node} (own : p = .node (e.node f)) (quiet : f.Proper) (bare : f.children = [])
      (open' : f.isBlock = false) (told : admits r f = true) : Sorted r p := by
    subst own
    exact MakesOf.sorted (makesOf_made quiet (by simp [bare]) open' told) fits
  cases r
  case number | string | templateLiteral | regex =>
    obtain ⟨_, _, rfl⟩ := Option.map_eq_some_iff.1 made
    exact plain rfl trivial rfl rfl rfl
  all_goals first
    | cases leaf; done
    | cases made
  all_goals first
    | exact plain rfl trivial rfl rfl rfl
    | exact .of_nodes fits (by simp [Phrase.inner, updateSuffix]) rfl

end Steps

section Rules

variable {r : Rule} {e : Extent} {ps : List Phrase} {p : Phrase}

lemma allProper_of_body (leaf : isLeaf r = false) (loud : r ≠ .templateHolePart)
    (h : Yields language Sorted (Grammar.body r) ps) : AllProper ps := by
  refine allProper_of_yields (g := fun r => r ≠ .templateHolePart) rfl ?_ h
  cases r
  case templateHolePart => exact absurd rfl loud
  case binaryExpression level => cases level <;> rfl
  all_goals first
    | rfl
    | cases leaf

/-- The nodes in what an expression leaves, when all rules that it calls grant them the same. -/
lemma nodes_of_yields {g : Rule → Bool} {b : Expr Rule} {Q : Form Node → Bool}
    (silent : g .templateHolePart = false) (only : b.callsOnly g = true)
    (told : ∀ r, g r = true → ∀ f, admits r f = true → Q f = true)
    (h : Yields language Sorted b ps) : ∀ p ∈ ps, ∀ n ∈ p.inner, n.Proper ∧ Q n.form = true := by
  intro p hp n hn
  obtain ⟨r, hr, sorted⟩ := exists_sorted silent only h p hp
  obtain ⟨proper, admitted⟩ := sorted.nodes n hn
  exact ⟨proper, told r hr n.form admitted⟩

/-- A rule of expressions that may stand for what a part stands for. -/
def isThrough (r : Rule) : Bool :=
  r matches .expression | .assignmentExpression | .conditionalExpression | .binaryExpression _
    | .unaryExpression | .postfixExpression | .newTarget | .arrowFunction | .patternProperty
    | .parenthesizedExpression

lemma values_of_body (through : isThrough r = true)
    (h : Yields language Sorted (Grammar.body r) ps) :
    ∀ n, .node n ∈ ps → n.form.isBlock = false := by
  refine values_of_yields ?_ h
  cases r
  case binaryExpression level => cases level <;> rfl
  all_goals first
    | rfl
    | cases through

/-- A rule of what a function is made of. -/
def isRoutinePart : Rule → Bool
  | .asyncModifier | .generatorMarker | .identifier | .parameterList | .functionBody => true
  | _ => false

lemma makes_wholeFunction (form : Function Node → Form Node)
    (plain : ∀ f, (∀ n ∈ f.params, n.form.isParameter = true) → (form f).Proper)
    (children : ∀ f, (form f).children = f.id.toList ++ f.params ++ f.body.statements)
    (open' : ∀ f, (form f).isBlock = false) (h : Yields language Sorted Grammar.function ps)
    (made : ((function ps).map fun f => Phrase.node (e.node (form f))) = some p) : Makes p := by
  have proper : AllProper ps := allProper_of_yields (g := isOpen) rfl rfl h
  refine makes_function proper form plain children open' ?_ made
  refine params_of_yields (g := isRoutinePart) rfl rfl (fun r ns ok fits => ?_) h
  cases r
  case parameterList => exact .inl rfl
  all_goals first
    | cases ok; done
    | simp [IsNode] at fits

lemma makes_classBody (h : Yields language Sorted (Grammar.body .classBody) ps)
    (made : classBody e ps = some p) : Makes p := by
  have proper : AllProper ps := allProper_of_yields (g := isOpen) rfl rfl h
  have forms := nodes_of_yields (g := fun r => r matches .classMember) (Q := Form.isMember) rfl rfl
    (fun r ok f admitted => by cases r <;> first | exact admitted | cases ok) h
  obtain ⟨n, rfl, value, -⟩ := makesOf_nodes .classBody (R := fun _ => true) proper
    (fun p hp n hn => (forms p hp n hn).2) (fun _ told => told) (fun _ => rfl) (fun _ => rfl)
    (fun _ => rfl) made
  exact ⟨n, rfl, value⟩

lemma sorted_block (fits : Fits .block p) (proper : AllProper ps)
    (made : withMany e .blockStatement ps = some p) : Sorted .block p := by
  obtain ⟨ns, hns, rfl⟩ := Option.map_eq_some_iff.1 made
  refine ⟨fits, List.forall_mem_singleton.2 ⟨?_, rfl⟩, fun _ _ _ => rfl, nofun, fun _ => nofun⟩
  exact (Node.proper_mk ..).2 ⟨trivial, proper_of_nodes? proper hns⟩

lemma sorted_finallyClause (fits : Fits .finallyClause p)
    (h : Yields language Sorted (Grammar.body .finallyClause) ps) (made : finallyClause ps = some p) :
    Sorted .finallyClause p := by
  refine sorted_oneNode (f := .finalizer) (fun _ => rfl) (fun _ => rfl) fits ?_ made
  exact nodes_of_yields (g := (· == .block)) rfl rfl
    (fun r ok f admitted => by cases r <;> first | exact admitted | cases ok) h

lemma makes_classMember_of_yields (h : Yields language Sorted (Grammar.body .classMember) ps)
    (made : classMember e ps = some p) : MakesOf Form.isMember p := by
  have proper : AllProper ps := allProper_of_yields (g := isOpen) rfl rfl h
  refine makes_classMember proper (fun m hm => ?_) made
  obtain ⟨r, -, sorted⟩ := exists_sorted (g := isOpen) rfl rfl h _ hm
  exact sorted.method m rfl

/-- The parts of a pattern between braces. -/
lemma makes_objectPattern (h : Yields language Sorted (Grammar.body .objectPattern) ps)
    (made : objectPattern e ps = some p) : MakesOf Form.isTarget p := by
  have proper : AllProper ps := allProper_of_yields (g := isOpen) rfl rfl h
  have forms := nodes_of_yields (g := fun r => r matches .patternProperty) (Q := Form.isPatternPart)
    rfl rfl (fun r ok f admitted => by cases r <;> first | exact admitted | cases ok) h
  exact makesOf_nodes .objectPattern proper (fun p hp n hn => (forms p hp n hn).2)
    (fun _ told => told) (fun _ => rfl) (fun _ => rfl) (fun _ => rfl) made

/-- The parts of a pattern between square brackets. -/
lemma makes_arrayPattern (h : Yields language Sorted (Grammar.body .arrayPattern) ps)
    (made : arrayPattern e ps = some p) : MakesOf Form.isTarget p := by
  have proper : AllProper ps := allProper_of_yields (g := isOpen) rfl rfl h
  have forms := nodes_of_yields (g := fun r => r matches .patternItem) (Q := Form.isParameter)
    rfl rfl (fun r ok f admitted => by cases r <;> first | exact admitted | cases ok) h
  exact makesOf_slots .arrayPattern proper (fun p hp n hn => (forms p hp n hn).2)
    (fun _ told => told) (fun _ => rfl) (fun _ => rfl) (fun _ => rfl) made

lemma makes_arrayLiteral (proper : AllProper ps) (made : arrayLiteral e ps = some p) : Makes p := by
  obtain ⟨n, rfl, value, -⟩ := makesOf_slots .arrayExpression (R := fun _ => true) (Q := fun _ => True)
    proper (fun _ _ _ _ => trivial) (fun _ _ => trivial) (fun _ => rfl) (fun _ => rfl)
    (fun _ => rfl) made
  exact ⟨n, rfl, value⟩

lemma makes_objectLiteral (h : Yields language Sorted (Grammar.body .objectLiteral) ps)
    (made : objectLiteral e ps = some p) : Makes p := by
  have proper : AllProper ps := allProper_of_yields (g := isOpen) rfl rfl h
  have forms := nodes_of_yields (g := fun r => r matches .spreadElement | .property)
    (Q := Form.isObjectPart) rfl rfl
    (fun r ok f admitted => by cases r <;> first | exact admitted | cases ok) h
  obtain ⟨n, rfl, value, -⟩ := makesOf_nodes .objectExpression (R := fun _ => true) proper
    (fun p hp n hn => (forms p hp n hn).2) (fun _ told => told) (fun _ => rfl) (fun _ => rfl)
    (fun _ => rfl) made
  exact ⟨n, rfl, value⟩

lemma makes_spreadElement (proper : AllProper ps) (made : withOne e .spreadElement ps = some p) :
    MakesOf Form.isObjectPart p := by
  unfold withOne at made
  split at made
  · cases made
    exact makesOf_made trivial (by simpa [Form.children, Phrase.inner] using proper) rfl rfl
  · cases made

/-- What stands where parameters may stand. -/
lemma parameters_of_yields {b : Expr Rule}
    (only : b.callsOnly (fun r => r matches .restElement | .bindingElement | .identifier |
      .parameterList) = true)
    (h : Yields language Sorted b ps) :
    ∀ p ∈ ps, ∀ n ∈ p.inner, n.Proper ∧ n.form.isParameter = true := by
  refine nodes_of_yields rfl only (fun r ok f admitted => ?_) h
  cases r
  case restElement | bindingElement | parameterList => exact admitted
  case identifier => exact Form.isParameter_of_isTarget admitted
  all_goals cases ok

lemma makes_arrowFunction_of_yields (h : Yields language Sorted (Grammar.body .arrowFunction) ps)
    (made : arrowFunction e ps = some p) : Makes p := by
  have proper : AllProper ps := allProper_of_yields (g := isOpen) rfl rfl h
  refine makes_arrowFunction proper ?_ (values_of_body (r := .arrowFunction) rfl h) made
  refine params_of_yields (g := fun r => r matches .asyncModifier | .arrowParameters | .functionBody |
    .assignmentExpression) rfl rfl (fun r ns ok fits => ?_) h
  cases r
  case arrowParameters => exact .inr rfl
  all_goals first
    | cases ok; done
    | simp [IsNode] at fits

/-- A rule of what a method is made of. -/
def isMethodPart : Rule → Bool
  | .accessorKind | .asyncModifier | .generatorMarker | .computedKey | .propertyKey | .privateIdentifier
  | .parameterList | .functionBody => true
  | _ => false

lemma sorted_methodProperty_of_yields (fits : Fits .methodProperty p)
    (h : Yields language Sorted (Grammar.body .methodProperty) ps) (made : method e ps = some p) :
    Sorted .methodProperty p := by
  have proper : AllProper ps := allProper_of_yields (g := isOpen) rfl rfl h
  refine sorted_methodProperty fits proper ?_ made
  refine params_of_yields (g := isMethodPart) rfl rfl (fun r ns ok fits => ?_) h
  cases r
  case parameterList => exact .inl rfl
  all_goals first
    | cases ok; done
    | simp [IsNode, IsKey] at fits

/-- What stands for its only part is what the part is. -/
lemma sorted_only {r : Rule} (any : ∀ f, admits r f = true) (fits : Fits r p)
    (method : ∀ m, p ≠ .method m) (exported : ∀ f, p ≠ .exported f) (proper : AllProper ps)
    (values : ∀ n, .node n ∈ ps → n.form.isBlock = false) (made : phrase?.only ps = some p) :
    Sorted r p := by
  unfold phrase?.only at made
  split at made
  · cases made
    refine ⟨fits, fun n hn => ⟨proper _ List.mem_cons_self n hn, any _⟩, ?_, ?_, ?_⟩
    · rintro n rfl block
      rw [values n List.mem_cons_self] at block
      cases block
    · exact fun m h => absurd h (method m)
    · exact fun f h => absurd h (exported f)
  · cases made

/-- What the parts of a rule make up is sorted, if they are. -/
lemma sorted_of_phrase? (leaf : isLeaf r = false) (h : Yields language Sorted (Grammar.body r) ps)
    (fits : Fits r p) (made : phrase? r e ps = some p) : Sorted r p := by
  by_cases loud : r = .templateHolePart
  · subst loud
    cases made
  have proper := allProper_of_body leaf loud h
  have any (h : ∀ f, admits r f = true) : ∀ p ∈ ps, ∀ n ∈ p.inner,
      n.Proper ∧ admits r n.form = true := fun p hp n hn => ⟨proper p hp n hn, h n.form⟩
  -- One lemma for each rule with parts; of what is common, each rule says only which forms it admits.
  cases r
  case templateHolePart => exact absurd rfl loud
  case program => exact (makes_program proper made).sorted fits fun _ => rfl
  case variableDeclaration =>
    obtain ⟨qs, rs, rfl, hqs, rfl | rfl⟩ := h
    all_goals
      rw [List.append_nil] at made
      exact (makes_variableDeclaration hqs made).sorted fits fun _ => rfl
  case forDeclaration => exact (makes_variableDeclaration h made).sorted fits fun _ => rfl
  case variableDeclarator =>
    exact MakesOf.sorted (r := .variableDeclarator) (makes_variableDeclarator h made) fits
  case functionDeclaration =>
    exact (makes_wholeFunction .functionDeclaration (fun _ h => h) (fun _ => rfl) (fun _ => rfl) h
      made).sorted fits fun _ => rfl
  case functionExpression =>
    exact (makes_wholeFunction .functionExpression (fun _ h => h) (fun _ => rfl) (fun _ => rfl) h
      made).sorted fits fun _ => rfl
  case functionBody => exact sorted_functionBody fits proper made
  case classDeclaration =>
    exact (makes_class proper .classDeclaration (fun _ => trivial) (fun _ => rfl) (fun _ => rfl)
      made).sorted fits fun _ => rfl
  case classExpression =>
    exact (makes_class proper .classExpression (fun _ => trivial) (fun _ => rfl) (fun _ => rfl)
      made).sorted fits fun _ => rfl
  case classHeritage =>
    exact sorted_oneNode (f := .heritage) (fun _ => rfl) (fun _ => rfl) fits (any fun _ => rfl) made
  case classBody => exact (makes_classBody h made).sorted fits fun _ => rfl
  case classMember =>
    exact MakesOf.sorted (r := .classMember) (makes_classMember_of_yields h made) fits
  case classField => exact sorted_classField fits proper made
  case importDeclaration => exact (makes_importDeclaration proper made).sorted fits fun _ => rfl
  case importClause => exact sorted_importClause fits proper made
  case namespaceImport =>
    exact (makes_withOne proper (f := .importNamespaceSpecifier) (fun _ => trivial) (fun _ => rfl)
      (fun _ => rfl) made).sorted fits fun _ => rfl
  case namedImports => exact sorted_list fits (any fun _ => rfl) made
  case importSpecifier => exact (makes_importSpecifier proper made).sorted fits fun _ => rfl
  case exportDeclaration =>
    refine (makes_exportDeclaration proper (fun f hf => ?_) made).sorted fits fun _ => rfl
    obtain ⟨r, -, sorted⟩ := exists_sorted (g := isOpen) rfl rfl h _ hf
    exact sorted.exported f rfl
  case exportDefault => exact sorted_exportDefault fits proper made
  case exportList => exact sorted_exportList fits proper made
  case exportSpecifier => exact (makes_exportSpecifier proper made).sorted fits fun _ => rfl
  case exportAll => exact sorted_exportAll fits proper made
  case returnStatement =>
    exact (makes_withOptional proper (f := .returnStatement) (fun _ => trivial) (fun _ => rfl)
      (fun _ => rfl) made).sorted fits fun _ => rfl
  case breakStatement =>
    exact (makes_withOptional proper (f := .breakStatement) (fun _ => trivial) (fun _ => rfl)
      (fun _ => rfl) made).sorted fits fun _ => rfl
  case continueStatement =>
    exact (makes_withOptional proper (f := .continueStatement) (fun _ => trivial) (fun _ => rfl)
      (fun _ => rfl) made).sorted fits fun _ => rfl
  case ifStatement => exact (makes_ifStatement proper made).sorted fits fun _ => rfl
  case whileStatement =>
    exact (makes_withTwo proper (f := .whileStatement) (fun _ _ => trivial) (fun _ _ => rfl)
      (fun _ _ => rfl) made).sorted fits fun _ => rfl
  case doWhileStatement =>
    exact (makes_withTwo proper (f := .doWhileStatement) (fun _ _ => trivial) (fun _ _ => rfl)
      (fun _ _ => rfl) made).sorted fits fun _ => rfl
  case labeledStatement =>
    exact (makes_withTwo proper (f := .labeledStatement) (fun _ _ => trivial) (fun _ _ => rfl)
      (fun _ _ => rfl) made).sorted fits fun _ => rfl
  case throwStatement =>
    exact (makes_withOne proper (f := .throwStatement) (fun _ => trivial) (fun _ => rfl)
      (fun _ => rfl) made).sorted fits fun _ => rfl
  case expressionStatement =>
    exact (makes_withOne proper (f := .expressionStatement) (fun _ => trivial) (fun _ => rfl)
      (fun _ => rfl) made).sorted fits fun _ => rfl
  case forStatement => exact (makes_forStatement proper made).sorted fits fun _ => rfl
  case forEachHead => exact sorted_forEachHead fits proper made
  case forClassicHead => exact sorted_forClassicHead fits proper made
  case forInit =>
    exact sorted_oneNode (f := .forInit) (fun _ => rfl) (fun _ => rfl) fits (any fun _ => rfl) made
  case forTest =>
    exact sorted_oneNode (f := .forTest) (fun _ => rfl) (fun _ => rfl) fits (any fun _ => rfl) made
  case forUpdate =>
    exact sorted_oneNode (f := .forUpdate) (fun _ => rfl) (fun _ => rfl) fits (any fun _ => rfl) made
  case tryStatement => exact (makes_tryStatement h made).sorted fits fun _ => rfl
  case catchClause => exact MakesOf.sorted (r := .catchClause) (makes_catchClause h made) fits
  case finallyClause => exact sorted_finallyClause fits h made
  case switchStatement => exact (makes_switchStatement h made).sorted fits fun _ => rfl
  case switchCase => exact MakesOf.sorted (r := .switchCase) (makes_switchCase proper made) fits
  case block => exact sorted_block fits proper made
  case bindingElement => exact MakesOf.sorted (r := .bindingElement) (makes_bindingElement h made) fits
  case restElement => exact MakesOf.sorted (r := .restElement) (makes_restElement h made) fits
  case objectPattern => exact MakesOf.sorted (r := .objectPattern) (makes_objectPattern h made) fits
  case patternProperty =>
    exact MakesOf.sorted (r := .patternProperty)
      (makes_patternProperty proper (values_of_body (r := .patternProperty) rfl h) made) fits
  case arrayPattern => exact MakesOf.sorted (r := .arrayPattern) (makes_arrayPattern h made) fits
  case patternItem => exact sorted_item fits (parameters_of_yields rfl h) made
  case parameterList => exact sorted_list fits (parameters_of_yields rfl h) made
  case arrowParameters => exact sorted_arrowParameters fits (parameters_of_yields rfl h) made
  case expression =>
    exact (makes_sequence proper (values_of_body (r := .expression) rfl h) made).sorted fits fun _ => rfl
  case assignmentExpression =>
    exact (makes_assignment proper (values_of_body (r := .assignmentExpression) rfl h) made).sorted fits
      fun _ => rfl
  case conditionalExpression =>
    exact (makes_conditional proper (values_of_body (r := .conditionalExpression) rfl h) made).sorted
      fits fun _ => rfl
  case binaryExpression level =>
    exact (makes_binary proper (values_of_body (r := .binaryExpression level) rfl h) made).sorted fits
      fun _ => rfl
  case unaryExpression =>
    exact (makes_unary proper (values_of_body (r := .unaryExpression) rfl h) made).sorted fits
      fun _ => rfl
  case postfixExpression =>
    exact (makes_accessed proper (values_of_body (r := .postfixExpression) rfl h) made).sorted fits
      fun _ => rfl
  case newTarget =>
    exact (makes_accessed proper (values_of_body (r := .newTarget) rfl h) made).sorted fits fun _ => rfl
  case arrowFunction => exact (makes_arrowFunction_of_yields h made).sorted fits fun _ => rfl
  case postfixOperation =>
    obtain ⟨a, rfl⟩ := id fits
    exact sorted_only (fun _ => rfl) fits nofun (fun _ => nofun) proper (values_of_yields rfl h) made
  case parenthesizedExpression =>
    obtain ⟨n, rfl⟩ := id fits
    exact sorted_only (fun _ => rfl) fits nofun (fun _ => nofun) proper (values_of_yields rfl h) made
  case callArguments => exact sorted_callArguments fits proper made
  case memberAccess => exact sorted_memberAccess fits proper made
  case computedAccess => exact sorted_computedAccess fits proper made
  case newExpression => exact (makes_newObject proper made).sorted fits fun _ => rfl
  case importCall => exact (makes_importCall proper made).sorted fits fun _ => rfl
  case metaProperty => exact (makes_metaProperty proper made).sorted fits fun _ => rfl
  case arrayLiteral => exact (makes_arrayLiteral proper made).sorted fits fun _ => rfl
  case arrayItem => exact sorted_item fits (any fun _ => rfl) made
  case objectLiteral => exact (makes_objectLiteral h made).sorted fits fun _ => rfl
  case spreadElement =>
    exact MakesOf.sorted (r := .spreadElement) (makes_spreadElement proper made) fits
  case property => exact MakesOf.sorted (r := .property) (makes_property proper made) fits
  case methodProperty => exact sorted_methodProperty_of_yields fits h made
  case shorthandProperty =>
    exact sorted_oneNode (f := .shorthand) (fun _ => rfl) (fun _ => rfl) fits (any fun _ => rfl) made
  case propertyKey =>
    exact sorted_oneNode (f := (.key · false)) (fun _ => rfl) (fun _ => rfl) fits (any fun _ => rfl)
      made
  case computedKey =>
    exact sorted_oneNode (f := (.key · true)) (fun _ => rfl) (fun _ => rfl) fits (any fun _ => rfl)
      made
  all_goals cases leaf

end Rules

section Trees

variable {file : String} {source : List Char}

/-- What a tree stands for is sorted: a tree without parts stands for a leaf, and any other for what
its parts make up. -/
theorem sorted_of_isRead {t : Peg.Tree Rule} (h : t.IsRead language source) :
    ∀ p, assemble file source t = .ok p → Sorted t.rule p := by
  refine Tree.IsRead.induction (P := fun t => ∀ p, assemble file source t = .ok p → Sorted t.rule p)
    (fun t h ih p made => ?_) t h
  have fits := fits_of_assemble h made
  obtain ⟨value, each, phrase⟩ := phrase?_of_assemble made
  cases leaf : isLeaf t.rule with
  | true => exact sorted_leaf leaf fits phrase
  | false =>
    have kind : language.kind t.rule = .normal ∨ language.kind t.rule = .compound := by
      cases k : language.kind t.rule with
      | silent => exact absurd k h.2.1
      | atomic => simp [isLeaf, show Grammar.kind t.rule = .atomic from k] at leaf
      | normal => exact .inl rfl
      | compound => exact .inr rfl
    refine sorted_of_phrase? leaf ((h.yields kind).map fun r u hu rule => ?_) fits phrase
    exact rule ▸ ih u hu _ (each u hu)

end Trees

end ScriptTyping.Reading

namespace ScriptTyping.Script
open Reading

/-- The nodes of the syntax tree of a script have children as they are expected. -/
theorem proper_of_parse {s : Script} {n : Node} (h : s.parse = .ok n) :
    ∀ m ∈ n.preorder, m.form.Proper := by
  obtain ⟨t, -, matched, made⟩ := match_of_parse h
  obtain ⟨-, -, read⟩ := isRead_of_match matched
  exact ((sorted_of_isRead read _ made).nodes n (List.mem_singleton_self n)).1

/-- Whether a program is an arrow function without the flag, and nothing else. -/
def isUnflaggedArrow : Node → Bool
  | .mk (.program [.mk (.expressionStatement (.mk (.arrowFunctionExpression _ _ false _) _)) _]) _ => true
  | _ => false

/-- The script of one arrow function whose body is a block. -/
lemma parse_arrow : ∃ params body isAsync site site' site'',
    (ofSource "a.js" "x=>\x7b\x7d").parse = .ok (.mk (.program [.mk (.expressionStatement
      (.mk (.arrowFunctionExpression params body false isAsync) site)) site']) site'') := by
  have found : (ofSource "a.js" "x=>\x7b\x7d").parse.toOption.any isUnflaggedArrow = true := by
    decide +kernel
  obtain ⟨n, parsed, found⟩ := (Option.any_eq_true _ _).1 found
  unfold isUnflaggedArrow at found
  split at found
  · exact ⟨_, _, _, _, _, _, parse_of_toOption parsed⟩
  · cases found

theorem proper_of_parse_arrow :
    ∃ n, (ofSource "a.js" "x=>\x7b\x7d").parse = .ok n ∧ ∀ m ∈ n.preorder, m.form.Proper := by
  obtain ⟨_, _, _, _, _, _, parsed⟩ := parse_arrow
  exact ⟨_, parsed, proper_of_parse parsed⟩

/-- An arrow function whose body is a block does not have the flag. -/
theorem exists_unflagged_arrow :
    ∃ n, (ofSource "a.js" "x=>\x7b\x7d").parse = .ok n ∧
      ∃ m ∈ n.preorder, ∃ params body isAsync,
        m.form = .arrowFunctionExpression params body false isAsync := by
  obtain ⟨params, body, isAsync, site, _, _, parsed⟩ := parse_arrow
  refine ⟨_, parsed, .mk (.arrowFunctionExpression params body false isAsync) site, ?_,
    params, body, isAsync, rfl⟩
  exact Node.mem_preorder_of_mem_children (List.mem_singleton_self _)
    (Node.mem_preorder_of_mem_children (List.mem_singleton_self _) (Node.self_mem_preorder _))

end ScriptTyping.Script
