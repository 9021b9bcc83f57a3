import Mathlib.Data.List.Nodup
import ScriptTyping.Proofs.Declaration.Bodies
import ScriptTyping.Proofs.Reading.Proper

/-!
# Every function of a script is recorded

The declarations in what a parse tree stands for are what the matches of declarations in the tree stand
for (`mem_declarations_iff_exists`), so a function is recorded for each match of a declaration of one,
and for nothing else. A property of a pattern without a key has its target for a key, too, and a walk
meets twice what is in it. If no function is declared there, the functions are recorded once each, in
the order in which they begin (`routines_of_parse`).
-/

namespace ScriptTyping

/-- Whether a form declares a function. -/
def Form.isFunction {α : Type} : Form α → Bool
  | .functionDeclaration _ => true
  | _ => false

namespace Node

/-- A node is no smaller than what is inside it. -/
lemma sizeOf_le_of_mem_preorder {n m : Node} (h : m ∈ n.preorder) : sizeOf m ≤ sizeOf n := by
  rw [preorder_eq] at h
  rcases List.mem_cons.1 h with rfl | h
  · exact Nat.le_refl _
  · obtain ⟨c, hc, h⟩ := List.mem_flatMap.1 h
    have small := sizeOf_lt_of_mem_children hc
    exact Nat.le_trans (sizeOf_le_of_mem_preorder h) (Nat.le_of_lt small)
  termination_by sizeOf n

/-- A node is no declaration inside itself. -/
lemma notMem_declarations (n : Node) : n ∉ n.children.flatMap declarations := by
  intro h
  obtain ⟨c, hc, h⟩ := List.mem_flatMap.1 h
  have small := sizeOf_lt_of_mem_children hc
  have le := sizeOf_le_of_mem_preorder (List.mem_filter.1 h).1
  omega

end Node

/-- The declarations of functions among some nodes. -/
def functionsOf (ns : List Node) : List Node :=
  ns.filter (·.form.isFunction)

lemma Reading.shorthandKey_of_isTarget {n : Node} (h : n.form.isTarget = true) :
    Reading.shorthandKey n = n := by
  obtain ⟨f, s⟩ := n
  cases f
  case assignmentPattern => cases h
  all_goals rfl

namespace Peg.Tree

/-- What a property of a pattern without a key binds. -/
def shorthandTarget? : Tree Rule → Option (Tree Rule)
  | node .patternProperty _ _ [node .bindingElement _ _ (target :: _)] => some target
  | _ => none

/-- No function is declared in what a property of a pattern without a key binds. -/
def Single (t : Tree Rule) : Prop :=
  ∀ u target : Tree Rule, u.Under t → u.shorthandTarget? = some target →
    ∀ v : Tree Rule, v.Under target → v.rule ≠ .functionDeclaration

lemma Single.child {t u : Tree Rule} (h : t.Single) (hu : u ∈ t.children) : u.Single :=
  fun v target below => h v target (.inside hu below)

end Peg.Tree

namespace Reading
open Peg Peg.Expr

variable {file : String} {source : List Char} {t u : Peg.Tree Rule} {p q : Phrase}

section Trees

/-- A declaration in what a tree stands for is this itself, or it is in what a part stands for. -/
lemma mem_declarations_iff (h : t.IsRead language source) (made : assemble file source t = .ok p)
    {d : Node} : d ∈ p.declarations ↔ (isDeclaration t.rule = true ∧ p = .node d) ∨
      ∃ u ∈ t.children, ∃ q, assemble file source u = .ok q ∧ d ∈ q.declarations := by
  obtain ⟨value, each, sound, found⟩ := exists_parts h made
  have part : d ∈ declarationsOf (t.children.map value) ↔
      ∃ u ∈ t.children, ∃ q, assemble file source u = .ok q ∧ d ∈ q.declarations := by
    rw [declarationsOf, List.mem_flatMap]
    constructor
    · rintro ⟨_, hq, hd⟩
      obtain ⟨u, hu, rfl⟩ := List.mem_map.1 hq
      exact ⟨u, hu, value u, each u hu, hd⟩
    · rintro ⟨u, hu, q, madeU, hd⟩
      have same := (each u hu).symm.trans madeU
      cases same
      exact ⟨value u, List.mem_map_of_mem hu, hd⟩
  rw [← part]
  cases declares : isDeclaration t.rule with
  | true =>
    obtain ⟨f, rfl, e⟩ := declares_of_phrase? declares found
    rw [e, List.mem_cons]
    simp [eq_comm]
  | false =>
    cases leaf : isLeaf t.rule with
    | true =>
      rw [declarations_of_leaf leaf found, children_of_leaf h leaf]
      simp
    | false =>
      obtain ⟨before, after, e, twice⟩ := doubles_of_phrase? sound declares leaf found
      rw [e, twice]
      simp

/-- A declaration in what a tree stands for is what the match of a declaration in the tree stands for,
and each such match stands for one. -/
theorem mem_declarations_iff_exists (h : t.IsRead language source)
    (made : assemble file source t = .ok p) {d : Node} :
    d ∈ p.declarations ↔ ∃ u : Peg.Tree Rule, u.Under t ∧ isDeclaration u.rule = true ∧
      assemble file source u = .ok (.node d) := by
  revert p
  refine Tree.IsRead.induction (P := fun t => ∀ {p}, assemble file source t = .ok p →
    (d ∈ p.declarations ↔ ∃ u : Peg.Tree Rule, u.Under t ∧ isDeclaration u.rule = true ∧
      assemble file source u = .ok (.node d))) (fun t h ih p made => ?_) t h
  rw [mem_declarations_iff h made]
  constructor
  · rintro (⟨declares, rfl⟩ | ⟨u, hu, q, madeU, hd⟩)
    · exact ⟨t, .self, declares, made⟩
    · obtain ⟨v, below, declares, madeV⟩ := (ih u hu madeU).1 hd
      exact ⟨v, .inside hu below, declares, madeV⟩
  · rintro ⟨v, below, declares, madeV⟩
    cases below with
    | self =>
      rw [made] at madeV
      cases madeV
      exact .inl ⟨declares, rfl⟩
    | @inside _ u _ hu below =>
      obtain ⟨value, each, -, -⟩ := exists_parts h made
      exact .inr ⟨u, hu, value u, each u hu, (ih u hu (each u hu)).2 ⟨v, below, declares, madeV⟩⟩

/-- What the match of a declaration of a function stands for. -/
lemma node_of_functionDeclaration {d : Node} (rule : u.rule = .functionDeclaration)
    (made : assemble file source u = .ok (.node d)) :
    ∃ f, d = (extent file source u).node (.functionDeclaration f) := by
  obtain ⟨value, -, found⟩ := phrase?_of_assemble made
  rw [rule] at found
  obtain ⟨f, -, e⟩ := Option.map_eq_some_iff.1 found
  cases e
  exact ⟨f, rfl⟩

/-- A function is what the match of a declaration of one stands for. -/
lemma rule_of_isFunction {d : Node} (declares : isDeclaration u.rule = true)
    (made : assemble file source u = .ok (.node d)) (function : d.form.isFunction = true) :
    u.rule = .functionDeclaration := by
  obtain ⟨value, -, found⟩ := phrase?_of_assemble made
  have other {ps : List Phrase}
      (found : variableDeclaration (extent file source u) ps = some (.node d)) : False := by
    unfold variableDeclaration at found
    split at found
    · obtain ⟨_, -, found⟩ := Option.bind_eq_some_iff.1 found
      obtain ⟨_, -, found⟩ := Option.bind_eq_some_iff.1 found
      cases found
      cases function
    · cases found
  cases rule : u.rule
  case functionDeclaration => rfl
  case variableDeclaration | forDeclaration =>
    rw [rule] at found
    exact (other found).elim
  all_goals simp [rule, isDeclaration] at declares

/-- The functions in what a tree stands for are what the matches of declarations of functions in the
tree stand for. -/
lemma mem_functions_iff (h : t.IsRead language source) (made : assemble file source t = .ok p)
    {d : Node} : d ∈ functionsOf p.declarations ↔ ∃ u : Peg.Tree Rule, u.Under t ∧
      u.rule = .functionDeclaration ∧ assemble file source u = .ok (.node d) := by
  rw [functionsOf, List.mem_filter, mem_declarations_iff_exists h made]
  constructor
  · rintro ⟨⟨u, below, declares, madeU⟩, function⟩
    exact ⟨u, below, rule_of_isFunction declares madeU function, madeU⟩
  · rintro ⟨u, below, rule, madeU⟩
    obtain ⟨f, rfl⟩ := node_of_functionDeclaration rule madeU
    exact ⟨⟨u, below, by rw [rule]; rfl, madeU⟩, rfl⟩

end Trees

section Once

variable {value : Peg.Tree Rule → Phrase}

/-- A target is a name or a pattern. -/
lemma isTarget_of_bindingTarget {e : Expr Rule} {w : Peg.Tree Rule} {us : List (Peg.Tree Rule)}
    {target : Node} (left : Yields language (fun r u => u.rule = r) (.seq Grammar.bindingTarget e)
      (w :: us)) (h : w.IsRead language source) (made : assemble file source w = .ok (.node target)) :
    target.form.isTarget = true := by
  obtain ⟨-, admitted⟩ := (sorted_of_isRead h _ made).nodes target (List.mem_singleton_self target)
  simp only [Grammar.bindingTarget, oneOf, yields_choice_seq, ne_eq, reduceCtorEq, not_false_eq_true,
    yields_rule_seq, List.cons.injEq] at left
  obtain ⟨_, _, ⟨rfl, -⟩, rule, -⟩ | ⟨_, _, ⟨rfl, -⟩, rule, -⟩ | ⟨_, _, ⟨rfl, -⟩, rule, -⟩ := left
  all_goals
    rw [rule] at admitted
    exact admitted

/-- The key that a property of a pattern takes from its element is the target of this. -/
lemma exists_target_of_shorthandKey {v : Peg.Tree Rule} {binding : Node}
    (h : v.IsRead language source) (rule : v.rule = .bindingElement)
    (made : assemble file source v = .ok (.node binding)) :
    ∃ w us, v.children = w :: us ∧ assemble file source w = .ok (.node (shorthandKey binding)) ∧
      (shorthandKey binding).form.isTarget = true := by
  obtain ⟨value, each, found⟩ := phrase?_of_assemble made
  have left := h.yields (by rw [rule]; exact .inl rfl)
  rw [rule] at found left
  have first {target : Node} {rest : List Phrase} (parts : v.children.map value = .node target :: rest) :
      ∃ w us, v.children = w :: us ∧ assemble file source w = .ok (.node target) ∧
        target.form.isTarget = true := by
    obtain ⟨w, us, below, here, -⟩ := List.map_eq_cons_iff.1 parts
    have hw : w ∈ v.children := below ▸ List.mem_cons_self
    have madeW := here ▸ each w hw
    exact ⟨w, us, below, madeW, isTarget_of_bindingTarget (below ▸ left) (h.children w hw) madeW⟩
  change bindingElement _ _ = _ at found
  unfold bindingElement at found
  split at found
  · rename_i target parts
    cases found
    obtain ⟨w, us, below, madeW, plain⟩ := first parts
    exact ⟨w, us, below, by rwa [shorthandKey_of_isTarget plain], by rwa [shorthandKey_of_isTarget plain]⟩
  · rename_i parts
    cases found
    exact first parts
  · cases found

/-- What is bound by a property of a pattern without a key comes first in the match of its element. -/
lemma shorthandTarget?_eq {v w : Peg.Tree Rule} {us : List (Peg.Tree Rule)}
    (rule : t.rule = .patternProperty) (below : t.children = [v]) (ruleV : v.rule = .bindingElement)
    (belowV : v.children = w :: us) : t.shorthandTarget? = some w := by
  obtain ⟨r, i, cs, ts⟩ := t
  obtain ⟨r', i', cs', ts'⟩ := v
  cases rule
  cases below
  cases ruleV
  cases belowV
  rfl

lemma shorthandTarget?_eq_some {w : Peg.Tree Rule} (h : t.shorthandTarget? = some w) :
    ∃ v us, t.rule = .patternProperty ∧ t.children = [v] ∧ v.rule = .bindingElement ∧
      v.children = w :: us := by
  unfold Tree.shorthandTarget? at h
  split at h
  · cases h
    exact ⟨_, _, rfl, rfl, rfl, rfl⟩
  · cases h

/-- No function is met twice in a property of a pattern, if none is declared in the target of one
without a key. -/
lemma functionsOf_patternProperty (h : t.IsRead language source) (single : t.Single)
    (rule : t.rule = .patternProperty)
    (each : ∀ u ∈ t.children, assemble file source u = .ok (value u))
    (found : patternProperty (extent file source t) (t.children.map value) = some p) :
    functionsOf p.declarations = functionsOf (declarationsOf (t.children.map value)) := by
  unfold patternProperty at found
  split at found
  · rename_i whole
    cases found
    simp [whole, Extent.node, Node.declarations_mk, Form.declares, Form.children, Phrase.declarations,
      Phrase.inner]
  · rename_i binding whole
    obtain ⟨v, us, below, first, rest⟩ := List.map_eq_cons_iff.1 whole
    obtain rfl := List.map_eq_nil_iff.1 rest
    have hv : v ∈ t.children := below ▸ List.mem_cons_self
    have madeV := first ▸ each v hv
    split at found
    · cases found
      simp [whole]
    · rename_i notRest
      cases found
      have left : Yields language (fun r u => u.rule = r) (Grammar.body t.rule) t.children :=
        h.yields (by rw [rule]; exact .inl rfl)
      rw [rule, below] at left
      have ruleV : v.rule = .restElement ∨ v.rule = .bindingElement := by
        simpa [Grammar.body, Grammar.key, oneOf, all, token] using left
      rcases ruleV with ruleV | ruleV
      · obtain ⟨_, -, foundV⟩ := phrase?_of_assemble madeV
        rw [ruleV] at foundV
        change restElement _ _ = _ at foundV
        unfold restElement at foundV
        split at foundV
        · cases foundV
          exact absurd rfl (notRest _)
        · cases foundV
      · obtain ⟨w, us, belowV, madeW, -⟩ := exists_target_of_shorthandKey (h.children v hv) ruleV madeV
        -- The target of a shorthand is recorded twice, but no function stands in it.
        have none : functionsOf (shorthandKey binding).declarations = [] := by
          refine List.eq_nil_iff_forall_not_mem.2 fun d hd => ?_
          rw [← declarations_node] at hd
          have readW := (h.children v hv).children w (belowV ▸ List.mem_cons_self)
          obtain ⟨x, under, function, -⟩ := (mem_functions_iff readW madeW).1 hd
          exact single t w .self (shorthandTarget?_eq rule below ruleV belowV) x under function
        rw [whole, declarationsOf_cons, declarationsOf_nil, List.append_nil, declarations_node,
          declarations_node, Extent.node, Node.declarations_of_plain _ rfl]
        simp only [Form.children, List.flatMap_cons, List.flatMap_nil, List.append_nil]
        rw [functionsOf, List.filter_append]
        exact congrArg (· ++ _) none
  · cases found

/-- There are no declarations among leaves. -/
lemma declarationsOf_leaves (leaves : ∀ u ∈ t.children, isLeaf u.rule = true)
    (each : ∀ u ∈ t.children, assemble file source u = .ok (value u)) :
    declarationsOf (t.children.map value) = [] := by
  refine List.flatMap_eq_nil_iff.2 fun q hq => ?_
  obtain ⟨u, hu, rfl⟩ := List.mem_map.1 hq
  obtain ⟨_, -, found⟩ := phrase?_of_assemble (each u hu)
  exact declarations_of_leaf (leaves u hu) found

/-- All parts of some rules are leaves. -/
lemma leaves_of_isRead (h : t.IsRead language source)
    (rule : t.rule = .importSpecifier ∨ t.rule = .exportSpecifier ∨ t.rule = .shorthandProperty) :
    ∀ u ∈ t.children, isLeaf u.rule = true := by
  have kind : language.kind t.rule = .normal := by
    rcases rule with rule | rule | rule
    all_goals
      rw [rule]
      rfl
  have left : Yields language (fun r u => u.rule = r) (Grammar.body t.rule) t.children :=
    h.yields (.inl kind)
  intro u hu
  have only : (Grammar.body t.rule).callsOnly
      (fun r => r matches .identifier | .propertyIdentifier) = true := by
    rcases rule with rule | rule | rule
    all_goals
      rw [rule]
      rfl
  obtain ⟨r, ok, rule⟩ := left.exists_rule (fun r ok => kind_ne_silent (by rintro rfl; cases ok)) only u hu
  rw [rule]
  cases r
  case identifier | propertyIdentifier => rfl
  all_goals cases ok

/-- A name that is both key and value of a property declares nothing. -/
lemma declarations_of_shorthand {n : Node} (h : u.IsRead language source)
    (made : assemble file source u = .ok (.shorthand n)) : n.declarations = [] := by
  have rule : u.rule = .shorthandProperty := by
    have fits := fits_of_assemble h made
    cases rule : u.rule
    case shorthandProperty => rfl
    all_goals simp [rule, Fits, IsNode, IsKey, IsField, IsExport, IsAccess, IsCall, IsUpdate] at fits
  obtain ⟨value, each, sound, found⟩ := exists_parts h made
  have keeps : Keeps _ _ :=
    keeps_of_phrase? sound (by rw [rule]; rfl) (by rw [rule]; rfl) (by rw [rule]; rfl) found
  rw [Keeps, declarationsOf_leaves (leaves_of_isRead h (.inr (.inr rule))) each] at keeps
  simpa [Phrase.declarations, Phrase.inner] using keeps

lemma keeps_property (h : t.IsRead language source)
    (each : ∀ u ∈ t.children, assemble file source u = .ok (value u))
    (found : property (extent file source t) (t.children.map value) = some p) :
    Keeps (t.children.map value) p := by
  unfold property at found
  split at found
  · rename_i whole
    cases found
    simp [whole, keeps_made, Form.declares, Form.children, Phrase.declarations, Phrase.inner]
  · rename_i whole
    cases found
    simp [whole, keeps_made, Form.declares, Form.children, Phrase.declarations, Phrase.inner]
  · rename_i n whole
    cases found
    obtain ⟨u, us, below, first, -⟩ := List.map_eq_cons_iff.1 whole
    have hu : u ∈ t.children := below ▸ List.mem_cons_self
    have none := declarations_of_shorthand (h.children u hu) (first ▸ each u hu)
    simp [whole, keeps_made, Form.declares, Form.children, Phrase.declarations, Phrase.inner, none]
  · cases found

/-- The functions in what a match stands for are those of its parts, and none is met twice. -/
lemma functionsOf_parts (h : t.IsRead language source) (single : t.Single)
    (declares : isDeclaration t.rule = false) (leaf : isLeaf t.rule = false)
    (each : ∀ u ∈ t.children, assemble file source u = .ok (value u))
    (sound : Sound (t.children.map value))
    (found : phrase? t.rule (extent file source t) (t.children.map value) = some p) :
    functionsOf p.declarations = functionsOf (declarationsOf (t.children.map value)) := by
  have specifier (rule : t.rule = .importSpecifier ∨ t.rule = .exportSpecifier) :
      Keeps (t.children.map value) p := by
    have none := declarationsOf_leaves (leaves_of_isRead h (by tauto)) each
    obtain ⟨before, after, e, twice⟩ := doubles_of_phrase? sound declares leaf found
    obtain ⟨rfl, rfl⟩ := List.append_eq_nil_iff.1 (e.symm.trans none)
    rw [Keeps, twice, none]
    rfl
  cases shorthand : isShorthand t.rule with
  | false => rw [keeps_of_phrase? sound declares shorthand leaf found]
  | true =>
    cases rule : t.rule
    case importSpecifier => rw [specifier (.inl rule)]
    case exportSpecifier => rw [specifier (.inr rule)]
    case patternProperty =>
      rw [rule] at found
      exact functionsOf_patternProperty h single rule each found
    case property =>
      rw [rule] at found
      rw [keeps_property h each found]
    all_goals simp [rule, isShorthand] at shorthand

/-- The functions of trees that lie one after the other are met once each, if those of each tree are. -/
lemma nodup_functionsOf {lo hi : Nat} {ts : List (Peg.Tree Rule)} (spread : Tree.Spread lo hi ts)
    (sited : ∀ u ∈ ts, Sited file source u.start u.stop (value u).declarations)
    (once : ∀ u ∈ ts, (functionsOf (value u).declarations).Nodup) :
    (functionsOf (declarationsOf (ts.map value))).Nodup := by
  rw [declarationsOf, functionsOf, List.filter_flatMap, List.flatMap_map, List.nodup_flatMap]
  refine ⟨once, spread.apart.imp_of_mem fun {u v} hu hv apart => ?_⟩
  intro d hd hd'
  obtain ⟨a, here, -, before⟩ := (sited u hu).lies d (List.mem_filter.1 hd).1
  obtain ⟨b, there, after, -⟩ := (sited v hv).lies d (List.mem_filter.1 hd').1
  cases here.symm.trans there
  have le : offsetAt source u.stop ≤ offsetAt source v.start := offsetAt_le apart
  omega

/-- A declaration is none of those in its parts. -/
lemma notMem_of_declares {e : Extent} {f : Form Node} {parts : List Phrase}
    (h : (Phrase.node (e.node f)).declarations = e.node f :: declarationsOf parts) :
    e.node f ∉ declarationsOf parts := by
  have outside : e.node f ∉ f.children.flatMap Node.declarations := Node.notMem_declarations (e.node f)
  rw [declarations_node, Extent.node, Node.declarations_mk] at h
  split at h
  · obtain ⟨-, same⟩ := List.cons.inj h
    exact same ▸ outside
  · rw [List.nil_append] at h
    exact absurd (h ▸ List.mem_cons_self) outside

/-- A walk meets each function once, if none is declared in what a property of a pattern without a key
binds. -/
lemma nodup_functions (h : t.IsRead language source) :
    ∀ p, t.Single → assemble file source t = .ok p → (functionsOf p.declarations).Nodup := by
  refine Tree.IsRead.induction (P := fun t => ∀ p, t.Single → assemble file source t = .ok p →
    (functionsOf p.declarations).Nodup) (fun t h ih p single made => ?_) t h
  obtain ⟨value, each, sound, found⟩ := exists_parts h made
  have parts : (functionsOf (declarationsOf (t.children.map value))).Nodup :=
    nodup_functionsOf h.spread (fun u hu => sited_of_isRead (h.children u hu) (each u hu))
      fun u hu => ih u hu _ (single.child hu) (each u hu)
  cases declares : isDeclaration t.rule with
  | true =>
    obtain ⟨f, rfl, e⟩ := declares_of_phrase? declares found
    have new := notMem_of_declares e
    rw [e, functionsOf, List.filter_cons]
    split
    · exact List.nodup_cons.2 ⟨fun hd => new (List.mem_filter.1 hd).1, parts⟩
    · exact parts
  | false =>
    cases leaf : isLeaf t.rule with
    | true =>
      rw [declarations_of_leaf leaf found]
      exact .nil
    | false => exact functionsOf_parts h single declares leaf each sound found ▸ parts

/-- The functions of a tree begin one after the other, if none is declared in what a property of a
pattern without a key binds. -/
lemma pairwise_functions (h : t.IsRead language source) (single : t.Single)
    (made : assemble file source t = .ok p) :
    (functionsOf p.declarations).Pairwise Node.Before :=
  (sited_of_isRead h made).ascending.filter.pairwise (nodup_functions h p single made)

/-- The declarations of a part stand in those of the whole in their order. -/
lemma sublist_of_part (h : t.IsRead language source) (made : assemble file source t = .ok p)
    (hu : u ∈ t.children) (madeU : assemble file source u = .ok q) :
    q.declarations.Sublist p.declarations := by
  obtain ⟨value, each, sound, found⟩ := exists_parts h made
  have part : q.declarations.Sublist (declarationsOf (t.children.map value)) := by
    have same := (each u hu).symm.trans madeU
    cases same
    obtain ⟨front, back, whole⟩ := List.append_of_mem hu
    rw [whole, List.map_append, declarationsOf_append, List.map_cons, declarationsOf_cons]
    exact (List.sublist_append_left _ _).trans (List.sublist_append_right _ _)
  cases declares : isDeclaration t.rule with
  | true =>
    obtain ⟨f, rfl, e⟩ := declares_of_phrase? declares found
    exact e ▸ part.cons _
  | false =>
    cases leaf : isLeaf t.rule with
    | true =>
      rw [children_of_leaf h leaf] at hu
      cases hu
    | false =>
      obtain ⟨before, after, e, twice⟩ := doubles_of_phrase? sound declares leaf found
      rw [twice, ← e]
      exact part.trans (List.sublist_append_right _ _)

lemma sublist_of_under (below : u.Under t) (h : t.IsRead language source) :
    ∀ p, assemble file source t = .ok p →
      ∃ q, u.IsRead language source ∧ assemble file source u = .ok q ∧
        q.declarations.Sublist p.declarations := by
  induction below with
  | self => exact fun p made => ⟨p, h, made, List.Sublist.refl _⟩
  | inside hv below ih =>
    intro p made
    obtain ⟨value, each, -⟩ := exists_parts h made
    obtain ⟨q, read, madeU, sub⟩ := ih (h.children _ hv) _ (each _ hv)
    exact ⟨q, read, madeU, sub.trans (sublist_of_part h made hv (each _ hv))⟩

/-- What is declared in the target of a property of a pattern without a key is met twice. -/
lemma twice_of_shorthandTarget? {w : Peg.Tree Rule} (h : t.IsRead language source)
    (target : t.shorthandTarget? = some w) (made : assemble file source t = .ok p) :
    ∃ q, w.IsRead language source ∧ assemble file source w = .ok q ∧
      (q.declarations ++ q.declarations).Sublist p.declarations := by
  obtain ⟨v, us, rule, below, ruleV, belowV⟩ := shorthandTarget?_eq_some target
  have hv : v ∈ t.children := below ▸ List.mem_cons_self
  obtain ⟨value, each, found⟩ := phrase?_of_assemble made
  obtain ⟨binding, first⟩ : IsNode (value v) := by
    have fits := fits_of_assemble (h.children v hv) (each v hv)
    rwa [ruleV] at fits
  have madeV := first ▸ each v hv
  obtain ⟨w', us', belowV', madeW, plain⟩ := exists_target_of_shorthandKey (h.children v hv) ruleV madeV
  cases belowV.symm.trans belowV'
  refine ⟨_, (h.children v hv).children w (belowV ▸ List.mem_cons_self), madeW, ?_⟩
  rw [rule, below, List.map_singleton, first, phrase?, patternProperty] at found
  obtain ⟨after, binds⟩ := exists_declarations_shorthandKey binding
  split at found
  · rename_i form
    rw [shorthandKey, form] at plain
    simp only [form] at plain
    cases plain
  · cases found
    rw [declarations_node, declarations_node, Extent.node, Node.declarations_of_plain _ rfl]
    simp [Form.children, binds]

/-- If the functions in what a tree stands for begin one after the other, none is declared in the target
of a property of a pattern without a key. -/
lemma single_of_pairwise (h : t.IsRead language source) (made : assemble file source t = .ok p)
    (once : (functionsOf p.declarations).Pairwise Node.Before) : t.Single := by
  intro u w below target x under function
  obtain ⟨q, read, madeU, sub⟩ := sublist_of_under below h p made
  obtain ⟨q', readW, madeW, twice⟩ := twice_of_shorthandTarget? read target madeU
  obtain ⟨d, hd⟩ : ∃ d, d ∈ functionsOf q'.declarations := by
    obtain ⟨p', readX, madeX, -⟩ := sublist_of_under under readW q' madeW
    obtain ⟨d, rfl⟩ : IsNode p' := by
      have fits := fits_of_assemble readX madeX
      rwa [function] at fits
    exact ⟨d, (mem_functions_iff readW madeW).2 ⟨x, under, function, madeX⟩⟩
  have both := (once.sublist ((twice.trans sub).filter _))
  rw [List.filter_append] at both
  exact d.not_before_self ((List.pairwise_append.1 both).2.2 d hd d hd)

end Once

end Reading

/-- The functions of a program are those that its nodes declare. -/
lemma routines_eq (program : Node) (source : String) :
    (collect program source).routines =
      (functionsOf program.declarations).filterMap (Node.routine? source) := by
  rw [routines_collect, functionsOf, Node.declarations, List.filter_filter]
  induction program.preorder with
  | nil => rfl
  | cons m ms ih =>
    obtain ⟨f, site⟩ := m
    rw [List.filterMap_cons, List.filter_cons, ih]
    cases f
    all_goals rfl

/-- The functions are recorded in the order in which they begin if they are met in it. -/
lemma pairwise_routines (program : Node) (source : String) :
    ((collect program source).routines.Pairwise fun q r =>
      ∃ a ∈ q.location, ∃ b ∈ r.location, a.offset < b.offset) ↔
        (functionsOf program.declarations).Pairwise Node.Before := by
  have routine {d : Node} (hd : d ∈ functionsOf program.declarations) :
      ∃ r, d.routine? source = some r ∧ r.location = d.location? := by
    have function := (List.mem_filter.1 hd).2
    obtain ⟨f, site⟩ := d
    cases f
    case functionDeclaration => exact ⟨_, rfl, rfl⟩
    all_goals cases function
  rw [routines_eq, List.pairwise_filterMap]
  refine List.Pairwise.iff_of_mem fun {c d} hc hd => ?_
  obtain ⟨q, hq, here⟩ := routine hc
  obtain ⟨r, hr, there⟩ := routine hd
  simp [hq, hr, here, there, Node.Before]

namespace Script
open Peg Reading

/-- A function is recorded of the match of a declaration of one. -/
def Records (s : Script) (u : Peg.Tree Rule) (r : Routine) : Prop :=
  u.rule = .functionDeclaration ∧
    r.location = some ((extent s.name s.content.toList u).place u.start) ∧
    ∃ d f, assemble s.name s.content.toList u = .ok (.node d) ∧ d.form = .functionDeclaration f ∧
      r = d.routine s.content f

/-- A function is recorded of each match of a declaration of one, wherever it stands, and of nothing
else. The functions begin one after the other, and so each is recorded once, exactly if none is declared
in what a property of a pattern without a key binds. -/
theorem routines_of_parse {s : Script} {n : Node} (h : s.parse = .ok n) :
    ∃ t : Peg.Tree Rule, s.match? = .ok t ∧
      (∀ u : Peg.Tree Rule, u.Under t → u.rule = .functionDeclaration →
        ∃ r ∈ (collect n s.content).routines, s.Records u r) ∧
      (∀ r ∈ (collect n s.content).routines, ∃ u : Peg.Tree Rule, u.Under t ∧ s.Records u r) ∧
      (((collect n s.content).routines.Pairwise fun q r =>
        ∃ a ∈ q.location, ∃ b ∈ r.location, a.offset < b.offset) ↔ t.Single) := by
  obtain ⟨t, -, matched, made⟩ := match_of_parse h
  obtain ⟨-, -, read⟩ := isRead_of_match matched
  have functions {d : Node} : d ∈ functionsOf n.declarations ↔ ∃ u : Peg.Tree Rule, u.Under t ∧
      u.rule = .functionDeclaration ∧ assemble s.name s.content.toList u = .ok (.node d) := by
    rw [← declarations_node]
    exact mem_functions_iff read made
  refine ⟨t, matched, fun u below rule => ?_, fun r hr => ?_, ?_⟩
  · obtain ⟨q, readU, madeU, -⟩ := sublist_of_under below read _ made
    obtain ⟨d, rfl⟩ : IsNode q := by
      have fits := fits_of_assemble readU madeU
      rwa [rule] at fits
    obtain ⟨f, rfl⟩ := node_of_functionDeclaration rule madeU
    refine ⟨_, ?_, rule, rfl, _, f, madeU, rfl, rfl⟩
    rw [routines_eq]
    exact List.mem_filterMap.2 ⟨_, functions.2 ⟨u, below, rule, madeU⟩, rfl⟩
  · rw [routines_eq] at hr
    obtain ⟨d, hd, hr⟩ := List.mem_filterMap.1 hr
    obtain ⟨u, below, rule, madeU⟩ := functions.1 hd
    obtain ⟨f, rfl⟩ := node_of_functionDeclaration rule madeU
    cases hr
    exact ⟨u, below, rule, rfl, _, f, madeU, rfl, rfl⟩
  · have order := pairwise_routines n s.content
    rw [order, ← declarations_node]
    exact ⟨single_of_pairwise read made, fun single => pairwise_functions read single made⟩

/-- The target of a property without a key is a pattern with a function in it, which is recorded
twice. -/
theorem routines_of_parse_twice :
    ∃ n t, (ofSource "a.js" "let\x7b[a=()=>\x7bfunction g()\x7b\x7d\x7d]\x7d=x").parse = .ok n ∧
      (ofSource "a.js" "let\x7b[a=()=>\x7bfunction g()\x7b\x7d\x7d]\x7d=x").match? = .ok t ∧
      (collect n "let\x7b[a=()=>\x7bfunction g()\x7b\x7d\x7d]\x7d=x").routines.map
        (fun r => r.location.map Location.offset) = [some 12, some 12] ∧ ¬ t.Single := by
  generalize e : ofSource "a.js" "let\x7b[a=()=>\x7bfunction g()\x7b\x7d\x7d]\x7d=x" = s
  have found : (s.parse.toOption.map fun n => (collect n s.content).routines.map
      fun r => r.location.map Location.offset) = some [some 12, some 12] := by
    subst e
    decide +kernel
  obtain ⟨n, parsed, places⟩ := Option.map_eq_some_iff.1 found
  have parsed := parse_of_toOption parsed
  obtain ⟨t, matched, -, -, once⟩ := routines_of_parse parsed
  have content : s.content = "let\x7b[a=()=>\x7bfunction g()\x7b\x7d\x7d]\x7d=x" := e ▸ rfl
  refine ⟨n, t, parsed, matched, content ▸ places, fun single => ?_⟩
  obtain ⟨q, rs, whole, hq, rest⟩ := List.map_eq_cons_iff.1 places
  obtain ⟨r, _, rfl, hr, -⟩ := List.map_eq_cons_iff.1 rest
  have order := once.2 single
  rw [whole] at order
  obtain ⟨a, ha, b, hb, lt⟩ := (List.pairwise_cons.1 order).1 r List.mem_cons_self
  rw [Option.mem_def.1 ha, Option.map_some, Option.some_inj] at hq
  rw [Option.mem_def.1 hb, Option.map_some, Option.some_inj] at hr
  omega

end Script

end ScriptTyping
