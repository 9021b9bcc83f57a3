import ScriptTyping.Proofs.Reading.Composed

/-!
# What the nodes of a phrase are made of

The phrase that the parts of a rule make up has nodes of two sorts: nodes of the parts, and new nodes over
them. No new node is an identifier, so these come from the matches of names only. Whatever new nodes have
once their children do is therefore told of a phrase from its parts (`each_of_phrase?`).
-/

namespace ScriptTyping.Reading

/-- A property that goes from the children of a node to the node, unless it is an identifier, and from a
target with a default to the target. -/
structure Inherited (P : Node → Prop) : Prop where
  node : ∀ {f s}, f.isIdentifier = false → (∀ c ∈ f.children, P c) → P (.mk f s)
  target : ∀ {left right s}, P (.mk (.assignmentPattern left right) s) → P left

/-- The nodes of a phrase have a property. What is exported has it as a node at any site. -/
def Each (P : Node → Prop) : Phrase → Prop
  | .exported f => ∀ s, P (.mk f s)
  | p => ∀ n ∈ p.inner, P n

/-- The nodes of several phrases have a property. -/
def EachOf (P : Node → Prop) (parts : List Phrase) : Prop :=
  ∀ p ∈ parts, Each P p

lemma Each.mono {P Q : Node → Prop} {p : Phrase} (le : ∀ n, P n → Q n) (h : Each P p) : Each Q p := by
  cases p
  case exported f => exact fun s => le _ (h s)
  all_goals exact fun n hn => le n (h n hn)

section Parts

variable {P : Node → Prop} {parts : List Phrase} {p : Phrase} {n : Node}

@[simp] lemma eachOf_nil : EachOf P [] := by
  simp [EachOf]

@[simp] lemma eachOf_cons : EachOf P (p :: parts) ↔ Each P p ∧ EachOf P parts :=
  List.forall_mem_cons

@[simp] lemma each_node : Each P (.node n) ↔ P n := by
  simp [Each, Phrase.inner]

/-- A phrase that exports nothing has a property if all its nodes do. -/
lemma each_iff (other : p.isExported = false) : Each P p ↔ ∀ n ∈ p.inner, P n := by
  cases p
  case exported f => cases other
  all_goals rfl

/-- The nodes of phrases that export nothing. -/
lemma EachOf.innerOf (h : EachOf P parts) (other : ∀ f, .exported f ∉ parts) :
    ∀ n ∈ innerOf parts, P n := by
  intro n hn
  obtain ⟨p, hp, hn⟩ := List.mem_flatMap.1 hn
  refine (each_iff ?_).1 (h p hp) n hn
  cases p
  case exported f => exact absurd hp (other f)
  all_goals rfl

end Parts

section Rules

variable {P : Node → Prop} {e : Extent} {parts : List Phrase} {p : Phrase} {r : Rule}
  (inherited : Inherited P)

include inherited

/-- A node for a block has what the nodes in it have. -/
lemma Inherited.wholeOf (all : ∀ n ∈ innerOf parts, P n) : ∀ n ∈ wholeOf parts, P n := by
  intro n hn
  obtain ⟨p, hp, hn⟩ := List.mem_flatMap.1 hn
  have own : ∀ m ∈ p.inner, P m := fun m hm => all m (List.mem_flatMap.2 ⟨p, hp, hm⟩)
  cases p
  case block b =>
    obtain rfl := List.mem_singleton.1 hn
    exact inherited.node rfl own
  all_goals exact own n hn

/-- A node that covers a match has what the nodes of the parts have. -/
lemma Inherited.covers {declares : Bool} (all : ∀ n ∈ innerOf parts, P n)
    (h : Covers declares e parts p) : Each P p := by
  obtain ⟨f, rfl, new, children | children⟩ := h
  · exact each_node.2 (inherited.node new.other (children ▸ all))
  · exact each_node.2 (inherited.node new.other (children ▸ inherited.wholeOf all))

/-- A new node has what those have that are put below it. -/
lemma Inherited.wraps {xs ys : List Item} (h : Wraps xs ys) (all : ∀ n ∈ nodesOf xs, P n) :
    ∀ n ∈ nodesOf ys, P n := by
  obtain ⟨-, joins⟩ := h
  rename_i k n
  simp only [nodesOf_append, nodesOf_node, ← joins.children, List.forall_mem_append,
    List.forall_mem_cons] at all ⊢
  have own : P k := by
    obtain ⟨f, s⟩ := k
    exact inherited.node joins.new.other all.1.2
  exact ⟨all.1.1, own, all.2⟩

lemma Inherited.gathers {xs ys : List Item} (h : Gathers xs ys) (all : ∀ n ∈ nodesOf xs, P n) :
    ∀ n ∈ nodesOf ys, P n := by
  induction h with
  | refl => exact all
  | tail _ step ih => exact inherited.wraps step ih

/-- What is composed of parts has what their nodes have. -/
lemma Inherited.composed (each : EachOf P parts) (all : ∀ n ∈ innerOf parts, P n)
    (h : Composed e parts p) : Each P p := by
  cases h with
  | covers h => exact inherited.covers all h
  | left left edges whole exports other =>
    have nodes : ∀ n ∈ p.inner, P n := left ▸ all
    cases p
    case exported f => exact fun _ => inherited.node (exports f rfl).other nodes
    all_goals exact nodes
  | gathers gathers _ _ other _ =>
    rw [← nodesOf_itemsOf] at all
    have nodes := inherited.gathers gathers all
    rw [nodesOf_map_node] at nodes
    exact (each_iff other).2 nodes
  | encloses => exact all
  | alone h => exact each p (by simp [h])

/-- A name that is read twice has what the node of the parts has. -/
lemma Inherited.doubled (all : ∀ n ∈ innerOf parts, P n) (h : Doubled r e parts p) : Each P p := by
  obtain ⟨f, key, n, rfl, new, inner, children, same⟩ := h
  have own : P n := all n (by simp [inner])
  have first : P key := by
    rcases same with rfl | ⟨-, rfl⟩
    · exact own
    · obtain ⟨g, s⟩ := n
      unfold shorthandKey
      split
      · rename_i left right form
        obtain rfl : g = .assignmentPattern left right := form
        exact inherited.target own
      · exact own
  refine each_node.2 (inherited.node new.other ?_)
  rw [children]
  exact List.forall_mem_cons.2 ⟨first, List.forall_mem_singleton.2 own⟩

/-- A declaration may be exported as it stands. -/
lemma Inherited.exportDeclaration (each : EachOf P parts)
    (h : exportDeclaration e parts = some p) : Each P p := by
  unfold Reading.exportDeclaration at h
  split at h
  · cases h
    exact each_node.2 ((eachOf_cons.1 each).1 e.site)
  · cases h
    exact each_node.2 (inherited.node rfl (by simpa [Form.children] using each))
  · cases h

/-- A token, and whatever else is read without parts, has no nodes but perhaps itself, and no children. -/
lemma Inherited.leaf (other : Grammar.isName r = false) (leaf : isLeaf r = true)
    (h : phrase? r e parts = some p) : Each P p := by
  rcases bare_of_leaf leaf h with ⟨none, -, exports, -⟩ | ⟨f, rfl, bare, -, plain⟩
  · rw [each_iff exports, none]
    exact List.forall_mem_nil _
  · exact each_node.2 (inherited.node (plain other) (by simp [bare]))

/-- The nodes in the phrase of a rule that is no name have what is inherited, if the nodes of the parts
do. -/
theorem each_of_phrase? (each : EachOf P parts) (placed : ∀ x ∈ itemsOf parts, x.Placed)
    (exports : ∀ f, .exported f ∈ parts → r = .exportDeclaration) (other : Grammar.isName r = false)
    (h : phrase? r e parts = some p) : Each P p := by
  by_cases exported : r = .exportDeclaration
  · subst exported
    exact inherited.exportDeclaration each h
  · have all := each.innerOf fun f hf => exported (exports f hf)
    cases leaf : isLeaf r with
    | true => exact inherited.leaf other leaf h
    | false =>
      cases declares : isDeclaration r with
      | true => exact inherited.covers all (covers_of_phrase? declares h)
      | false =>
        cases shorthand : isShorthand r with
        | true =>
          exact (doubled_of_phrase? shorthand h).elim (inherited.composed each all) (inherited.doubled all)
        | false =>
          have composed := composed_of_phrase? ⟨fun f hf => absurd (exports f hf) exported, placed⟩
            declares shorthand leaf h
          exact inherited.composed each all composed

end Rules

end ScriptTyping.Reading
