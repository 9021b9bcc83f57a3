import ScriptTyping.Proofs.Reading.Endings
import ScriptTyping.Proofs.Reading.Starts

/-!
# Where nodes end

The children of a node do not end behind it, as long as no match ends behind the one it stands in
(`stackedIn_of_isRead`). The items of a phrase end in the stretch of its match, one after the other: a new node
over a whole match ends where the match does, and one over some of the items where the last of them does.

Every node ends where a match does (`Drawn.ends`). So if the scan for the end of a text takes each token
for what it is, every node ends with the last token of a match, and the children of a node lie in its range
(`stops_of_parse`).
-/

namespace ScriptTyping.Reading
open Peg

variable {file : String} {source : List Char}

/-- The children of a node do not end behind it, at any level. -/
def Settled (n : Node) : Prop :=
  ∀ k ∈ n.preorder, ∀ c ∈ k.children, c.range.stop.offset ≤ k.range.stop.offset

lemma settled_mk {f : Form Node} {s : Site}
    (own : ∀ c ∈ f.children, c.range.stop.offset ≤ (Node.mk f s).range.stop.offset)
    (children : ∀ c ∈ f.children, Settled c) : Settled (.mk f s) := by
  intro k hk
  rw [Node.preorder_eq] at hk
  rcases List.mem_cons.1 hk with rfl | hk
  · exact own
  · obtain ⟨c, hc, hk⟩ := List.mem_flatMap.1 hk
    exact children c hc k hk

/-- Items that end in a stretch of the source, in their order. -/
structure Stacked (source : List Char) (lo hi : Nat) (xs : List Item) : Prop where
  settled : ∀ n, .node n ∈ xs → Settled n
  ordered : xs.Pairwise fun x y => x.stop.offset ≤ y.stop.offset
  lo_le : ∀ x ∈ xs, offsetAt source lo ≤ x.stop.offset
  le_hi : ∀ x ∈ xs, x.stop.offset ≤ offsetAt source hi

lemma ending_le_stop (t : Peg.Tree Rule) : ending t ≤ t.stop := by
  have shorter : (Scan.trimTrailing t.text).length ≤ t.text.length := List.length_take_le' _ _
  exact Nat.add_le_add_left shorter _

namespace Stacked

variable {lo mid mid' hi : Nat} {n : Node} {xs ys : List Item} {t : Peg.Tree Rule}

lemma nil : Stacked source lo hi [] :=
  ⟨by simp, .nil, by simp, by simp⟩

lemma sublist (h : Stacked source lo hi ys) (sub : xs.Sublist ys) : Stacked source lo hi xs :=
  ⟨fun n hn => h.settled n (sub.subset hn), h.ordered.sublist sub, fun x hx => h.lo_le x (sub.subset hx),
    fun x hx => h.le_hi x (sub.subset hx)⟩

/-- Items of one stretch followed by those of a later one. -/
lemma append (h₁ : Stacked source lo mid xs) (h₂ : Stacked source mid' hi ys) (l₁ : lo ≤ mid')
    (l₂ : mid ≤ mid') (l₃ : mid ≤ hi) : Stacked source lo hi (xs ++ ys) := by
  have o₁ : offsetAt source lo ≤ offsetAt source mid' := offsetAt_le l₁
  have o₂ : offsetAt source mid ≤ offsetAt source mid' := offsetAt_le l₂
  have o₃ : offsetAt source mid ≤ offsetAt source hi := offsetAt_le l₃
  refine ⟨fun n hn => ?_,
    List.pairwise_append.2 ⟨h₁.ordered, h₂.ordered, fun x hx y hy => ?_⟩,
    List.forall_mem_append.2 ⟨h₁.lo_le, fun y hy => ?_⟩, List.forall_mem_append.2 ⟨fun x hx => ?_, h₂.le_hi⟩⟩
  · exact (List.mem_append.1 hn).elim (h₁.settled n) (h₂.settled n)
  · have := h₁.le_hi x hx
    have := h₂.lo_le y hy
    omega
  · have := h₂.lo_le y hy
    omega
  · have := h₁.le_hi x hx
    omega

lemma widen (h : Stacked source mid hi xs) (le : lo ≤ mid) : Stacked source lo hi xs :=
  ⟨h.settled, h.ordered, fun x hx => Nat.le_trans (offsetAt_le le) (h.lo_le x hx), h.le_hi⟩

/-- The items of trees that lie one after the other. -/
lemma of_spread {ts : List (Peg.Tree Rule)} {value : Peg.Tree Rule → Phrase} {own : Phrase → List Item}
    {last : Nat} (spread : Tree.Spread lo last ts)
    (each : ∀ u ∈ ts, Stacked source u.start (ending u) (own (value u)))
    (inside : ∀ u ∈ ts, own (value u) = [] ∨ ending u ≤ hi) :
    Stacked source lo hi ((ts.map value).flatMap own) := by
  induction ts generalizing lo with
  | nil => exact nil
  | cons t ts ih =>
    obtain ⟨after, apart⟩ := List.pairwise_cons.1 spread.apart
    have lo_le : lo ≤ t.start := spread.lo_le t List.mem_cons_self
    have rest : Stacked source t.stop hi ((ts.map value).flatMap own) :=
      ih ⟨apart, after, fun u hu => spread.le_hi u (List.mem_cons_of_mem _ hu)⟩
        (fun u hu => each u (List.mem_cons_of_mem _ hu)) fun u hu => inside u (List.mem_cons_of_mem _ hu)
    rw [List.map_cons, List.flatMap_cons]
    -- A tree without items may end behind the stretch, as the end of the input does.
    rcases inside t List.mem_cons_self with none | le
    · rw [none, List.nil_append]
      exact rest.widen (Nat.le_trans lo_le t.start_le_stop)
    · exact ((each t List.mem_cons_self).append rest t.start_le_stop (ending_le_stop t) le).widen lo_le

/-- The end of a match. -/
lemma edges {qs : List Phrase} (all : ∀ q ∈ qs, q.stop? = some (extent file source t).span.stop) :
    Stacked source (ending t) (ending t) (qs.map .edge) := by
  have offset : ∀ x ∈ qs.map Item.edge, x.stop.offset = offsetAt source (ending t) := by
    intro x hx
    obtain ⟨q, hq, rfl⟩ := List.mem_map.1 hx
    rw [Item.stop, all q hq]
    rfl
  refine ⟨by simp, ?_, fun x hx => Nat.le_of_eq (offset x hx).symm, fun x hx => Nat.le_of_eq (offset x hx)⟩
  exact List.pairwise_of_forall_mem_list fun x hx y hy => Nat.le_of_eq ((offset x hx).trans (offset y hy).symm)

/-- A node that covers a match, over nodes that do not end behind it. -/
lemma made {f : Form Node} (settled : ∀ c ∈ f.children, Settled c)
    (le : ∀ c ∈ f.children, c.range.stop.offset ≤ offsetAt source (ending t)) :
    Stacked source t.start (ending t) [.node ((extent file source t).node f)] := by
  refine ⟨fun n hn => ?_, List.pairwise_singleton _ _,
    List.forall_mem_singleton.2 (offsetAt_le (Nat.le_add_right _ _)),
    List.forall_mem_singleton.2 (Nat.le_refl _)⟩
  cases List.mem_singleton.1 hn
  exact settled_mk le settled

/-- A node that covers a match with all the items in it. -/
lemma made_of_items {f : Form Node}
    (h : Stacked source t.start (ending t) (f.children.map .node)) :
    Stacked source t.start (ending t) [.node ((extent file source t).node f)] :=
  made (fun c hc => h.settled c (List.mem_map_of_mem hc)) fun _ hc => h.le_hi _ (List.mem_map_of_mem hc)

/-- Items of which some are put below a new node. -/
lemma wraps (h : Stacked source lo hi xs) (step : Wraps xs ys) : Stacked source lo hi ys := by
  obtain ⟨-, joins⟩ := step
  rename_i before inside after k n
  obtain ⟨f, s⟩ := k
  have children : f.children = nodesOf inside := joins.children
  -- The new node ends with the last of the items inside, so it takes the place of this in every bound.
  obtain ⟨last, mem, same⟩ := Option.map_eq_some_iff.1 joins.stop
  obtain ⟨front, rfl⟩ := List.getLast?_eq_some_iff.1 mem
  obtain ⟨settled, ordered, lo_le, le_hi⟩ := h
  obtain ⟨orderedFront, orderedAfter, frontAfter⟩ := List.pairwise_append.1 ordered
  obtain ⟨orderedBefore, orderedInside, beforeInside⟩ := List.pairwise_append.1 orderedFront
  have inside : last ∈ front ++ [last] := List.mem_append_right _ (List.mem_singleton_self last)
  have all : last ∈ before ++ (front ++ [last]) ++ after := by simp
  have here : Item.stop (.node (.mk f s)) = last.stop := same.symm
  have member (c : Node) (hc : c ∈ f.children) : .node c ∈ front ++ [last] := mem_nodesOf.1 (children ▸ hc)
  have own : Settled (.mk f s) := by
    refine settled_mk (fun c hc => ?_) fun c hc =>
      settled c (List.mem_append_left _ (List.mem_append_right _ (member c hc)))
    change (Item.node c).stop.offset ≤ (Item.node (.mk f s)).stop.offset
    rw [here]
    rcases List.mem_append.1 (member c hc) with hx | hx
    · exact (List.pairwise_append.1 orderedInside).2.2 _ hx last (List.mem_singleton_self last)
    · rw [List.mem_singleton.1 hx]
  have each {Q : Item → Prop} (h : ∀ x ∈ before ++ (front ++ [last]) ++ after, Q x)
      (new : Q (.node (.mk f s))) : ∀ x ∈ before ++ .node (.mk f s) :: after, Q x := by
    simp only [List.forall_mem_append, List.forall_mem_cons] at h ⊢
    exact ⟨h.1.1, new, h.2⟩
  refine ⟨?_, List.pairwise_append.2 ⟨orderedBefore, List.pairwise_cons.2 ⟨fun x hx => ?_, orderedAfter⟩,
    fun x hx => List.forall_mem_cons.2 ⟨?_, frontAfter x (List.mem_append_left _ hx)⟩⟩,
    each lo_le (here ▸ lo_le last all), each le_hi (here ▸ le_hi last all)⟩
  · intro m hm
    refine each (Q := fun x => ∀ m, x = .node m → Settled m) (fun x hx m same => ?_)
      (fun m same => ?_) _ hm m rfl
    · exact settled m (same ▸ hx)
    · cases same
      exact own
  · rw [here]
    exact frontAfter last (List.mem_append_right _ inside) x hx
  · rw [here]
    exact beforeInside x hx last inside

lemma gathers (h : Stacked source lo hi xs) (steps : Gathers xs ys) : Stacked source lo hi ys := by
  induction steps with
  | refl => exact h
  | tail _ step ih => exact ih.wraps step

end Stacked

section Trees

variable {t : Peg.Tree Rule} {value : Peg.Tree Rule → Phrase} {p : Phrase}

/-- The items of a phrase end in the stretch of its match in their order, and so do they with a node for a
block. -/
def StackedIn (source : List Char) (t : Peg.Tree Rule) (p : Phrase) : Prop :=
  Stacked source t.start (ending t) p.items ∧ Stacked source t.start (ending t) (p.whole.map .node)

lemma StackedIn.node {n : Node} (h : Stacked source t.start (ending t) [.node n]) :
    StackedIn source t (.node n) :=
  ⟨h, h⟩

lemma map_node_sublist (xs : List Item) : ((nodesOf xs).map Item.node).Sublist xs := by
  induction xs with
  | nil => exact .slnil
  | cons x xs ih =>
    cases x with
    | node n => exact ih.cons_cons _
    | edge l => exact ih.cons _

/-- The program is no part of anything. -/
lemma rule_ne_program {u : Peg.Tree Rule} (read : t.IsRead language source) (hu : u ∈ t.children) :
    u.rule ≠ .program := by
  have others : ∀ r ∈ Rule.all, Grammar.kind r = .normal ∨ Grammar.kind r = .compound →
      (Grammar.body r).callsOnly (fun r => r ≠ .program && r ≠ .templateHolePart) = true := by
    decide +kernel
  cases kind : Grammar.kind t.rule with
  | silent => exact absurd kind read.2.1
  | atomic =>
    rw [Grammar.children_of_atomic read kind] at hu
    cases hu
  | normal | compound =>
    obtain ⟨r, ok, rule⟩ := (read.yields (by simp [language, kind])).exists_rule
      (fun r ok => kind_ne_silent (of_decide_eq_true (Bool.and_eq_true_iff.1 ok).2))
      (others _ (Rule.mem_all _) (by simp [kind])) u hu
    rw [rule]
    exact of_decide_eq_true (Bool.and_eq_true_iff.1 ok).1

/-- What reads nothing stands for nothing. -/
lemma items_of_not_isSolid {u : Peg.Tree Rule} (other : u.rule ≠ .program) (empty : ¬ IsSolid u)
    (made : assemble file source u = .ok p) : p.items = [] ∧ p.whole = [] := by
  obtain ⟨value, -, found⟩ := phrase?_of_assemble made
  rw [IsSolid, not_or, not_and, not_not] at empty
  obtain ⟨consuming, none⟩ := empty
  cases rule : u.rule
  case program => exact absurd rule other
  case endOfInput =>
    rw [rule] at found
    cases found
    exact ⟨rfl, rfl⟩
  case patternItem | arrayItem =>
    rw [rule] at found none
    rw [none rfl] at found
    cases found
    exact ⟨rfl, rfl⟩
  all_goals simp [rule, Grammar.isConsuming] at consuming

section Step

variable (read : t.IsRead language source)
  (inside : ∀ u ∈ t.children, IsSolid u → ending u ≤ ending t)
  (each : ∀ u ∈ t.children, assemble file source u = .ok (value u))
  (parts : ∀ u ∈ t.children, StackedIn source u (value u))

include read inside each parts

lemma stacked_itemsOf : Stacked source t.start (ending t) (itemsOf (t.children.map value)) := by
  refine .of_spread read.spread (fun u hu => (parts u hu).1) fun u hu => ?_
  by_cases solid : IsSolid u
  · exact .inr (inside u hu solid)
  · exact .inl (items_of_not_isSolid (rule_ne_program read hu) solid (each u hu)).1

lemma stacked_innerOf :
    Stacked source t.start (ending t) ((innerOf (t.children.map value)).map .node) := by
  rw [← nodesOf_itemsOf]
  exact (stacked_itemsOf read inside each parts).sublist (map_node_sublist _)

lemma stacked_wholeOf :
    Stacked source t.start (ending t) ((wholeOf (t.children.map value)).map .node) := by
  rw [wholeOf, List.map_flatMap]
  refine .of_spread read.spread (fun u hu => (parts u hu).2) fun u hu => ?_
  by_cases solid : IsSolid u
  · exact .inr (inside u hu solid)
  · rw [(items_of_not_isSolid (rule_ne_program read hu) solid (each u hu)).2]
    exact .inl rfl

/-- A new node that covers a match ends where the match does. -/
lemma stackedIn_of_covers {declares : Bool}
    (covers : Covers declares (extent file source t) (t.children.map value) p) : StackedIn source t p := by
  obtain ⟨f, rfl, -, children | children⟩ := covers
  · exact .node (.made_of_items (children ▸ stacked_innerOf read inside each parts))
  · exact .node (.made_of_items (children ▸ stacked_wholeOf read inside each parts))

/-- What is composed of parts ends where they do, or where the match does. -/
lemma stackedIn_of_composed (composed : Composed (extent file source t) (t.children.map value) p) :
    StackedIn source t p := by
  have items := stacked_itemsOf read inside each parts
  have inner := stacked_innerOf read inside each parts
  have whole := stacked_wholeOf read inside each parts
  have ended {qs : List Phrase} (all : ∀ q ∈ qs, q.stop? = some (extent file source t).span.stop) :
      Stacked source t.start (ending t)
        ((innerOf (t.children.map value)).map .node ++ qs.map .edge) :=
    inner.append (.edges all) (Nat.le_add_right _ _) (Nat.le_refl _) (Nat.le_refl _)
  cases composed with
  | covers covers => exact stackedIn_of_covers read inside each parts covers
  | left same edges bare _ _ =>
    rw [StackedIn, Phrase.items, bare, same]
    exact ⟨ended edges, inner⟩
  | gathers gathers edges bare _ _ =>
    have gathered := items.gathers gathers
    rw [StackedIn, Phrase.items, edges, bare, List.map_nil, List.append_nil]
    exact ⟨gathered, gathered⟩
  | encloses => exact ⟨ended (List.forall_mem_singleton.2 rfl), .made_of_items inner⟩
  | alone one =>
    rw [one, itemsOf_cons, itemsOf_nil, List.append_nil] at items
    rw [one, wholeOf, List.flatMap_singleton] at whole
    exact ⟨items, whole⟩

/-- A name that is read twice ends twice inside the match. -/
lemma stackedIn_of_doubled (doubled : Doubled t.rule (extent file source t) (t.children.map value) p) :
    StackedIn source t p := by
  obtain ⟨f, key, n, rfl, -, alone, children, same⟩ := doubled
  have inner := stacked_innerOf read inside each parts
  rw [alone] at inner
  have settled : Settled n := inner.settled n (List.mem_singleton_self _)
  have le : n.range.stop.offset ≤ offsetAt source (ending t) := inner.le_hi _ (List.mem_singleton_self _)
  have first : Settled key ∧ key.range.stop.offset ≤ offsetAt source (ending t) := by
    rcases same with rfl | ⟨-, rfl⟩
    · exact ⟨settled, le⟩
    · refine ⟨fun k hk => settled k (preorder_of_shorthandKey n k hk), ?_⟩
      unfold shorthandKey
      split
      · rename_i left right form
        refine Nat.le_trans (settled n (Node.self_mem_preorder n) left ?_) le
        rw [Node.children, form]
        exact List.mem_cons_self
      · exact le
  refine .node (.made ?_ ?_)
  · rw [children]
    exact List.forall_mem_cons.2 ⟨first.1, List.forall_mem_singleton.2 settled⟩
  · rw [children]
    exact List.forall_mem_cons.2 ⟨first.2, List.forall_mem_singleton.2 le⟩

end Step

/-- The items of what a match stands for end in its stretch of the source, in their order, if no match inside
it ends behind the one around it. -/
theorem stackedIn_of_isRead (read : t.IsRead language source) : ∀ {p},
    (∀ v : Peg.Tree Rule, v.Under t → ∀ u ∈ v.children, IsSolid u → ending u ≤ ending v) →
    assemble file source t = .ok p → StackedIn source t p := by
  refine Tree.IsRead.induction (P := fun t => ∀ {p},
    (∀ v : Peg.Tree Rule, v.Under t → ∀ u ∈ v.children, IsSolid u → ending u ≤ ending v) →
    assemble file source t = .ok p → StackedIn source t p) (fun t read ih p nests made => ?_) t read
  obtain ⟨value, each, sound, found⟩ := exists_parts read made
  have inside := nests t .self
  have parts : ∀ u ∈ t.children, StackedIn source u (value u) :=
    fun u hu => ih u hu (fun v below => nests v (.inside hu below)) (each u hu)
  cases leaf : isLeaf t.rule with
  | true =>
    rcases bare_of_leaf leaf found with ⟨inner, whole, -, edges⟩ | ⟨f, rfl, bare, -⟩
    · rw [StackedIn, Phrase.items, inner, whole]
      exact ⟨(Stacked.edges edges).widen (Nat.le_add_right _ _), .nil⟩
    · exact .node (.made_of_items (bare ▸ .nil))
  | false =>
    cases declares : isDeclaration t.rule with
    | true => exact stackedIn_of_covers read inside each parts (covers_of_phrase? declares found)
    | false =>
      cases shorthand : isShorthand t.rule with
      | true =>
        exact (doubled_of_phrase? shorthand found).elim (stackedIn_of_composed read inside each parts)
          (stackedIn_of_doubled read inside each parts)
      | false =>
        have composed := composed_of_phrase? sound declares shorthand leaf found
        exact stackedIn_of_composed read inside each parts composed

end Trees

end ScriptTyping.Reading

namespace ScriptTyping.Script
open Peg Reading

/-- The tokens of a script make up its text. If the scan for the end of a text takes each of them for what it
is, each match ends with its last token, and no match in it that reads something ends behind it. -/
lemma tokens_of_parse {s : Script} {n : Node} (h : s.parse = .ok n) :
    ∃ (t : Peg.Tree Rule) (ts : List (Token Rule)), s.match? = .ok t ∧
      assemble s.name s.content.toList t = .ok (.node n) ∧ t.IsRead language s.content.toList ∧
      t.Lexed language s.content.toList ts ∧ Token.textOf ts = s.content.toList ∧
      (AllSeen [] ts → ∀ v : Peg.Tree Rule, v.Under t → EndsWithToken s.content.toList v ∧
        ∀ u ∈ v.children, IsSolid u → ending u ≤ ending v) := by
  obtain ⟨t, -, matched, made⟩ := match_of_parse h
  obtain ⟨-, start, read⟩ := isRead_of_match matched
  obtain ⟨ts, d, lexed, row, all, signs, -⟩ := Grammar.exists_tokens matched
  have text : s.content.toList = Token.textOf ts := by simpa [all] using row.leads.1
  refine ⟨t, ts, matched, made, read, lexed, text.symm, fun seen => ?_⟩
  have isSeen : IsSeen s.content.toList t ts := by
    refine ⟨lexed, d, ?_, all ▸ seen, fun tok mem cs same => signs cs (same ▸ mem)⟩
    rw [Tree.place, start]
    exact row
  exact ends_of_isSeen read isSeen

/-- The tokens of a script make up its text. If the scan for the end of a text takes each of them for what it
is, every node of the syntax tree ends exactly where the last token of a match does: of the match that stands
for the node, or of what is last in a node that is made over neighbours. It begins where the match does unless
it is made so. The range of every child then lies in the range of its parent. -/
theorem stops_of_parse {s : Script} {n : Node} (h : s.parse = .ok n) :
    ∃ (t : Peg.Tree Rule) (ts : List (Token Rule)), s.match? = .ok t ∧
      t.Lexed language s.content.toList ts ∧ Token.textOf ts = s.content.toList ∧
      (AllSeen [] ts → ∀ k ∈ n.preorder, ∃ (u : Peg.Tree Rule) (us : List (Token Rule)) (r : Span),
        u.Under t ∧ Drawn s.name s.content.toList k u ∧ u.Lexed language s.content.toList us ∧
        k.span? = some r ∧
        r.stop = Location.after s.name
          (s.content.toList.take (u.start + (Token.textOf (Token.code us)).length)) ∧
        (r.start = Location.after s.name (s.content.toList.take u.start) ∨ k.form.isJoint = true) ∧
        ∀ c ∈ k.children, ∃ q, c.span? = some q ∧
          r.start.offset ≤ q.start.offset ∧ q.stop.offset ≤ r.stop.offset) := by
  obtain ⟨t, ts, matched, made, read, lexed, text, ends⟩ := tokens_of_parse h
  refine ⟨t, ts, matched, lexed, text, fun seen k hk => ?_⟩
  have nests := ends seen
  have stacked : StackedIn s.content.toList t (.node n) :=
    stackedIn_of_isRead read (fun v below => (nests v below).2) made
  have inside : Settled n := stacked.1.settled n (List.mem_singleton_self _)
  have drawn : IsDrawnIn (fun u => u.Under t ∧ EndsWithToken s.content.toList u) s.name s.content.toList
      (.node n) :=
    isDrawnIn_of_isRead read (fun v below => ⟨below, (nests v below).1⟩) made
  obtain ⟨placed, u, ⟨below, us, lexedU, trimmed⟩, own⟩ := drawn.1 _ (List.mem_singleton_self _) k hk
  obtain ⟨stop, begins⟩ := own.ends placed.span
  refine ⟨u, us, k.range, below, own, lexedU, placed.span, ?_, begins, fun c hc => ?_⟩
  · rw [stop, ← trimmed]
    rfl
  · have child : c.Placed := placed_of_parse h c (Node.mem_preorder_of_child hk hc)
    exact ⟨_, child.span, (ordered_of_parse h hk).behind c hc, inside k hk c hc⟩

/-- The gaps behind the operands belong to none of the nodes. -/
theorem stops_of_parse_gaps : ∃ n, (ofSource "a.js" "f( a , b ) ;\n").parse = .ok n ∧
    ∃ t ts, (ofSource "a.js" "f( a , b ) ;\n").match? = .ok t ∧
      t.Lexed language "f( a , b ) ;\n".toList ts ∧ AllSeen [] ts ∧
      ∀ k ∈ n.preorder, ∃ (u : Peg.Tree Rule) (us : List (Token Rule)) (r : Span),
        u.Under t ∧ Drawn "a.js" "f( a , b ) ;\n".toList k u ∧
        u.Lexed language "f( a , b ) ;\n".toList us ∧ k.span? = some r ∧
        r.stop = Location.after "a.js"
          ("f( a , b ) ;\n".toList.take (u.start + (Token.textOf (Token.code us)).length)) ∧
        (r.start = Location.after "a.js" ("f( a , b ) ;\n".toList.take u.start) ∨
          k.form.isJoint = true) ∧
        ∀ c ∈ k.children, ∃ q, c.span? = some q ∧
          r.start.offset ≤ q.start.offset ∧ q.stop.offset ≤ r.stop.offset := by
  obtain ⟨n, parsed⟩ : ∃ n, (ofSource "a.js" "f( a , b ) ;\n").parse = .ok n := by
    have found : (ofSource "a.js" "f( a , b ) ;\n").parse.toOption.isSome = true := by decide +kernel
    obtain ⟨n, found⟩ := Option.isSome_iff_exists.1 found
    exact ⟨n, parse_of_toOption found⟩
  obtain ⟨t, ts, matched, lexed, text, told⟩ := stops_of_parse parsed
  have clear : ∀ x ∈ Token.textOf ts, Grammar.isClear x = true := by
    rw [text]
    exact List.all_iff_forall_prop.mp (by decide +kernel)
  obtain ⟨rule, -, -⟩ := isRead_of_match matched
  obtain ⟨q, -, lexes⟩ := lexed.exists_lexes (by rw [rule]; rfl)
  have seen : AllSeen [] ts := allSeen_of_clear lexes.row clear
  exact ⟨n, parsed, t, ts, matched, lexed, seen, told seen⟩

end ScriptTyping.Script
