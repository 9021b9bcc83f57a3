import ScriptTyping.Proofs.Peg.Idle
import ScriptTyping.Proofs.Reading.Clear
import ScriptTyping.Proofs.Reading.Covering

/-!
# Where nodes begin

A node begins with code, its children do not begin before it, and they are listed in the order in which
they begin (`starts_of_parse`). The nodes in what a match stands for begin in its stretch of the source,
one after the other (`laid_of_isRead`): a new node over a whole match begins where the match does, and one
over some of the nodes where the first of them begins, or the node before them. A name alone in a pattern
is read as a key too, which begins where the name and its default do.
-/

namespace ScriptTyping

/-- A node does not begin after another. -/
def Node.NotAfter (m n : Node) : Prop :=
  m.range.start.offset ≤ n.range.start.offset

/-- The children of a node do not begin before it, and they are listed in the order in which they begin. -/
structure Node.Ordered (n : Node) : Prop where
  behind : ∀ c ∈ n.children, n.NotAfter c
  ordered : n.children.Pairwise Node.NotAfter

namespace Reading
open Peg Peg.Expr

variable {file : String} {source : List Char}

/-- A place in a source where no blank and no comment begins. -/
def IsStart (file : String) (source : List Char) (l : Location) : Prop :=
  ∃ before after, source = before ++ after ∧ l = Location.after file before ∧
    IsCode ⟨before.length, after⟩

/-- Every node of a syntax tree begins with code, and has its children in order. -/
def Tidy (file : String) (source : List Char) (n : Node) : Prop :=
  ∀ k ∈ n.preorder, IsStart file source k.range.start ∧ k.Ordered

lemma tidy_mk {f : Form Node} {s : Site} (start : IsStart file source (Node.mk f s).range.start)
    (ordered : (Node.mk f s).Ordered) (children : ∀ c ∈ f.children, Tidy file source c) :
    Tidy file source (.mk f s) := by
  intro k hk
  rw [Node.preorder_eq] at hk
  rcases List.mem_cons.1 hk with rfl | hk
  · exact ⟨start, ordered⟩
  · obtain ⟨c, hc, hk⟩ := List.mem_flatMap.1 hk
    exact children c hc k hk

/-- Tidy nodes that begin in a stretch of the source, in their order. -/
structure Laid (file : String) (source : List Char) (lo hi : Nat) (ns : List Node) : Prop where
  tidy : ∀ n ∈ ns, Tidy file source n
  ordered : ns.Pairwise Node.NotAfter
  lo_le : ∀ n ∈ ns, offsetAt source lo ≤ n.range.start.offset
  le_hi : ∀ n ∈ ns, n.range.start.offset ≤ offsetAt source hi

namespace Laid

variable {lo mid mid' hi : Nat} {n : Node} {ns ms : List Node}

lemma nil : Laid file source lo hi [] :=
  ⟨by simp, .nil, by simp, by simp⟩

/-- Nodes of one stretch followed by those of a later one. -/
lemma append (h₁ : Laid file source lo mid ns) (h₂ : Laid file source mid' hi ms) (l₁ : lo ≤ mid)
    (l₂ : mid ≤ mid') (l₃ : mid' ≤ hi) : Laid file source lo hi (ns ++ ms) := by
  have o₁ : offsetAt source lo ≤ offsetAt source mid := offsetAt_le l₁
  have o₂ : offsetAt source mid ≤ offsetAt source mid' := offsetAt_le l₂
  have o₃ : offsetAt source mid' ≤ offsetAt source hi := offsetAt_le l₃
  refine ⟨List.forall_mem_append.2 ⟨h₁.tidy, h₂.tidy⟩,
    List.pairwise_append.2 ⟨h₁.ordered, h₂.ordered, fun n hn m hm => ?_⟩, ?_, ?_⟩
  · have := h₁.le_hi n hn
    have := h₂.lo_le m hm
    rw [Node.NotAfter]
    omega
  · refine List.forall_mem_append.2 ⟨h₁.lo_le, fun n hn => ?_⟩
    have := h₂.lo_le n hn
    omega
  · refine List.forall_mem_append.2 ⟨fun n hn => ?_, h₂.le_hi⟩
    have := h₁.le_hi n hn
    omega

lemma widen (h : Laid file source mid hi ns) (le : lo ≤ mid) : Laid file source lo hi ns :=
  ⟨h.tidy, h.ordered, fun n hn => Nat.le_trans (offsetAt_le le) (h.lo_le n hn), h.le_hi⟩

/-- The nodes of trees that lie one after the other. -/
lemma of_spread {ts : List (Peg.Tree Rule)} {value : Peg.Tree Rule → Phrase} {own : Phrase → List Node}
    (spread : Tree.Spread lo hi ts) (le : lo ≤ hi)
    (each : ∀ u ∈ ts, Laid file source u.start u.stop (own (value u))) :
    Laid file source lo hi ((ts.map value).flatMap own) := by
  induction ts generalizing lo with
  | nil => exact nil
  | cons t ts ih =>
    obtain ⟨after, apart⟩ := List.pairwise_cons.1 spread.apart
    have le_hi : t.stop ≤ hi := spread.le_hi t List.mem_cons_self
    have lo_le : lo ≤ t.start := spread.lo_le t List.mem_cons_self
    have rest : Laid file source t.stop hi ((ts.map value).flatMap own) :=
      ih ⟨apart, after, fun u hu => spread.le_hi u (List.mem_cons_of_mem _ hu)⟩ le_hi
        fun u hu => each u (List.mem_cons_of_mem _ hu)
    exact ((each t List.mem_cons_self).append rest t.start_le_stop (Nat.le_refl _) le_hi).widen lo_le

/-- A node that covers a match, over nodes inside it. -/
lemma made {t : Peg.Tree Rule} {f : Form Node} (h : t.IsRead language source) (clear : Clear source t)
    (children : Laid file source t.start t.stop f.children) :
    Laid file source t.start t.stop [(extent file source t).node f] := by
  have start : IsStart file source ((extent file source t).place t.start) := by
    refine ⟨source.take t.start, source.drop t.start, (List.take_append_drop _ _).symm, rfl, ?_⟩
    rw [List.length_take, Nat.min_eq_left h.1]
    exact clear t .self
  refine ⟨List.forall_mem_singleton.2 (tidy_mk start ⟨children.lo_le, children.ordered⟩ children.tidy),
    List.pairwise_singleton _ _, List.forall_mem_singleton.2 (Nat.le_refl _),
    List.forall_mem_singleton.2 (offsetAt_le t.start_le_stop)⟩

/-- Of nodes in their order, one that stands directly before others or is the first of them begins
between those before it and these. -/
lemma between {before inside : List Node} (ordered : (before ++ inside).Pairwise Node.NotAfter)
    (near : n ∈ before.getLast? ∨ n ∈ inside.head?) :
    n ∈ before ++ inside ∧ (∀ c ∈ before, c.NotAfter n) ∧ ∀ c ∈ inside, n.NotAfter c := by
  obtain ⟨orderedBefore, orderedInside, apart⟩ := List.pairwise_append.1 ordered
  rcases near with last | head
  · obtain ⟨front, rfl⟩ := List.getLast?_eq_some_iff.1 last
    have mem : n ∈ front ++ [n] := List.mem_append_right _ (List.mem_singleton_self n)
    refine ⟨List.mem_append_left _ mem, List.forall_mem_append.2 ⟨fun c hc => ?_, ?_⟩, apart n mem⟩
    · exact (List.pairwise_append.1 orderedBefore).2.2 c hc n (List.mem_singleton_self n)
    · exact List.forall_mem_singleton.2 (Nat.le_refl _)
  · obtain ⟨rest, rfl⟩ := List.head?_eq_some_iff.1 head
    refine ⟨List.mem_append_right _ List.mem_cons_self,
      fun c hc => apart c hc n List.mem_cons_self, List.forall_mem_cons.2 ⟨Nat.le_refl _, ?_⟩⟩
    exact (List.pairwise_cons.1 orderedInside).1

/-- Nodes that are put below a new one. -/
lemma wraps {xs ys : List Item} (h : Laid file source lo hi (nodesOf xs)) (step : Wraps xs ys) :
    Laid file source lo hi (nodesOf ys) := by
  obtain ⟨-, joins⟩ := step
  rename_i front inside rest k first
  obtain ⟨f, s⟩ := k
  have children : f.children = nodesOf inside := joins.children
  -- The node begins with one of its neighbours, so it takes the place of this in every bound.
  have near : first ∈ (nodesOf front).getLast? ∨ first ∈ f.children.head? := by
    rw [children]
    exact joins.near.symm.imp (mem_getLast?_nodesOf ·.2) mem_head?_nodesOf
  rw [nodesOf_append, nodesOf_append, ← children] at h
  rw [nodesOf_append, nodesOf_node]
  generalize nodesOf front = before at h near ⊢
  generalize nodesOf rest = after at h ⊢
  obtain ⟨tidy, ordered, lo_le, le_hi⟩ := h
  obtain ⟨orderedFront, orderedAfter, frontAfter⟩ := List.pairwise_append.1 ordered
  obtain ⟨mem, ahead, behind⟩ := between orderedFront near
  obtain ⟨orderedBefore, orderedInside, -⟩ := List.pairwise_append.1 orderedFront
  have all : first ∈ before ++ f.children ++ after := List.mem_append_left _ mem
  have same : (Node.mk f s).range.start = first.range.start := joins.start
  have own : Tidy file source (.mk f s) := by
    refine tidy_mk (same ▸ (tidy first all first (Node.self_mem_preorder _)).1)
      ⟨fun c hc => ?_, orderedInside⟩ fun c hc => tidy c (by simp [hc])
    rw [Node.NotAfter, same]
    exact behind c hc
  have each {Q : Node → Prop} (h : ∀ m ∈ before ++ f.children ++ after, Q m) (new : Q (.mk f s)) :
      ∀ m ∈ before ++ .mk f s :: after, Q m := by
    simp only [List.forall_mem_append, List.forall_mem_cons] at h ⊢
    exact ⟨h.1.1, new, h.2⟩
  refine ⟨each tidy own, List.pairwise_append.2 ⟨orderedBefore, List.pairwise_cons.2 ⟨?_, orderedAfter⟩,
    fun c hc => List.forall_mem_cons.2 ⟨?_, frontAfter c (List.mem_append_left _ hc)⟩⟩,
    each lo_le (same ▸ lo_le first all), each le_hi (same ▸ le_hi first all)⟩
  · intro c hc
    rw [Node.NotAfter, same]
    exact frontAfter first mem c hc
  · rw [Node.NotAfter, same]
    exact ahead c hc

lemma gathers {xs ys : List Item} (h : Laid file source lo hi (nodesOf xs)) (steps : Gathers xs ys) :
    Laid file source lo hi (nodesOf ys) := by
  induction steps with
  | refl => exact h
  | tail _ step ih => exact ih.wraps step

/-- A name and the key that is read from it, which begins where the name does. -/
lemma double {key : Node} (h : Laid file source lo hi [n]) (below : ∀ k ∈ key.preorder, k ∈ n.preorder)
    (same : key.range.start = n.range.start) : Laid file source lo hi [key, n] := by
  obtain ⟨tidy, -, lo_le, le_hi⟩ := h
  simp only [List.forall_mem_singleton] at tidy lo_le le_hi
  have tidyKey : Tidy file source key := fun k hk => tidy k (below k hk)
  have ordered : key.NotAfter n := Nat.le_of_eq (congrArg Location.offset same)
  exact ⟨by simp [tidy, tidyKey], List.pairwise_pair.2 ordered, by simp [same, lo_le],
    by simp [same, le_hi]⟩

end Laid

section Keys

variable {t u v w : Peg.Tree Rule} {n : Node}

/-- The first part of a binding begins where the binding does. -/
lemma start_of_bindingElement {us : List (Peg.Tree Rule)} (h : v.IsRead language source)
    (rule : v.rule = .bindingElement) (below : v.children = w :: us) : w.start = v.start := by
  obtain ⟨u, _, children, start⟩ := h.exists_first_child (by rw [rule]; rfl) (by rw [rule]; rfl)
  rw [below] at children
  obtain ⟨rfl, -⟩ := List.cons.inj children
  exact start

/-- What may be bound covers its match, and has no default. -/
lemma exists_form_of_target (rule : w.rule = .identifier ∨ w.rule = .objectPattern ∨ w.rule = .arrayPattern)
    (made : assemble file source w = .ok (.node n)) :
    ∃ f, n = (extent file source w).node f ∧ shorthandKey n = n := by
  obtain ⟨value, -, found⟩ := phrase?_of_assemble made
  rcases rule with rule | rule | rule
  all_goals rw [rule] at found
  · cases found
    exact ⟨_, rfl, rfl⟩
  all_goals
    obtain ⟨_, -, same⟩ := Option.map_eq_some_iff.1 found
    cases same
    exact ⟨_, rfl, rfl⟩

/-- The key that a binding alone is read as begins where the binding does. -/
lemma location_of_shorthandKey (h : v.IsRead language source)
    (rule : v.rule = .restElement ∨ v.rule = .bindingElement)
    (made : assemble file source v = .ok (.node n)) : (shorthandKey n).range.start = n.range.start := by
  obtain ⟨value, each, found⟩ := phrase?_of_assemble made
  rcases rule with rule | rule
  all_goals rw [rule] at found
  · change restElement _ _ = _ at found
    unfold restElement at found
    split at found
    all_goals cases found
    rfl
  · change bindingElement _ _ = _ at found
    have first {target : Node} {rest : List Phrase} (parts : v.children.map value = .node target :: rest) :
        target.range.start = (extent file source v).span.start ∧ shorthandKey target = target := by
      obtain ⟨w, us, below, here, -⟩ := List.map_eq_cons_iff.1 parts
      have hw : w ∈ v.children := below ▸ List.mem_cons_self
      have ruleW : w.rule = .identifier ∨ w.rule = .objectPattern ∨ w.rule = .arrayPattern := by
        have left := h.yields (by rw [rule]; exact .inl rfl)
        rw [rule, below] at left
        change Yields language _ (.seq Grammar.bindingTarget _) _ at left
        simp only [Grammar.bindingTarget, oneOf, yields_choice_seq, ne_eq, reduceCtorEq,
          not_false_eq_true, yields_rule_seq, List.cons.injEq] at left
        obtain ⟨_, _, ⟨rfl, -⟩, rule, -⟩ | ⟨_, _, ⟨rfl, -⟩, rule, -⟩ | ⟨_, _, ⟨rfl, -⟩, rule, -⟩ := left
        all_goals simp [rule]
      obtain ⟨f, rfl, plain⟩ := exists_form_of_target ruleW (here ▸ each w hw)
      refine ⟨?_, plain⟩
      change Location.after _ (source.take w.start) = Location.after _ (source.take v.start)
      rw [start_of_bindingElement h rule below]
      rfl
    unfold bindingElement at found
    split at found
    · rename_i parts
      cases found
      rw [(first parts).2]
    · rename_i parts
      cases found
      exact (first parts).1
    · cases found

/-- A binding that stands alone in a pattern is read as a key that begins where it does. -/
lemma location_of_patternProperty {value : Peg.Tree Rule → Phrase} (h : t.IsRead language source)
    (rule : t.rule = .patternProperty) (each : ∀ u ∈ t.children, assemble file source u = .ok (value u))
    (alone : innerOf (t.children.map value) = [n]) : (shorthandKey n).range.start = n.range.start := by
  have parts : (∃ u, t.children = [u] ∧ (u.rule = .restElement ∨ u.rule = .bindingElement)) ∨
      ∃ k u, t.children = [k, u] ∧ (k.rule = .computedKey ∨ k.rule = .propertyKey) ∧
        u.rule = .bindingElement := by
    have left := h.yields (by rw [rule]; exact .inl rfl)
    rw [rule] at left
    change Yields language _ (oneOf [.call .restElement, .seq Grammar.key
      (.seq (token ":") (.call .bindingElement)), .call .bindingElement]) _ at left
    simp [oneOf, Grammar.key, token] at left
    grind
  have node {u : Peg.Tree Rule} (hu : u ∈ t.children)
      (rule : u.rule = .restElement ∨ u.rule = .bindingElement) : ∃ m, value u = .node m := by
    have fits := fits_of_assemble (h.children u hu) (each u hu)
    rcases rule with rule | rule
    all_goals
      rw [rule] at fits
      exact fits
  -- Without a key the target is its own key; with one it is only the value.
  rcases parts with ⟨u, below, ruleU⟩ | ⟨k, u, below, ruleK, ruleU⟩
  · have hu : u ∈ t.children := by simp [below]
    obtain ⟨m, hm⟩ := node hu ruleU
    rw [below, List.map_singleton, hm] at alone
    cases alone
    exact location_of_shorthandKey (h.children u hu) ruleU (hm ▸ each u hu)
  · obtain ⟨m, hm⟩ := node (u := u) (by simp [below]) (.inr ruleU)
    have hk : k ∈ t.children := by simp [below]
    have fits := fits_of_assemble (h.children k hk) (each k hk)
    obtain ⟨key, computed, hkey⟩ : IsKey (value k) := by
      rcases ruleK with rule | rule
      all_goals
        rw [rule] at fits
        exact fits
    simp [below, hm, hkey, Phrase.inner] at alone

end Keys

section Trees

variable {t : Peg.Tree Rule} {value : Peg.Tree Rule → Phrase} {p : Phrase}

/-- The nodes of a phrase begin in a stretch of the source in their order, and so do they with a node for
a block. -/
def LaidOut (file : String) (source : List Char) (lo hi : Nat) (p : Phrase) : Prop :=
  Laid file source lo hi p.inner ∧ Laid file source lo hi p.whole

lemma LaidOut.node {lo hi : Nat} {n : Node} (h : Laid file source lo hi [n]) :
    LaidOut file source lo hi (.node n) :=
  ⟨h, h⟩

section Step

variable (h : t.IsRead language source) (clear : Clear source t)
  (each : ∀ u ∈ t.children, assemble file source u = .ok (value u))
  (parts : ∀ u ∈ t.children, LaidOut file source u.start u.stop (value u))

include h parts

lemma laid_innerOf : Laid file source t.start t.stop (innerOf (t.children.map value)) :=
  .of_spread h.spread t.start_le_stop fun u hu => (parts u hu).1

lemma laid_wholeOf : Laid file source t.start t.stop (wholeOf (t.children.map value)) :=
  .of_spread h.spread t.start_le_stop fun u hu => (parts u hu).2

include clear

/-- A new node that covers a match begins where the match does. -/
lemma laidOut_of_covers {declares : Bool}
    (covers : Covers declares (extent file source t) (t.children.map value) p) :
    LaidOut file source t.start t.stop p := by
  obtain ⟨f, rfl, -, children | children⟩ := covers
  · exact .node (.made h clear (children ▸ laid_innerOf h parts))
  · exact .node (.made h clear (children ▸ laid_wholeOf h parts))

/-- What is composed of parts begins where they do, or where the match does. -/
lemma laidOut_of_composed (composed : Composed (extent file source t) (t.children.map value) p) :
    LaidOut file source t.start t.stop p := by
  have inner := laid_innerOf h parts
  have whole := laid_wholeOf h parts
  cases composed with
  | covers covers => exact laidOut_of_covers h clear parts covers
  | left left _ same _ _ =>
    rw [← left] at inner
    exact ⟨inner, same ▸ inner⟩
  | gathers gathers _ same _ _ =>
    rw [← nodesOf_itemsOf] at inner
    have laid := inner.gathers gathers
    rw [nodesOf_map_node] at laid
    exact ⟨laid, same ▸ laid⟩
  | encloses => exact ⟨inner, .made h clear inner⟩
  | alone one =>
    rw [one, innerOf_cons, innerOf_nil, List.append_nil] at inner
    rw [one, wholeOf, List.flatMap_singleton] at whole
    exact ⟨inner, whole⟩

include each

/-- A name that is read twice begins twice at its place. -/
lemma laidOut_of_doubled (doubled : Doubled t.rule (extent file source t) (t.children.map value) p) :
    LaidOut file source t.start t.stop p := by
  obtain ⟨f, key, n, rfl, -, alone, children, same⟩ := doubled
  have inner := laid_innerOf h parts
  rw [alone] at inner
  refine .node (.made h clear ?_)
  rw [children]
  rcases same with rfl | ⟨rule, rfl⟩
  · exact inner.double (fun k hk => hk) rfl
  · exact inner.double (preorder_of_shorthandKey n) (location_of_patternProperty h rule each alone)

end Step

/-- The nodes in what a match stands for begin in its stretch of the source, in their order, if no blank
and no comment begins where a match in it does. -/
theorem laidOut_of_isRead (h : t.IsRead language source) : ∀ {p}, Clear source t →
    assemble file source t = .ok p → LaidOut file source t.start t.stop p := by
  refine Tree.IsRead.induction (P := fun t => ∀ {p}, Clear source t → assemble file source t = .ok p →
    LaidOut file source t.start t.stop p) (fun t h ih p clear made => ?_) t h
  obtain ⟨value, each, sound, found⟩ := exists_parts h made
  have parts : ∀ u ∈ t.children, LaidOut file source u.start u.stop (value u) :=
    fun u hu => ih u hu (clear.child hu) (each u hu)
  cases leaf : isLeaf t.rule with
  | true =>
    rcases bare_of_leaf leaf found with ⟨inner, whole, -⟩ | ⟨f, rfl, bare, -⟩
    · rw [LaidOut, inner, whole]
      exact ⟨.nil, .nil⟩
    · exact .node (.made h clear (bare ▸ .nil))
  | false =>
    cases declares : isDeclaration t.rule with
    | true => exact laidOut_of_covers h clear parts (covers_of_phrase? declares found)
    | false =>
      cases shorthand : isShorthand t.rule with
      | true =>
        exact (doubled_of_phrase? shorthand found).elim (laidOut_of_composed h clear parts)
          (laidOut_of_doubled h clear each parts)
      | false =>
        have composed := composed_of_phrase? sound declares shorthand leaf found
        exact laidOut_of_composed h clear parts composed

end Trees

end Reading

namespace Script
open Peg Reading

/-- The statements of a script begin with code, in their order. -/
lemma laid_of_parse {s : Script} {n : Node} (h : s.parse = .ok n) :
    ∃ (t : Peg.Tree Rule) (ns : List Node),
      n = (extent s.name s.content.toList t).node (.program ns) ∧
        Laid s.name s.content.toList t.start t.stop ns := by
  obtain ⟨t, -, matched, made⟩ := match_of_parse h
  obtain ⟨rule, -, read⟩ := isRead_of_match matched
  obtain ⟨value, each, found⟩ := phrase?_of_assemble made
  rw [rule] at found
  cases node_of_program found
  have parts : ∀ u ∈ t.children, LaidOut s.name s.content.toList u.start u.stop (value u) :=
    fun u hu => laidOut_of_isRead (read.children u hu) (clear_of_match matched u hu) (each u hu)
  exact ⟨t, _, rfl, laid_innerOf read parts⟩

/-- It is known where every node of a script stands. -/
lemma placed_of_parse {s : Script} {n : Node} (h : s.parse = .ok n) : ∀ k ∈ n.preorder, k.Placed := by
  obtain ⟨t, -, matched, made⟩ := match_of_parse h
  obtain ⟨-, -, read⟩ := isRead_of_match matched
  have drawn : IsDrawnIn (fun _ => True) s.name s.content.toList (.node n) :=
    isDrawnIn_of_isRead read (fun _ _ => trivial) made
  exact fun k hk => (drawn.1 _ (List.mem_singleton_self _) k hk).1

/-- Every node of a script has its children in order. -/
lemma ordered_of_parse {s : Script} {n : Node} (h : s.parse = .ok n) {k : Node} (hk : k ∈ n.preorder) :
    k.Ordered := by
  obtain ⟨t, ns, rfl, laid⟩ := laid_of_parse h
  rw [Node.preorder_eq] at hk
  rcases List.mem_cons.1 hk with rfl | hk
  · exact ⟨laid.lo_le, laid.ordered⟩
  · obtain ⟨c, hc, hk⟩ := List.mem_flatMap.1 hk
    exact (laid.tidy c hc k hk).2

/-- Each node of the syntax tree of a script but the program begins at a place where no blank and no
comment begins, which is the start of its span. The children of a node do not begin before it, and they
are listed in the order in which they begin. -/
theorem starts_of_parse {s : Script} {n : Node} (h : s.parse = .ok n) {k : Node} (hk : k ∈ n.preorder) :
    ∃ r, k.span? = some r ∧
      ((∀ body, k.form ≠ .program body) → k.location? = some r.start ∧
        ∃ before after, s.content.toList = before ++ after ∧ r.start = Location.after s.name before ∧
          Reads language ⟨.atomic, .none⟩ (.once language.blank) ⟨before.length, after⟩ none) ∧
      (∀ c ∈ k.children, ∃ q, c.span? = some q ∧ r.start.offset ≤ q.start.offset) ∧
      k.children.Pairwise fun c d =>
        ∃ p ∈ c.span?, ∃ q ∈ d.span?, p.start.offset ≤ q.start.offset := by
  have placed := placed_of_parse h
  have inside : ∀ c ∈ k.children, c.span? = some c.range := fun c hc =>
    (placed c (Node.mem_preorder_of_child hk hc)).span
  have ordered := ordered_of_parse h hk
  obtain ⟨t, ns, rfl, laid⟩ := laid_of_parse h
  refine ⟨k.range, (placed k hk).span, fun other => ⟨(placed k hk).location, ?_⟩,
    fun c hc => ⟨_, inside c hc, ordered.behind c hc⟩, ?_⟩
  swap
  · exact ordered.ordered.imp_of_mem fun hc hd le => ⟨_, inside _ hc, _, inside _ hd, le⟩
  rw [Node.preorder_eq] at hk
  rcases List.mem_cons.1 hk with rfl | hk
  · exact absurd rfl (other ns)
  · obtain ⟨c, hc, hk⟩ := List.mem_flatMap.1 hk
    obtain ⟨⟨before, after, text, place, code⟩, -⟩ := laid.tidy c hc k hk
    exact ⟨before, after, text, place, code⟩

/-- Whether a program is one operation on two operands, which begins at an offset. -/
def isOperationAt (offset : Nat) : Node → Bool
  | .mk (.program [.mk (.expressionStatement (.mk (.binaryExpression ..) site)) _]) _ =>
    site.location.map (·.offset) = some offset
  | _ => false

/-- An operation begins with its first operand, not with the parenthesis before this. -/
theorem starts_of_parse_operand : ∃ n, (ofSource "a.js" " /**/(a)+b").parse = .ok n ∧
    ∃ k ∈ n.preorder, (∀ body, k.form ≠ .program body) ∧ k.location?.map (·.offset) = some 6 ∧
      ∃ r, k.span? = some r ∧ (k.location? = some r.start ∧
        ∃ before after, " /**/(a)+b".toList = before ++ after ∧
          r.start = Location.after "a.js" before ∧
          Reads language ⟨.atomic, .none⟩ (.once language.blank) ⟨before.length, after⟩ none) ∧
      (∀ c ∈ k.children, ∃ q, c.span? = some q ∧ r.start.offset ≤ q.start.offset) ∧
      k.children.Pairwise fun c d =>
        ∃ p ∈ c.span?, ∃ q ∈ d.span?, p.start.offset ≤ q.start.offset := by
  have found : (ofSource "a.js" " /**/(a)+b").parse.toOption.any (isOperationAt 6) = true := by
    decide +kernel
  obtain ⟨n, parsed, found⟩ := (Option.any_eq_true _ _).1 found
  unfold isOperationAt at found
  split at found
  · rename_i operator left right site statement program
    have parsed := parse_of_toOption parsed
    let k : Node := .mk (.binaryExpression operator left right) site
    have hk : k ∈ (Node.mk (.program [.mk (.expressionStatement k) statement]) program).preorder :=
      Node.mem_preorder_of_mem_children (List.mem_singleton_self _)
        (Node.mem_preorder_of_mem_children (List.mem_singleton_self _) (Node.self_mem_preorder k))
    obtain ⟨r, span, start, rest⟩ := starts_of_parse parsed hk
    exact ⟨_, parsed, k, hk, nofun, of_decide_eq_true found, r, span, start nofun, rest⟩
  · cases found

end Script

end ScriptTyping
