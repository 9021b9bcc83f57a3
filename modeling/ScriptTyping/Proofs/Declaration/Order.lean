import Mathlib.Data.List.Induction
import ScriptTyping.Proofs.Declaration.Kept
import ScriptTyping.Proofs.Reading.Assembly

/-!
# The order of declarations

A walk through a syntax tree meets declarations in the order in which they begin in the source. Since
a name alone may be read as two nodes, it may meet one of them again; `Ascending` says that where an
element of a list stands first, it comes after all those before it. `sited_of_isRead` follows the
declarations of a parse tree from its leaves up: those of its parts lie in stretches of the source
one after the other, and a declaration begins before all that are inside it.
-/

namespace ScriptTyping

/-- Where an element of a list stands first, it comes after those before it. -/
def Ascending {α : Type} (r : α → α → Prop) (l : List α) : Prop :=
  ∀ front y back, l = front ++ y :: back → y ∉ front → ∀ x ∈ front, r x y

namespace Ascending

variable {α β : Type} {r : α → α → Prop} {s : β → β → Prop} {l l₁ l₂ : List α}

lemma nil : Ascending r [] := by
  intro front y back e
  simp at e

lemma of_pairwise (h : l.Pairwise r) : Ascending r l := by
  rintro front y back rfl - x hx
  exact (List.pairwise_append.1 h).2.2 x hx y List.mem_cons_self

/-- Two lists of which the second comes after the first, but for what stands in both. -/
lemma append (h₁ : Ascending r l₁) (h₂ : Ascending r l₂)
    (apart : ∀ x ∈ l₁, ∀ y ∈ l₂, y ∈ l₁ ∨ r x y) : Ascending r (l₁ ++ l₂) := by
  intro front y back whole new x hx
  rcases List.append_eq_append_iff.1 whole with ⟨as, rfl, rfl⟩ | ⟨bs, rfl, e⟩
  · rcases List.mem_append.1 hx with hx | hx
    · have both := apart x hx y (List.mem_append_right _ List.mem_cons_self)
      exact both.resolve_left fun hy => new (List.mem_append_left _ hy)
    · exact h₂ as y back rfl (fun hy => new (List.mem_append_right _ hy)) x hx
  · cases bs with
    | nil =>
      rw [List.nil_append] at e
      subst e
      rw [List.append_nil] at h₁ apart
      exact (apart x hx y List.mem_cons_self).resolve_left new
    | cons b bs =>
      cases e
      exact h₁ front y bs rfl new x hx

lemma left (h : Ascending r (l₁ ++ l₂)) : Ascending r l₁ := by
  rintro front y back rfl new
  exact h front y (back ++ l₂) (by simp) new

lemma apart (h : Ascending r (l₁ ++ l₂)) : ∀ x ∈ l₁, ∀ y ∈ l₂, y ∈ l₁ ∨ r x y := by
  intro x hx y hy
  by_cases old : y ∈ l₁
  · exact .inl old
  · obtain ⟨front, back, rfl, new⟩ := List.eq_append_cons_of_mem hy
    refine .inr (h (l₁ ++ front) y back (by simp) ?_ x (List.mem_append_left _ hx))
    rintro hy
    exact (List.mem_append.1 hy).elim old new

/-- The first elements may stand twice. -/
lemma double (h : Ascending r (l₁ ++ l₂)) : Ascending r (l₁ ++ (l₁ ++ l₂)) := by
  refine h.left.append h fun x hx y hy => ?_
  rcases List.mem_append.1 hy with hy | hy
  · exact .inl hy
  · exact h.apart x hx y hy

/-- Lists of what belongs to the elements of a list. -/
lemma flatMap {own : α → List β} (h : Ascending r l) (each : ∀ a ∈ l, Ascending s (own a))
    (apart : ∀ a b, r a b → ∀ x ∈ own a, ∀ y ∈ own b, s x y) : Ascending s (l.flatMap own) := by
  induction l using List.reverseRecOn with
  | nil => exact nil
  | append_singleton l b ih =>
    rw [List.flatMap_append, List.flatMap_singleton]
    refine (ih h.left fun a ha => each a (List.mem_append_left _ ha)).append
      (each b (by simp)) fun x hx y hy => ?_
    obtain ⟨a, ha, hx⟩ := List.mem_flatMap.1 hx
    rcases h.apart a ha b (List.mem_singleton_self b) with hb | hab
    · exact .inl (List.mem_flatMap.2 ⟨b, hb, hy⟩)
    · exact .inr (apart a b hab x hx y hy)

lemma filter {p : α → Bool} (h : Ascending r l) : Ascending r (l.filter p) := by
  intro front y back e new x hx
  obtain ⟨front', back', rfl, rfl, hback⟩ := List.filter_eq_append_iff.1 e
  obtain ⟨between, back', rfl, others, hy, -⟩ := List.filter_eq_cons_iff.1 hback
  refine h (front' ++ between) y back' (by simp) ?_ x (List.mem_append_left _ (List.mem_filter.1 hx).1)
  intro old
  rcases List.mem_append.1 old with old | old
  · exact new (List.mem_filter.2 ⟨old, hy⟩)
  · exact others y old hy

/-- If nothing stands twice, each element comes after all before it. -/
lemma pairwise (h : Ascending r l) (once : l.Nodup) : l.Pairwise r := by
  induction l using List.reverseRecOn with
  | nil => exact .nil
  | append_singleton l y ih =>
    obtain ⟨first, -, apart⟩ := List.nodup_append.1 once
    refine List.pairwise_append.2 ⟨ih h.left first, List.pairwise_singleton _ _, fun x hx z hz => ?_⟩
    rw [List.mem_singleton.1 hz]
    exact h l y [] rfl (fun hy => apart y hy y (List.mem_singleton_self y) rfl) x hx

end Ascending

/-- One node begins before another. -/
def Node.Before (m n : Node) : Prop :=
  ∃ a ∈ m.location?, ∃ b ∈ n.location?, a.offset < b.offset

lemma Node.not_before_self (n : Node) : ¬ n.Before n := by
  rintro ⟨a, ha, b, hb, lt⟩
  cases ha.symm.trans hb
  exact Nat.lt_irrefl _ lt

namespace Reading
open Peg Peg.Expr

variable {file : String} {source : List Char}

/-- The characters between two numbers of characters. -/
def stretch (source : List Char) (i j : Nat) : List Char :=
  (source.take j).drop i

lemma take_append_stretch {i j : Nat} (le : i ≤ j) :
    source.take i ++ stretch source i j = source.take j := by
  have head : (source.take j).take i = source.take i := by rw [List.take_take, Nat.min_eq_left le]
  rw [stretch, ← head, List.take_append_drop]

lemma slice?_offsetAt {i j : Nat} (le : i ≤ j) :
    Text.slice? source (offsetAt source i) (offsetAt source j) = some (stretch source i j) := by
  have whole : source = source.take i ++ (stretch source i j ++ source.drop j) := by
    rw [← List.append_assoc, take_append_stretch le, List.take_append_drop]
  have slice := Text.slice?_append (source.take i) (stretch source i j) (source.drop j)
  rwa [← whole, ← Text.byteLength_append, take_append_stretch le] at slice

/-- What is left of a match without the blanks and comments that the scan finds at its end. -/
lemma stretch_of_isRead {t : Peg.Tree Rule} (h : t.IsRead language source) :
    stretch source t.start (t.start + (Scan.trimTrailing t.text).length) =
      Scan.trimTrailing t.text := by
  obtain ⟨rest, after⟩ : Scan.trimTrailing t.text <+: source.drop t.start :=
    (List.take_prefix _ _).trans (h.text_eq.1 ▸ List.take_prefix _ _)
  rw [stretch, List.drop_take, Nat.add_sub_cancel_left, ← after, List.take_left]

/-- A declaration is what a match in the source stands for. -/
def Declared (file : String) (source : List Char) (n : Node) : Prop :=
  ∃ t : Peg.Tree Rule, t.IsRead language source ∧ isDeclaration t.rule = true ∧
    assemble file source t = .ok (.node n)

/-- Declarations that a walk meets in a stretch of the source. -/
structure Sited (file : String) (source : List Char) (lo hi : Nat) (ns : List Node) : Prop where
  ascending : Ascending Node.Before ns
  lies : ∀ n ∈ ns, ∃ a ∈ n.location?, offsetAt source lo ≤ a.offset ∧ a.offset < offsetAt source hi
  declared : ∀ n ∈ ns, Declared file source n

namespace Sited

variable {lo mid mid' hi : Nat} {n : Node} {ns ms : List Node}

lemma nil : Sited file source lo hi [] :=
  ⟨.nil, by simp, by simp⟩

/-- Declarations of one stretch followed by those of a later one. -/
lemma append (h₁ : Sited file source lo mid ns) (h₂ : Sited file source mid' hi ms) (l₁ : lo ≤ mid)
    (l₂ : mid ≤ mid') (l₃ : mid' ≤ hi) : Sited file source lo hi (ns ++ ms) := by
  have o₁ : offsetAt source lo ≤ offsetAt source mid := offsetAt_le l₁
  have o₂ : offsetAt source mid ≤ offsetAt source mid' := offsetAt_le l₂
  have o₃ : offsetAt source mid' ≤ offsetAt source hi := offsetAt_le l₃
  refine ⟨h₁.ascending.append h₂.ascending fun x hx y hy => .inr ?_,
    List.forall_mem_append.2 ⟨fun n hn => ?_, fun n hn => ?_⟩,
    List.forall_mem_append.2 ⟨h₁.declared, h₂.declared⟩⟩
  · obtain ⟨a, ha, -, lt⟩ := h₁.lies x hx
    obtain ⟨b, hb, le, -⟩ := h₂.lies y hy
    exact ⟨a, ha, b, hb, by omega⟩
  · obtain ⟨a, ha, le, lt⟩ := h₁.lies n hn
    exact ⟨a, ha, le, by omega⟩
  · obtain ⟨a, ha, le, lt⟩ := h₂.lies n hn
    exact ⟨a, ha, by omega, lt⟩

lemma widen (h : Sited file source lo hi ns) {lo' : Nat} (below : lo' ≤ lo) :
    Sited file source lo' hi ns := by
  refine ⟨h.ascending, fun n hn => ?_, h.declared⟩
  obtain ⟨a, ha, le, lt⟩ := h.lies n hn
  exact ⟨a, ha, Nat.le_trans (offsetAt_le below) le, lt⟩

lemma double (h : Sited file source lo hi (ns ++ ms)) : Sited file source lo hi (ns ++ (ns ++ ms)) := by
  have twice {P : Node → Prop} (h : ∀ n ∈ ns ++ ms, P n) : ∀ n ∈ ns ++ (ns ++ ms), P n :=
    List.forall_mem_append.2 ⟨(List.forall_mem_append.1 h).1, h⟩
  exact ⟨h.ascending.double, twice h.lies, twice h.declared⟩

/-- A declaration before those that are inside it. -/
lemma cons (h : Sited file source mid hi ns) {a : Location} (here : n.location? = some a)
    (start : a.offset = offsetAt source lo) (declared : Declared file source n) (lt : lo < mid)
    (le : mid ≤ hi) (inside : hi ≤ source.length) :
    Sited file source lo hi (n :: ns) := by
  have lt_mid : offsetAt source lo < offsetAt source mid := offsetAt_lt lt (Nat.le_trans le inside)
  have le_hi : offsetAt source mid ≤ offsetAt source hi := offsetAt_le le
  refine ⟨?_, List.forall_mem_cons.2 ⟨⟨a, here, by omega, by omega⟩, fun m hm => ?_⟩,
    List.forall_mem_cons.2 ⟨declared, h.declared⟩⟩
  · refine (Ascending.of_pairwise (List.pairwise_singleton _ n)).append h.ascending
      fun x hx y hy => .inr ?_
    obtain ⟨b, hb, le, -⟩ := h.lies y hy
    rw [List.mem_singleton.1 hx]
    exact ⟨a, here, b, hb, by omega⟩
  · obtain ⟨b, hb, le, lt⟩ := h.lies m hm
    exact ⟨b, hb, by omega, lt⟩

/-- The declarations of trees that lie one after the other. -/
lemma of_spread {ts : List (Peg.Tree Rule)} {value : Peg.Tree Rule → Phrase}
    (spread : Tree.Spread lo hi ts) (le : lo ≤ hi)
    (each : ∀ u ∈ ts, Sited file source u.start u.stop (value u).declarations) :
    Sited file source lo hi (declarationsOf (ts.map value)) := by
  induction ts generalizing lo with
  | nil => exact nil
  | cons t ts ih =>
    obtain ⟨after, apart⟩ := List.pairwise_cons.1 spread.apart
    have le_hi : t.stop ≤ hi := spread.le_hi t List.mem_cons_self
    have lo_le : lo ≤ t.start := spread.lo_le t List.mem_cons_self
    have rest : Sited file source t.stop hi (declarationsOf (ts.map value)) :=
      ih ⟨apart, after, fun u hu => spread.le_hi u (List.mem_cons_of_mem _ hu)⟩ le_hi
        fun u hu => each u (List.mem_cons_of_mem _ hu)
    exact ((each t List.mem_cons_self).append rest t.start_le_stop (Nat.le_refl _) le_hi).widen
      lo_le

end Sited

section Parts

/-- Words, and then trees that begin after a place. -/
def Headed (lo hi : Nat) (ts : List (Peg.Tree Rule)) : Prop :=
  ∃ front back mid, ts = front ++ back ∧ (∀ u ∈ front, isLeaf u.rule = true) ∧
    lo < mid ∧ mid ≤ hi ∧ Tree.Spread mid hi back

variable {m : Mode} {c : Cursor} {q : Match Rule}

lemma headed_of_declarators (builds : m.builds = true)
    (h : Reads language m (.once Grammar.declarators) c (some q)) :
    Headed c.index q.place.index q.trees := by
  cases h with
  | @seq _ _ _ _ q₁ q₂ q₃ kind gap rest =>
    obtain ⟨u, trees, rule⟩ := (yields_rule (by simp)).1 (kind.yields builds)
    refine ⟨q₁.trees, q₃.trees, q₁.place.index, rfl, ?_,
      kind.index_lt Grammar.consumes_body rfl, Nat.le_trans gap.index_le rest.index_le,
      rest.spread.widen gap.index_le (Nat.le_refl _)⟩
    simp [trees, rule, isLeaf, Grammar.kind]

lemma headed_of_function (builds : m.builds = true)
    (h : Reads language m (.once Grammar.function) c (some q)) :
    Headed c.index q.place.index q.trees := by
  cases h with
  | @seq _ _ _ _ q₁ q₂ q₃ async gap rest =>
    have marker : ∀ u ∈ q₁.trees, isLeaf u.rule = true := by
      have left := async.yields builds
      simp only [Task.expr, yields_opt] at left
      rcases left with none | left
      · simp [none]
      · obtain ⟨u, trees, rule⟩ := (yields_rule (by simp)).1 left
        simp [trees, rule, isLeaf, Grammar.kind]
    cases rest with
    | @seq _ _ _ _ q₄ q₅ q₆ word gap' tail =>
      have bare : q₄.trees = [] := by
        simpa [Task.expr, Grammar.word, token] using word.yields builds
      have lt : c.index < q₄.place.index := by
        have := async.index_le
        have := gap.index_le
        have := word.index_lt Grammar.consumes_body rfl
        omega
      refine ⟨q₁.trees, q₆.trees, q₄.place.index, by simp [bare], marker, lt,
        Nat.le_trans gap'.index_le tail.index_le,
        tail.spread.widen gap'.index_le (Nat.le_refl _)⟩

/-- A declaration begins with words before all declarations inside it. -/
lemma headed_of_isRead {t : Peg.Tree Rule} (h : t.IsRead language source)
    (declares : isDeclaration t.rule = true) : Headed t.start t.stop t.children := by
  obtain ⟨_, _, m, q, builds, reads, text, below⟩ := h
  obtain ⟨cs, l⟩ := reads.leads
  have stop : t.stop = q.place.index := by rw [Tree.stop, text, l.upTo, ← l.2]
  rw [below, stop]
  cases rule : t.rule
  case functionDeclaration =>
    rw [rule] at builds reads
    exact headed_of_function builds reads
  case forDeclaration =>
    rw [rule] at builds reads
    exact headed_of_declarators builds reads
  case variableDeclaration =>
    rw [rule] at builds reads
    cases reads with
    | seq declarators gap semicolon =>
      obtain ⟨front, back, mid, e, words, lt, le, spread⟩ := headed_of_declarators builds declarators
      have le' := semicolon.index_le
      have le_gap := gap.index_le
      refine ⟨front, back ++ _, mid, by rw [e, List.append_assoc], words, lt,
        Nat.le_trans le (Nat.le_trans le_gap le'), ?_⟩
      exact spread.append semicolon.spread le le_gap le'
  all_goals simp [rule, isDeclaration] at declares

/-- All that a list of parts of one rule leaves is of that rule. -/
lemma forall_of_yields_sepBy {r : Rule} {w : String} {ts : List (Peg.Tree Rule)}
    (loud : r ≠ .templateHolePart)
    (h : Yields language (fun r u => u.rule = r) (sepBy (.call r) w) ts) :
    ∀ u ∈ ts, u.rule = r := by
  rw [sepBy, yields_rule_seq loud] at h
  obtain ⟨first, rest, rfl, rule, pss, rfl, each⟩ := h
  refine List.forall_mem_cons.2 ⟨rule, fun u hu => ?_⟩
  obtain ⟨ps, hps, hu⟩ := List.mem_flatten.1 hu
  have left := each ps hps
  rw [token, yields_text_seq, yields_rule loud] at left
  obtain ⟨v, rfl, rule⟩ := left
  rw [List.mem_singleton.1 hu, rule]

/-- The parts of a declaration of variables: its word, and the declarators. -/
lemma declarators_of_isRead {t : Peg.Tree Rule} (h : t.IsRead language source)
    (rule : t.rule = .variableDeclaration ∨ t.rule = .forDeclaration) :
    ∃ k us, t.children = k :: us ∧ ∀ u ∈ us, u.rule = .variableDeclarator := by
  have parts {ts : List (Peg.Tree Rule)}
      (h : Yields language (fun r u => u.rule = r) Grammar.declarators ts) :
      ∃ k us, ts = k :: us ∧ ∀ u ∈ us, u.rule = .variableDeclarator := by
    rw [Grammar.declarators, yields_rule_seq (by simp)] at h
    obtain ⟨k, us, rfl, _, left⟩ := h
    exact ⟨k, us, rfl, forall_of_yields_sepBy (by simp) left⟩
  rcases rule with rule | rule
  · have left := h.yields (by rw [rule]; exact .inl rfl)
    rw [rule] at left
    obtain ⟨ts, _, e, left, rfl | rfl⟩ := left
    all_goals
      rw [e, List.append_nil]
      exact parts left
  · have left := h.yields (by rw [rule]; exact .inl rfl)
    rw [rule] at left
    exact parts left

/-- The phrase of a declarator is a node that begins where its match does. -/
lemma place_of_declarator {u : Peg.Tree Rule} {ps : List Phrase} {n : Node}
    (rule : u.rule = .variableDeclarator)
    (h : phrase? u.rule (extent file source u) ps = some (.node n)) :
    n.location? = some ((extent file source u).place u.start) := by
  rw [rule] at h
  change variableDeclarator (extent file source u) ps = some (.node n) at h
  unfold variableDeclarator at h
  split at h
  all_goals cases h
  all_goals rfl

/-- Declarators that lie one after the other begin one after the other. -/
lemma pairwise_before (file : String) {lo hi : Nat} {us : List (Peg.Tree Rule)} {value : Peg.Tree Rule → Phrase}
    {ns : List Node} (spread : Tree.Spread lo hi us) (inside : hi ≤ source.length)
    (nodes : us.map value = ns.map .node) (covers : ∀ u ∈ us, u.start < u.stop)
    (place : ∀ u ∈ us, ∀ n, value u = .node n →
      n.location? = some ((extent file source u).place u.start)) :
    ns.Pairwise Node.Before := by
  induction us generalizing ns with
  | nil =>
    obtain rfl : ns = [] := List.map_eq_nil_iff.1 nodes.symm
    exact .nil
  | cons u us ih =>
    obtain ⟨n, ms, rfl, here, rest⟩ := List.map_eq_cons_iff.1 nodes.symm
    obtain ⟨after, apart⟩ := List.pairwise_cons.1 spread.apart
    refine List.pairwise_cons.2 ⟨fun m hm => ?_, ?_⟩
    · obtain ⟨v, hv, e⟩ := List.mem_map.1 (rest ▸ List.mem_map_of_mem hm)
      refine ⟨_, place u List.mem_cons_self n here.symm, _,
        place v (List.mem_cons_of_mem _ hv) m e, ?_⟩
      have := covers u List.mem_cons_self
      have := after v hv
      have := spread.le_hi v (List.mem_cons_of_mem _ hv)
      have := v.start_le_stop
      change offsetAt source u.start < offsetAt source v.start
      exact offsetAt_lt (by omega) (by omega)
    · exact ih ⟨apart, fun v hv => spread.lo_le v (List.mem_cons_of_mem _ hv),
        fun v hv => spread.le_hi v (List.mem_cons_of_mem _ hv)⟩ rest.symm
        (fun v hv => covers v (List.mem_cons_of_mem _ hv))
        fun v hv => place v (List.mem_cons_of_mem _ hv)

/-- The declarators of a declaration are what the matches after its first word stand for. -/
lemma declarators_of_declaration {t : Peg.Tree Rule} (h : t.IsRead language source)
    {value : Peg.Tree Rule → Phrase} (rule : t.rule = .variableDeclaration ∨ t.rule = .forDeclaration)
    {e : Extent} {n : Node} (found : variableDeclaration e (t.children.map value) = some (.node n)) :
    ∃ kind ds us, n.form = .variableDeclaration kind ds ∧ Tree.Spread t.start t.stop us ∧
      (∀ u ∈ us, u ∈ t.children ∧ u.rule = .variableDeclarator) ∧
      us.map value = ds.map .node := by
  obtain ⟨k, us, below, rules⟩ := declarators_of_isRead h rule
  have spread := h.spread
  rw [below] at found spread ⊢
  rw [List.map_cons] at found
  unfold variableDeclaration at found
  split at found
  · rename_i parts
    obtain ⟨-, rfl⟩ := List.cons.inj parts
    obtain ⟨kind, _, found⟩ := Option.bind_eq_some_iff.1 found
    obtain ⟨ds, nodes, found⟩ := Option.bind_eq_some_iff.1 found
    cases found
    refine ⟨kind, ds, us, rfl, ⟨(List.pairwise_cons.1 spread.apart).2,
      fun u hu => spread.lo_le u (List.mem_cons_of_mem _ hu),
      fun u hu => spread.le_hi u (List.mem_cons_of_mem _ hu)⟩,
      fun u hu => ⟨List.mem_cons_of_mem _ hu, rules u hu⟩, map_of_nodes? nodes⟩
  · cases found

/-- The declarators of a declaration stand for matches that lie in its own one after the other. -/
lemma exists_declarators {t : Peg.Tree Rule} {n : Node} {kind : DeclarationKind} {ds : List Node}
    (read : t.IsRead language source) (declares : isDeclaration t.rule = true)
    (made : assemble file source t = .ok (.node n)) (form : n.form = .variableDeclaration kind ds) :
    ∃ (us : List (Peg.Tree Rule)) (value : Peg.Tree Rule → Phrase), Tree.Spread t.start t.stop us ∧
      (∀ u ∈ us, u ∈ t.children ∧ u.rule = .variableDeclarator ∧
        assemble file source u = .ok (value u)) ∧ us.map value = ds.map .node := by
  obtain ⟨value, each, found⟩ := phrase?_of_assemble made
  obtain ⟨rule, found⟩ : (t.rule = .variableDeclaration ∨ t.rule = .forDeclaration) ∧
      variableDeclaration (extent file source t) (t.children.map value) = some (.node n) := by
    cases rule : t.rule
    case variableDeclaration =>
      rw [rule] at found
      exact ⟨.inl rfl, found⟩
    case forDeclaration =>
      rw [rule] at found
      exact ⟨.inr rfl, found⟩
    case functionDeclaration =>
      rw [rule] at found
      obtain ⟨f, _, e⟩ := Option.map_eq_some_iff.1 found
      cases e
      cases form
    all_goals simp [rule, isDeclaration] at declares
  obtain ⟨_, _, us, form', spread, children, nodes⟩ := declarators_of_declaration read rule found
  rw [form] at form'
  cases form'
  exact ⟨us, value, spread, fun u hu => ⟨(children u hu).1, (children u hu).2, each u (children u hu).1⟩,
    nodes⟩

/-- The declarators of a declaration stand for matches in the source. -/
lemma Declared.declarators {n : Node} {kind : DeclarationKind} {ds : List Node}
    (h : Declared file source n) (form : n.form = .variableDeclaration kind ds) :
    ∃ (t : Peg.Tree Rule) (us : List (Peg.Tree Rule)) (value : Peg.Tree Rule → Phrase),
      t.IsRead language source ∧ Tree.Spread t.start t.stop us ∧
      (∀ u ∈ us, u.IsRead language source ∧ u.rule = .variableDeclarator ∧
        assemble file source u = .ok (value u)) ∧ us.map value = ds.map .node := by
  obtain ⟨t, read, declares, made⟩ := h
  obtain ⟨us, value, spread, each, nodes⟩ := exists_declarators read declares made form
  exact ⟨t, us, value, read, spread, fun u hu => ⟨read.children u (each u hu).1, (each u hu).2⟩, nodes⟩

/-- The declarators of a declaration begin one after the other. -/
lemma Declared.pairwise {n : Node} {kind : DeclarationKind} {ds : List Node}
    (h : Declared file source n) (form : n.form = .variableDeclaration kind ds) :
    ds.Pairwise Node.Before := by
  obtain ⟨t, us, value, read, spread, each, nodes⟩ := h.declarators form
  refine pairwise_before file spread read.text_eq.2 nodes (fun u hu => ?_) fun u hu d e => ?_
  · exact Grammar.start_lt_stop (each u hu).1 (by rw [(each u hu).2.1]; rfl)
  · obtain ⟨_, rule, made⟩ := each u hu
    rw [e] at made
    obtain ⟨_, -, found⟩ := phrase?_of_assemble made
    exact place_of_declarator rule found

end Parts

/-- The declarations of a parse tree lie in its stretch of the source, and a walk meets them in the
order in which they begin. -/
theorem sited_of_isRead {t : Peg.Tree Rule} {p : Phrase} (h : t.IsRead language source)
    (made : assemble file source t = .ok p) :
    Sited file source t.start t.stop p.declarations := by
  refine Tree.IsRead.induction
    (P := fun t => ∀ p, assemble file source t = .ok p →
      Sited file source t.start t.stop p.declarations) (fun t h ih p made => ?_) t h p made
  obtain ⟨value, each, sound, found⟩ := exists_parts h made
  have parts : ∀ u ∈ t.children, Sited file source u.start u.stop (value u).declarations :=
    fun u hu => ih u hu _ (each u hu)
  obtain ⟨declares, f, rfl, e⟩ | ⟨before, after, e, twice⟩ | none :=
    accounted_of_phrase? sound found
  · obtain ⟨front, back, mid, below, words, lt, le, spread⟩ := headed_of_isRead h declares
    have quiet : declarationsOf (front.map value) = [] := by
      refine List.flatMap_eq_nil_iff.2 fun q hq => ?_
      obtain ⟨u, hu, rfl⟩ := List.mem_map.1 hq
      have made := each u (below ▸ List.mem_append_left _ hu)
      obtain ⟨_, -, found⟩ := phrase?_of_assemble made
      exact declarations_of_leaf (words u hu) found
    rw [e, below, List.map_append, declarationsOf_append, quiet, List.nil_append]
    have rest : Sited file source mid t.stop (declarationsOf (back.map value)) :=
      .of_spread spread le fun u hu => parts u (below ▸ List.mem_append_right _ hu)
    exact rest.cons rfl rfl ⟨t, h, declares, made⟩ lt le h.text_eq.2
  · have whole := Sited.of_spread h.spread t.start_le_stop parts
    rw [e] at whole
    rw [twice]
    exact whole.double
  · rw [none]
    exact .nil

end Reading

end ScriptTyping
