import ScriptTyping.Proofs.Reading.Objects
import ScriptTyping.Proofs.Scan.Depth

/-!
# Operands and connectives without parentheses

A sequence is an `Atom` and any number of `Link`s, each a connective and the next operand with blanks around
the connective. A script that is a sequence is read as the operation in which every connective binds as its
level says, and those of one level bind from left to right (`Script.parse_sequence`). The level of `**` is
that of the other products.
-/

namespace ScriptTyping.Reading
open Peg Grammar Peg.Expr

/-- A name, or a number with the magnitude that it denotes. -/
inductive Atom where
  | name (n : Name)
  | number (text : List Char) (value : Magnitude) (spelled : Spells Grammar.number text)
      (valued : Literal.number? text = some value)

namespace Atom

/-- How an atom is written. -/
def text : Atom → List Char
  | name n => n.text
  | number text .. => text

/-- What an atom is read as. -/
def form : Atom → Form Node
  | name n => .identifier (String.ofList n.text)
  | number text value .. => .literal (.number value) (String.ofList text)

/-- The node of an atom that stands nowhere. -/
def node (a : Atom) : Node :=
  .mk a.form default

variable {c d : Cursor} {file : String} {source : List Char} {a : Atom}

lemma exists_cons (a : Atom) : ∃ x xs, a.text = x :: xs ∧ goesOn x = true := by
  cases a with
  | name n =>
    obtain ⟨x, xs, text, start, -⟩ := n.exists_cons
    exact ⟨x, xs, text, goesOn_of_isIdentPart (isIdentPart_of_isIdentStart start)⟩
  | number text value spelled valued =>
    have starts : ∀ x ∈ numberStarts, goesOn x = true := List.all_iff_forall_prop.mp (by decide)
    obtain ⟨x, xs, text, start⟩ := exists_cons_of_spells_number spelled
    exact ⟨x, xs, text, starts x start⟩

/-- The characters that no atom has. -/
def isForeign (x : Char) : Bool :=
  !isIdentPart x && !inNumber x

lemma not_mem_text {x : Char} (foreign : isForeign x = true) : x ∉ a.text := by
  simp only [isForeign, Bool.and_eq_true, Bool.not_eq_true'] at foreign
  cases a with
  | name n =>
    intro mem
    rw [n.isIdentPart_of_mem mem] at foreign
    cases foreign.1
  | number text value spelled valued => exact not_mem_of_spells_number spelled foreign.2

lemma denotes (plain : Plain c.rest) (leads : c.Leads a.text d) (stops : d.Stops goesOn) :
    ∃ site, Denotes file source (.once object) c d [.node (.mk a.form site)] := by
  cases a with
  | name n => exact denotes_name plain leads (stops.mono fun _ => goesOn_of_isIdentPart)
  | number text value spelled valued => exact denotes_number spelled valued plain leads stops

lemma unaryOperator_fails (plain : Plain c.rest) (leads : c.Leads a.text d) (stops : d.Stops goesOn) :
    Fails (.call .unaryOperator) c := by
  cases a with
  | name n =>
    exact fails_at_name plain leads (stops.mono fun _ => goesOn_of_isIdentPart) _ (by simp [beforeObject])
  | number text value spelled valued =>
    exact fails_at_number spelled plain leads stops _ (by simp [beforeObject])

end Atom

/-- A connective, with blanks before and after it, and the operand on its right. What stands around a word
does not go on with it. -/
structure Link where
  before : List Char
  connective : Connective
  after : List Char
  operand : Atom
  beforeBlank : before.all isBlank = true
  afterBlank : after.all isBlank = true
  apart : isWord connective = true →
    before ≠ [] ∧ ∀ y ∈ (after ++ operand.text).head?, isIdentPart y = false

namespace Link

/-- How a link is written. -/
def text (l : Link) : List Char :=
  l.before ++ (l.connective.symbol.toList ++ (l.after ++ l.operand.text))

/-- What a link adds to the operation. -/
def step (l : Link) : Connective × Atom :=
  (l.connective, l.operand)

/-- What follows the connective of a link does not go on with it. -/
lemma follows (l : Link) (z : List Char) : Follows l.connective (l.after ++ (l.operand.text ++ z)) := by
  obtain ⟨x, xs, text, start⟩ := l.operand.exists_cons
  have ends : ∀ y ∈ operatorChars, isBlank y = false ∧ goesOn y = false :=
    List.all_iff_forall_prop.mp (by decide)
  cases after : l.after with
  | nil =>
    refine ⟨x, xs ++ z, by simp [text], ?_⟩
    split
    · rename_i word
      have part := (l.apart word).2 x (by simp [after, text])
      refine mem_wordEnds (.inr ?_)
      simpa [goesOn, part] using start
    · intro mem
      rw [(ends x mem).2] at start
      cases start
  | cons y ys =>
    have blank : isBlank y = true := List.all_eq_true.1 l.afterBlank y (by simp [after])
    refine ⟨y, ys ++ (l.operand.text ++ z), rfl, ?_⟩
    split
    · exact mem_wordEnds (.inl blank)
    · intro mem
      rw [(ends y mem).1] at blank
      cases blank

/-- A plain text stays plain with a link before it. -/
lemma plain (l : Link) {z : List Char} (h : Plain z) : Plain (l.text ++ z) := by
  have free {cs : List Char} (blank : cs.all isBlank = true) {x : Char} (solid : isBlank x = false) :
      x ∉ cs := fun mem => by
    rw [List.all_eq_true.1 blank x mem] at solid
    cases solid
  have operand : Plain (l.operand.text ++ z) :=
    h.append (Atom.not_mem_text (by decide)) (.inl (Atom.not_mem_text (by decide)))
  have after : Plain (l.after ++ (l.operand.text ++ z)) :=
    operand.append (free l.afterBlank (by decide)) (.inl (free l.afterBlank (by decide)))
  have whole := ((l.follows z).plain after).append (free l.beforeBlank (by decide))
    (.inl (free l.beforeBlank (by decide)))
  simpa [text] using whole

/-- No brackets stand in a link. -/
lemma not_mem_text (l : Link) {x : Char} (hx : x ∈ l.text) : x ∉ Scan.openers := by
  have blanks : ∀ y ∈ Scan.openers, isBlank y = false := List.all_iff_forall_prop.mp (by decide)
  have foreign : ∀ y ∈ Scan.openers, Atom.isForeign y = true :=
    List.all_iff_forall_prop.mp (by decide)
  have symbols : ∀ op ∈ Connective.all, ∀ y ∈ op.symbol.toList, y ∉ Scan.openers := by
    simp only [← List.all_iff_forall_prop]
    decide
  intro opens
  simp only [text, List.mem_append] at hx
  rcases hx with before | symbol | after | operand
  · have := List.all_eq_true.1 l.beforeBlank x before
    rw [blanks x opens] at this
    cases this
  · exact symbols _ l.connective.mem_all x symbol opens
  · have := List.all_eq_true.1 l.afterBlank x after
    rw [blanks x opens] at this
    cases this
  · exact Atom.not_mem_text (foreign x opens) operand

/-- A link with single blanks. -/
def spaced (op : Connective) (a : Atom) : Link where
  before := [' ']
  connective := op
  after := [' ']
  operand := a
  beforeBlank := by decide
  afterBlank := by decide
  apart := fun _ => by
    refine ⟨by simp, fun y hy => ?_⟩
    obtain rfl : ' ' = y := by simpa using hy
    decide

end Link

section Places

variable {c c₁ c₂ d : Cursor}

lemma isSolid_of_goesOn {x : Char} (h : goesOn x = true) : isSolid x = true := by
  simp only [goesOn, Bool.or_eq_true, beq_iff_eq] at h
  rcases h with h | rfl
  · exact isSolid_of_isIdentPart h
  · decide

/-- An atom ends at `c`, and what is next after blanks, at `d`, is no part of its object. -/
structure Ended (c d : Cursor) : Prop where
  stops : c.Stops goesOn
  gap : GapTo c d
  noAccess : Fails (.call .postfixOperation) d
  noUpdate : Fails (.call .updateSuffix) d
  noColon : d.Stops (· == ':')

lemma closing_at_end (rest : c.rest = [';'] ∨ c.rest = []) : Closing c := by
  rcases rest with rest | rest
  · exact .of_cons rest (by decide)
  · exact .of_nil rest

lemma stops_at_end {p : Char → Bool} (rest : c.rest = [';'] ∨ c.rest = []) (free : p ';' = false) :
    c.Stops p := by
  rcases rest with rest | rest
  · exact Cursor.stops_of_cons rest free
  · exact Cursor.stops_of_nil rest

lemma ended_at_end (rest : c.rest = [';'] ∨ c.rest = []) : Ended c c := by
  have closing := closing_at_end rest
  exact ⟨stops_at_end rest (by decide), Closed.of_shut closing.shut,
    closing.ends _ (by simp [continuations]), closing.ends _ (by simp [continuations]),
    stops_at_end rest (by decide)⟩

lemma Link.ended (l : Link) {z : List Char} (blanks : c.Leads l.before c₁)
    (symbol : c₁.Leads l.connective.symbol.toList c₂)
    (rest : c₂.rest = l.after ++ (l.operand.text ++ z)) : Ended c c₁ := by
  have follows : Follows l.connective c₂.rest := rest ▸ l.follows z
  have shut := shut_at_connective symbol follows
  have fails := fails_at_connective symbol follows
  have told : ∀ op ∈ Connective.all, op.symbol.toList ≠ [] ∧ (isWord op = false →
      ∀ x ∈ op.symbol.toList.head?.toList, goesOn x = false) := by
    simp only [← List.all_iff_forall_prop]
    decide
  obtain ⟨ne, told⟩ := told _ l.connective.mem_all
  obtain ⟨x, xs, eq⟩ := List.exists_cons_of_ne_nil ne
  have tight (symbolic : isWord l.connective = false) : goesOn x = false :=
    told symbolic x (by simp [eq])
  have next : c₁.rest = x :: (xs ++ c₂.rest) := by rw [symbol.1, eq, List.cons_append]
  refine ⟨?_, gap_of_blanks rfl (List.all_eq_true.1 l.beforeBlank) blanks shut,
    fails _ (by simp [notConnective]), fails _ (by simp [notConnective]),
    noColon_at_connective symbol⟩
  cases before : l.before with
  | nil =>
    rw [before] at blanks
    obtain rfl := blanks.unique (.refl c)
    refine Cursor.stops_of_cons next (tight ?_)
    cases word : isWord l.connective with
    | false => rfl
    | true => exact absurd before (l.apart word).1
  | cons y ys =>
    have blank : isBlank y = true := List.all_eq_true.1 l.beforeBlank y (by simp [before])
    refine Cursor.stops_of_cons (x := y) (by rw [blanks.1, before, List.cons_append]) ?_
    cases on : goesOn y with
    | false => rfl
    | true =>
      have := isSolid_of_goesOn on
      simp [isSolid, blank] at this

/-- An atom with the place where it stands. -/
def placed (p : Atom × Site) : Node :=
  .mk p.1.form p.2

variable {file : String} {source : List Char}

/-- An atom and the links after it are read as an operand and its tail. -/
lemma exists_tail (a : Atom) (links : List Link) (plain : Plain c.rest)
    (leads : c.Leads (a.text ++ links.flatMap Link.text) d) (last : Ended d d) :
    ∃ c₁ c₂ site as, c.Leads a.text c₁ ∧ Ended c₁ c₂ ∧
      Operand file source (placed (a, site)) c c₂ ∧ Tail file source placed as c₂ d ∧
      as.map (fun p => (p.1, p.2.1)) = links.map Link.step := by
  induction links generalizing a c with
  | nil =>
    rw [List.flatMap_nil, List.append_nil] at leads
    obtain ⟨site, object⟩ : ∃ site, Denotes file source (.once object) c d [.node (.mk a.form site)] :=
      a.denotes plain leads last.stops
    have sign := a.unaryOperator_fails plain leads last.stops
    exact ⟨d, d, site, [], leads, last, ⟨.alone sign object last.gap last.noAccess last.noUpdate,
      last.gap⟩, .nil, rfl⟩
  | cons l links ih =>
    have written : (l :: links).flatMap Link.text = l.before ++ (l.connective.symbol.toList ++
        (l.after ++ (l.operand.text ++ links.flatMap Link.text))) := by simp [Link.text]
    rw [written] at leads
    obtain ⟨c₁, own, leads⟩ := leads.split
    obtain ⟨c₂, blanks, leads⟩ := leads.split
    obtain ⟨c₃, symbol, leads⟩ := leads.split
    obtain ⟨c₄, blanks', others⟩ := leads.split
    have rest₃ : c₃.rest = l.after ++ (l.operand.text ++ (links.flatMap Link.text ++ d.rest)) := by
      rw [leads.1]
      simp
    have ended := l.ended blanks symbol rest₃
    have follows : Follows l.connective c₃.rest := rest₃ ▸ l.follows _
    obtain ⟨x, xs, text, start⟩ := l.operand.exists_cons
    have gap : GapTo c₃ c₄ := gap_of_blanks rfl (List.all_eq_true.1 l.afterBlank) blanks'
      (shut_of_solid (by rw [others.1, text, List.append_assoc, List.cons_append]) (isSolid_of_goesOn start))
    have plain₄ := (((plain.leads own).leads blanks).leads symbol).leads blanks'
    obtain ⟨d₁, d₂, site', as, -, -, operand, tail, steps⟩ := ih l.operand plain₄ others
    obtain ⟨site, object⟩ : ∃ site, Denotes file source (.once object) c c₁ [.node (.mk a.form site)] :=
      a.denotes plain own ended.stops
    have sign := a.unaryOperator_fails plain own ended.stops
    refine ⟨c₁, c₂, site, (l.connective, l.operand, site') :: as, own, ended, ⟨?_, ended.gap.closed⟩,
      .cons (.of_leads symbol follows gap) operand tail, by simp [Link.step, steps]⟩
    exact .alone sign object ended.gap ended.noAccess ended.noUpdate

/-- No statement but an expression begins with an atom. -/
lemma statements_fail (a : Atom) (plain : Plain c.rest) (leads : c.Leads a.text c₁)
    (ended : Ended c₁ c₂) : ∀ e ∈ otherStatements, Fails e c := by
  cases a with
  | name n =>
    have stops := ended.stops.mono fun _ => goesOn_of_isIdentPart
    refine List.forall_mem_append.2 ⟨fun e he => fails_at_name plain leads stops e (by simp [he]), ?_⟩
    exact List.forall_mem_singleton.2 (labeledStatement_fails leads stops ended.gap ended.noColon)
  | number text value spelled valued =>
    exact fun e he => fails_at_number spelled plain leads ended.stops e (by simp [he])

end Places

/-- An atom and the links after it. -/
structure Sequence where
  first : Atom
  links : List Link

namespace Sequence

/-- How a sequence is written. -/
def text (q : Sequence) : List Char :=
  q.first.text ++ q.links.flatMap Link.text

/-- An operation joins the atoms of a sequence by its connectives, as the levels of these say. -/
structure IsGroupedAs (q : Sequence) (t : Operation Atom) : Prop where
  first : t.first = q.first
  rest : t.rest = q.links.map Link.step
  grouped : t.Grouped

lemma IsGroupedAs.unique {q : Sequence} {t t' : Operation Atom} (h : q.IsGroupedAs t)
    (h' : q.IsGroupedAs t') : t = t' :=
  h.grouped.unique h'.grouped (h.first.trans h'.first.symm) (h.rest.trans h'.rest.symm)

lemma plain (q : Sequence) {z : List Char} (h : Plain z) : Plain (q.text ++ z) := by
  obtain ⟨first, links⟩ := q
  have others : Plain (links.flatMap Link.text ++ z) := by
    induction links with
    | nil => exact h
    | cons l links ih =>
      rw [List.flatMap_cons, List.append_assoc]
      exact l.plain ih
  rw [text, List.append_assoc]
  exact others.append (Atom.not_mem_text (by decide)) (.inl (Atom.not_mem_text (by decide)))

/-- No brackets stand in a sequence. -/
lemma not_mem_text (q : Sequence) {x : Char} (hx : x ∈ q.text) : x ∉ Scan.openers := by
  have foreign : ∀ y ∈ Scan.openers, Atom.isForeign y = true :=
    List.all_iff_forall_prop.mp (by decide)
  rcases List.mem_append.1 hx with first | others
  · exact fun opens => Atom.not_mem_text (foreign x opens) first
  · obtain ⟨l, -, hl⟩ := List.mem_flatMap.1 others
    exact l.not_mem_text hl

end Sequence

end ScriptTyping.Reading

namespace ScriptTyping.Script
open Peg Grammar Reading Peg.Expr

variable {s : Script} {q : Sequence} {tail : List Char}

/-- A script that is a sequence has the tree of a grouped operation. -/
lemma exists_parse_of_sequence (content : s.content.toList = q.text ++ tail)
    (atEnd : tail = [';'] ∨ tail = []) :
    ∃ (t : Operation (Atom × Site)) (site site' : Site), q.IsGroupedAs (t.map Prod.fst) ∧
      s.parse = .ok (.mk (.program [.mk (.expressionStatement (t.map placed).node) site]) site') := by
  have semicolon : Plain tail ∧ ∀ x ∈ tail, x ∉ Scan.openers := by
    rcases atEnd with rfl | rfl
    · exact ⟨.cons (by decide) (by decide) .nil, List.all_iff_forall_prop.mp (by decide)⟩
    · exact ⟨.nil, by simp⟩
  have shallow : s.checkNesting = .ok () := by
    rw [checkNesting_eq_ok, content]
    refine Scan.excess?_eq_none fun x hx => ?_
    exact (List.mem_append.1 hx).elim q.not_mem_text (semicolon.2 x)
  have plain : Plain s.content.toList := content ▸ q.plain semicolon.1
  have leads : Cursor.Leads ⟨0, s.content.toList⟩ q.text ⟨q.text.length, tail⟩ :=
    ⟨content, (Nat.zero_add _).symm⟩
  have closing := closing_at_end (c := ⟨q.text.length, tail⟩) atEnd
  obtain ⟨c₁, c₂, site, as, own, ended, operand, more, steps⟩ : ∃ c₁ c₂ site as,
      Cursor.Leads ⟨0, s.content.toList⟩ q.first.text c₁ ∧ Ended c₁ c₂ ∧
      Operand s.name s.content.toList (placed (q.first, site)) ⟨0, s.content.toList⟩ c₂ ∧
      Tail s.name s.content.toList placed as c₂ ⟨q.text.length, tail⟩ ∧
      as.map (fun p => (p.1, p.2.1)) = q.links.map Link.step :=
    exists_tail q.first q.links plain leads (ended_at_end atEnd)
  -- The chains of all levels are read from the operand at the front; nothing follows that could go on.
  obtain ⟨t, first, rest, grouped, reads⟩ := more.grouped operand (closing.endsLevel 0)
  have closed := Closed.of_shut closing.shut
  have value := (reads.unconditional closed (closing.ends _ (by simp [continuations]))).unassigned
    plain.arrowFunction_fails closed (closing.ends _ (by simp [continuations]))
  have whole := value.uncommaed closed (text_single_fails (stops_at_end atEnd (by decide)))
  have start : Closed ⟨0, s.content.toList⟩ := by
    obtain ⟨x, xs, text, start⟩ := q.first.exists_cons
    exact .of_shut (shut_of_solid (by rw [own.1, text, List.cons_append]) (isSolid_of_goesOn start))
  obtain ⟨site, site', parsed⟩ := parse_of_expression shallow start
    (statements_fail q.first plain own ended) whole closed atEnd
  refine ⟨t, site, site', ⟨?_, ?_, grouped.map _⟩, parsed⟩
  · rw [Operation.first_map, first]
  · rw [Operation.rest_map, rest, steps]

/-- A script that is a sequence, perhaps with a semicolon after it, has the tree of the one operation that
joins its atoms as the levels of the connectives say: each level binds tighter than those before it, and the
connectives of one level, `**` among the products, join from left to right. -/
theorem parse_sequence (q : Sequence) (semicolon : Bool) (name path : String) :
    ∃ t, q.IsGroupedAs t ∧ (∀ t', q.IsGroupedAs t' → t' = t) ∧
      ∃ (n : Node) (site site' : Site),
        Script.parse { name, path, content := String.ofList (q.text ++ if semicolon then [';'] else []) } =
          .ok (.mk (.program [.mk (.expressionStatement n) site]) site') ∧
        n.Alike (t.map Atom.node).node := by
  have atEnd : (if semicolon then [';'] else []) = [';'] ∨ (if semicolon then [';'] else []) = [] := by
    cases semicolon with
    | true => exact .inl rfl
    | false => exact .inr rfl
  obtain ⟨t, site, site', groups, parsed⟩ := exists_parse_of_sequence (q := q)
    (s := { name, path, content := String.ofList (q.text ++ if semicolon then [';'] else []) })
    (by simp) atEnd
  refine ⟨_, groups, fun t' groups' => groups'.unique groups, _, site, site', parsed, ?_⟩
  rw [Operation.map_map]
  exact t.alike_node fun p => .of_form _ _ _

/-- The node of a name that stands nowhere. -/
def nameNode (name : String) : Node :=
  .mk (.identifier name) default

/-- The node of a power. -/
def powerNode (base exponent : Node) : Node :=
  Connective.join (.binary .power) base exponent

/-- Of two powers the left one is joined first, and not the right one. -/
theorem power_groups_left :
    ∃ (n : Node) (site site' : Site),
      (ofSource "a.js" "a ** b ** c").parse =
        .ok (.mk (.program [.mk (.expressionStatement n) site]) site') ∧
      n.Alike (powerNode (powerNode (nameNode "a") (nameNode "b")) (nameNode "c")) ∧
      ¬ n.Alike (powerNode (nameNode "a") (powerNode (nameNode "b") (nameNode "c"))) := by
  have letter (x : Char) (start : Grammar.isWord [x] = true)
      (free : [x] ∉ reservedWords.map String.toList) : ∃ n : Name, n.text = [x] :=
    ⟨⟨⟨[x], start⟩, free⟩, rfl⟩
  obtain ⟨a, ha⟩ := letter 'a' (by decide) (by decide)
  obtain ⟨b, hb⟩ := letter 'b' (by decide) (by decide)
  obtain ⟨c, hc⟩ := letter 'c' (by decide) (by decide)
  let q : Sequence := ⟨.name a, [.spaced (.binary .power) (.name b), .spaced (.binary .power) (.name c)]⟩
  have content : (ofSource "a.js" "a ** b ** c").content.toList = q.text ++ [] := by
    simp [q, Sequence.text, Link.text, Link.spaced, Atom.text, ha, hb, hc]
    rfl
  obtain ⟨t, site, site', groups, parsed⟩ := exists_parse_of_sequence content (.inr rfl)
  have left : q.IsGroupedAs (.join (.binary .power) (.join (.binary .power) (.operand (.name a))
      (.operand (.name b))) (.operand (.name c))) :=
    ⟨rfl, rfl, ⟨trivial, trivial, by simp [Operation.root?], by simp [Operation.root?]⟩, trivial,
      by simp [Operation.root?], by simp [Operation.root?]⟩
  have alike := t.alike_node (f := placed) (g := fun p => p.1.node) fun p => .of_form _ _ _
  rw [← Operation.map_map Atom.node Prod.fst, groups.unique left] at alike
  simp only [Operation.map, Operation.node, Atom.node, Atom.form, ha, hb, hc] at alike
  refine ⟨_, site, site', parsed, alike, fun right => ?_⟩
  -- The first operand is a power, and no name.
  have children := alike.children
  have children' := right.children
  generalize (t.map placed).node.children = ns at children children'
  cases children with
  | cons first _ =>
    cases children' with
    | cons first' _ => cases first.shape_eq.symm.trans first'.shape_eq

end ScriptTyping.Script
