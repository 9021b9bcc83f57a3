import ScriptTyping.Proofs.Reading.Forms
import ScriptTyping.Proofs.Reading.Printed

/-!
# Reading terms

A term that is printed is read as the node that stands for it (`isRead`), by induction on the term. Each
part of a term stands in parentheses of its own or is a name, so it is an object, and nothing that follows it
goes on with it (`exists_part`); what a term is made of its parts is then read as the term, in one lemma for
each kind of term.

A script of one term, perhaps in parentheses itself, is read if no more brackets are open at once than are
allowed (`Script.parse_term`).
-/

namespace ScriptTyping
open Peg Grammar Reading Peg.Expr

namespace Reading

variable {file : String} {source : List Char} {c c₁ c₂ c₃ d : Cursor} {n m : Node} {t : Term}

section Parts

/-- A node stands as an object from one place to another, and nothing else that may stand where an operand
may begins there. -/
structure IsPart (file : String) (source : List Char) (n : Node) (c d : Cursor) : Prop where
  denotes : Denotes file source (.once object) c d [.node n]
  noSign : Fails (.call .unaryOperator) c
  others : ∀ e ∈ noItems, Fails e c

namespace Operand

/-- An object without an operator is an operand, where its expression ends. -/
lemma last (noSign : Fails (.call .unaryOperator) c) (h : Denotes file source (.once object) c c₁ [.node n])
    (gap : GapTo c₁ d) (ends : AtCloser d) : Operand file source n c d :=
  ⟨.alone noSign h gap (ends.closing.ends _ (by simp [continuations]))
    (ends.closing.ends _ (by simp [continuations])), ends.closed⟩

/-- An operand alone is a value, where its expression ends. -/
lemma value (h : Operand file source n c d) (plain : Plain c.rest) (ends : AtCloser d) :
    Denotes file source (.once (.call .assignmentExpression)) c d [.node n] :=
  .value plain ((h.single (ends.closing.endsLevel 0)).unasked ends) ends

end Operand

namespace IsPart

/-- A part is an operand, where nothing goes on with it. -/
lemma operand (h : IsPart file source n c c₁) (gap : GapTo c₁ d)
    (noAccess : Fails (.call .postfixOperation) d) (noUpdate : Fails (.call .updateSuffix) d) :
    Operand file source n c d :=
  ⟨.alone h.noSign h.denotes gap noAccess noUpdate, gap.closed⟩

/-- A part is an operand, where its expression ends. -/
lemma lastOperand (h : IsPart file source n c c₁) (gap : GapTo c₁ d) (ends : AtCloser d) :
    Operand file source n c d :=
  .last h.noSign h.denotes gap ends

/-- A part is an argument of a call. -/
lemma argument (h : IsPart file source n c d) (plain : Plain c.rest) (ends : AtCloser d) :
    Denotes file source (.once argument) c d [.node n] :=
  .choiceSecond (h.others _ (by simp [noItems])) ((h.lastOperand ends.closed ends).value plain ends)

/-- A part is an item of a list. -/
lemma item (h : IsPart file source n c d) (plain : Plain c.rest) (ends : AtCloser d) :
    Denotes file source (.once (.call .arrayItem)) c d [.slot (some n)] :=
  .call rfl (.optSome (h.argument plain ends)) rfl

end IsPart

/-- A term is read where its expression ends: as a value that is alike to its node. -/
def IsRead (file : String) (source : List Char) (t : Term) : Prop :=
  ∀ c d : Cursor, Plain c.rest → c.Leads t.body d → AtCloser d →
    ∃ n, Denotes file source (.once (.call .assignmentExpression)) c d [.node n] ∧ n.Alike t.node

lemma stops_part_of_closer (h : AtCloser d) : d.Stops isIdentPart :=
  h.stops (List.all_iff_forall_prop.mp (by decide))

/-- No gap begins where a part of a term stands. -/
lemma shut_at_part (leads : c.Leads t.part d) : Shut c := by
  obtain ⟨x, xs, first, solid⟩ := t.exists_cons_part d.rest
  exact shut_of_solid (leads.1.trans first) solid

/-- A blank before a place where something stands is a gap. -/
lemma gap_of_blank (blank : c.Leads [' '] d) (shut : Shut d) : GapTo c d :=
  gap_of_blanks rfl (List.all_iff_forall_prop.mp (by decide)) blank shut

/-- A name is a part. -/
lemma exists_part_of_name {n : Name} (plain : Plain c.rest) (leads : c.Leads n.text d)
    (stops : d.Stops isIdentPart) :
    ∃ m, IsPart file source m c d ∧ m.Alike (Term.name n).node := by
  obtain ⟨site, object⟩ : ∃ site, Denotes file source (.once object) c d
      [.node (.mk (.identifier (String.ofList n.text)) site)] := denotes_name plain leads stops
  have fails := fails_at_name plain leads stops
  refine ⟨_, ⟨object, fails _ (by simp [beforeObject]), fun e he => fails e (by simp [he])⟩, ?_⟩
  rw [Term.node]
  exact .of_form _ _ _

/-- A part of a term is an object. -/
lemma exists_part (reads : IsRead file source t) (plain : Plain c.rest) (leads : c.Leads t.part d)
    (stops : d.Stops isIdentPart) : ∃ n, IsPart file source n c d ∧ n.Alike t.node := by
  rcases t.part_cases with ⟨n, rfl, text⟩ | text
  · rw [text] at leads
    exact exists_part_of_name plain leads stops
  · rw [text] at leads
    obtain ⟨c₁, opening, leads⟩ := leads.split
    obtain ⟨d₁, inner, closing⟩ := leads.split
    have ends : AtCloser d₁ := ⟨')', d.rest, closing.1, by decide⟩
    have fails := fails_at_parenthesis plain opening.1
    obtain ⟨x, xs, first, solid⟩ := t.exists_cons_body d₁.rest
    have gap : Closed c₁ := .of_shut (shut_of_solid (inner.1.trans first) solid)
    obtain ⟨n, value, alike⟩ := reads _ _ (plain.leads opening) inner ends
    have whole := value.uncommaed ends.closed (text_fails closing.1 (by decide))
    refine ⟨n, ⟨denotes_parenthesized plain opening gap whole ends.closed closing,
      fails _ (by simp [beforeObject]), fun e he => fails e (by simp [he])⟩, alike⟩

/-- A part of a term stands where it ends, and something that does not go on with it comes next. -/
lemma exists_part_before {x : Char} {cs : List Char} (reads : IsRead file source t) (plain : Plain c.rest)
    (leads : c.Leads (t.part ++ ([x] ++ cs)) d) (free : isIdentPart x = false) :
    ∃ n c₁, IsPart file source n c c₁ ∧ n.Alike t.node ∧ c₁.Leads ([x] ++ cs) d ∧ Plain c₁.rest := by
  obtain ⟨c₁, part, leads⟩ := leads.split
  obtain ⟨n, is, alike⟩ := exists_part reads plain part
    (Cursor.stops_of_cons (leads.1) free)
  exact ⟨n, c₁, is, alike, leads, plain.leads part⟩

end Parts

section Lists

variable {e : Peg.Expr Rule} {f : Node → Phrase} {ts : List Term}

/-- How the parts after the first one are written. -/
def laterParts (ts : List Term) : List Char :=
  (ts.map Term.part).flatMap fun cs => [','] ++ ([' '] ++ cs)

lemma atCloser_of_laterParts (leads : c.Leads (laterParts ts) d) (ends : AtCloser d) : AtCloser c := by
  cases ts with
  | nil =>
    obtain rfl := leads.unique (.refl c)
    exact ends
  | cons t ts => exact ⟨',', _, leads.1, by decide⟩

section

variable (is : ∀ {n : Node} {c₁ c₂ : Cursor}, IsPart file source n c₁ c₂ → Plain c₁.rest → AtCloser c₂ →
  Denotes file source (.once e) c₁ c₂ [f n])

include is

/-- Parts after commas are items. -/
lemma exists_items (reads : ∀ t ∈ ts, IsRead file source t) (plain : Plain c.rest)
    (leads : c.Leads (laterParts ts) d) (ends : AtCloser d) :
    ∃ ns, Items file source e f ns c d ∧ List.Forall₂ Node.Alike ns (ts.map Term.node) := by
  induction ts generalizing c with
  | nil =>
    obtain rfl := leads.unique (.refl c)
    exact ⟨[], .nil, .nil⟩
  | cons t ts ih =>
    obtain ⟨first, later⟩ := List.forall_mem_cons.1 reads
    rw [laterParts, List.map_cons, List.flatMap_cons, List.append_assoc, List.append_assoc] at leads
    obtain ⟨c₁, comma, leads⟩ := leads.split
    obtain ⟨c₂, blank, leads⟩ := leads.split
    obtain ⟨c₃, text, leads⟩ := leads.split
    have plain₂ := (plain.leads comma).leads blank
    have closer := atCloser_of_laterParts leads ends
    obtain ⟨n, part, alike⟩ := exists_part first plain₂ text (stops_part_of_closer closer)
    obtain ⟨ns, items, others⟩ := ih later (plain₂.leads text) leads
    exact ⟨n :: ns, .cons comma (gap_of_blank blank (shut_at_part text)) (is part plain₂ closer)
      closer.closed items, .cons alike others⟩

/-- Parts with commas between them are a part, and items after it. -/
lemma exists_list (reads : ∀ u ∈ t :: ts, IsRead file source u) (plain : Plain c.rest)
    (leads : c.Leads (Term.separated ((t :: ts).map Term.part)) d) (ends : AtCloser d) :
    ∃ n ns c₁, Closed c ∧ IsPart file source n c c₁ ∧ AtCloser c₁ ∧ Items file source e f ns c₁ d ∧
      List.Forall₂ Node.Alike (n :: ns) ((t :: ts).map Term.node) := by
  obtain ⟨first, later⟩ := List.forall_mem_cons.1 reads
  rw [List.map_cons, Term.separated_cons] at leads
  obtain ⟨c₁, text, leads⟩ := leads.split
  have closer : AtCloser c₁ := atCloser_of_laterParts leads ends
  obtain ⟨n, part, alike⟩ := exists_part first plain text (stops_part_of_closer closer)
  obtain ⟨ns, items, others⟩ := exists_items is later (plain.leads text) leads ends
  exact ⟨n, ns, c₁, .of_shut (shut_at_part text), part, closer, items, .cons alike others⟩

end

end Lists

section Bodies

variable {a b : Term} {ts : List Term}

/-- An operand alone, where its expression ends, is read. -/
lemma IsRead.of_operand (operand : ∀ {c d : Cursor}, Plain c.rest → c.Leads t.body d → AtCloser d →
      ∃ n, Operand file source n c d ∧ n.Alike t.node) : IsRead file source t := by
  intro c d plain leads ends
  obtain ⟨n, alone, alike⟩ := operand plain leads ends
  exact ⟨n, alone.value plain ends, alike⟩

lemma isRead_name (n : Name) : IsRead file source (.name n) := by
  refine .of_operand fun plain leads ends => ?_
  rw [Term.body_name] at leads
  obtain ⟨m, part, alike⟩ := exists_part_of_name plain leads (stops_part_of_closer ends)
  exact ⟨m, part.lastOperand ends.closed ends, alike⟩

/-- A whole number is an operand, where its expression ends. -/
lemma operand_of_numeral (n : Numeral) (plain : Plain c.rest) (leads : c.Leads n.text d)
    (ends : AtCloser d) : ∃ site, Operand file source
      (.mk (.literal (.number n.value) (String.ofList n.text)) site) c d := by
  have digits := List.all_eq_true.1 n.digits
  have spelled := spells_number_of_digits n.ne_nil digits
  have stops := ends.stops (p := goesOn) (List.all_iff_forall_prop.mp (by decide))
  obtain ⟨site, object⟩ : ∃ site, Denotes file source (.once object) c d
      [.node (.mk (.literal (.number n.value) (String.ofList n.text)) site)] :=
    denotes_number spelled (number?_of_digits n.ne_nil digits) plain leads stops
  have fails := fails_at_number spelled plain leads stops
  exact ⟨site, .last (fails _ (by simp [beforeObject])) object ends.closed ends⟩

lemma isRead_numeral (n : Numeral) : IsRead file source (.numeral n) := by
  refine .of_operand fun plain leads ends => ?_
  rw [Term.body_numeral] at leads
  obtain ⟨site, operand⟩ := operand_of_numeral n plain leads ends
  refine ⟨_, operand, ?_⟩
  rw [Term.node]
  exact .of_form _ _ _

lemma isRead_unary (op : UnaryOperator) (h : IsRead file source t) : IsRead file source (.unary op t) := by
  refine .of_operand fun plain leads ends => ?_
  rw [Term.body_unary] at leads
  obtain ⟨c₁, symbol, leads⟩ := leads.split
  obtain ⟨c₂, blank, part⟩ := leads.split
  obtain ⟨n, is, alike⟩ := exists_part h ((plain.leads symbol).leads blank) part
    (stops_part_of_closer ends)
  have operand := is.lastOperand ends.closed ends
  obtain ⟨site, reads⟩ := (denotes_sign symbol blank.1).signed (gap_of_blank blank (shut_at_part part))
    operand.denotes (unaryForm_symbol op n)
  refine ⟨_, ⟨reads, operand.closed⟩, ?_⟩
  rw [Term.node]
  exact .mk rfl (.cons alike .nil)

lemma isRead_join (op : Connective) (ha : IsRead file source a) (hb : IsRead file source b) :
    IsRead file source (.join op a b) := by
  intro c d plain leads ends
  rw [Term.body_join] at leads
  obtain ⟨n, c₁, left, alike, leads, plain₁⟩ := exists_part_before ha plain leads (by decide)
  obtain ⟨c₂, blank, leads⟩ := leads.split
  obtain ⟨c₃, symbol, leads⟩ := leads.split
  obtain ⟨c₄, blank', part⟩ := leads.split
  have follows : Follows op c₃.rest := blank'.1 ▸ Term.follows_blank op _
  have fails := fails_at_connective symbol follows
  obtain ⟨m, right, alike'⟩ := exists_part hb (((plain₁.leads blank).leads symbol).leads blank') part
    (stops_part_of_closer ends)
  have joint : Joint file source op c₂ c₄ :=
    .of_leads symbol follows (gap_of_blank blank' (shut_at_part part))
  have operand := left.operand (gap_of_blank blank (shut_at_connective symbol follows))
    (fails _ (by simp [notConnective])) (fails _ (by simp [notConnective]))
  have whole := operand.joined joint (right.lastOperand ends.closed ends) (ends.closing.endsLevel 0)
  refine ⟨_, .value plain (whole.unasked ends) ends, ?_⟩
  rw [Term.node]
  cases op with
  | binary op => exact .mk rfl (.cons alike (.cons alike' .nil))
  | logical op => exact .mk rfl (.cons alike (.cons alike' .nil))

lemma isRead_conditional (ht : IsRead file source t) (ha : IsRead file source a)
    (hb : IsRead file source b) : IsRead file source (.conditional t a b) := by
  intro c d plain leads ends
  rw [Term.body_conditional] at leads
  obtain ⟨n, c₁, test, alike₁, leads, plain₁⟩ := exists_part_before ht plain leads (by decide)
  obtain ⟨c₂, blank₁, leads⟩ := leads.split
  obtain ⟨c₃, question, leads⟩ := leads.split
  obtain ⟨c₄, blank₂, leads⟩ := leads.split
  have plain₄ := ((plain₁.leads blank₁).leads question).leads blank₂
  obtain ⟨c', shown, -⟩ := leads.split
  have shut₄ := shut_at_part shown
  obtain ⟨m, c₅, consequent, alike₂, leads', plain₅⟩ :=
    exists_part_before ha plain₄ leads (by decide)
  obtain ⟨c₆, blank₃, leads'⟩ := leads'.split
  obtain ⟨c₇, colon, leads'⟩ := leads'.split
  obtain ⟨c₈, blank₄, part⟩ := leads'.split
  have plain₈ := ((plain₅.leads blank₃).leads colon).leads blank₄
  obtain ⟨k, alternate, alike₃⟩ := exists_part hb plain₈ part (stops_part_of_closer ends)
  -- No connective begins with a question mark, so the condition ends in front of it.
  have fails := fails_at_question (question.1.trans (congrArg ('?' :: ·) blank₂.1))
  have levels : EndsLevel 0 c₂ := fun l _ =>
    fails _ (List.mem_append_right _ (List.mem_map_of_mem l.mem_all))
  have gap₁ := gap_of_blank blank₁ (shut_of_solid question.1 (by decide))
  have condition := test.operand gap₁ (fails _ (by simp [joints])) (fails _ (by simp [joints]))
  have closer : AtCloser c₆ := ⟨':', _, colon.1, by decide⟩
  have gap₃ := gap_of_blank blank₃ closer.closing.shut
  have second := (consequent.lastOperand gap₃ closer).value plain₄ closer
  have third := (alternate.lastOperand ends.closed ends).value plain₈ ends
  have gap₂ : GapTo c₃ c₄ := gap_of_blank blank₂ shut₄
  have gap₄ : GapTo c₇ c₈ := gap_of_blank blank₄ (shut_at_part part)
  have whole := Denotes.conditional (condition.single levels) gap₁.closed question gap₂ second closer.closed
    colon gap₄ third
  refine ⟨_, .value plain whole ends, ?_⟩
  rw [Term.node]
  exact .mk rfl (.cons alike₁ (.cons alike₂ (.cons alike₃ .nil)))

lemma isRead_member (w : Word) (h : IsRead file source t) : IsRead file source (.member t w) := by
  refine .of_operand fun plain leads ends => ?_
  rw [Term.body_member] at leads
  obtain ⟨n, c₁, part, alike, leads, -⟩ := exists_part_before h plain leads (by decide)
  obtain ⟨c₂, point, word⟩ := leads.split
  obtain ⟨x, xs, text, start, -⟩ := w.exists_cons
  have solid := isSolid_of_isIdentPart (isIdentPart_of_isIdentStart start)
  have shut : Closed c₁ := .of_shut (shut_of_solid point.1 (by decide))
  have shut' : Closed c₂ := .of_shut (shut_of_solid (by rw [word.1, text, List.cons_append]) solid)
  obtain ⟨site, access⟩ := denotes_member shut point shut' word (stops_part_of_closer ends)
  refine ⟨_, ⟨.operand part.noSign (part.denotes.accessed shut access ends), ends.closed⟩, ?_⟩
  rw [Term.node]
  exact .mk rfl (.cons alike (.cons (.of_form _ _ _) .nil))

lemma isRead_array (h : ∀ t ∈ ts, IsRead file source t) : IsRead file source (.array ts) := by
  refine .of_operand fun plain leads ends => ?_
  rw [Term.body_array] at leads
  obtain ⟨c₁, opening, leads⟩ := leads.split
  obtain ⟨c₂, inside, closing⟩ := leads.split
  have fails := fails_at_bracket plain opening.1
  have closer : AtCloser c₂ := ⟨']', _, closing.1, by decide⟩
  suffices list : ∃ ns site, Denotes file source (.once object) _ _
      [.node (.mk (.arrayExpression (ns.map some)) site)] ∧
      List.Forall₂ Node.Alike ns (ts.map Term.node) by
    obtain ⟨ns, site, object, alike⟩ := list
    refine ⟨_, .last (fails _ (by simp [beforeObject])) object ends.closed ends, ?_⟩
    rw [Term.node, Term.nodes_eq]
    refine .mk ?_ ?_
    · simpa [Form.shape, Function.comp_def, List.map_const'] using alike.length_eq
    · simpa [Form.children] using alike
  cases ts with
  | nil =>
    obtain rfl := inside.unique (.refl c₁)
    exact ⟨[], _, denotes_emptyArray plain opening closer.closed closing, .nil⟩
  | cons t ts =>
    obtain ⟨n, ns, c₃, closed, part, next, items, alike⟩ :=
      exists_list IsPart.item h (plain.leads opening) inside closer
    exact ⟨n :: ns, _, denotes_array plain opening closed (part.others _ (by simp [noItems]))
      (part.item (plain.leads opening) next) next.closed items closing, alike⟩

lemma isRead_call (hf : IsRead file source t) (h : ∀ a ∈ ts, IsRead file source a) :
    IsRead file source (.call t ts) := by
  refine .of_operand fun plain leads ends => ?_
  rw [Term.body_call] at leads
  obtain ⟨n, c₁, callee, alike, leads, plain₁⟩ := exists_part_before hf plain leads (by decide)
  obtain ⟨c₂, opening, leads⟩ := leads.split
  obtain ⟨c₃, inside, closing⟩ := leads.split
  have plain₂ := plain₁.leads opening
  have closer : AtCloser c₃ := ⟨')', _, closing.1, by decide⟩
  suffices list : ∃ ns, Closed c₂ ∧ Denotes file source (.once arguments) c₂ c₃ (ns.map .node) ∧
      List.Forall₂ Node.Alike ns (ts.map Term.node) by
    obtain ⟨ns, closed, given, alike'⟩ := list
    have call := denotes_call opening closed given closer.closed closing
    have shut : Closed c₁ := .of_shut (shut_of_solid opening.1 (by decide))
    refine ⟨_, ⟨.operand callee.noSign (callee.denotes.accessed shut call ends), ends.closed⟩, ?_⟩
    rw [Term.node, Term.nodes_eq]
    refine .mk ?_ (.cons alike alike')
    simpa [Form.shape, Function.comp_def, List.map_const'] using alike'.length_eq
  cases ts with
  | nil =>
    obtain rfl := inside.unique (.refl c₂)
    exact ⟨[], closer.closed, denotes_noArguments plain₂ closing.1, .nil⟩
  | cons a ts =>
    obtain ⟨m, ns, c₄, closed, part, next, items, alike'⟩ :=
      exists_list IsPart.argument h plain₂ inside closer
    exact ⟨m :: ns, closed, denotes_arguments (part.argument plain₂ next) next.closed items closing.1, alike'⟩

/-- Every term is read. -/
theorem isRead (file : String) (source : List Char) (t : Term) : IsRead file source t := by
  induction t with
  | name n => exact isRead_name n
  | numeral n => exact isRead_numeral n
  | unary op t h => exact isRead_unary op h
  | join op a b ha hb => exact isRead_join op ha hb
  | conditional t a b ht ha hb => exact isRead_conditional ht ha hb
  | array ts h => exact isRead_array h
  | member t w h => exact isRead_member w h
  | call t ts ht h => exact isRead_call ht h

end Bodies

section Statements

/-- No statement but an expression begins with a part of a term, unless it is a label. -/
lemma statements_fail_at_part (plain : Plain c.rest) (part : c.Leads t.part c₁)
    (stops : c₁.Stops isIdentPart) (gap : GapTo c₁ d) (noColon : d.Stops (· == ':')) :
    ∀ e ∈ otherStatements, Fails e c := by
  rcases t.part_cases with ⟨n, rfl, text⟩ | text
  · rw [text] at part
    refine List.forall_mem_append.2 ⟨fun e he => fails_at_name plain part stops e (by simp [he]), ?_⟩
    exact List.forall_mem_singleton.2 (labeledStatement_fails part stops gap noColon)
  · rw [text] at part
    exact fun e he => fails_at_parenthesis plain part.1 e (by simp [he])

/-- A mark after a part of a term, and no blank before it. -/
lemma statements_fail_before {x : Char} {cs : List Char} (plain : Plain c.rest)
    (leads : c.Leads (t.part ++ ([x] ++ cs)) d) (solid : isSolid x = true) (free : isIdentPart x = false)
    (noColon : x ≠ ':') : ∀ e ∈ otherStatements, Fails e c := by
  obtain ⟨c₁, part, rest⟩ := leads.split
  exact statements_fail_at_part plain part (Cursor.stops_of_cons rest.1 free)
    (Closed.of_shut (shut_of_solid rest.1 solid))
    (Cursor.stops_of_cons rest.1 (by simpa using noColon))

/-- Something after a part of a term and a blank. -/
lemma statements_fail_before_blank (plain : Plain c.rest) (part : c.Leads t.part c₁)
    (blank : c₁.Leads [' '] d) (shut : Shut d) (noColon : d.Stops (· == ':')) :
    ∀ e ∈ otherStatements, Fails e c :=
  statements_fail_at_part plain part (Cursor.stops_of_cons blank.1 (by decide))
    (gap_of_blank blank shut) noColon

/-- No statement but an expression begins with what a term is made of. -/
lemma statements_fail_at_body (plain : Plain c.rest) (leads : c.Leads t.body d) (ends : d.rest = [';']) :
    ∀ e ∈ otherStatements, Fails e c := by
  have closer : AtCloser d := ⟨';', [], ends, by decide⟩
  -- By what the term begins with.
  cases t with
  | name n =>
    have text : (Term.name n).part = n.text := Term.body_name n
    rw [Term.body_name, ← text] at leads
    exact statements_fail_at_part plain leads (stops_part_of_closer closer) closer.closed
      (Cursor.stops_of_cons ends (by decide))
  | numeral n =>
    rw [Term.body_numeral] at leads
    have stops := closer.stops (p := goesOn) (List.all_iff_forall_prop.mp (by decide))
    have spelled := spells_number_of_digits n.ne_nil (List.all_eq_true.1 n.digits)
    exact fun e he => fails_at_number spelled plain leads stops e (by simp [he])
  | unary op t =>
    rw [Term.body_unary] at leads
    obtain ⟨c₁, symbol, leads⟩ := leads.split
    exact fails_at_sign plain (symbol.1.trans (congrArg _ leads.1))
  | join op a b =>
    rw [Term.body_join] at leads
    obtain ⟨c₁, part, leads⟩ := leads.split
    obtain ⟨c₂, blank, leads⟩ := leads.split
    obtain ⟨c₃, symbol, leads⟩ := leads.split
    have follows : Follows op c₃.rest := leads.1 ▸ Term.follows_blank op _
    exact statements_fail_before_blank plain part blank (shut_at_connective symbol follows)
      (noColon_at_connective symbol)
  | conditional t a b =>
    rw [Term.body_conditional] at leads
    obtain ⟨c₁, part, leads⟩ := leads.split
    obtain ⟨c₂, blank, question⟩ := leads.split
    exact statements_fail_before_blank plain part blank (shut_of_solid question.1 (by decide))
      (Cursor.stops_of_cons question.1 (by decide))
  | array ts =>
    rw [Term.body_array] at leads
    exact fun e he => fails_at_bracket plain leads.1 e (by simp [he])
  | member t w =>
    rw [Term.body_member] at leads
    exact statements_fail_before plain leads (by decide) (by decide) (by decide)
  | call t ts =>
    rw [Term.body_call] at leads
    exact statements_fail_before plain leads (by decide) (by decide) (by decide)

end Statements

end Reading

namespace Script

section Single

variable {c d : Cursor} {file : String} {source : List Char} {t : Term} {text : List Char}
  (printed : text = t.body ∨ text = t.part)

include printed

/-- A term is read as a statement that is an expression. -/
lemma exists_value (plain : Plain c.rest) (leads : c.Leads text d) (rest : d.rest = [';']) :
    ∃ n, Closed c ∧ (∀ e ∈ otherStatements, Fails e c) ∧
      Denotes file source (.once (.call .assignmentExpression)) c d [.node n] ∧ n.Alike t.node := by
  have ends : AtCloser d := ⟨';', [], rest, by decide⟩
  rcases printed with rfl | rfl
  · obtain ⟨n, reads, alike⟩ := isRead file source t c d plain leads ends
    obtain ⟨x, xs, first, solid⟩ := t.exists_cons_body d.rest
    have shut := shut_of_solid (leads.1.trans first) solid
    exact ⟨n, .of_shut shut, statements_fail_at_body plain leads rest, reads, alike⟩
  · have stops := stops_part_of_closer ends
    obtain ⟨n, part, alike⟩ := exists_part (isRead file source t) plain leads stops
    exact ⟨n, .of_shut (shut_at_part leads), statements_fail_at_part plain leads stops ends.closed
      (Cursor.stops_of_cons rest (by decide)), (part.lastOperand ends.closed ends).value plain ends, alike⟩

/-- The brackets of a term are counted one by one. -/
lemma checkNesting_of_term {s : Script} (content : s.content.toList = text ++ [';'])
    (shallow : Scan.peak 0 text ≤ maxNesting) : s.checkNesting = .ok () := by
  have semicolon : ∀ last, last ∉ Scan.beforePattern → Scan.isLegible last [';'] = true := fun _ _ => rfl
  rw [checkNesting_eq_ok, content,
    Scan.excess?_eq_none_iff (Term.prefixes_legible.printed printed semicolon ';') (Nat.zero_le _),
    Scan.peak_append_of_free (List.all_iff_forall_prop.mp (by decide))]
  exact shallow

end Single

/-- A script of one term, which may stand in parentheses itself, has the tree of the term, if no more
brackets of it are open at once than are allowed. -/
theorem parse_term (t : Term) {text : List Char} (printed : text = t.body ∨ text = t.part)
    (shallow : Scan.peak 0 text ≤ maxNesting) (name path : String) :
    ∃ (n : Node) (site site' : Site),
      Script.parse { name, path, content := String.ofList (text ++ [';']) } =
        .ok (.mk (.program [.mk (.expressionStatement n) site]) site') ∧
      n.Alike t.node := by
  let s : Script := { name, path, content := String.ofList (text ++ [';']) }
  have content : s.content.toList = text ++ [';'] := String.toList_ofList
  have semicolon : Plain [';'] := .cons (by decide) (by decide) .nil
  have plain : Plain s.content.toList := content ▸ Term.prefixes_plain.printed printed semicolon
  have leads : Cursor.Leads ⟨0, s.content.toList⟩ text ⟨text.length, [';']⟩ :=
    ⟨content, (Nat.zero_add _).symm⟩
  obtain ⟨n, closed, others, reads, alike⟩ : ∃ n, Closed ⟨0, s.content.toList⟩ ∧
      (∀ e ∈ otherStatements, Fails e ⟨0, s.content.toList⟩) ∧
      Denotes s.name s.content.toList (.once (.call .assignmentExpression)) ⟨0, s.content.toList⟩
        ⟨text.length, [';']⟩ [.node n] ∧ n.Alike t.node := exists_value printed plain leads rfl
  have ends : AtCloser ⟨text.length, [';']⟩ := ⟨';', [], rfl, by decide⟩
  have whole := reads.uncommaed ends.closed (text_fails rfl (by decide))
  obtain ⟨site, site', parsed⟩ := parse_of_expression (checkNesting_of_term printed content shallow) closed
    others whole ends.closed (.inl rfl)
  exact ⟨n, site, site', parsed, alike⟩

/-- The sum of a name and a number, which stands in parentheses as it is no name. -/
theorem parse_term_sum :
    ∃ (x : Grammar.Name) (one : Numeral), x.text = ['x'] ∧ one.text = ['1'] ∧
      ∃ (n : Node) (site site' : Site),
        (ofSource "a.js" "x + (1);").parse =
          .ok (.mk (.program [.mk (.expressionStatement n) site]) site') ∧
        n.Alike (Term.join (.binary .add) (.name x) (.numeral one)).node := by
  let x : Grammar.Name := ⟨⟨['x'], by decide⟩, by decide⟩
  let one : Numeral := ⟨['1'], by decide, by decide⟩
  have printed : "x + (1)".toList = (Term.join (.binary .add) (.name x) (.numeral one)).body := rfl
  refine ⟨x, one, rfl, rfl, ?_⟩
  exact parse_term _ (.inl printed) (by decide) "a.js" "a.js"

end Script

end ScriptTyping
