import ScriptTyping.Proofs.Reading.Parsed
import ScriptTyping.Proofs.Reading.Places

/-!
# Reading objects and programs

What the grammar reads before anything that may follow it: a name, a number, an expression in
parentheses, a list. A program of one expression has the tree of that expression
(`Script.parse_of_expression`).
-/

namespace ScriptTyping.Reading
open Peg Grammar Peg.Expr

variable {file : String} {source : List Char} {c c₁ c₂ d d₁ : Cursor} {n : Node}

section Objects

/-- One of the objects, where none of those before it stands. -/
lemma denotes_object {e : Peg.Expr Rule} {p : Phrase} (k : Nat) {after : List (Peg.Expr Rule)}
    (listed : primaries = primaries.take k ++ e :: after)
    (before : ∀ a ∈ beforeObject k, Fails a c) (h : Denotes file source (.once e) c d [p]) :
    Denotes file source (.once object) c d [p] := by
  have first := before (.call .newExpression) List.mem_cons_self
  have others : ∀ a ∈ primaries.take k, Fails a c := fun a ha =>
    before a (List.mem_cons_of_mem _ (List.mem_cons_of_mem _ ha))
  refine .choiceSecond first ?_
  have primary : primaryExpression = .oneOf (primaries.take k ++ e :: after) := by
    rw [← listed]
    rfl
  rw [primary]
  exact .oneOf others h

/-- A name is an identifier. -/
lemma denotes_identifier {n : Name} (leads : c.Leads n.text d) (stops : d.Stops isIdentPart) :
    ∃ site, Denotes file source (.once (.call .identifier)) c d
      [.node (.mk (.identifier (String.ofList n.text)) site)] := by
  obtain ⟨q, reads, rfl⟩ := n.reads_identifier (m := { Mode.outset with atomicity := .atomic })
    (by simp) leads stops
  refine ⟨(between file source c q.place).site, .token rfl rfl reads ?_⟩
  simp [phrase?, identifier, string_between leads, Extent.node]

/-- A name is read as an identifier. -/
lemma denotes_name {n : Name} (plain : Plain c.rest) (leads : c.Leads n.text d)
    (stops : d.Stops isIdentPart) :
    ∃ site, Denotes file source (.once object) c d
      [.node (.mk (.identifier (String.ofList n.text)) site)] := by
  obtain ⟨site, identifier⟩ : ∃ site, Denotes file source (.once (.call .identifier)) c d
      [.node (.mk (.identifier (String.ofList n.text)) site)] := denotes_identifier leads stops
  refine ⟨site, denotes_object 17 rfl (fun e he => ?_) identifier⟩
  exact fails_at_name plain leads stops e (by simp [he])

/-- A name that no colon follows is no label. -/
lemma labeledStatement_fails {n : Name} (leads : c.Leads n.text c₁) (stops : c₁.Stops isIdentPart)
    (gap : GapTo c₁ c₂) (noColon : c₂.Stops (· == ':')) : Fails (.call .labeledStatement) c := by
  obtain ⟨q, identifier, rfl⟩ := n.reads_identifier (m := { Mode.outset with atomicity := .atomic })
    (by simp) leads stops
  have label : Reads language .outset (.once (.call .identifier)) c (some _) := .call (by decide) identifier
  obtain ⟨q', gap, rfl⟩ := gap
  exact .callFail (by decide) (.seqSecond label gap (.seqFirst (text_single_fails noColon)))

/-- A number with a value is read as a literal. -/
lemma denotes_number {cs : List Char} {m : Magnitude} (spelled : Spells number cs)
    (value : Literal.number? cs = some m) (plain : Plain c.rest) (leads : c.Leads cs d)
    (stops : d.Stops goesOn) :
    ∃ site, Denotes file source (.once object) c d
      [.node (.mk (.literal (.number m) (String.ofList cs)) site)] := by
  obtain ⟨q, reads, rfl⟩ := (takes_number spelled).reads
    (m := { Mode.outset with atomicity := .atomic }) (by simp) leads stops
  refine ⟨(between file source c q.place).site, denotes_object 7 rfl (fun e he => ?_)
    (.token rfl rfl reads ?_)⟩
  · exact fails_at_number spelled plain leads stops e (by simp [he])
  · simp only [phrase?]
    rw [show (between file source c q.place).text = cs from leads.upTo, value]
    simp [literal, string_between leads, Extent.node]

/-- An expression in parentheses is read as the expression. -/
lemma denotes_parenthesized (plain : Plain c.rest) (opening : c.Leads ['('] c₁) (gap : GapTo c₁ c₂)
    (inner : Denotes file source (.once (.call .expression)) c₂ d₁ [.node n]) (closed : Closed d₁)
    (closing : d₁.Leads [')'] d) : Denotes file source (.once object) c d [.node n] := by
  refine denotes_object 15 rfl (fun e he => ?_) (.call rfl (.seq (.text opening) gap
    (.seq inner closed (.text closing))) rfl)
  exact fails_at_parenthesis plain opening.1 e (by simp [he])

end Objects

section Items

variable {e : Peg.Expr Rule} {f : Node → Phrase} {ns : List Node}

/-- Items that each follow a comma. -/
inductive Items (file : String) (source : List Char) (e : Peg.Expr Rule) (f : Node → Phrase) :
    List Node → Cursor → Cursor → Prop where
  | nil {c : Cursor} :
    Items file source e f [] c c
  | cons {n : Node} {ns : List Node} {c₁ c₂ c₃ c₄ c₅ : Cursor} :
    c₁.Leads [','] c₂ →
    GapTo c₂ c₃ →
    Denotes file source (.once e) c₃ c₄ [f n] →
    Closed c₄ →
    Items file source e f ns c₄ c₅ →
    Items file source e f (n :: ns) c₁ c₅

lemma Items.closed (h : Items file source e f ns c d) (closed : Closed c) : Closed d := by
  induction h with
  | nil => exact closed
  | cons _ _ _ closed' _ ih => exact ih closed'

/-- Items after commas are read until something else follows. -/
lemma Items.again (h : Items file source e f ns c d) (closed : Closed c)
    (last : Fails (Expr.token ",") d) :
    Denotes file source (.again (.seq (Expr.token ",") e)) c d (ns.map f) := by
  induction h with
  | nil => exact .againNone closed (.seq last)
  | cons comma gap one closed' _ ih => exact .againSome closed (.seq (.text comma) gap one) (ih closed' last)

/-- Items with commas between them. -/
lemma Items.list (first : Denotes file source (.once e) c c₁ [f n]) (closed : Closed c₁)
    (others : Items file source e f ns c₁ d) (last : Fails (Expr.token ",") d) :
    Denotes file source (.once (.seq e (.star (.seq (Expr.token ",") e)))) c d ((n :: ns).map f) :=
  .seq first closed (.starOfAgain closed (others.again closed last))

end Items

end ScriptTyping.Reading

namespace ScriptTyping.Script
open Peg Grammar Reading Peg.Expr

variable {s : Script} {c d : Cursor} {n : Node}

/-- A statement that is an expression, perhaps with a semicolon after it. -/
lemma denotes_statement {file : String} {source : List Char}
    (others : ∀ e ∈ otherStatements, Fails e c)
    (reads : Denotes file source (.once (.call .expression)) c d [.node n]) (closed : Closed d)
    (rest : d.rest = [';'] ∨ d.rest = []) :
    ∃ d' site, d'.rest = [] ∧
      Denotes file source (.once statement) c d' [.node (.mk (.expressionStatement n) site)] := by
  have semicolon : ∃ d', d'.rest = [] ∧ Denotes file source (.once semicolon) d d' [] := by
    rcases rest with rest | rest
    · exact ⟨⟨d.index + 1, []⟩, rfl, .optSome (.text ⟨rest, rfl⟩)⟩
    · refine ⟨d, rest, .optNone (.textFail ?_)⟩
      obtain ⟨i, r⟩ := d
      cases rest
      rfl
  obtain ⟨d', atEnd, last⟩ := semicolon
  refine ⟨d', (between file source c d').site, atEnd, ?_⟩
  rw [show statement = .oneOf (otherStatements ++ [.call .expressionStatement]) from rfl]
  exact .oneOf others (.call rfl (.seq reads closed last) rfl)

/-- A program of one statement has the tree of the statement. -/
lemma denotes_program {file : String} {source : List Char} (closed : Closed c)
    (reads : Denotes file source (.once statement) c d [.node n]) (rest : d.rest = []) :
    ∃ site, Denotes file source (.once (.call .program)) c d [.node (.mk (.program [n]) site)] := by
  have closed' : Closed d := .of_shut (shut_of_nil rest)
  have finish : Denotes file source (.once (.call .endOfInput)) d d [.finish] := by
    have none : Denotes file source (.once .finish) d d [] := by
      obtain ⟨i, r⟩ := d
      cases rest
      exact ⟨_, .finish, rfl, rfl⟩
    exact .call rfl none rfl
  have one := Denotes.starSome reads (.againNone closed' (statement_fails_at_end rest))
  have start : Denotes file source (.once .empty) c c [] := ⟨_, .empty, rfl, rfl⟩
  exact ⟨(between file source c d).site, .call rfl (.seq start closed (.seq one closed' finish)) rfl⟩

/-- A script of one statement has the tree of the statement. -/
lemma parse_of_statement (shallow : s.checkNesting = .ok ()) (closed : Closed ⟨0, s.content.toList⟩)
    (reads : Denotes s.name s.content.toList (.once statement) ⟨0, s.content.toList⟩ d [.node n])
    (rest : d.rest = []) : ∃ site, s.parse = .ok (.mk (.program [n]) site) := by
  obtain ⟨site, q, program, -, trees⟩ := denotes_program closed reads rest
  obtain ⟨t, whole, made⟩ : ∃ t, q.trees = [t] ∧ Reading.assemble s.name s.content.toList t =
      .ok (.node (.mk (.program [n]) site)) := by
    cases ts : q.trees with
    | nil => simp [ts] at trees
    | cons t us =>
      cases us with
      | nil => exact ⟨t, rfl, by simpa [ts] using trees⟩
      | cons _ _ => simp [ts] at trees
  exact ⟨site, parse_of_assemble shallow (match?_eq_ok.2 ⟨q, program, whole⟩) made⟩

/-- A script of one expression, perhaps with a semicolon after it, has the tree of the expression. -/
theorem parse_of_expression (shallow : s.checkNesting = .ok ()) (closed : Closed ⟨0, s.content.toList⟩)
    (others : ∀ e ∈ otherStatements, Fails e ⟨0, s.content.toList⟩)
    (reads : Denotes s.name s.content.toList (.once (.call .expression)) ⟨0, s.content.toList⟩ d
      [.node n])
    (closed' : Closed d) (rest : d.rest = [';'] ∨ d.rest = []) :
    ∃ site site', s.parse = .ok (.mk (.program [.mk (.expressionStatement n) site]) site') := by
  obtain ⟨d', site, rest', statement⟩ := denotes_statement others reads closed' rest
  obtain ⟨site', parsed⟩ := parse_of_statement shallow closed statement rest'
  exact ⟨site, site', parsed⟩

end ScriptTyping.Script
