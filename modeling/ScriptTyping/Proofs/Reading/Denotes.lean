import ScriptTyping.Proofs.Grammar.Words
import ScriptTyping.Proofs.Reading.Assembly

/-!
# What a stretch of text denotes

`Denotes file source k c d ps` says that the evaluation of `k` leads from the place `c` to the place `d`,
and that what it leaves stands for the phrases `ps`. The lemmas here put such stretches together, one for
each kind of parsing expression and one for each rule of expressions that passes on what it is given.

After an operand the gap is read up to the next token, so most stretches of an expression end at a place
where no gap begins (`Closed`).
-/

namespace ScriptTyping.Reading
open Peg Grammar Peg.Expr

/-- An expression does not match at a place. -/
def Fails (e : Peg.Expr Rule) (c : Cursor) : Prop :=
  Reads language .outset (.once e) c none

/-- A gap leads from a place to another one. -/
def GapTo (c d : Cursor) : Prop :=
  ∃ q, Reads language .outset (.once .gap) c (some q) ∧ q.place = d

/-- No gap begins at a place. -/
def Closed (c : Cursor) : Prop :=
  GapTo c c

/-- The stretch from a place to another one. -/
def between (file : String) (source : List Char) (c d : Cursor) : Extent :=
  { file, source, start := c.index, text := c.upTo d }

lemma string_between {file : String} {source : List Char} {c d : Cursor} {cs : List Char}
    (leads : c.Leads cs d) : (between file source c d).string = String.ofList cs := by
  rw [Extent.string, between, leads.upTo]

/-- A task leads from a place to another one, and what it leaves stands for the given phrases. -/
def Denotes (file : String) (source : List Char) (k : Peg.Task Rule) (c d : Cursor)
    (ps : List Phrase) : Prop :=
  ∃ q, Reads language .outset k c (some q) ∧ q.place = d ∧
    q.trees.map (assemble file source) = ps.map .ok

variable {file : String} {source : List Char} {a b e : Peg.Expr Rule} {c c' d d' : Cursor}
  {ps qs : List Phrase} {p : Phrase}

lemma GapTo.closed (h : GapTo c d) : Closed d := by
  obtain ⟨q, gap, rfl⟩ := h
  exact ⟨_, gap.gap_gap, rfl⟩

lemma GapTo.leads (h : GapTo c d) : ∃ cs, c.Leads cs d := by
  obtain ⟨q, gap, rfl⟩ := h
  exact gap.leads

lemma Closed.of_shut (h : Shut c) : Closed c :=
  gap_of_blanks rfl (List.forall_mem_nil _) (.refl c) h

namespace Denotes

lemma leads {k : Peg.Task Rule} (h : Denotes file source k c d ps) : ∃ cs, c.Leads cs d := by
  obtain ⟨q, reads, rfl, -⟩ := h
  exact reads.leads

lemma text {cs : List Char} (leads : c.Leads cs d) : Denotes file source (.once (.text cs)) c d [] :=
  ⟨_, .text (Cursor.skip?_of_leads leads), rfl, rfl⟩

lemma seq (first : Denotes file source (.once a) c c' ps) (gap : GapTo c' d')
    (second : Denotes file source (.once b) d' d qs) :
    Denotes file source (.once (.seq a b)) c d (ps ++ qs) := by
  obtain ⟨q₁, reads₁, rfl, trees₁⟩ := first
  obtain ⟨q₂, reads₂, rfl⟩ := gap
  obtain ⟨q₃, reads₃, rfl, trees₃⟩ := second
  exact ⟨_, .seq reads₁ reads₂ reads₃, rfl, by rw [List.map_append, List.map_append, trees₁, trees₃]⟩

lemma choiceFirst (first : Denotes file source (.once a) c d ps) :
    Denotes file source (.once (.choice a b)) c d ps := by
  obtain ⟨q, reads, place, trees⟩ := first
  exact ⟨q, .choiceFirst reads, place, trees⟩

lemma choiceSecond (first : Fails a c) (second : Denotes file source (.once b) c d ps) :
    Denotes file source (.once (.choice a b)) c d ps := by
  obtain ⟨q, reads, place, trees⟩ := second
  exact ⟨q, .choiceSecond first reads, place, trees⟩

lemma oneOf {es fs : List (Peg.Expr Rule)} (before : ∀ a ∈ es, Fails a c)
    (h : Denotes file source (.once e) c d ps) :
    Denotes file source (.once (.oneOf (es ++ e :: fs))) c d ps := by
  obtain ⟨q, reads, place, trees⟩ := h
  exact ⟨q, .oneOf_append before reads.oneOf_first, place, trees⟩

lemma optSome (h : Denotes file source (.once a) c d ps) :
    Denotes file source (.once (.opt a)) c d ps := by
  obtain ⟨q, reads, place, trees⟩ := h
  exact ⟨q, .optSome reads, place, trees⟩

lemma optNone (h : Fails a c) : Denotes file source (.once (.opt a)) c c [] :=
  ⟨_, .optNone h, rfl, rfl⟩

lemma againSome (gap : GapTo c c') (one : Denotes file source (.once a) c' d' ps)
    (more : Denotes file source (.again a) d' d qs) :
    Denotes file source (.again a) c d (ps ++ qs) := by
  obtain ⟨q₁, reads₁, rfl⟩ := gap
  obtain ⟨q₂, reads₂, rfl, trees₂⟩ := one
  obtain ⟨q₃, reads₃, rfl, trees₃⟩ := more
  refine ⟨_, .againSome reads₁ reads₂ reads₃, rfl, ?_⟩
  rw [List.map_append, List.map_append, trees₂, trees₃]

lemma againNone (gap : GapTo c c') (none : Fails a c') : Denotes file source (.again a) c c [] := by
  obtain ⟨q, reads, rfl⟩ := gap
  exact ⟨_, .againNone reads none, rfl, rfl⟩

lemma starNone (none : Fails a c) : Denotes file source (.once (.star a)) c c [] :=
  ⟨_, .starNone none, rfl, rfl⟩

lemma starSome (one : Denotes file source (.once a) c c' ps)
    (more : Denotes file source (.again a) c' d qs) :
    Denotes file source (.once (.star a)) c d (ps ++ qs) := by
  obtain ⟨q₁, reads₁, rfl, trees₁⟩ := one
  obtain ⟨q₂, reads₂, rfl, trees₂⟩ := more
  exact ⟨_, .starSome reads₁ reads₂, rfl, by rw [List.map_append, List.map_append, trees₁, trees₂]⟩

/-- What may go on at a place where no gap begins may begin there. -/
lemma starOfAgain (closed : Closed c) (more : Denotes file source (.again a) c d ps) :
    Denotes file source (.once (.star a)) c d ps := by
  obtain ⟨q, reads, rfl, trees⟩ := more
  obtain ⟨q', reads', place, trees'⟩ := reads.star_of_again closed
  exact ⟨q', reads', place, by rw [trees', trees]⟩

/-- A match of a rule, from what its parts denote. -/
lemma call {r : Rule} (normal : kind r = .normal) (parts : Denotes file source (.once (body r)) c d ps)
    (made : phrase? r (between file source c d) ps = some p) :
    Denotes file source (.once (.call r)) c d [p] := by
  obtain ⟨q, reads, rfl, trees⟩ := parts
  have loud : language.kind r ≠ .silent := by simp [language, normal]
  have inner : Reads language (Mode.outset.within (language.kind r)) (.once (language.body r)) c
      (some q) := by
    rw [show language.kind r = .normal from normal]
    exact reads
  refine ⟨_, .call loud inner, rfl, ?_⟩
  rw [show language.kind r = .normal from normal]
  have made' : assemble file source (.node r c.index (c.upTo q.place) q.trees) = .ok p :=
    assemble_of_phrase? trees made
  simp [Mode.around, Mode.builds, Mode.outset, made']

/-- A token, which has no parts. -/
lemma token {r : Rule} {q : Match Rule} (atomic : kind r = .atomic) (bare : (body r).isBare = true)
    (reads : Reads language { Mode.outset with atomicity := .atomic } (.once (body r)) c (some q))
    (made : phrase? r (between file source c q.place) [] = some p) :
    Denotes file source (.once (.call r)) c q.place [p] := by
  have loud : language.kind r ≠ .silent := by simp [language, atomic]
  have inner : Reads language (Mode.outset.within (language.kind r)) (.once (language.body r)) c
      (some q) := by
    rw [show language.kind r = .atomic from atomic]
    exact reads
  refine ⟨_, .call loud inner, rfl, ?_⟩
  rw [show language.kind r = .atomic from atomic, reads.trees_eq_nil bare]
  have made' : assemble file source (.node r c.index (c.upTo q.place) []) = .ok p :=
    @assemble_of_phrase? file source (.node r c.index (c.upTo q.place) []) [] p rfl made
  simp [Mode.around, Mode.builds, Mode.outset, made']

end Denotes

lemma Fails.seq (h : Fails a c) : Fails (.seq a b) c :=
  .seqFirst h

section Rules

variable {c₁ c₂ : Cursor} {n m : Node}

/-- What an expression that is no operation on others is read as, before what may follow it. -/
def object : Peg.Expr Rule :=
  .choice (.call .newExpression) primaryExpression

namespace Denotes

/-- An object with what follows it. -/
lemma followed (first : Denotes file source (.once object) c c₁ [.node n]) (gap : GapTo c₁ c₂)
    (following : Denotes file source (.once (.star (.call .postfixOperation))) c₂ d' ps)
    (gap' : GapTo d' d) (last : Fails (.call .updateSuffix) d) (made : accesses n ps = some m) :
    Denotes file source (.once (.call .postfixExpression)) c d [.node m] := by
  refine call rfl (seq first gap (seq following gap' (optNone last))) ?_
  simp [phrase?, accessed, made]

lemma operand (noSign : Fails (.call .unaryOperator) c)
    (h : Denotes file source (.once (.call .postfixExpression)) c d [.node n]) :
    Denotes file source (.once (.call .unaryExpression)) c d [.node n] :=
  call rfl (choiceSecond (.seq noSign) h) rfl

/-- An object that nothing follows. -/
lemma alone (noSign : Fails (.call .unaryOperator) c)
    (first : Denotes file source (.once object) c c₁ [.node n]) (gap : GapTo c₁ d)
    (noAccess : Fails (.call .postfixOperation) d) (last : Fails (.call .updateSuffix) d) :
    Denotes file source (.once (.call .unaryExpression)) c d [.node n] :=
  operand noSign (followed first gap (starNone noAccess) gap.closed last rfl)

/-- An operator and the operand after it. -/
lemma signed {sign : String} {f : Form Node}
    (first : Denotes file source (.once (.call .unaryOperator)) c c₁ [.token sign])
    (gap : GapTo c₁ c₂) (second : Denotes file source (.once (.call .unaryExpression)) c₂ d [.node n])
    (made : unaryForm sign n = some f) :
    ∃ site, Denotes file source (.once (.call .unaryExpression)) c d [.node (.mk f site)] := by
  refine ⟨(between file source c d).site, call rfl (choiceFirst (seq first gap second)) ?_⟩
  simp [phrase?, unary, made, Extent.node]

/-- A condition that is not asked. -/
lemma unconditional (h : Denotes file source (.once (.call (.binaryExpression .logicalOr))) c d [.node n])
    (closed : Closed d) (last : Fails (Expr.token "?") d) :
    Denotes file source (.once (.call .conditionalExpression)) c d [.node n] :=
  call rfl (seq h closed (optNone (.seq last))) rfl

/-- A value that is not assigned. -/
lemma unassigned (noArrow : Fails (.call .arrowFunction) c)
    (h : Denotes file source (.once (.call .conditionalExpression)) c d [.node n])
    (closed : Closed d) (last : Fails (.call .assignmentOperator) d) :
    Denotes file source (.once (.call .assignmentExpression)) c d [.node n] :=
  call rfl (choiceSecond noArrow (seq h closed (optNone (.seq last)))) rfl

/-- An expression without commas. -/
lemma uncommaed (h : Denotes file source (.once (.call .assignmentExpression)) c d [.node n])
    (closed : Closed d) (last : Fails (Expr.token ",") d) :
    Denotes file source (.once (.call .expression)) c d [.node n] :=
  call rfl (seq h closed (starNone (.seq last))) rfl

end Denotes

end Rules

end ScriptTyping.Reading
