import ScriptTyping.Proofs.Reading.Objects

/-!
# Reading what is made of other expressions

How the grammar reads operators before, between and after their operands, conditionals, lists, members and
calls, given how it reads the expressions in them.
-/

namespace ScriptTyping.Reading
open Peg Grammar Peg.Expr

variable {file : String} {source : List Char} {c c₁ c₂ c₃ c₄ c₅ c₆ d : Cursor} {n m k : Node}

section Ends

/-- A character that closes what an expression stands in comes next. -/
def AtCloser (c : Cursor) : Prop :=
  ∃ x z, c.rest = x :: z ∧ x ∈ closers

namespace AtCloser

lemma closing (h : AtCloser c) : Closing c := by
  obtain ⟨x, z, rest, hx⟩ := h
  exact .of_cons rest hx

lemma closed (h : AtCloser c) : Closed c :=
  .of_shut h.closing.shut

lemma stops {p : Char → Bool} (h : AtCloser c) (free : ∀ x ∈ closers, p x = false) : c.Stops p := by
  obtain ⟨x, z, rest, hx⟩ := h
  exact Cursor.stops_of_cons rest (free x hx)

end AtCloser

/-- What may go on with a condition after an operand of it. -/
def joints : List (Peg.Expr Rule) :=
  [.call .postfixOperation, .call .updateSuffix] ++
    Precedence.all.map fun l => .call (.binaryOperator l)

/-- Where a question mark with a blank after it stands, a condition has ended. -/
lemma fails_at_question {z : List Char} (rest : c.rest = '?' :: ' ' :: z) :
    ∀ e ∈ joints, Fails e c := by
  have told : joints.all (fun e => Outlook.forecast language ⟨['?', ' '], [], some fun _ => true⟩ 200
      false e ['?', ' '] = Forecast.fails) = true := by decide
  have fits : Outlook.Fits ⟨['?', ' '], [], some fun _ => true⟩ language z := ⟨fun _ _ _ => rfl, by simp⟩
  intro e he
  exact fits.fails rest (of_decide_eq_true (List.all_eq_true.1 told e he))

/-- An argument does not begin where the list of arguments ends. -/
lemma argument_fails {z : List Char} (plain : Plain c.rest) (rest : c.rest = ')' :: z) :
    Fails argument c := by
  have unreserved : ∀ r ∈ [Rule.keyword], ∀ m i, Reads language m (.once (.call r)) ⟨i, [')'] ++ z⟩ none :=
    List.forall_mem_singleton.2 (keyword_missed (by rwa [rest] at plain) (by decide))
  have fails : ∀ e ∈ [argument], Fails e c := fails_of_standing plain rest unreserved (by decide)
  exact fails argument (List.mem_singleton_self _)

end Ends

namespace Denotes

/-- A condition that is not asked, where its expression ends. -/
lemma unasked (h : Denotes file source (.once (.call (.binaryExpression .logicalOr))) c d [.node n])
    (ends : AtCloser d) : Denotes file source (.once (.call .conditionalExpression)) c d [.node n] :=
  h.unconditional ends.closed (ends.closing.ends _ (by simp [continuations]))

/-- A value that is not assigned, where its expression ends. -/
lemma value (plain : Plain c.rest)
    (h : Denotes file source (.once (.call .conditionalExpression)) c d [.node n]) (ends : AtCloser d) :
    Denotes file source (.once (.call .assignmentExpression)) c d [.node n] :=
  h.unassigned plain.arrowFunction_fails ends.closed (ends.closing.ends _ (by simp [continuations]))

end Denotes

namespace Operand

/-- An operand alone. -/
lemma single (h : Operand file source n c d) (ends : EndsLevel 0 d) :
    Denotes file source (.once (.call (.binaryExpression .logicalOr))) c d [.node n] := by
  obtain ⟨t, first, rest, -, reads⟩ : Groups file source id _ n [] c d := Tail.grouped h .nil ends
  cases t with
  | operand a =>
    cases first
    exact reads
  | join op left right => simp [Operation.rest] at rest

/-- Two operands with a connective between them. -/
lemma joined {op : Connective} (left : Operand file source n c c₁) (joint : Joint file source op c₁ c₂)
    (right : Operand file source m c₂ d) (ends : EndsLevel 0 d) :
    Denotes file source (.once (.call (.binaryExpression .logicalOr))) c d [.node (op.join n m)] := by
  obtain ⟨t, first, rest, grouped, reads⟩ : Groups file source id _ n [(op, m)] c d :=
    Tail.grouped left (.cons joint right .nil) ends
  have whole : t = .join op (.operand n) (.operand m) :=
    grouped.unique ⟨trivial, trivial, by simp [Operation.root?], by simp [Operation.root?]⟩ first rest
  rw [whole] at reads
  exact reads

end Operand

namespace Denotes

/-- A condition and two alternatives. -/
lemma conditional (test : Denotes file source (.once (.call (.binaryExpression .logicalOr))) c c₁ [.node n])
    (closed : Closed c₁) (question : c₁.Leads ['?'] c₂) (gap : GapTo c₂ c₃)
    (consequent : Denotes file source (.once (.call .assignmentExpression)) c₃ c₄ [.node m])
    (closed' : Closed c₄) (colon : c₄.Leads [':'] c₅) (gap' : GapTo c₅ c₆)
    (alternate : Denotes file source (.once (.call .assignmentExpression)) c₆ d [.node k]) :
    Denotes file source (.once (.call .conditionalExpression)) c d
      [.node (.mk (.conditionalExpression n m k) (between file source c d).site)] :=
  .call rfl (.seq test closed (.optSome (.seq (.text question) gap
    (.seq consequent closed' (.seq (.text colon) gap' alternate))))) rfl

end Denotes

section Signs

/-- An operator with a blank after it is read. -/
lemma denotes_sign {op : UnaryOperator} {z : List Char} (leads : c.Leads op.symbol.toList d)
    (rest : d.rest = ' ' :: z) :
    Denotes file source (.once (.call .unaryOperator)) c d [.token op.symbol] := by
  have told : ∀ op ∈ UnaryOperator.all, Outlook.forecast language
      ⟨op.symbol.toList ++ [' '], [], some fun _ => true⟩ 200 true (body .unaryOperator)
      (op.symbol.toList ++ [' ']) = .reads [' '] := by decide
  have fits : Outlook.Fits ⟨op.symbol.toList ++ [' '], [], some fun _ => true⟩ language z :=
    ⟨fun _ _ _ => rfl, by simp⟩
  have reads : Denotes file source (.once (.call .unaryOperator)) c d [.token (String.ofList op.symbol.toList)] :=
    denotes_token rfl rfl (fun e => rfl) fits rfl leads (by simpa using rest)
      (told op (by cases op <;> decide))
  rwa [String.ofList_toList] at reads

/-- An operator makes an expression of its operand. -/
lemma unaryForm_symbol (op : UnaryOperator) (n : Node) :
    unaryForm op.symbol n = some (.unaryExpression op n) := by
  cases op <;> rfl

end Signs

section Lists

variable {ns : List Node}

/-- A list whose last slot is filled has no hole at its end. -/
lemma withoutLastHole_some (ns : List Node) :
    withoutLastHole (ns.map some) = ns.map some := by
  unfold withoutLastHole
  split
  · rename_i last
    obtain ⟨n, -, e⟩ := List.mem_map.1 (List.mem_of_getLast? last)
    cases e
  · rfl

/-- A list without items. -/
lemma denotes_emptyArray (plain : Plain c.rest) (opening : c.Leads ['['] c₁) (closed : Closed c₁)
    (closing : c₁.Leads [']'] d) :
    Denotes file source (.once object) c d
      [.node (.mk (.arrayExpression []) (between file source c d).site)] := by
  refine denotes_object 13 rfl (fun e he => fails_at_bracket plain opening.1 e (by simp [he])) ?_
  exact .call rfl (.choiceFirst (.seq (.text opening) closed (.text closing))) rfl

/-- A list of items. -/
lemma denotes_array (plain : Plain c.rest) (opening : c.Leads ['['] c₁) (gap : GapTo c₁ c₂)
    (filled : Fails (Expr.token "]") c₂)
    (first : Denotes file source (.once (.call .arrayItem)) c₂ c₃ [.slot (some n)]) (closed : Closed c₃)
    (others : Items file source (.call .arrayItem) (fun n => .slot (some n)) ns c₃ c₄)
    (closing : c₄.Leads [']'] d) :
    Denotes file source (.once object) c d
      [.node (.mk (.arrayExpression ((n :: ns).map some)) (between file source c d).site)] := by
  refine denotes_object 13 rfl (fun e he => fails_at_bracket plain opening.1 e (by simp [he])) ?_
  have noHole : Fails (.seq (Expr.token "[") (Expr.token "]")) c := by
    obtain ⟨q, gap, rfl⟩ := gap
    exact .seqSecond (.text (Cursor.skip?_of_leads opening)) gap filled
  have noComma : Fails (Expr.token ",") c₄ := text_fails closing.1 (by decide)
  have items := Denotes.starOfAgain closed (others.again closed noComma)
  refine .call rfl (.choiceSecond noHole (.seq (.text opening) gap
    (.seq first closed (.seq items (others.closed closed) (.text closing))))) ?_
  have parts : [] ++ ([Phrase.slot (some n)] ++ (ns.map (fun n => .slot (some n)) ++ [])) =
      ((n :: ns).map some).map .slot := by simp
  rw [phrase?, arrayLiteral, parts, slots?_map, Option.map_some, withoutLastHole_some]
  rfl

end Lists

section Accesses

variable {a : Access} {ns : List Node}

namespace Denotes

/-- An object with one access, where its expression ends. -/
lemma accessed (first : Denotes file source (.once object) c c₁ [.node n]) (closed : Closed c₁)
    (one : Denotes file source (.once (.call .postfixOperation)) c₁ d [.access a]) (ends : AtCloser d) :
    Denotes file source (.once (.call .postfixExpression)) c d [.node (a.apply n)] := by
  have noAccess := ends.closing.ends (.call .postfixOperation) (by simp [continuations])
  have noUpdate := ends.closing.ends (.call .updateSuffix) (by simp [continuations])
  exact first.followed closed (.starSome one (.againNone ends.closed noAccess)) ends.closed noUpdate rfl

end Denotes

/-- Where something else than a question mark stands, no access that may be left out does. -/
lemma isOptional_of_cons {x : Char} {cs : List Char} (leads : c.Leads (x :: cs) d) (ne : x ≠ '?') :
    isOptional (between file source c d) = false := by
  have first : ('?' == x) = false := by simpa using ne.symm
  rw [isOptional, show (between file source c d).text = x :: cs from leads.upTo]
  simp [List.isPrefixOf, first]

/-- What is tried first as an access to an object: a list of arguments, perhaps an optional one. -/
lemma callArguments_fails {x : Char} {z : List Char} (closed : Closed c) (rest : c.rest = x :: z)
    (question : x ≠ '?') (parenthesis : x ≠ '(') : Fails (.call .callArguments) c := by
  obtain ⟨q, gap, here⟩ := closed
  refine .callFail (by decide) (.seqSecond (.optNone (text_fails rest question.symm)) gap ?_)
  rw [here]
  exact .seqFirst (text_fails rest parenthesis.symm)

/-- The name of a member. -/
lemma denotes_member {w : Word} (shut : Closed c) (point : c.Leads ['.'] c₁) (closed : Closed c₁)
    (leads : c₁.Leads w.text d) (stops : d.Stops isIdentPart) :
    ∃ site, Denotes file source (.once (.call .postfixOperation)) c d
      [.access {
        kind := .member (.mk (.identifier (String.ofList w.text)) site)
        optional := false
        span := (between file source c d).span }] := by
  obtain ⟨q, reads, rfl⟩ := w.reads_property (m := { Mode.outset with atomicity := .atomic })
    (by simp) leads stops
  obtain ⟨x, xs, text, start, -⟩ := w.exists_cons
  have notPrivate : Fails (.call .privateIdentifier) c₁ := by
    refine .callFail (by decide) (.seqFirst (text_fails (leads.1.trans (by rw [text]; rfl)) ?_))
    rintro rfl
    cases start
  have name : Denotes file source (.once (.call .propertyIdentifier)) c₁ q.place
      [.node (.mk (.identifier (String.ofList w.text)) (between file source c₁ q.place).site)] :=
    .token rfl rfl reads (by simp [phrase?, identifier, string_between leads, Extent.node])
  have parts := Denotes.seq (.choiceSecond (a := Expr.token "?.") (text_fails point.1 (by decide))
    (.text point)) closed (.choiceSecond notPrivate name)
  have noCall := callArguments_fails shut point.1 (by decide) (by decide)
  have optional : isOptional (between file source c q.place) = false :=
    isOptional_of_cons (point.trans leads) (by decide)
  have access : Denotes file source (.once (.call .memberAccess)) c q.place _ :=
    .call rfl parts (by rw [phrase?, List.nil_append, memberAccess, access, optional])
  exact ⟨_, .call rfl (.choiceSecond noCall (.choiceFirst access)) rfl⟩

/-- What stands between the parentheses of a call. -/
def arguments : Peg.Expr Rule :=
  .opt (all [argument, .star (.seq (Expr.token ",") argument), .opt (Expr.token ",")])

/-- The arguments of a call, in parentheses. -/
lemma denotes_call (opening : c.Leads ['('] c₁) (gap : GapTo c₁ c₂)
    (inside : Denotes file source (.once arguments) c₂ c₃ (ns.map .node)) (closed : Closed c₃)
    (closing : c₃.Leads [')'] d) :
    Denotes file source (.once (.call .postfixOperation)) c d
      [.access { kind := .call ns, optional := false, span := (between file source c d).span }] := by
  have shut : Closed c := .of_shut (shut_of_solid opening.1 (by decide))
  have noMark : Fails (Expr.token "?.") c := text_fails opening.1 (by decide)
  have parts := Denotes.seq (.optNone noMark) shut (.seq (.text opening) gap
    (.seq inside closed (.text closing)))
  obtain ⟨cs, between⟩ := gap.leads
  obtain ⟨ds, within⟩ := inside.leads
  have optional : isOptional (Reading.between file source c d) = false :=
    isOptional_of_cons (opening.trans (between.trans (within.trans closing))) (by decide)
  refine .call rfl (.choiceFirst (.call (r := .callArguments) rfl parts ?_)) rfl
  simp [phrase?, callArguments, access, optional]

/-- No arguments. -/
lemma denotes_noArguments {z : List Char} (plain : Plain c.rest) (rest : c.rest = ')' :: z) :
    Denotes file source (.once arguments) c c [] :=
  .optNone (.seq (argument_fails plain rest))

/-- One argument or more. -/
lemma denotes_arguments {z : List Char} (first : Denotes file source (.once argument) c c₁ [.node n])
    (closed : Closed c₁) (others : Items file source argument .node ns c₁ d) (rest : d.rest = ')' :: z) :
    Denotes file source (.once arguments) c d ((n :: ns).map .node) := by
  have noComma : Fails (Expr.token ",") d := text_fails rest (by decide)
  have items := Denotes.starOfAgain closed (others.again closed noComma)
  have whole := first.seq closed (.seq items (others.closed closed) (.optNone noComma))
  simpa [arguments, all] using Denotes.optSome whole

end Accesses

end ScriptTyping.Reading
