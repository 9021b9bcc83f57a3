import ScriptTyping.Proofs.Grammar.Spelling
import ScriptTyping.Proofs.Reading.Builders
import ScriptTyping.Proofs.Reading.Composed
import ScriptTyping.Reading.Parse

/-!
# Every match is assembled

A parse tree that the grammar reads stands for a phrase of the sort of its rule, unless a number in
it denotes too much; then this is what is told, of one of the numbers to which it applies.

* `Literal.Overflows` says of the text of a number that its digits denote too much.
* `assemble_of_isRead` assembles the tree of any rule, by induction on the tree.
-/

namespace ScriptTyping.Reading
open Peg Peg.Expr

section Tokens

variable {e : Extent} {ps : List Phrase}

/-- The words of a rule whose matches are one of several words. -/
lemma token_of_spells {w : String} {ws : List String}
    (h : Spells (Grammar.wholeWord (w :: ws)) e.text) : ∃ v ∈ w :: ws, e.string = v := by
  obtain ⟨v, hv, text⟩ := Grammar.spells_wholeWord.1 h
  exact ⟨v, hv, by rw [Extent.string, text, String.ofList_toList]⟩

/-- The operators of a level. -/
def levelSymbols : Precedence → List String
  | .logicalOr => ["||", "??"]
  | .logicalAnd => ["&&"]
  | .bitwiseOr => ["|"]
  | .bitwiseXor => ["^"]
  | .bitwiseAnd => ["&"]
  | .equality => ["===", "!==", "==", "!="]
  | .relational => ["<=", ">=", "<", ">", "instanceof", "in"]
  | .shift => [">>>", ">>", "<<"]
  | .additive => ["+", "-"]
  | .multiplicative => ["**", "*", "/", "%"]

lemma spells_butNot {w : String} {ws : List String} {cs : List Char} :
    Spells (Grammar.butNot w ws) cs ↔ cs = w.toList := by
  simp [Grammar.butNot, token]

lemma levelSymbols_of_spells {level : Precedence} {cs : List Char}
    (h : Spells (Grammar.operators level) cs) : ∃ w ∈ levelSymbols level, cs = w.toList := by
  cases level
  all_goals
    simp [Grammar.operators, oneOf, token, spells_butNot, Grammar.spells_wholeWord] at h
    simpa [levelSymbols, or_assoc] using h

/-- An operator of a level joins any two operands. -/
lemma combine_isSome {level : Precedence} {w : String} (h : w ∈ levelSymbols level) (a b : Node) :
    (combine w a b).isSome := by
  have known : (LogicalOperator.ofSymbol? w).isSome ∨ (BinaryOperator.ofSymbol? w).isSome := by
    revert w
    cases level <;> decide
  rw [combine]
  cases logical : LogicalOperator.ofSymbol? w with
  | some op => rfl
  | none =>
    rw [logical] at known
    simpa using known

/-- The operators before an operand. -/
def unarySymbols : List String :=
  ["++", "--", "+", "-", "!", "~", "typeof", "void", "delete", "await", "yield"]

lemma unarySymbols_of_spells {cs : List Char} (h : Spells Grammar.unaryOperators cs) :
    ∃ w ∈ unarySymbols, cs = w.toList := by
  simp [Grammar.unaryOperators, oneOf, token, Grammar.spells_wholeWord] at h
  simpa [unarySymbols] using h

/-- An operator before an operand takes any. -/
lemma unaryForm_isSome {w : String} (h : w ∈ unarySymbols) (a : Node) :
    (unaryForm w a).isSome := by
  have known : w = "++" ∨ w = "--" ∨ w = "await" ∨ w = "yield" ∨
      (UnaryOperator.ofSymbol? w).isSome := by
    revert w
    decide
  rw [unaryForm]
  repeat' split
  case isFalse => simp_all [UpdateOperator.symbol]
  all_goals rfl

/-- A token stands for a phrase of the sort of its rule, if it is no number that denotes too
much. -/
lemma token_fits {r : Rule} (atomic : Grammar.kind r = .atomic)
    (spelled : Spells (Grammar.body r) e.text)
    (told : r = .number → ¬ Literal.Overflows e.text) :
    ∃ p, phrase? r e ps = some p ∧ Fits r p := by
  -- The text of a token is one of the few that its rule spells, and each of these stands for something; only
  -- a number may be too large to.
  cases r
  case declarationKind =>
    obtain ⟨w, hw, string⟩ := token_of_spells spelled
    refine ⟨_, rfl, w, ?_⟩
    rw [string]
    simp at hw
    obtain rfl | rfl | rfl := hw
    all_goals exact ⟨_, rfl, rfl⟩
  case asyncModifier =>
    obtain ⟨w, hw, string⟩ := token_of_spells spelled
    exact ⟨_, rfl, by rw [string, List.mem_singleton.1 hw]; rfl⟩
  case staticModifier =>
    obtain ⟨w, hw, string⟩ := token_of_spells spelled
    exact ⟨_, rfl, by rw [string, List.mem_singleton.1 hw]; rfl⟩
  case awaitMarker =>
    obtain ⟨w, hw, string⟩ := token_of_spells spelled
    exact ⟨_, rfl, by rw [string, List.mem_singleton.1 hw]; rfl⟩
  case accessorKind =>
    obtain ⟨w, hw, string⟩ := token_of_spells spelled
    refine ⟨_, rfl, w, ?_⟩
    rw [string]
    simp at hw
    obtain rfl | rfl := hw
    all_goals exact ⟨_, rfl, rfl⟩
  case binaryOperator level =>
    obtain ⟨w, hw, text⟩ := levelSymbols_of_spells spelled
    exact ⟨_, rfl, w, by rw [Extent.string, text, String.ofList_toList], combine_isSome hw⟩
  case unaryOperator =>
    obtain ⟨w, hw, text⟩ := unarySymbols_of_spells spelled
    exact ⟨_, rfl, w, by rw [Extent.string, text, String.ofList_toList], unaryForm_isSome hw⟩
  case number =>
    have value : Literal.number? e.text ≠ none :=
      fun h => told rfl ((Literal.number?_eq_none_iff spelled).1 h)
    obtain ⟨m, hm⟩ := Option.ne_none_iff_exists'.1 value
    exact ⟨_, congrArg (Option.map _) hm, _, rfl⟩
  case string =>
    obtain ⟨body, hbody⟩ := inner?_of_string spelled
    exact ⟨_, congrArg (Option.map _) hbody, _, rfl⟩
  case templateLiteral =>
    obtain ⟨body, hbody⟩ := inner?_of_template spelled
    exact ⟨_, congrArg (Option.map _) hbody, _, rfl⟩
  case regex =>
    obtain ⟨v, hv⟩ := regexValue?_of_regex spelled
    exact ⟨_, congrArg (Option.map _) hv, _, rfl⟩
  case updateSuffix => exact ⟨_, rfl, _, _, rfl⟩
  all_goals first
    | exact ⟨_, rfl, _, rfl⟩
    | cases atomic

end Tokens

section SwitchCases

/-- A blank begins with no letter. -/
lemma blank_first {cs : List Char} (h : Spells Grammar.blank cs) :
    ∃ x xs, cs = x :: xs ∧ x.isAlpha = false := by
  simp only [Grammar.blank, oneOf, all, token, spells_choice, spells_char, spells_seq,
    spells_text] at h
  obtain ⟨x, rfl, hx⟩ | ⟨_, _, rfl, rfl, -⟩ | ⟨_, _, rfl, rfl, -⟩ | ⟨_, _, rfl, rfl, -⟩ := h
  · refine ⟨x, [], rfl, ?_⟩
    simp only [Grammar.isBlank, Bool.or_eq_true, beq_iff_eq] at hx
    obtain ((((((rfl | rfl) | rfl) | rfl) | rfl) | rfl) | rfl) | rfl := hx
    all_goals decide
  all_goals exact ⟨_, _, rfl, by decide⟩

/-- A reserved word begins with a letter. -/
lemma keyword_first {m : Mode} {c : Cursor} {q : Match Rule}
    (h : Reads language m (.once (.call .keyword)) c (some q)) :
    ∃ x xs, c.rest = x :: xs ∧ x.isAlpha = true := by
  cases h with
  | silent kind _ => cases kind
  | call _ h =>
    obtain ⟨cs, l, spelled⟩ := h.spells (by nofun)
    obtain ⟨w, hw, rfl⟩ := Grammar.spells_wholeWord.1 spelled
    have letter : ∀ w ∈ Grammar.reservedWords, w.toList.head?.any Char.isAlpha = true := by
      decide
    obtain ⟨x, first, alpha⟩ := (Option.any_eq_true _ _).1 (letter w hw)
    obtain ⟨xs, e⟩ := List.head?_eq_some_iff.1 first
    exact ⟨x, xs ++ _, by rw [l.1, e, List.cons_append], alpha⟩

/-- No gap is skipped before a letter. -/
lemma gap_place {m : Mode} {c : Cursor} {q : Match Rule} {x : Char} {xs : List Char}
    (h : Reads language m (.once .gap) c (some q)) (rest : c.rest = x :: xs)
    (alpha : x.isAlpha = true) : q.place = c := by
  cases h with
  | tight _ => rfl
  | gap _ h =>
    cases h with
    | starNone _ => rfl
    | starSome h _ =>
      obtain ⟨cs, l, spelled⟩ := h.spells (by nofun)
      obtain ⟨y, ys, rfl, other⟩ := blank_first spelled
      have : x :: xs = (y :: ys) ++ _ := rest.symm.trans l.1
      cases this
      rw [alpha] at other
      cases other

/-- What comes before the colon of a case leaves the test behind the word `case`, or is the word of the
default case. -/
lemma caseHead_reads {m : Mode} {c : Cursor} {q : Match Rule} (builds : m.builds = true)
    (h : Reads language m (.once (.seq (.ahead (.call .keyword))
      (.choice (.seq (token "case") (.call .expression)) (token "default")))) c (some q)) :
    (∃ u d cs, q.trees = [u] ∧ u.rule = .expression ∧ c.Leads "case".toList d ∧ d.Leads cs q.place) ∨
      (q.trees = [] ∧ c.Leads "default".toList q.place) := by
  cases h with
  | seq ahead gap choice =>
    cases ahead with
    | ahead ahead =>
      obtain ⟨x, xs, rest, alpha⟩ := keyword_first ahead
      rw [gap_place gap rest alpha] at choice
      cases choice with
      | choiceFirst test =>
        have left := test.yields builds
        simp [Task.expr, token] at left
        obtain ⟨u, e, rule⟩ := left
        cases test with
        | seq word gap call =>
          cases word with
          | text skip =>
            obtain ⟨cs, l⟩ := gap.leads
            obtain ⟨ds, l'⟩ := call.leads
            exact .inl ⟨u, _, cs ++ ds, e, rule, Cursor.leads_of_skip? skip, l.trans l'⟩
      | choiceSecond _ word =>
        cases word with
        | text skip => exact .inr ⟨rfl, Cursor.leads_of_skip? skip⟩

/-- The parts of a case: a test and statements, or statements alone if it begins with the word of the
default case. -/
lemma switchCase_parts {source : List Char} {t : Peg.Tree Rule} (h : t.IsRead language source)
    (rule : t.rule = .switchCase) :
    ("default".toList.isPrefixOf t.text = true ∧
        Yields language (fun r u => u.rule = r) (.star Grammar.statement) t.children) ∨
      ("default".toList.isPrefixOf t.text = false ∧ ∃ test rest, t.children = test :: rest ∧
        test.rule = .expression ∧
          Yields language (fun r u => u.rule = r) (.star Grammar.statement) rest) := by
  obtain ⟨_, _, m, q, builds, reads, text, below⟩ := h
  rw [rule] at builds reads
  have builds : m.builds = true := builds
  generalize Cursor.mk t.start (source.drop t.start) = c at reads text
  obtain ⟨cs, l⟩ := reads.leads
  rw [text, below, l.upTo]
  cases reads with
  | seq head gap rest =>
    have left := rest.yields builds
    simp [Task.expr, token, all] at left
    obtain ⟨ds, l₂⟩ := gap.leads
    obtain ⟨es, l₃⟩ := rest.leads
    obtain ⟨u, d, bs, e, expression, word, l₁⟩ | ⟨e, word⟩ := caseHead_reads builds head
    · have whole := (word.trans (l₁.trans (l₂.trans l₃))).1
      rw [l.1, List.append_cancel_right_eq] at whole
      refine .inr ⟨?_, u, _, by rw [e]; rfl, expression, left⟩
      rw [whole]
      rfl
    · have whole := (word.trans (l₂.trans l₃)).1
      rw [l.1, List.append_cancel_right_eq] at whole
      refine .inl ⟨?_, by simpa [e] using left⟩
      rw [whole, List.isPrefixOf_iff_prefix]
      exact List.prefix_append _ _

end SwitchCases

section Rules

/-- The parts of every rule that has parts make up a phrase of its sort. That a case has a test is
not told from its parts alone, and neither is the text of a marker. -/
lemma builds_of_kind {r : Rule} (kind : Grammar.kind r ≠ .atomic) (loud : Grammar.kind r ≠ .silent)
    (marker : r ≠ .generatorMarker) (switch : r ≠ .switchCase) : Builds r := by
  cases r
  case endOfInput => exact fun _ _ _ => ⟨_, rfl, rfl⟩
  case program => exact builds_program
  case variableDeclaration => exact builds_variableDeclaration
  case forDeclaration => exact builds_forDeclaration
  case variableDeclarator => exact builds_variableDeclarator
  case functionDeclaration => exact builds_functionDeclaration
  case functionBody => exact builds_functionBody
  case classDeclaration => exact builds_classDeclaration
  case classHeritage => exact builds_classHeritage
  case classBody => exact builds_classBody
  case classMember => exact builds_classMember
  case classField => exact builds_classField
  case importDeclaration => exact builds_importDeclaration
  case importClause => exact builds_importClause
  case namespaceImport => exact builds_namespaceImport
  case namedImports => exact builds_namedImports
  case importSpecifier => exact builds_importSpecifier
  case exportDeclaration => exact builds_exportDeclaration
  case exportDefault => exact builds_exportDefault
  case exportList => exact builds_exportList
  case exportSpecifier => exact builds_exportSpecifier
  case exportAll => exact builds_exportAll
  case returnStatement => exact builds_returnStatement
  case ifStatement => exact builds_ifStatement
  case whileStatement => exact builds_whileStatement
  case doWhileStatement => exact builds_doWhileStatement
  case forStatement => exact builds_forStatement
  case forEachHead => exact builds_forEachHead
  case forClassicHead => exact builds_forClassicHead
  case forInit => exact builds_forInit
  case forTest => exact builds_forTest
  case forUpdate => exact builds_forUpdate
  case tryStatement => exact builds_tryStatement
  case catchClause => exact builds_catchClause
  case finallyClause => exact builds_finallyClause
  case switchStatement => exact builds_switchStatement
  case breakStatement => exact builds_breakStatement
  case continueStatement => exact builds_continueStatement
  case labeledStatement => exact builds_labeledStatement
  case throwStatement => exact builds_throwStatement
  case block => exact builds_block
  case emptyStatement => exact fun _ _ _ => ⟨_, rfl, _, rfl⟩
  case expressionStatement => exact builds_expressionStatement
  case bindingElement => exact builds_bindingElement
  case restElement => exact builds_restElement
  case objectPattern => exact builds_objectPattern
  case patternProperty => exact builds_patternProperty
  case arrayPattern => exact builds_arrayPattern
  case patternItem => exact builds_patternItem
  case parameterList => exact builds_parameterList
  case expression => exact builds_expression
  case assignmentExpression => exact builds_assignmentExpression
  case arrowFunction => exact builds_arrowFunction
  case arrowParameters => exact builds_arrowParameters
  case conditionalExpression => exact builds_conditionalExpression
  case binaryExpression level => exact builds_binaryExpression level
  case unaryExpression => exact builds_unaryExpression
  case postfixExpression => exact builds_postfixExpression
  case postfixOperation => exact builds_postfixOperation
  case callArguments => exact builds_callArguments
  case memberAccess => exact builds_memberAccess
  case computedAccess => exact builds_computedAccess
  case newExpression => exact builds_newExpression
  case newTarget => exact builds_newTarget
  case thisExpression => exact fun _ _ _ => ⟨_, rfl, _, rfl⟩
  case superExpression => exact fun _ _ _ => ⟨_, rfl, _, rfl⟩
  case parenthesizedExpression => exact builds_parenthesizedExpression
  case importCall => exact builds_importCall
  case metaProperty => exact builds_metaProperty
  case functionExpression => exact builds_functionExpression
  case classExpression => exact builds_classExpression
  case arrayLiteral => exact builds_arrayLiteral
  case arrayItem => exact builds_arrayItem
  case spreadElement => exact builds_spreadElement
  case objectLiteral => exact builds_objectLiteral
  case property => exact builds_property
  case methodProperty => exact builds_methodProperty
  case shorthandProperty => exact builds_shorthandProperty
  case propertyKey => exact builds_propertyKey
  case computedKey => exact builds_computedKey
  case generatorMarker => exact absurd rfl marker
  case switchCase => exact absurd rfl switch
  case templateHolePart => exact absurd rfl loud
  all_goals exact absurd rfl kind

variable {source : List Char} {t : Peg.Tree Rule}

/-- The marker of generators is a star. -/
lemma generatorMarker_text (h : t.IsRead language source) (rule : t.rule = .generatorMarker) :
    t.text = "*".toList := by
  obtain ⟨_, _, m, q, _, reads, text, _⟩ := h
  rw [rule] at reads
  rw [text]
  cases reads with
  | text skip => exact (Cursor.leads_of_skip? skip).upTo

/-- A match stands for a phrase of the sort of its rule if its parts do, and if it is no number that
denotes too much. -/
lemma phrase?_fits (h : t.IsRead language source) {e : Extent} (text : e.text = t.text)
    {value : Peg.Tree Rule → Phrase} (parts : ∀ u ∈ t.children, Fits u.rule (value u))
    (told : t.rule = .number → ¬ Literal.Overflows t.text) :
    ∃ p, phrase? t.rule e (t.children.map value) = some p ∧ Fits t.rule p := by
  have loud : Grammar.kind t.rule ≠ .silent := h.2.1
  by_cases atomic : Grammar.kind t.rule = .atomic
  · exact token_fits atomic (text ▸ h.spells atomic) (text ▸ told)
  · have kind : Grammar.kind t.rule = .normal ∨ Grammar.kind t.rule = .compound := by
      cases k : Grammar.kind t.rule with
      | silent => exact absurd k loud
      | atomic => exact absurd k atomic
      | normal => exact .inl rfl
      | compound => exact .inr rfl
    have left : Yields language Fits (Grammar.body t.rule) (t.children.map value) :=
      (h.yields kind).map fun r u hu rule => rule ▸ parts u hu
    by_cases marker : t.rule = .generatorMarker
    · rw [marker]
      exact ⟨_, rfl, by rw [Extent.string, text, generatorMarker_text h marker]; rfl⟩
    · by_cases switch : t.rule = .switchCase
      · have test := switchCase_parts h switch
        rw [switch] at left ⊢
        refine switchCase_fits left ?_
        rw [text]
        refine test.imp And.left ?_
        rintro ⟨-, u, us, e, -⟩
        simp [e]
      · exact builds_of_kind atomic loud marker switch e _ left

end Rules

section Assembly

variable {file : String} {source : List Char}

lemma mapM_ok {ε α : Type} (xs : List α) : (xs.map (Except.ok (ε := ε))).mapM id = .ok xs := by
  induction xs with
  | nil => rfl
  | cons x xs ih =>
    rw [List.map_cons, List.mapM_cons, ih]
    rfl

lemma mapM_error {ε α : Type} {xs : List (Except ε α)} (h : ∃ f, .error f ∈ xs) :
    ∃ f, .error f ∈ xs ∧ xs.mapM id = .error f := by
  induction xs with
  | nil => simp at h
  | cons x xs ih =>
    rw [List.mapM_cons]
    cases x with
    | error f => exact ⟨f, List.mem_cons_self, rfl⟩
    | ok x =>
      obtain ⟨f, hf, e⟩ := ih (by simpa using h)
      exact ⟨f, List.mem_cons_of_mem _ hf, by rw [e]; rfl⟩

/-- Parts that are all there are read in whatever order. -/
lemma inReadingOrder_ok (r : Rule) (ps : List Phrase) :
    inReadingOrder r (ps.map .ok) = .ok ps := by
  have reversed : ((ps.map Except.ok).reverse.mapM id).map List.reverse =
      (Except.ok ps : Except Fault _) := by
    rw [← List.map_reverse, mapM_ok]
    simp [Except.map]
  cases r
  case forStatement => exact reversed
  all_goals exact mapM_ok ps

/-- Of several faults one is told. -/
lemma inReadingOrder_error (r : Rule) {ps : List (Except Fault Phrase)}
    (h : ∃ f, .error f ∈ ps) : ∃ f, .error f ∈ ps ∧ inReadingOrder r ps = .error f := by
  have reversed : ∃ f, .error f ∈ ps ∧
      (ps.reverse.mapM id).map List.reverse = (.error f : Except Fault _) := by
    have some : ∃ f, .error f ∈ ps.reverse := by simpa using h
    obtain ⟨f, hf, e⟩ := mapM_error some
    exact ⟨f, List.mem_reverse.1 hf, by rw [e]; rfl⟩
  cases r
  case forStatement => exact reversed
  all_goals exact mapM_error h

lemma inReadingOrder_eq_ok {r : Rule} {parts : List (Except Fault Phrase)} {ps : List Phrase}
    (h : inReadingOrder r parts = .ok ps) : parts = ps.map .ok := by
  by_cases fault : ∃ f, .error f ∈ parts
  · obtain ⟨f, _, e⟩ := inReadingOrder_error r fault
    rw [e] at h
    cases h
  · obtain ⟨qs, rfl⟩ : ∃ qs, parts = List.map Except.ok qs := by
      clear h
      induction parts with
      | nil => exact ⟨[], rfl⟩
      | cons x xs ih =>
        obtain ⟨qs, rfl⟩ := ih fun ⟨f, hf⟩ => fault ⟨f, List.mem_cons_of_mem _ hf⟩
        cases x with
        | error f => exact absurd ⟨f, List.mem_cons_self⟩ fault
        | ok q => exact ⟨q :: qs, rfl⟩
    rw [inReadingOrder_ok] at h
    cases h
    rfl

/-- A number in a tree denotes too much. -/
def Excessive (t u : Peg.Tree Rule) : Prop :=
  u.Under t ∧ u.rule = .number ∧ Literal.Overflows u.text

/-- Where a tree lies. -/
def extent (file : String) (source : List Char) (t : Peg.Tree Rule) : Extent :=
  { file, source, start := t.start, text := t.text }

/-- The number of bytes before the given number of characters. -/
def offsetAt (source : List Char) (n : Nat) : Nat :=
  Text.byteLength (source.take n)

lemma offsetAt_le {i j : Nat} (le : i ≤ j) : offsetAt source i ≤ offsetAt source j := by
  obtain ⟨k, rfl⟩ := Nat.exists_eq_add_of_le le
  rw [offsetAt, offsetAt, List.take_add, Text.byteLength_append]
  exact Nat.le_add_right _ _

lemma offsetAt_lt {i j : Nat} (lt : i < j) (inside : j ≤ source.length) :
    offsetAt source i < offsetAt source j := by
  have le : offsetAt source (i + 1) ≤ offsetAt source j := offsetAt_le lt
  refine Nat.lt_of_lt_of_le ?_ le
  have here : i < source.length := by omega
  rw [offsetAt, offsetAt, List.take_succ_eq_append_getElem here, Text.byteLength_append]
  have pos := Char.utf8Size_pos source[i]
  simp only [Text.byteLength_cons, Text.byteLength_nil]
  omega

/-- The fault of a number. -/
def excess (file : String) (source : List Char) (u : Peg.Tree Rule) : Fault :=
  .numberFormat (extent file source u).string (extent file source u).site

lemma assemble_eq (t : Peg.Tree Rule) :
    assemble file source t =
      (inReadingOrder t.rule (t.children.map (assemble file source))).bind
        (build t.rule (extent file source t)) := by
  obtain ⟨r, i, cs, ts⟩ := t
  rw [assemble, Tree.fold_node]
  rfl

lemma excessive_of_child {t u v : Peg.Tree Rule} (h : u ∈ t.children) (e : Excessive u v) :
    Excessive t v :=
  ⟨.inside h e.1, e.2⟩

/-- A number that denotes too much is the tree itself or lies in one of the trees below it. -/
lemma excessive_cases {t v : Peg.Tree Rule} (e : Excessive t v) :
    (t.rule = .number ∧ Literal.Overflows t.text) ∨ ∃ u ∈ t.children, Excessive u v := by
  obtain ⟨under, number⟩ := e
  cases under with
  | self => exact .inl number
  | inside h under => exact .inr ⟨_, h, under, number⟩

/-- What is assembled of a tree: a phrase of the sort of its rule if no number in it denotes too
much, and else the fault of such a number. -/
def Assembled (file : String) (source : List Char) (t : Peg.Tree Rule) : Prop :=
  ((∀ u, ¬ Excessive t u) → ∃ p, assemble file source t = .ok p ∧ Fits t.rule p) ∧
    ((∃ u, Excessive t u) → ∃ u, Excessive t u ∧
      assemble file source t = .error (excess file source u))

/-- The phrases of parts that are assembled without a fault. -/
lemma exists_phrases {ts : List (Peg.Tree Rule)}
    (h : ∀ u ∈ ts, ∃ p, assemble file source u = .ok p ∧ Fits u.rule p) :
    ∃ value : Peg.Tree Rule → Phrase, ts.map (assemble file source) = (ts.map value).map .ok ∧
      ∀ u ∈ ts, Fits u.rule (value u) := by
  refine ⟨fun u => ((assemble file source u).toOption).getD .finish, ?_, fun u hu => ?_⟩
  · rw [List.map_map]
    refine List.map_congr_left fun u hu => ?_
    obtain ⟨p, e, _⟩ := h u hu
    simp [e, Except.toOption]
  · obtain ⟨p, e, fits⟩ := h u hu
    simpa [e, Except.toOption] using fits

/-- What a tree stands for, when the trees below it stand for something. -/
lemma assemble_of_phrase? {t : Peg.Tree Rule} {ps : List Phrase} {p : Phrase}
    (parts : t.children.map (assemble file source) = ps.map .ok)
    (made : phrase? t.rule (extent file source t) ps = some p) :
    assemble file source t = .ok p := by
  rw [assemble_eq, parts, inReadingOrder_ok]
  simp [Except.bind, build, made]

section Step

variable {t : Peg.Tree Rule} (h : t.IsRead language source)
  (ih : ∀ u ∈ t.children, Assembled file source u)

include h ih

lemma assembled_of_modest (modest : ∀ u, ¬ Excessive t u) :
    ∃ p, assemble file source t = .ok p ∧ Fits t.rule p := by
  obtain ⟨value, parts, fits⟩ := exists_phrases fun u hu =>
    (ih u hu).1 fun v e => modest v (excessive_of_child hu e)
  obtain ⟨p, made, fits⟩ := phrase?_fits h (e := extent file source t) rfl fits
    fun number overflows => modest t ⟨.self, number, overflows⟩
  exact ⟨p, assemble_of_phrase? parts made, fits⟩

omit h in
/-- A part that is not assembled keeps its whole from being assembled. -/
lemma assembled_of_part (some : ∃ u ∈ t.children, ∃ v, Excessive u v) :
    ∃ u, Excessive t u ∧ assemble file source t = .error (excess file source u) := by
  obtain ⟨u, hu, excessive⟩ := some
  obtain ⟨v, _, fails⟩ := (ih u hu).2 excessive
  obtain ⟨f, hf, fault⟩ := inReadingOrder_error t.rule
    ⟨_, List.mem_map.2 ⟨u, hu, fails⟩⟩
  obtain ⟨w, hw, e⟩ := List.mem_map.1 hf
  by_cases excessive : ∃ v, Excessive w v
  · obtain ⟨v, below, fails⟩ := (ih w hw).2 excessive
    rw [fails] at e
    cases e
    refine ⟨v, excessive_of_child hw below, ?_⟩
    rw [assemble_eq, fault]
    rfl
  · obtain ⟨p, made, _⟩ := (ih w hw).1 fun v e => excessive ⟨v, e⟩
    rw [made] at e
    cases e

/-- A number that denotes too much is told. -/
lemma assembled_of_number (number : t.rule = .number) (overflows : Literal.Overflows t.text)
    (parts : ∀ u ∈ t.children, ∀ v, ¬ Excessive u v) :
    assemble file source t = .error (excess file source t) := by
  obtain ⟨value, made, -⟩ := exists_phrases fun u hu => (ih u hu).1 (parts u hu)
  have spelled : Spells Grammar.number t.text := by
    have := h.spells (by rw [number]; rfl)
    rwa [number] at this
  have none : phrase? .number (extent file source t) (t.children.map value) = none := by
    simp [phrase?, extent, (Literal.number?_eq_none_iff spelled).2 overflows]
  rw [assemble_eq, made, inReadingOrder_ok, number]
  simp [Except.bind, build, none, excess]

end Step

/-- Every tree that the grammar reads is assembled, but for numbers that denote too much. -/
theorem assemble_of_isRead {t : Peg.Tree Rule} (h : t.IsRead language source) :
    Assembled file source t := by
  refine Tree.IsRead.induction (fun t h ih => ⟨assembled_of_modest h ih, ?_⟩) t h
  rintro ⟨v, excessive⟩
  by_cases part : ∃ u ∈ t.children, ∃ v, Excessive u v
  · exact assembled_of_part ih part
  · have parts : ∀ u ∈ t.children, ∀ v, ¬ Excessive u v :=
      fun u hu v e => part ⟨u, hu, v, e⟩
    rcases excessive_cases excessive with ⟨number, overflows⟩ | ⟨u, hu, e⟩
    · exact ⟨t, ⟨.self, number, overflows⟩, assembled_of_number h ih number overflows parts⟩
    · exact absurd e (parts u hu v)

/-- What a tree stands for is of the sort of its rule. -/
lemma fits_of_assemble {t : Peg.Tree Rule} {p : Phrase} (h : t.IsRead language source)
    (made : assemble file source t = .ok p) : Fits t.rule p := by
  have assembled : Assembled file source t := assemble_of_isRead h
  obtain ⟨modest, excessive⟩ := assembled
  by_cases some : ∃ u, Excessive t u
  · obtain ⟨u, _, fails⟩ := excessive some
    rw [made] at fails
    cases fails
  · obtain ⟨q, e, fits⟩ := modest fun u below => some ⟨u, below⟩
    rw [made] at e
    cases e
    exact fits

lemma phrase?_of_build {r : Rule} {e : Extent} {ps : List Phrase} {p : Phrase}
    (made : build r e ps = .ok p) : phrase? r e ps = some p := by
  cases found : phrase? r e ps with
  | some q =>
    unfold build at made
    rw [found] at made
    cases made
    rfl
  | none =>
    unfold build at made
    rw [found] at made
    cases r
    all_goals cases made

/-- A match that stands for a leaf has no parts. -/
lemma children_of_leaf {t : Peg.Tree Rule} (h : t.IsRead language source) (leaf : isLeaf t.rule = true) :
    t.children = [] := by
  by_cases atomic : Grammar.kind t.rule = .atomic
  · exact Grammar.children_of_atomic h atomic
  · have kind : language.kind t.rule = .normal := by
      cases rule : t.rule
      all_goals first
        | rfl
        | simp [rule, isLeaf, Grammar.kind] at leaf atomic
    have left : Yields language (fun r u => u.rule = r) (Grammar.body t.rule) t.children :=
      h.yields (.inl kind)
    cases rule : t.rule
    case endOfInput | generatorMarker | emptyStatement =>
      rw [rule] at left
      exact left
    case thisExpression | superExpression =>
      rw [rule] at left
      simpa [Grammar.body, Grammar.word, token] using left
    all_goals simp [rule, isLeaf, Grammar.kind] at leaf atomic

/-- What a tree stands for is made of what the trees below it stand for. -/
lemma phrase?_of_assemble {t : Peg.Tree Rule} {p : Phrase} (made : assemble file source t = .ok p) :
    ∃ value, (∀ u ∈ t.children, assemble file source u = .ok (value u)) ∧
      phrase? t.rule (extent file source t) (t.children.map value) = some p := by
  rw [assemble_eq] at made
  cases ordered : inReadingOrder t.rule (t.children.map (assemble file source)) with
  | error f =>
    rw [ordered] at made
    cases made
  | ok ps =>
    rw [ordered] at made
    have parts := inReadingOrder_eq_ok ordered
    have each : ∀ u ∈ t.children, ∃ q, assemble file source u = .ok q := by
      intro u hu
      obtain ⟨q, _, e⟩ := List.mem_map.1 (parts ▸ List.mem_map_of_mem hu)
      exact ⟨q, e.symm⟩
    refine ⟨fun u => ((assemble file source u).toOption).getD .finish, fun u hu => ?_, ?_⟩
    · obtain ⟨q, e⟩ := each u hu
      simp [e, Except.toOption]
    · have same : (t.children.map fun u => ((assemble file source u).toOption).getD .finish) =
          ps := by
        have := congrArg (List.map fun x => (Except.toOption x).getD .finish) parts
        simpa [Function.comp_def, Except.toOption] using this
      rw [same]
      exact phrase?_of_build made

/-- What a match exports is no identifier and no declaration. -/
lemma isNew_of_assemble {t : Peg.Tree Rule} {f : Form Node} (h : t.IsRead language source)
    (made : assemble file source t = .ok (.exported f)) : f.IsNew false := by
  obtain ⟨_, -, found⟩ := phrase?_of_assemble made
  exact isNew_of_exported (fits_of_assemble h made) found

/-- Whether the matches of a rule are exports without their keyword. -/
def isExport (r : Rule) : Bool :=
  r matches .exportDefault | .exportList | .exportAll

/-- Only an export with its keyword has a part that is one without. -/
lemma rule_of_exported {t u : Peg.Tree Rule} {f : Form Node} (h : t.IsRead language source)
    (hu : u ∈ t.children) (made : assemble file source u = .ok (.exported f)) :
    t.rule = .exportDeclaration := by
  have part : isExport u.rule = true := by
    have fits := fits_of_assemble (h.children u hu) made
    cases rule : u.rule
    case exportDefault | exportList | exportAll => rfl
    all_goals simp [rule, Fits, IsNode, IsKey, IsField, IsAccess, IsCall, IsUpdate] at fits
  refine Decidable.byContradiction fun other => ?_
  have others : ∀ r ∈ Rule.all, r ≠ .exportDeclaration →
      Grammar.kind r = .normal ∨ Grammar.kind r = .compound →
      (Grammar.body r).callsOnly (fun r => !isExport r && r ≠ .templateHolePart) = true := by
    decide +kernel
  have loud : ∀ r, (!isExport r && r ≠ .templateHolePart) = true → language.kind r ≠ .silent :=
    fun r ok => kind_ne_silent (of_decide_eq_true (Bool.and_eq_true_iff.1 ok).2)
  cases kind : Grammar.kind t.rule with
  | silent => exact h.2.1 kind
  | atomic =>
    rw [Grammar.children_of_atomic h kind] at hu
    cases hu
  | normal | compound =>
    have left := h.yields (by simp [language, kind])
    have only := others _ (Rule.mem_all _) other (by simp [kind])
    obtain ⟨r, ok, rule⟩ := left.exists_rule loud only u hu
    rw [rule] at part
    simp [part] at ok

lemma isNew_of_exported_part {t : Peg.Tree Rule} {value : Peg.Tree Rule → Phrase}
    (h : t.IsRead language source) (each : ∀ u ∈ t.children, assemble file source u = .ok (value u)) :
    ∀ f, .exported f ∈ t.children.map value → f.IsNew false := by
  intro f hf
  obtain ⟨u, hu, e⟩ := List.mem_map.1 hf
  exact isNew_of_assemble (h.children u hu) (e ▸ each u hu)

/-- Parts are sound if it is known where the items of each of them stand. -/
lemma sound_of_placed {t : Peg.Tree Rule} {value : Peg.Tree Rule → Phrase} (h : t.IsRead language source)
    (each : ∀ u ∈ t.children, assemble file source u = .ok (value u))
    (placed : ∀ u ∈ t.children, ∀ x ∈ (value u).items, x.Placed) : Sound (t.children.map value) := by
  refine ⟨isNew_of_exported_part h each, fun x hx => ?_⟩
  obtain ⟨q, hq, hx⟩ := List.mem_flatMap.1 hx
  obtain ⟨u, hu, rfl⟩ := List.mem_map.1 hq
  exact placed u hu x hx

/-- It is known where all items stand in what a tree stands for. -/
theorem placed_of_isRead {t : Peg.Tree Rule} (h : t.IsRead language source) :
    ∀ {p}, assemble file source t = .ok p → ∀ x ∈ p.items, x.Placed := by
  refine Tree.IsRead.induction (P := fun t => ∀ {p}, assemble file source t = .ok p →
    ∀ x ∈ p.items, x.Placed) (fun t h ih p made => ?_) t h
  obtain ⟨value, each, found⟩ := phrase?_of_assemble made
  exact placed_of_phrase? (sound_of_placed h each fun u hu => ih u hu (each u hu)) found

/-- What a tree stands for is made of what the trees below it stand for. -/
lemma exists_parts {t : Peg.Tree Rule} {p : Phrase} (h : t.IsRead language source)
    (made : assemble file source t = .ok p) :
    ∃ value, (∀ u ∈ t.children, assemble file source u = .ok (value u)) ∧ Sound (t.children.map value) ∧
      phrase? t.rule (extent file source t) (t.children.map value) = some p := by
  obtain ⟨value, each, found⟩ := phrase?_of_assemble made
  have sound : Sound (t.children.map value) :=
    sound_of_placed h each fun u hu => placed_of_isRead (h.children u hu) (each u hu)
  exact ⟨value, each, sound, found⟩

end Assembly

end ScriptTyping.Reading
