import ScriptTyping.Proofs.Building.Expression

/-!
# Statements agree

What the builders of statements and of the items of modules make is what is assembled.
-/

namespace ScriptTyping.Building
open Peg Peg.Expr Reading Building.Part

attribute [local simp] next optional assembled_eq

lemma leaves_statement : Leaves Grammar.statement IsStatement := by
  intro ms h
  simp [Grammar.statement, oneOf] at h
  have all : ∀ r, isStatement r = true → (∃ m, ms = [m] ∧ Is r m) → ∃ m, ms = [m] ∧ m.IsStatement := by
    rintro r statement ⟨m, rfl, is⟩
    exact ⟨m, rfl, isStatement_of statement is⟩
  obtain h | h | h | h | h | h | h | h | h | h | h | h | h | h | h | h | h | h | h := h
  all_goals exact all _ rfl h

lemma agrees_block : Agrees .block := by
  intro e ms h
  have all := forall_isStatement h (by decide)
  exact (assembled_nodes all (by simp) fun ns => by simp [phrase?, withMany]).symm

/-! ### Declarations -/

lemma agrees_variableDeclarator : Agrees .variableDeclarator := by
  intro e ms h
  change node (variableDeclarator e ms) = _
  obtain ⟨id, ms, rfl, told, h⟩ := leaves_target.seq h
  simp [token] at h
  obtain rfl | ⟨value, rfl, is⟩ := h
  · simp [variableDeclarator, told]
    rfl
  · have told_value : value.IsExpression := isExpression_of rfl is
    simp [variableDeclarator, told, told_value]
    rfl

lemma agrees_declaration {r : Rule} (rule : r = .variableDeclaration ∨ r = .forDeclaration) {e : Extent}
    {ms : List Part} (h : Yields language Is Grammar.declarators ms) :
    phrase r e ms = assembled r e ms := by
  obtain ⟨keyword, ms, rfl, is, h⟩ := (yields_rule_seq (by simp)).1 h
  have told : keyword.phrase = .ok (.token keyword.extent.string) := is.phrase
  obtain ⟨w, kind, same, known⟩ := is.text rfl
  cases same
  have all : ∀ m ∈ ms, m.phrase = node (variableDeclarator m.extent m.parts) :=
    forall_of_call .variableDeclarator h (by decide) (by simp) fun _ _ => rfl
  have made : node (variableDeclaration e (keyword :: ms)) = assembled r e (keyword :: ms) := by
    rw [assembled_eq (by rintro rfl; simp at rule), List.mapM_cons, told, mapM_phrase all,
      variableDeclaration]
    simp only [next, ok_bind, known, node_bind]
    cases ms.mapM fun m => variableDeclarator m.extent m.parts with
    | error f => rfl
    | ok ns =>
      obtain rfl | rfl := rule
      all_goals
        simp [build, phrase?, Reading.variableDeclaration, known]
        rfl
  obtain rfl | rfl := rule
  all_goals exact made

lemma agrees_variableDeclaration : Agrees .variableDeclaration := by
  intro e ms h
  refine agrees_declaration (.inl rfl) ?_
  obtain ⟨_, _, rfl, h, silent⟩ := h
  simp [Grammar.semicolon, token] at silent
  rwa [silent, List.append_nil]

lemma agrees_forDeclaration : Agrees .forDeclaration :=
  fun _ _ h => agrees_declaration (.inr rfl) h

/-! ### Choices, loops and jumps -/

lemma agrees_returnStatement : Agrees .returnStatement := by
  intro e ms h
  change node (statement .returnStatement e ms) = _
  simp [Grammar.body, all, Grammar.semicolon, token] at h
  obtain rfl | ⟨m, rfl, is⟩ := h
  · rfl
  · have told : m.IsExpression := isExpression_of rfl is
    simp [statement, told]
    rfl

lemma agrees_ifStatement : Agrees .ifStatement := by
  intro e ms h
  change node (ifStatement e ms) = _
  simp [Grammar.body, all, token] at h
  obtain ⟨test, ms, rfl, is, h⟩ := h
  have told_test : test.IsExpression := isExpression_of rfl is
  obtain ⟨consequent, ms, rfl, told, h⟩ := leaves_statement.seq h
  simp at h
  obtain rfl | h := h
  · simp [ifStatement, told_test, told]
    rfl
  · obtain ⟨alternate, rfl, told_alternate⟩ := leaves_statement _ h
    simp [ifStatement, told_test, told, told_alternate]
    rfl

lemma agrees_whileStatement : Agrees .whileStatement := by
  intro e ms h
  change node (whileStatement e ms) = _
  simp [Grammar.body, all, token] at h
  obtain ⟨test, ms, rfl, is, h⟩ := h
  have told_test : test.IsExpression := isExpression_of rfl is
  obtain ⟨body, rfl, told⟩ := leaves_statement _ h
  simp [whileStatement, told_test, told]
  rfl

lemma agrees_doWhileStatement : Agrees .doWhileStatement := by
  intro e ms h
  change node (doWhileStatement e ms) = _
  simp [Grammar.body, all, Grammar.semicolon, token] at h
  obtain ⟨body, ms, rfl, told, h⟩ := leaves_statement.seq h
  simp at h
  obtain ⟨test, rfl, is⟩ := h
  have told_test : test.IsExpression := isExpression_of rfl is
  simp [doWhileStatement, told_test, told]
  rfl

lemma agrees_forEachHead : Agrees .forEachHead := by
  intro e ms h
  change (forEachHead e ms).map (fun h => Phrase.forEach h.1 h.2.1 h.2.2) = _
  simp [Grammar.body, all] at h
  obtain ⟨left, kind, right, rfl, is, is_kind, is_right⟩ | ⟨left, kind, right, rfl, is, is_kind, is_right⟩ := h
  all_goals
    have told_kind : kind.phrase = .ok (.token kind.extent.string) := is_kind.phrase
    have told_right : right.IsExpression := isExpression_of rfl is_right
  · have told : left.phrase = node (variableDeclaration left.extent left.parts) := is.phrase
    simp [forEachHead, told, is.rule, told_kind, told_right]
    rfl
  · have told : left.phrase = node (suffixed left.extent left.parts) := is.phrase
    simp [forEachHead, told, is.rule, told_kind, told_right]
    rfl

/-- A match that stands for what stands in a classic head. -/
abbrev IsHeadValue (m : Part) : Prop :=
  m.phrase = node (headValue m)

lemma isHeadValue_of {r : Rule} {m : Part} (rule : r = .forDeclaration ∨ r = .expression) (h : Is r m) :
    IsHeadValue m := by
  obtain ⟨e, ms, rfl⟩ := h.of
  obtain rfl | rfl := rule <;> rfl

lemma agrees_forInit : Agrees .forInit := by
  intro e ms h
  simp [Grammar.body] at h
  obtain ⟨m, rfl, told⟩ : ∃ m, ms = [m] ∧ IsHeadValue m := by
    obtain ⟨m, rfl, is⟩ | ⟨m, rfl, is⟩ := h
    · exact ⟨m, rfl, isHeadValue_of (.inl rfl) is⟩
    · exact ⟨m, rfl, isHeadValue_of (.inr rfl) is⟩
  change phrase.headPart e [m] Phrase.forInit = _
  simp [phrase.headPart, told]
  rfl

lemma agrees_forTest : Agrees .forTest := by
  intro e ms h
  simp [Grammar.body] at h
  obtain ⟨m, rfl, is⟩ := h
  have told := isHeadValue_of (.inr rfl) is
  change phrase.headPart e [m] Phrase.forTest = _
  simp [phrase.headPart, told]
  rfl

lemma agrees_forUpdate : Agrees .forUpdate := by
  intro e ms h
  simp [Grammar.body] at h
  obtain ⟨m, rfl, is⟩ := h
  have told := isHeadValue_of (.inr rfl) is
  change phrase.headPart e [m] Phrase.forUpdate = _
  simp [phrase.headPart, told]
  rfl

/-- A part of a classic head has one part. -/
lemma inside_headPart {r : Rule} {m : Part} (rule : r = .forInit ∨ r = .forTest ∨ r = .forUpdate)
    (h : Is r m) : ∃ m', m.parts = [m'] := by
  obtain rfl | rfl | rfl := rule
  all_goals
    have inside := h.inside rfl
    simp [Grammar.body] at inside
    grind

lemma told_headPart {r : Rule} {f : Node → Phrase} {o : Option Part}
    (rule : r = .forInit ∨ r = .forTest ∨ r = .forUpdate)
    (made : ∀ e ms, phrase r e ms = phrase.headPart e ms f) (h : ∀ m ∈ o, Is r m) :
    ∀ m ∈ o, m.rule = r ∧ ∃ m', m.parts = [m'] ∧ m.phrase = (headValue m').map f := by
  intro m hm
  obtain ⟨m', parts⟩ := inside_headPart rule (h m hm)
  refine ⟨(h m hm).rule, m', parts, ?_⟩
  rw [(h m hm).phrase, made, parts]
  simp only [phrase.headPart, next, ok_bind]
  cases headValue m' <;> rfl

lemma note_headPart {m m' : Part} (parts : m.parts = [m']) (h : HeadParts) : h.note m = (do
    let value ← headValue m'
    match m.rule with
    | .forInit => .ok { h with init := some value }
    | .forTest => .ok { h with test := some value }
    | _ => .ok { h with update := some value }) := by
  rw [HeadParts.note, parts, optional]
  exact bind_map

lemma agrees_forClassicHead : Agrees .forClassicHead := by
  intro e ms h
  change (forClassicHead ms).map (fun h => Phrase.forClassic h.init h.test h.update) = _
  simp only [Grammar.body, all, token] at h
  obtain ⟨_, _, rfl, hinit, h⟩ := h
  simp only [yields_text_seq] at h
  obtain ⟨_, _, rfl, htest, h⟩ := h
  simp only [yields_text_seq] at h
  obtain ⟨init, rfl, isInit⟩ := opt_of_yields (by simp) hinit
  obtain ⟨test, rfl, isTest⟩ := opt_of_yields (by simp) htest
  obtain ⟨update, rfl, isUpdate⟩ := opt_of_yields (by simp) h
  clear hinit htest h
  have hinit := told_headPart (.inl rfl) (fun _ _ => rfl) isInit
  have htest := told_headPart (.inr (.inl rfl)) (fun _ _ => rfl) isTest
  have hupdate := told_headPart (.inr (.inr rfl)) (fun _ _ => rfl) isUpdate
  clear isInit isTest isUpdate
  rw [assembled_eq (by simp), forClassicHead]
  cases init <;> cases test <;> cases update
  all_goals
    simp at hinit htest hupdate
    try obtain ⟨rule_init, init', parts_init, told_init⟩ := hinit
    try obtain ⟨rule_test, test', parts_test, told_test⟩ := htest
    try obtain ⟨rule_update, update', parts_update, told_update⟩ := hupdate
    simp [note_headPart, *]
    rfl

lemma agrees_forStatement : Agrees .forStatement := by
  intro e ms h
  change node (forStatement e ms) = _
  simp only [Grammar.body, all, yields_word_seq] at h
  obtain ⟨_, _, rfl, hawait, h⟩ := h
  obtain ⟨marker, rfl, isMarker⟩ := opt_of_yields (by simp) hawait
  clear hawait
  have told_marker : ∀ m ∈ marker, m.rule = .awaitMarker ∧ m.phrase = .ok (.token "await") :=
    fun m hm => ⟨(isMarker m hm).rule, (isMarker m hm).phrase.trans (congrArg _ ((isMarker m hm).text rfl))⟩
  simp [token, -existsAndEq] at h
  obtain ⟨head, _, rfl, is, h⟩ | ⟨head, _, rfl, is, h⟩ := h
  · obtain ⟨body, rfl, told⟩ := leaves_statement _ h
    have told_head : head.phrase = (forEachHead head.extent head.parts).map
      fun h => .forEach h.1 h.2.1 h.2.2 := is.phrase
    cases marker
    all_goals
      simp at told_marker
      simp [forStatement, assembled, inReadingOrder, told_marker, is.rule, told, told_head]
      refine congrArg _ (funext fun n => congrArg _ (funext fun h => ?_))
      -- The word between the two sides tells the loops over values from those over keys.
      obtain ⟨left, kind, right⟩ := h
      by_cases of : kind = "of"
      all_goals
        simp [of, build, phrase?, Reading.forStatement, Phrase.takeToken]
        rfl
  · obtain ⟨body, rfl, told⟩ := leaves_statement _ h
    have told_head : head.phrase = (forClassicHead head.parts).map
      fun h => .forClassic h.init h.test h.update := is.phrase
    cases marker
    all_goals
      simp at told_marker
      simp [forStatement, assembled, inReadingOrder, told_marker, is.rule, told, told_head]
      rfl

lemma agrees_jump {r : Rule} {form : Option Node → Form Node} {w : String}
    (made : ∀ e ms, phrase r e ms = .ok (.node (jumpStatement form e ms))) (ne : r ≠ .forStatement)
    (put : ∀ e ps, phrase? r e ps = withOptional e form ps) {e : Extent} {ms : List Part}
    (h : Yields language Is (Grammar.jump w) ms) : phrase r e ms = assembled r e ms := by
  simp [Grammar.jump, Grammar.inlineSpace, all, plus, Grammar.charIn, token] at h
  rw [made, assembled_eq ne]
  obtain rfl | ⟨m, rfl, is⟩ := h
  · simp [build, put]
    rfl
  · have told : m.phrase = .ok (.node (identifier m.extent)) := is.phrase
    simp [build, put, told]
    rfl

lemma agrees_breakStatement : Agrees .breakStatement :=
  fun _ _ h => agrees_jump (fun _ _ => rfl) (by simp) (fun _ _ => rfl) h

lemma agrees_continueStatement : Agrees .continueStatement :=
  fun _ _ h => agrees_jump (fun _ _ => rfl) (by simp) (fun _ _ => rfl) h

lemma agrees_labeledStatement : Agrees .labeledStatement := by
  intro e ms h
  change node (labeledStatement e ms) = _
  simp [Grammar.body, all, token] at h
  obtain ⟨label, ms, rfl, is, h⟩ := h
  have told_label : label.phrase = .ok (.node (identifier label.extent)) := is.phrase
  obtain ⟨body, rfl, told⟩ := leaves_statement _ h
  simp [labeledStatement, told_label, told]
  rfl

lemma agrees_throwStatement : Agrees .throwStatement := by
  intro e ms h
  change node (statement .throwStatement e ms) = _
  simp [Grammar.body, all, Grammar.semicolon, token] at h
  obtain ⟨m, rfl, is⟩ := h
  have told : m.IsExpression := isExpression_of rfl is
  simp [statement, told]
  rfl

lemma agrees_expressionStatement : Agrees .expressionStatement := by
  intro e ms h
  change node (statement .expressionStatement e ms) = _
  simp [Grammar.body, Grammar.semicolon, token] at h
  obtain ⟨m, rfl, is⟩ := h
  have told : m.IsExpression := isExpression_of rfl is
  simp [statement, told]
  rfl

/-! ### Blocks with clauses, cases -/

lemma leaves_handlerTarget : Leaves Grammar.bindingTarget fun m => m.IsTarget ∧ m.rule ≠ .block := by
  intro ms h
  simp [Grammar.bindingTarget, oneOf] at h
  obtain ⟨m, rfl, is⟩ | ⟨m, rfl, is⟩ | ⟨m, rfl, is⟩ := h
  all_goals exact ⟨m, rfl, is.target fun _ _ => rfl, by simp [is.rule]⟩

lemma told_block {m : Part} (h : Is .block m) : m.phrase = node (block m.extent m.parts) :=
  h.phrase

lemma note_target {h : HandlerParts} {m : Part} (rule : m.rule ≠ .block) : h.note m = (do
    let param ← m.target
    .ok { h with param := some param }) := by
  unfold HandlerParts.note
  split
  · contradiction
  · rfl

lemma agrees_catchClause : Agrees .catchClause := by
  intro e ms h
  change node (catchClause e ms) = _
  simp only [Grammar.body, all, yields_word_seq] at h
  obtain ⟨_, _, rfl, hparam, h⟩ := h
  simp at h
  obtain ⟨b, rfl, is⟩ := h
  have told_b := told_block is
  simp [token] at hparam
  obtain rfl | hparam := hparam
  · simp [catchClause, HandlerParts.note, is.rule, told_b]
    rfl
  · obtain ⟨param, rfl, told, rule⟩ := leaves_handlerTarget _ hparam
    have note_b (h : HandlerParts) : h.note b = (do
        let body ← block b.extent b.parts
        .ok { h with body := some body }) := by
      simp [HandlerParts.note, is.rule]
    simp [catchClause, note_target rule, note_b, told, told_b]
    rfl

lemma agrees_finallyClause : Agrees .finallyClause := by
  intro e ms h
  simp [Grammar.body] at h
  obtain ⟨b, rfl, is⟩ := h
  change (finallyClause e [b]).map Phrase.finalizer = _
  simp [finallyClause, told_block is]
  cases block b.extent b.parts <;> rfl

lemma agrees_tryStatement : Agrees .tryStatement := by
  intro e ms h
  change node (tryStatement e ms) = _
  simp only [Grammar.body, all, yields_word_seq] at h
  obtain ⟨b, _, rfl, is, h⟩ := (yields_rule_seq (by simp)).1 h
  obtain ⟨_, _, rfl, hhandler, hfinalizer⟩ := h
  obtain ⟨handler, rfl, isHandler⟩ := opt_of_yields (by simp) hhandler
  obtain ⟨finalizer, rfl, isFinalizer⟩ := opt_of_yields (by simp) hfinalizer
  clear hhandler hfinalizer
  have hhandler : ∀ m ∈ handler, m.rule = .catchClause ∧
      m.phrase = node (catchClause m.extent m.parts) :=
    fun m hm => ⟨(isHandler m hm).rule, (isHandler m hm).phrase⟩
  have hfinalizer : ∀ m ∈ finalizer, m.rule = .finallyClause ∧
      m.phrase = (finallyClause m.extent m.parts).map .finalizer :=
    fun m hm => ⟨(isFinalizer m hm).rule, (isFinalizer m hm).phrase⟩
  cases handler <;> cases finalizer
  all_goals
    simp at hhandler hfinalizer
    simp [tryStatement, TryParts.note, told_block is, hhandler, hfinalizer]
    rfl

lemma agrees_switchStatement : Agrees .switchStatement := by
  intro e ms h
  change node (switchStatement e ms) = _
  simp [Grammar.body, all, token] at h
  obtain ⟨test, ms, rfl, is, h⟩ := h
  have told : test.IsExpression := isExpression_of rfl is
  have each : ∀ m ∈ ms, m.phrase = node (switchCase m.extent m.parts) :=
    forall_of_call .switchCase h (by decide) (by simp) fun _ _ => rfl
  rw [assembled_eq (by simp), List.mapM_cons, told, mapM_phrase each, switchStatement]
  simp only [next, ok_bind, node_bind, bind_node]
  cases test.expression with
  | error f => rfl
  | ok n =>
    cases ms.mapM fun m => switchCase m.extent m.parts with
    | error f => rfl
    | ok ns =>
      simp [build, phrase?, Reading.switchStatement]
      rfl

/-- A fold that puts what each part is behind what it has is a fold over what all parts are. -/
lemma foldlM_snoc {σ α : Type} {note : σ → Part → Except Fault σ} {f : Part → Except Fault α}
    (put : σ → List α → σ) {ms : List Part} {s : σ}
    (each : ∀ m ∈ ms, ∀ s, note s m = (f m).map fun a => put s [a]) (nothing : ∀ s, put s [] = s)
    (join : ∀ s as bs, put (put s as) bs = put s (as ++ bs)) :
    ms.foldlM note s = (ms.mapM f).map (put s) := by
  induction ms generalizing s with
  | nil => exact congrArg Except.ok (nothing s).symm
  | cons m ms ih =>
    rw [List.foldlM_cons, each m List.mem_cons_self, List.mapM_cons]
    cases f m with
    | error fault => rfl
    | ok a =>
      simp only [map_ok, ok_bind]
      rw [ih fun m' hm => each m' (List.mem_cons_of_mem _ hm)]
      cases ms.mapM f with
      | error fault => rfl
      | ok as => exact congrArg Except.ok (join s [a] as)

/-- The parts of a case: a test and statements, or statements alone behind the word of the default
case. -/
def IsCase (e : Extent) (ms : List Part) : Prop :=
  ("default".toList.isPrefixOf e.text = true ∧ Yields language Is (.star Grammar.statement) ms) ∨
    ("default".toList.isPrefixOf e.text = false ∧ ∃ test rest, ms = test :: rest ∧ Is .expression test ∧
      Yields language Is (.star Grammar.statement) rest)

lemma agrees_switchCase {e : Extent} {ms : List Part} (h : IsCase e ms) :
    phrase .switchCase e ms = assembled .switchCase e ms := by
  change node (switchCase e ms) = _
  have noted {ms : List Part} (h : Yields language Is (.star Grammar.statement) ms) (c : CaseParts) :
      ms.foldlM CaseParts.note c = (ms.mapM Part.statement).map fun ns =>
        { c with consequent := c.consequent ++ ns } := by
    refine foldlM_snoc (fun (c : CaseParts) ns => { c with consequent := c.consequent ++ ns }) ?_
      (by simp) (by simp)
    have note (r : Rule) (hr : isStatement r = true) (m : Part) (is : Is r m) (c : CaseParts) :
        c.note m = m.statement.map fun n => { c with consequent := c.consequent ++ [n] } := by
      unfold CaseParts.note
      split
      next rule =>
        rw [← is.rule, rule] at hr
        cases hr
      · cases m.statement <;> rfl
    exact forall_of_calls h (by decide) note rfl
  -- The case without a test is told by its first word, and the part in front of any other is its test.
  obtain ⟨word, h⟩ | ⟨word, test, rest, rfl, is, h⟩ := h
  · have all := forall_isStatement h (by decide)
    rw [assembled_eq (by simp), mapM_phrase all, switchCase, noted h]
    simp only [bind_map, node_bind]
    cases ms.mapM Part.statement with
    | error f => rfl
    | ok ns =>
      simp only [ok_bind, build, phrase?, Reading.switchCase, word, if_true, nodes?_map]
      rfl
  · have told : test.IsExpression := isExpression_of rfl is
    have all := forall_isStatement h (by decide)
    have first (c : CaseParts) : c.note test = test.expression.map fun n => { c with test := some n } := by
      simp only [CaseParts.note, is.rule]
      cases test.expression <;> rfl
    rw [assembled_eq (by simp), List.mapM_cons, told, mapM_phrase all, switchCase, List.foldlM_cons, first]
    simp only [noted h, bind_map, bind_node, node_bind]
    cases test.expression with
    | error f => rfl
    | ok n =>
      simp only [ok_bind]
      cases rest.mapM Part.statement with
      | error f => rfl
      | ok ns =>
        simp only [map_ok, ok_bind, pure_eq_ok, build, phrase?, Reading.switchCase, word, ← List.map_cons,
          nodes?_map]
        rfl

/-! ### Items of modules -/

lemma renamed_agrees {r : Rule} {form : Node → Node → Form Node} {e : Extent} {name : Part}
    {other : Option Part} (told : name.phrase = .ok (.node (identifier name.extent)))
    (told_other : ∀ m ∈ other, m.phrase = .ok (.node (identifier m.extent))) (ne : r ≠ .forStatement)
    (alone : ∀ n, phrase? r e [.node n] = some (.node (e.node (form n n))))
    (both : ∀ n n', phrase? r e [.node n, .node n'] = some (.node (e.node (form n n')))) :
    node (renamed form e (name :: other.toList)) = assembled r e (name :: other.toList) := by
  rw [assembled_eq ne]
  cases other
  all_goals
    simp at told_other
    simp [renamed, told, told_other, build, alone, both]
    rfl

lemma told_name {r : Rule} {o : Option Part} (name : r = .identifier ∨ r = .propertyIdentifier)
    (h : ∀ m ∈ o, Is r m) : ∀ m ∈ o, m.phrase = .ok (.node (identifier m.extent)) := by
  intro m hm
  obtain rfl | rfl := name
  all_goals exact (h m hm).phrase

lemma agrees_importSpecifier : Agrees .importSpecifier := by
  intro e ms h
  obtain ⟨name, _, rfl, is, h⟩ := (yields_rule_seq (by simp)).1 h
  rw [yields_opt, token, yields_text_seq, ← yields_opt] at h
  obtain ⟨other, rfl, isOther⟩ := opt_of_yields (by simp) h
  exact renamed_agrees is.phrase (told_name (.inl rfl) isOther) (by simp) (fun _ => rfl) fun _ _ => rfl

lemma agrees_exportSpecifier : Agrees .exportSpecifier := by
  intro e ms h
  obtain ⟨name, _, rfl, is, h⟩ := (yields_rule_seq (by simp)).1 h
  rw [yields_opt, token, yields_text_seq, ← yields_opt] at h
  obtain ⟨other, rfl, isOther⟩ := opt_of_yields (by simp) h
  exact renamed_agrees is.phrase (told_name (.inr rfl) isOther) (by simp) (fun _ => rfl) fun _ _ => rfl

lemma agrees_namedImports : Agrees .namedImports := by
  intro e ms h
  have each : ∀ m ∈ ms, m.phrase = node (renamed .importSpecifier m.extent m.parts) :=
    forall_of_call .importSpecifier h (by decide) (by simp) fun _ _ => rfl
  rw [assembled_many (k := .nodes) each (by simp) fun ns => by simp [build, phrase?, list]]
  change (ms.mapM fun m => renamed .importSpecifier m.extent m.parts).map Phrase.nodes = _
  cases ms.mapM fun m => renamed .importSpecifier m.extent m.parts <;> rfl

lemma agrees_namespaceImport : Agrees .namespaceImport := by
  intro e ms h
  simp [Grammar.body, all, token] at h
  obtain ⟨m, rfl, is⟩ := h
  have told : m.phrase = .ok (.node (identifier m.extent)) := is.phrase
  change node (namespaceImport e [m]) = _
  simp [namespaceImport, told]
  rfl

lemma told_namespaceImport {m : Part} (h : Is .namespaceImport m) :
    ∃ b : Extent, namespaceImport m.extent m.parts =
        .ok (m.extent.node (.importNamespaceSpecifier (identifier b))) ∧
      m.phrase = .ok (.node (m.extent.node (.importNamespaceSpecifier (identifier b)))) := by
  have inside := h.inside rfl
  simp [Grammar.body, all, token] at inside
  obtain ⟨b, parts, -⟩ := inside
  have made : namespaceImport m.extent m.parts =
      .ok (m.extent.node (.importNamespaceSpecifier (identifier b.extent))) := by
    rw [parts]
    rfl
  refine ⟨b.extent, made, ?_⟩
  rw [h.phrase]
  exact congrArg node made

lemma told_namedImports {m : Part} (h : Is .namedImports m) :
    m.phrase = (m.parts.mapM fun m => renamed .importSpecifier m.extent m.parts).map .nodes :=
  h.phrase

lemma agrees_importClause : Agrees .importClause := by
  intro e ms h
  change (importClause ms).map Phrase.nodes = _
  simp [Grammar.body, oneOf, token] at h
  obtain ⟨d, ms, rfl, is, h⟩ | ⟨m, rfl, is⟩ | ⟨m, rfl, is⟩ := h
  · have told : d.phrase = .ok (.node (identifier d.extent)) := is.phrase
    obtain rfl | ⟨m, rfl, is_m⟩ | ⟨m, rfl, is_m⟩ := h
    · simp [importClause, importItem, is.rule, told]
      rfl
    · obtain ⟨b, made, told_m⟩ := told_namespaceImport is_m
      simp [importClause, importItem, is.rule, is_m.rule, told, made, told_m]
      rfl
    · simp [importClause, importItem, is.rule, is_m.rule, told, told_namedImports is_m]
      cases m.parts.mapM fun m => renamed .importSpecifier m.extent m.parts with
      | error f => rfl
      | ok ns => simp [build, phrase?, Reading.importClause, Node.form, identifier, Extent.node]; rfl
  · obtain ⟨b, made, told_m⟩ := told_namespaceImport is
    simp [importClause, importItem, is.rule, made, told_m]
    rfl
  · simp [importClause, importItem, is.rule, told_namedImports is]
    cases m.parts.mapM fun m => renamed .importSpecifier m.extent m.parts with
    | error f => rfl
    | ok ns => simp [build, phrase?, Reading.importClause]

lemma told_string {m : Part} (h : Is .string m) : m.phrase = node (literal .string m.extent) :=
  h.phrase

lemma agrees_importDeclaration : Agrees .importDeclaration := by
  intro e ms h
  change node (importDeclaration e ms) = _
  simp [Grammar.body, all, Grammar.semicolon, token, -existsAndEq] at h
  obtain ⟨source, rfl, is⟩ | ⟨clause, _, rfl, is_clause, source, rfl, is⟩ := h
  · simp [importDeclaration, SpecifierParts.noteImport, is.rule, told_string is]
    rfl
  · have told : clause.phrase = (importClause clause.parts).map .nodes := is_clause.phrase
    simp [importDeclaration, SpecifierParts.noteImport, is.rule, is_clause.rule, told, told_string is]
    rfl

lemma agrees_exportDefault : Agrees .exportDefault := by
  intro e ms h
  change (exportDefault e ms).map Phrase.exported = _
  simp [Grammar.body, all, oneOf, Grammar.semicolon, token] at h
  obtain ⟨m, rfl, is⟩ | ⟨m, rfl, is⟩ | ⟨m, rfl, is⟩ := h
  · have told : m.IsStatement := isStatement_of rfl is
    simp [exportDefault, is.rule, told]
    rfl
  · have told : m.IsStatement := isStatement_of rfl is
    simp [exportDefault, is.rule, told]
    rfl
  · have told : m.IsExpression := isExpression_of rfl is
    simp [exportDefault, is.rule, told]
    rfl

lemma agrees_exportAll : Agrees .exportAll := by
  intro e ms h
  change (exportAll e ms).map Phrase.exported = _
  simp [Grammar.body, all, Grammar.semicolon, token] at h
  obtain ⟨source, rfl, is⟩ | ⟨name, source, rfl, is_name, is⟩ := h
  · simp [exportAll, StarParts.note, is.rule, told_string is]
    rfl
  · have told : name.phrase = .ok (.node (identifier name.extent)) := is_name.phrase
    simp [exportAll, StarParts.note, is.rule, is_name.rule, told, told_string is]
    rfl

lemma agrees_exportDeclaration : Agrees .exportDeclaration := by
  intro e ms h
  change node (exportDeclaration e ms) = _
  simp [Grammar.body, all, oneOf] at h
  obtain ⟨m, rfl, is⟩ | ⟨m, rfl, is⟩ | ⟨m, rfl, is⟩ | ⟨m, rfl, is⟩ | ⟨m, rfl, is⟩ | ⟨m, rfl, is⟩ := h
  · have told : m.phrase = (exportDefault m.extent m.parts).map .exported := is.phrase
    simp [exportDeclaration, is.rule, told]
    rfl
  · have told : m.IsStatement := isStatement_of rfl is
    simp [exportDeclaration, is.rule, told]
    rfl
  · have told : m.IsStatement := isStatement_of rfl is
    simp [exportDeclaration, is.rule, told]
    rfl
  · have told : m.IsStatement := isStatement_of rfl is
    simp [exportDeclaration, is.rule, told]
    rfl
  · have told : m.phrase = (exportList m.parts).map .exported := is.phrase
    simp [exportDeclaration, is.rule, told]
    rfl
  · have told : m.phrase = (exportAll m.extent m.parts).map .exported := is.phrase
    have same : exportAll e m.parts = exportAll m.extent m.parts := by
      have inside := is.inside rfl
      simp [Grammar.body, all, Grammar.semicolon, token] at inside
      obtain ⟨source, parts, rule⟩ | ⟨name, source, parts, rule_name, rule⟩ := inside
      · rw [parts]
        simp [exportAll, StarParts.note, rule]
      · rw [parts]
        simp [exportAll, StarParts.note, rule, rule_name]
    simp [exportDeclaration, is.rule, same, told]
    rfl

/-- Only a literal has the form of one. -/
lemma form_of_renamed {ms : List Part} {ns : List Node}
    (h : (ms.mapM fun m => renamed .exportSpecifier m.extent m.parts) = .ok ns) :
    ∀ n ∈ ns, ∀ v raw, n.form ≠ .literal v raw := by
  induction ms generalizing ns with
  | nil =>
    cases h
    simp
  | cons m ms ih =>
    rw [List.mapM_cons] at h
    cases parts : m.parts with
    | nil =>
      rw [parts] at h
      cases h
    | cons name rest =>
      rw [parts] at h
      cases made : ms.mapM fun m => renamed .exportSpecifier m.extent m.parts with
      | error f =>
        rw [made] at h
        cases h
      | ok ns' =>
        rw [made] at h
        cases h
        intro n hn v raw
        cases hn with
        | head => simp [Extent.node, Node.form]
        | tail _ hn => exact ih made n hn v raw

/-- A string has the form of a literal. -/
lemma form_of_string {e : Extent} {n : Node} (h : literal .string e = .ok n) :
    ∃ v raw, n.form = .literal v raw := by
  rw [literal] at h
  cases sliced : slice e.text 1 (Text.byteLength e.text - 1) with
  | error f =>
    rw [sliced] at h
    cases h
  | ok body =>
    rw [sliced] at h
    cases h
    exact ⟨_, _, rfl⟩

lemma exportList_of_names {ns : List Node} (h : ∀ n ∈ ns, ∀ v raw, n.form ≠ .literal v raw) :
    Reading.exportList (ns.map .node) = some (.exported (.exportNamedDeclaration none ns none)) := by
  rw [Reading.exportList, nodes?_map, Option.bind_eq_bind, Option.bind_some]
  split
  next none =>
    rw [List.getLast?_eq_none_iff.1 none]
  next last found =>
    have last := h last (List.mem_of_getLast? found)
    split
    next v raw same => exact absurd same (last v raw)
    · rfl

lemma exportList_of_source {ns : List Node} {source : Node} {v : LiteralValue} {raw : String}
    (form : source.form = .literal v raw) : Reading.exportList (ns.map .node ++ [.node source]) =
      some (.exported (.exportNamedDeclaration none ns (some source))) := by
  have whole : ns.map Phrase.node ++ [.node source] = (ns ++ [source]).map .node := by simp
  rw [whole, Reading.exportList, nodes?_map, Option.bind_eq_bind, Option.bind_some]
  simp [form]

lemma agrees_exportList : Agrees .exportList := by
  intro e ms h
  change (exportList ms).map Phrase.exported = _
  simp only [Grammar.body, all] at h
  obtain ⟨ms, tail, rfl, names, h⟩ := h
  obtain ⟨source, rfl, isSource⟩ :
      ∃ source : Option Part, tail = source.toList ∧ ∀ m ∈ source, Is .string m := by
    simp [Grammar.semicolon, token] at h
    obtain rfl | ⟨m, rfl, is⟩ := h
    · exact ⟨none, rfl, by simp⟩
    · exact ⟨some m, rfl, by simpa using is⟩
  have each : ∀ m ∈ ms, m.rule = .exportSpecifier ∧
      m.phrase = node (renamed .exportSpecifier m.extent m.parts) :=
    forall_of_call .exportSpecifier names (by decide) (by simp) fun _ _ => ⟨rfl, rfl⟩
  -- The names are added one by one, and only a string behind them is the source.
  have noted (x : SpecifierParts) : ms.foldlM SpecifierParts.noteExport x =
      (ms.mapM fun m => renamed .exportSpecifier m.extent m.parts).map fun ns =>
        { x with specifiers := x.specifiers ++ ns } := by
    refine foldlM_snoc (fun (x : SpecifierParts) ns => { x with specifiers := x.specifiers ++ ns }) ?_
      (by simp) (by simp)
    intro m hm x
    simp only [SpecifierParts.noteExport, (each m hm).1]
    cases renamed .exportSpecifier m.extent m.parts <;> rfl
  rw [assembled_eq (by simp), List.mapM_append, mapM_phrase fun m hm => (each m hm).2, exportList,
    List.foldlM_append, noted]
  cases made : ms.mapM fun m => renamed .exportSpecifier m.extent m.parts with
  | error f => rfl
  | ok ns =>
    cases source with
    | none =>
      have last := exportList_of_names (form_of_renamed made)
      simp [build, phrase?, last]
    | some m =>
      have is : Is .string m := isSource m rfl
      have note (x : SpecifierParts) : x.noteExport m = (do
          let source ← literal .string m.extent
          .ok { x with source := some source }) := by
        simp only [SpecifierParts.noteExport, is.rule]
      simp [note, told_string is]
      cases made : literal .string m.extent with
      | error f => rfl
      | ok source =>
        obtain ⟨v, raw, form⟩ := form_of_string made
        simp [build, phrase?, exportList_of_source form]

lemma agrees_program : Agrees .program := by
  intro e ms h
  change node (program e ms) = _
  obtain ⟨ms, last, rfl, is, h⟩ := yields_program.1 h
  have told : last.phrase = .ok .finish := is.phrase
  have each : ∀ m ∈ ms, m.IsStatement ∧ m.rule ≠ .endOfInput := by
    have one (r : Rule) (hr : isStatement r = true) (m : Part) (is : Is r m) :
        m.IsStatement ∧ m.rule ≠ .endOfInput := by
      refine ⟨isStatement_of hr is, ?_⟩
      rw [is.rule]
      rintro rfl
      cases hr
    exact forall_of_calls h (by decide) one rfl
  have all : (ms ++ [last]).filter (·.rule != .endOfInput) = ms := by
    rw [List.filter_append, List.filter_eq_self.2 fun m hm => by simpa using (each m hm).2]
    simp [is.rule]
  rw [assembled_eq (by simp), List.mapM_append, mapM_phrase fun m hm => (each m hm).1, program, all]
  cases ms.mapM Part.statement with
  | error f => rfl
  | ok ns =>
    simp [told, build, phrase?, Reading.program]
    rfl

end ScriptTyping.Building
