import Mathlib.Tactic.Simproc.ExistsAndEq
import ScriptTyping.Proofs.Reading.Fits

/-!
# Phrases fit their rules

For each rule that has parts, the phrases that its expression leaves make up a phrase of its sort.
The lemmas come in the order of the modules that they are about: statements, bindings, functions and
classes, expressions.
-/

namespace ScriptTyping.Reading
open Peg Peg.Expr

/-- The parts that a rule leaves make up a phrase of its sort. -/
def Builds (r : Rule) : Prop :=
  ∀ (e : Extent) (ps : List Phrase), Yields language Fits (Grammar.body r) ps →
    ∃ p, phrase? r e ps = some p ∧ Fits r p

section Lists

@[simp] lemma nodes?_map (ns : List Node) : Phrase.nodes? (ns.map .node) = some ns := by
  induction ns with
  | nil => rfl
  | cons n ns ih =>
    rw [Phrase.nodes?] at ih ⊢
    simp [ih]

@[simp] lemma slots?_map (os : List (Option Node)) :
    Phrase.slots? (os.map .slot) = some os := by
  induction os with
  | nil => rfl
  | cons o os ih =>
    rw [Phrase.slots?] at ih ⊢
    simp [ih]

lemma many_statements : Many Phrase.node (.star Grammar.statement) :=
  .star (.single single_statement)

lemma many_call {r : Rule} (h : r ≠ .templateHolePart) (nodes : ∀ p, Fits r p → IsNode p) :
    Many Phrase.node (.call r) := by
  intro ps hps
  obtain ⟨p, rfl, hp⟩ := (yields_rule h).1 hps
  obtain ⟨n, rfl⟩ := nodes p hp
  exact ⟨[n], rfl⟩

/-- The phrases between two texts. -/
lemma yields_between {a : Expr Rule} {opening closing : String} {ps : List Phrase} :
    Yields language Fits (all [token opening, a, token closing]) ps ↔ Yields language Fits a ps := by
  simp [all, token]

end Lists

section Statements

attribute [local simp] Grammar.body Fits phrase?

lemma builds_program : Builds .program := by
  intro e ps h
  obtain ⟨qs, _, rfl, rfl, hqs⟩ := yields_program.1 h
  obtain ⟨ns, rfl⟩ := many_statements qs hqs
  refine ⟨.node (e.node (.program ns)), ?_, _, rfl⟩
  simp [program]

lemma variableDeclaration_fits {e : Extent} {ps : List Phrase}
    (h : Yields language Fits Grammar.declarators ps) :
    ∃ p, variableDeclaration e ps = some p ∧ IsNode p := by
  rw [Grammar.declarators, yields_rule_seq (by simp)] at h
  obtain ⟨_, qs, rfl, ⟨w, k, rfl, hk⟩, hqs⟩ := h
  obtain ⟨ns, rfl⟩ := (many_call (r := .variableDeclarator) (by simp) fun _ h => h).sepBy qs hqs
  refine ⟨.node (e.node (.variableDeclaration k ns)), ?_, _, rfl⟩
  simp [variableDeclaration, hk]

lemma builds_variableDeclaration : Builds .variableDeclaration := by
  rintro e _ ⟨qs, rs, rfl, hqs, rfl | rfl⟩
  all_goals
    rw [List.append_nil]
    exact variableDeclaration_fits hqs

lemma builds_forDeclaration : Builds .forDeclaration :=
  fun _ _ h => variableDeclaration_fits h

lemma builds_variableDeclarator : Builds .variableDeclarator := by
  intro e ps h
  simp [single_bindingTarget.seq, token] at h
  obtain ⟨_, _, rfl, ⟨id, rfl⟩, rfl | ⟨_, rfl, init, rfl⟩⟩ := h
  all_goals exact ⟨_, rfl, _, rfl⟩

lemma builds_returnStatement : Builds .returnStatement := by
  intro e ps h
  simp [all, Grammar.semicolon, token] at h
  obtain rfl | ⟨_, rfl, argument, rfl⟩ := h
  all_goals exact ⟨_, rfl, _, rfl⟩

lemma builds_ifStatement : Builds .ifStatement := by
  intro e ps h
  simp [-existsAndEq, all, token, single_statement.seq, single_statement _] at h
  obtain ⟨_, _, rfl, ⟨test, rfl⟩, _, _, rfl, ⟨consequent, rfl⟩, rfl | ⟨_, rfl, alternate, rfl⟩⟩ := h
  all_goals exact ⟨_, rfl, _, rfl⟩

lemma builds_whileStatement : Builds .whileStatement := by
  intro e ps h
  simp [all, token, single_statement _] at h
  obtain ⟨_, _, rfl, ⟨test, rfl⟩, _, rfl, body, rfl⟩ := h
  exact ⟨_, rfl, _, rfl⟩

lemma builds_doWhileStatement : Builds .doWhileStatement := by
  intro e ps h
  simp [all, token, Grammar.semicolon, single_statement.seq] at h
  obtain ⟨_, _, rfl, ⟨body, rfl⟩, _, rfl, test, rfl⟩ := h
  exact ⟨_, rfl, _, rfl⟩

/-- A loop is read with either head, whether or not it waits. -/
lemma forStatement_fits {e : Extent} {head : Phrase} {body : Node} (isAwait : Bool)
    (h : (∃ a k b, head = .forEach a k b) ∨ ∃ a b c, head = .forClassic a b c) :
    ∃ p, forStatement e ((if isAwait then [.token "await"] else []) ++ [head, .node body]) = some p ∧
      IsNode p := by
  rcases h with ⟨left, kind, right, rfl⟩ | ⟨init, test, update, rfl⟩
  · cases isAwait
    all_goals
      by_cases of : kind = "of"
      · exact ⟨_, if_pos of, _, rfl⟩
      · exact ⟨_, if_neg of, _, rfl⟩
  · cases isAwait
    all_goals exact ⟨_, rfl, _, rfl⟩

lemma builds_forStatement : Builds .forStatement := by
  intro e ps h
  simp [-existsAndEq, all, token, single_statement _] at h
  obtain (⟨_, _, rfl, head, _, rfl, body, rfl⟩ | ⟨_, _, rfl, head, _, rfl, body, rfl⟩) |
    ⟨_, _, rfl, rfl, ⟨_, _, rfl, head, _, rfl, body, rfl⟩ | ⟨_, _, rfl, head, _, rfl, body, rfl⟩⟩ := h
  · exact forStatement_fits false (.inl head)
  · exact forStatement_fits false (.inr head)
  · exact forStatement_fits true (.inl head)
  · exact forStatement_fits true (.inr head)

lemma builds_forEachHead : Builds .forEachHead := by
  intro e ps h
  simp [-existsAndEq, all] at h
  obtain ⟨_, _, rfl, ⟨left, rfl⟩, _, _, rfl, ⟨kind, rfl⟩, _, rfl, right, rfl⟩ := h
  exact ⟨_, rfl, _, _, _, rfl⟩

lemma builds_forClassicHead : Builds .forClassicHead := by
  intro e ps h
  simp [-existsAndEq, all, token] at h
  obtain ((rfl | ⟨_, rfl, update, rfl⟩) | ⟨_, _, rfl, ⟨test, rfl⟩, rfl | ⟨_, rfl, update, rfl⟩⟩) |
    ⟨_, _, rfl, ⟨init, rfl⟩, (rfl | ⟨_, rfl, update, rfl⟩) |
      ⟨_, _, rfl, ⟨test, rfl⟩, rfl | ⟨_, rfl, update, rfl⟩⟩⟩ := h
  all_goals exact ⟨_, rfl, _, _, _, rfl⟩

lemma builds_forInit : Builds .forInit := by
  intro e ps h
  simp at h
  obtain ⟨_, rfl, n, rfl⟩ := h
  exact ⟨_, rfl, _, rfl⟩

lemma builds_forTest : Builds .forTest := by
  intro e ps h
  simp at h
  obtain ⟨_, rfl, n, rfl⟩ := h
  exact ⟨_, rfl, _, rfl⟩

lemma builds_forUpdate : Builds .forUpdate := by
  intro e ps h
  simp at h
  obtain ⟨_, rfl, n, rfl⟩ := h
  exact ⟨_, rfl, _, rfl⟩

lemma builds_tryStatement : Builds .tryStatement := by
  intro e ps h
  simp [all] at h
  obtain ⟨_, _, rfl, ⟨block, rfl⟩, (rfl | ⟨_, rfl, finalizer, rfl⟩) |
    ⟨_, _, rfl, ⟨handler, rfl⟩, rfl | ⟨_, rfl, finalizer, rfl⟩⟩⟩ := h
  all_goals exact ⟨_, rfl, _, rfl⟩

lemma builds_catchClause : Builds .catchClause := by
  intro e ps h
  simp [all, token, single_bindingTarget.seq] at h
  obtain ⟨_, rfl, body, rfl⟩ | ⟨_, _, rfl, ⟨param, rfl⟩, _, rfl, body, rfl⟩ := h
  all_goals exact ⟨_, rfl, _, rfl⟩

lemma builds_finallyClause : Builds .finallyClause := by
  intro e ps h
  simp at h
  obtain ⟨_, rfl, n, rfl⟩ := h
  exact ⟨_, rfl, _, rfl⟩

lemma builds_switchStatement : Builds .switchStatement := by
  intro e ps h
  simp [all, token] at h
  obtain ⟨_, qs, rfl, ⟨discriminant, rfl⟩, hqs⟩ := h
  obtain ⟨ns, rfl⟩ := (many_call (r := .switchCase) (by simp) fun _ h => h).star qs hqs
  refine ⟨.node (e.node (.switchStatement discriminant ns)), ?_, _, rfl⟩
  simp [switchStatement]

/-- A case is read if it has a part, or begins with the word of the default case. -/
lemma switchCase_fits {e : Extent} {ps : List Phrase}
    (h : Yields language Fits (Grammar.body .switchCase) ps)
    (test : "default".toList.isPrefixOf e.text = true ∨ ps ≠ []) :
    ∃ p, switchCase e ps = some p ∧ IsNode p := by
  have head : Many Phrase.node (.seq (.ahead (.call .keyword))
      (.choice (.seq (token "case") (.call .expression)) (token "default"))) :=
    .seq (.nothing fun _ h => h) (.choice (.seq .text (many_call (by simp) fun _ h => h)) .text)
  obtain ⟨ns, rfl⟩ := head.seq (.seq .text many_statements) ps h
  rw [switchCase, nodes?_map]
  by_cases default : "default".toList.isPrefixOf e.text = true
  · exact ⟨_, if_pos default, _, rfl⟩
  · cases ns with
    | nil => exact absurd rfl (test.resolve_left default)
    | cons n ns => exact ⟨_, if_neg default, _, rfl⟩

lemma builds_labeledStatement : Builds .labeledStatement := by
  intro e ps h
  simp [all, token, single_statement _] at h
  obtain ⟨_, _, rfl, ⟨label, rfl⟩, _, rfl, body, rfl⟩ := h
  exact ⟨_, rfl, _, rfl⟩

lemma builds_throwStatement : Builds .throwStatement := by
  intro e ps h
  simp [all, Grammar.semicolon, token] at h
  obtain ⟨_, rfl, argument, rfl⟩ := h
  exact ⟨_, rfl, _, rfl⟩

/-- A statement of one of the two kinds that jump has a label or none. -/
lemma jump_fits {e : Extent} {w : String} {form : Option Node → Form Node} {ps : List Phrase}
    (h : Yields language Fits (Grammar.jump w) ps) :
    ∃ p, withOptional e form ps = some p ∧ IsNode p := by
  simp [Grammar.jump, Grammar.inlineSpace, Grammar.charIn, plus, all, token] at h
  obtain rfl | ⟨_, rfl, label, rfl⟩ := h
  all_goals exact ⟨_, rfl, _, rfl⟩

lemma builds_breakStatement : Builds .breakStatement :=
  fun _ _ h => jump_fits h

lemma builds_continueStatement : Builds .continueStatement :=
  fun _ _ h => jump_fits h

lemma builds_block : Builds .block := by
  intro e ps h
  obtain ⟨ns, rfl⟩ := many_statements ps (yields_between.1 h)
  refine ⟨.node (e.node (.blockStatement ns)), ?_, _, rfl⟩
  simp [withMany]

lemma builds_expressionStatement : Builds .expressionStatement := by
  intro e ps h
  simp [Grammar.semicolon, token] at h
  obtain ⟨_, rfl, n, rfl⟩ := h
  exact ⟨_, rfl, _, rfl⟩

end Statements

section Modules

lemma builds_importDeclaration : Builds .importDeclaration := by
  intro e ps h
  simp [-existsAndEq, Grammar.body, all, Grammar.semicolon, token, Fits] at h
  obtain ⟨_, rfl, source, rfl⟩ | ⟨_, _, rfl, ⟨specifiers, rfl⟩, _, rfl, source, rfl⟩ := h
  all_goals exact ⟨_, rfl, _, rfl⟩

/-- A clause of specifiers is read whatever the nodes in it are. -/
lemma importClause_fits {ps : List Phrase} (h : ∀ p ∈ ps, IsNode p ∨ ∃ ns, p = .nodes ns) :
    ∃ ns, importClause ps = some (.nodes ns) := by
  induction ps with
  | nil => exact ⟨[], rfl⟩
  | cons p ps ih =>
    obtain ⟨ms, hms⟩ := ih fun q hq => h q (List.mem_cons_of_mem p hq)
    rcases h p List.mem_cons_self with ⟨n, rfl⟩ | ⟨ns, rfl⟩
    all_goals
      rw [importClause, hms]
      exact ⟨_, rfl⟩

lemma builds_importClause : Builds .importClause := by
  intro e ps h
  suffices ∀ p ∈ ps, IsNode p ∨ ∃ ns, p = .nodes ns by
    obtain ⟨ns, hns⟩ := importClause_fits this
    exact ⟨_, hns, _, rfl⟩
  simp [Grammar.body, oneOf, token, Fits] at h
  grind

lemma builds_namespaceImport : Builds .namespaceImport := by
  intro e ps h
  simp [Grammar.body, all, token, Fits] at h
  obtain ⟨_, rfl, bound, rfl⟩ := h
  exact ⟨_, rfl, _, rfl⟩

lemma builds_namedImports : Builds .namedImports := by
  intro e ps h
  obtain ⟨ns, rfl⟩ := (many_call (r := .importSpecifier) (by simp) fun _ h => h).bracketed ps h
  exact ⟨.nodes ns, by simp [phrase?, list], ns, rfl⟩

lemma builds_importSpecifier : Builds .importSpecifier := by
  intro e ps h
  simp [Grammar.body, token, Fits] at h
  obtain ⟨_, _, rfl, ⟨imported, rfl⟩, rfl | ⟨_, rfl, bound, rfl⟩⟩ := h
  all_goals exact ⟨_, rfl, _, rfl⟩

lemma builds_exportDeclaration : Builds .exportDeclaration := by
  intro e ps h
  simp [Grammar.body, all, oneOf, Fits] at h
  obtain ⟨_, rfl, f, rfl, -⟩ | ⟨_, rfl, declaration, rfl⟩ | ⟨_, rfl, f, rfl, -⟩ := h
  all_goals exact ⟨_, rfl, _, rfl⟩

lemma builds_exportDefault : Builds .exportDefault := by
  intro e ps h
  simp [Grammar.body, all, oneOf, Grammar.semicolon, token, Fits] at h
  obtain ⟨_, rfl, n, rfl⟩ := h
  exact ⟨_, rfl, _, rfl, rfl⟩

lemma builds_exportList : Builds .exportList := by
  intro e ps h
  obtain ⟨ns, rfl⟩ : ∃ ns : List Node, ps = ns.map .node := by
    refine ((many_call (r := .exportSpecifier) (by simp) fun _ h => h).bracketed.seq ?_) ps h
    exact .seq (.opt (.seq .text (many_call (by simp) fun _ h => h))) (.opt .text)
  simp only [phrase?, exportList, nodes?_map, Option.bind_eq_bind, Option.bind_some]
  split
  · exact ⟨_, rfl, _, rfl, rfl⟩
  · split
    all_goals exact ⟨_, rfl, _, rfl, rfl⟩

lemma builds_exportSpecifier : Builds .exportSpecifier := by
  intro e ps h
  simp [Grammar.body, token, Fits] at h
  obtain ⟨_, _, rfl, ⟨bound, rfl⟩, rfl | ⟨_, rfl, exported, rfl⟩⟩ := h
  all_goals exact ⟨_, rfl, _, rfl⟩

lemma builds_exportAll : Builds .exportAll := by
  intro e ps h
  simp [Grammar.body, all, Grammar.semicolon, token, Fits] at h
  obtain ⟨_, rfl, source, rfl⟩ | ⟨_, _, rfl, ⟨exported, rfl⟩, _, rfl, source, rfl⟩ := h
  all_goals exact ⟨_, rfl, _, rfl, rfl⟩

end Modules

section Bindings

/-- A target with a default or alone. -/
lemma builds_bindingElement : Builds .bindingElement := by
  intro e ps h
  simp [Grammar.body, single_bindingTarget.seq, token, Fits] at h
  obtain ⟨_, _, rfl, ⟨target, rfl⟩, rfl | ⟨_, rfl, value, rfl⟩⟩ := h
  all_goals exact ⟨_, rfl, _, rfl⟩

lemma builds_restElement : Builds .restElement := by
  intro e ps h
  simp [Grammar.body, single_bindingTarget _, token] at h
  obtain ⟨_, rfl, target, rfl⟩ := h
  exact ⟨_, rfl, _, rfl⟩

lemma builds_objectPattern : Builds .objectPattern := by
  intro e ps h
  obtain ⟨ns, rfl⟩ := (many_call (r := .patternProperty) (by simp) fun _ h => h).bracketed ps h
  refine ⟨.node (e.node (.objectPattern ns)), ?_, _, rfl⟩
  simp [phrase?, objectPattern]

lemma builds_patternProperty : Builds .patternProperty := by
  intro e ps h
  simp [Grammar.body, oneOf, all, single_key.seq, token, Fits] at h
  obtain ⟨_, rfl, n, rfl⟩ | ⟨_, _, rfl, ⟨name, computed, rfl⟩, _, rfl, value, rfl⟩ |
    ⟨_, rfl, n, rfl⟩ := h
  case inr.inl => exact ⟨_, rfl, _, rfl⟩
  all_goals
    simp only [phrase?, patternProperty]
    split
    all_goals exact ⟨_, rfl, _, rfl⟩

/-- Slots with commas between them. -/
lemma many_slots {r : Rule} (h : r ≠ .templateHolePart)
    (slots : ∀ p, Fits r p → ∃ o, p = .slot o) : Many Phrase.slot (Grammar.listWithHoles r) := by
  have one : Many Phrase.slot (.call r) := by
    intro ps hps
    obtain ⟨p, rfl, hp⟩ := (yields_rule h).1 hps
    obtain ⟨o, rfl⟩ := slots p hp
    exact ⟨[o], rfl⟩
  exact .choice (.seq .text .text) (.seq .text (.seq one (.seq (.star (.seq .text one)) .text)))

lemma builds_arrayPattern : Builds .arrayPattern := by
  intro e ps h
  obtain ⟨os, rfl⟩ := many_slots (r := .patternItem) (by simp) (fun _ h => h) ps h
  refine ⟨.node (e.node (.arrayPattern (withoutLastHole os))), ?_, _, rfl⟩
  simp [phrase?, arrayPattern]

lemma builds_patternItem : Builds .patternItem := by
  intro e ps h
  simp [Grammar.body, single_parameter _] at h
  obtain rfl | ⟨_, rfl, n, rfl⟩ := h
  all_goals exact ⟨_, rfl, _, rfl⟩

lemma builds_parameterList : Builds .parameterList := by
  intro e ps h
  have one : Many Phrase.node Grammar.parameter := .single single_parameter
  obtain ⟨ns, rfl⟩ := (one.seq (.seq (.star (.seq .text one)) (.opt .text))) ps h
  exact ⟨.nodes ns, by simp [phrase?, list], ns, rfl⟩

end Bindings

section Functions

lemma builds_functionBody : Builds .functionBody := by
  intro e ps h
  obtain ⟨ns, rfl⟩ := many_statements ps (yields_between.1 h)
  refine ⟨.block { statements := ns, span := some e.span }, ?_, _, rfl⟩
  simp [phrase?, functionBody]

/-- A marker that may be missing. -/
def marker (text : String) (isThere : Bool) : List Phrase :=
  if isThere then [.token text] else []

lemma yields_opt_marker (r : Rule) {text : String} {ps : List Phrase}
    (h : r ≠ .templateHolePart) (token : ∀ p, Fits r p → p = .token text)
    (hps : Yields language Fits (.opt (.call r)) ps) : ∃ isThere, ps = marker text isThere := by
  rcases hps with rfl | hps
  · exact ⟨false, rfl⟩
  · obtain ⟨p, rfl, hp⟩ := (yields_rule h).1 hps
    exact ⟨true, by rw [token p hp]; rfl⟩

lemma yields_opt_node (r : Rule) {ps : List Phrase} (h : r ≠ .templateHolePart)
    (node : ∀ p, Fits r p → IsNode p) (hps : Yields language Fits (.opt (.call r)) ps) :
    ∃ id : Option Node, ps = id.toList.map .node := by
  rcases hps with rfl | hps
  · exact ⟨none, rfl⟩
  · obtain ⟨p, rfl, hp⟩ := (yields_rule h).1 hps
    obtain ⟨n, rfl⟩ := node p hp
    exact ⟨some n, rfl⟩

/-- The parameters of a function, which may be left out, and its body. -/
lemma yields_signatureAndBody {ps : List Phrase}
    (h : Yields language Fits Grammar.signatureAndBody ps) :
    ∃ (params : Option (List Node)) (b : Block Node),
      ps = params.toList.map .nodes ++ [.block b] := by
  simp [-existsAndEq, Grammar.signatureAndBody, all, token, Fits] at h
  obtain ⟨_, rfl, b, rfl⟩ | ⟨_, _, rfl, ⟨params, rfl⟩, _, rfl, b, rfl⟩ := h
  · exact ⟨none, b, rfl⟩
  · exact ⟨some params, b, rfl⟩

/-- A function is read with or without each of the parts before its body. -/
lemma function_parts (isAsync isGenerator : Bool) (id : Option Node) (params : Option (List Node))
    (b : Block Node) :
    function (marker "async" isAsync ++ (marker "*" isGenerator ++
      (id.toList.map .node ++ (params.toList.map .nodes ++ [.block b])))) =
      some { id, params := params.getD [], body := b, isGenerator, isAsync } := by
  cases isAsync <;> cases isGenerator <;> cases id <;> cases params <;> rfl

lemma yields_function {ps : List Phrase} (h : Yields language Fits Grammar.function ps) :
    ∃ f, function ps = some f := by
  obtain ⟨_, _, rfl, hasync, h⟩ := h
  simp only [all, yields_word_seq] at h
  obtain ⟨_, _, rfl, hgenerator, _, _, rfl, hid, h⟩ := h
  obtain ⟨isAsync, rfl⟩ := yields_opt_marker .asyncModifier (by simp) (fun _ h => h) hasync
  obtain ⟨isGenerator, rfl⟩ := yields_opt_marker .generatorMarker (by simp) (fun _ h => h) hgenerator
  obtain ⟨id, rfl⟩ := yields_opt_node .identifier (by simp) (fun _ h => h) hid
  obtain ⟨params, b, rfl⟩ := yields_signatureAndBody h
  exact ⟨_, function_parts isAsync isGenerator id params b⟩

lemma builds_functionDeclaration : Builds .functionDeclaration := by
  intro e ps h
  obtain ⟨f, hf⟩ := yields_function h
  exact ⟨_, congrArg (Option.map _) hf, _, rfl⟩

lemma builds_functionExpression : Builds .functionExpression := by
  intro e ps h
  obtain ⟨f, hf⟩ := yields_function h
  exact ⟨_, congrArg (Option.map _) hf, _, rfl⟩

lemma builds_arrowParameters : Builds .arrowParameters := by
  intro e ps h
  simp [Grammar.body, all, token, Fits] at h
  obtain ⟨_, rfl, n, rfl⟩ | rfl | ⟨_, rfl, ns, rfl⟩ := h
  all_goals exact ⟨_, rfl, _, rfl⟩

lemma builds_arrowFunction : Builds .arrowFunction := by
  intro e ps h
  simp [-existsAndEq, Grammar.body, all, token, Fits] at h
  obtain ⟨_, _, rfl, ⟨params, rfl⟩, ⟨_, rfl, body, rfl⟩ | ⟨_, rfl, body, rfl⟩⟩ |
    ⟨_, _, rfl, rfl, _, _, rfl, ⟨params, rfl⟩, ⟨_, rfl, body, rfl⟩ | ⟨_, rfl, body, rfl⟩⟩ := h
  all_goals exact ⟨_, rfl, _, rfl⟩

/-- The key, the parameters and the body of a method. -/
def methodRest (first : Phrase) (params : Option (List Node)) (b : Block Node) : List Phrase :=
  first :: (params.toList.map .nodes ++ [.block b])

lemma yields_methodTail {ps : List Phrase} (h : Yields language Fits Grammar.methodTail ps) :
    ∃ first params b, (∃ k, memberKey first = some k) ∧ ps = methodRest first params b := by
  rw [Grammar.methodTail, single_memberKey.seq] at h
  obtain ⟨first, _, rfl, hkey, h⟩ := h
  obtain ⟨params, b, rfl⟩ := yields_signatureAndBody h
  refine ⟨first, params, b, ?_, rfl⟩
  obtain ⟨key, computed, rfl⟩ | ⟨key, rfl⟩ := hkey
  all_goals exact ⟨_, rfl⟩

/-- A method is read with or without its markers and its parameters, once it is told what comes
before its key. -/
lemma method_parts {e : Extent} {kind : PropertyKind} {first : Phrase} {k : Node × Bool} {ps : List Phrase}
    (hkey : memberKey first = some k) (isAsync isGenerator : Bool) (params : Option (List Node))
    (b : Block Node) (haccessor : accessorKind ps =
      (kind, marker "async" isAsync ++ (marker "*" isGenerator ++ methodRest first params b))) :
    ∃ m, method e ps = some (.method m) := by
  obtain ⟨key, computed, rfl⟩ | ⟨key, rfl⟩ : IsKey first ∨ IsNode first := by
    cases first
    case node n => exact .inr ⟨n, rfl⟩
    case key n c => exact .inl ⟨n, c, rfl⟩
    all_goals cases hkey
  all_goals
    rw [method, haccessor]
    cases isAsync <;> cases isGenerator <;> cases params <;> exact ⟨_, rfl⟩

lemma builds_methodProperty : Builds .methodProperty := by
  rintro e ps (h | ⟨_, _, rfl, hasync, _, _, rfl, hgenerator, h⟩)
  · rw [yields_rule_seq (by simp)] at h
    obtain ⟨_, _, rfl, ⟨w, kind, rfl, hkind⟩, h⟩ := h
    obtain ⟨first, params, b, ⟨k, hk⟩, rfl⟩ := yields_methodTail h
    have accessor : accessorKind (.token w :: methodRest first params b) =
        (kind, marker "async" false ++ (marker "*" false ++ methodRest first params b)) := by
      simp [accessorKind, hkind, marker]
    obtain ⟨m, hm⟩ := method_parts hk false false params b accessor
    exact ⟨_, hm, _, rfl⟩
  · obtain ⟨isAsync, rfl⟩ := yields_opt_marker .asyncModifier (by simp) (fun _ h => h) hasync
    obtain ⟨isGenerator, rfl⟩ :=
      yields_opt_marker .generatorMarker (by simp) (fun _ h => h) hgenerator
    obtain ⟨first, params, b, ⟨k, hk⟩, rfl⟩ := yields_methodTail h
    have plain : accessorKind (marker "async" isAsync ++ (marker "*" isGenerator ++
        methodRest first params b)) =
        (.init, marker "async" isAsync ++ (marker "*" isGenerator ++
        methodRest first params b)) := by
      cases isAsync
      · cases isGenerator
        · cases first
          case token => cases hk
          all_goals rfl
        · rfl
      · rfl
    obtain ⟨m, hm⟩ := method_parts hk isAsync isGenerator params b plain
    exact ⟨_, hm, _, rfl⟩

end Functions

section Classes

lemma yields_classDefinition {ps : List Phrase}
    (h : Yields language Fits Grammar.classDefinition ps) :
    ∃ c, classDefinition ps = some c := by
  simp [-existsAndEq, Grammar.classDefinition, all, Fits] at h
  obtain (⟨_, rfl, body, rfl⟩ | ⟨_, _, rfl, ⟨superclass, rfl⟩, _, rfl, body, rfl⟩) |
    ⟨_, _, rfl, ⟨id, rfl⟩, ⟨_, rfl, body, rfl⟩ |
      ⟨_, _, rfl, ⟨superclass, rfl⟩, _, rfl, body, rfl⟩⟩ := h
  all_goals exact ⟨_, rfl⟩

lemma builds_classDeclaration : Builds .classDeclaration := by
  intro e ps h
  obtain ⟨c, hc⟩ := yields_classDefinition h
  exact ⟨_, congrArg (Option.map _) hc, _, rfl⟩

lemma builds_classExpression : Builds .classExpression := by
  intro e ps h
  obtain ⟨c, hc⟩ := yields_classDefinition h
  exact ⟨_, congrArg (Option.map _) hc, _, rfl⟩

lemma builds_classHeritage : Builds .classHeritage := by
  intro e ps h
  simp [Grammar.body, Fits] at h
  obtain ⟨_, rfl, n, rfl⟩ := h
  exact ⟨_, rfl, _, rfl⟩

lemma builds_classBody : Builds .classBody := by
  intro e ps h
  have one : Many Phrase.node (.call .classMember) := many_call (by simp) fun _ h => h
  obtain ⟨ns, rfl⟩ := (one.choice .text).star ps (yields_between.1 h)
  refine ⟨.node (e.node (.classBody ns)), ?_, _, rfl⟩
  simp [phrase?, classBody]

lemma builds_classMember : Builds .classMember := by
  intro e ps h
  simp [-existsAndEq, Grammar.body, Fits] at h
  obtain (⟨_, rfl, m, rfl⟩ | ⟨_, rfl, key, computed, value, rfl⟩) |
    ⟨_, _, rfl, rfl, ⟨_, rfl, m, rfl⟩ | ⟨_, rfl, key, computed, value, rfl⟩⟩ := h
  all_goals exact ⟨_, rfl, _, rfl⟩

lemma builds_classField : Builds .classField := by
  intro e ps h
  simp [Grammar.body, all, single_memberKey.seq, Grammar.semicolon, token, Fits] at h
  obtain ⟨_, _, rfl, ⟨key, computed, rfl⟩ | ⟨key, rfl⟩, rfl | ⟨_, rfl, value, rfl⟩⟩ := h
  all_goals exact ⟨_, rfl, _, _, _, rfl⟩

end Classes

section Expressions

lemma builds_expression : Builds .expression := by
  intro e ps h
  rw [Grammar.body, sepBy, yields_rule_seq (by simp)] at h
  obtain ⟨_, qs, rfl, ⟨n, rfl⟩, hqs⟩ := h
  have one : Many Phrase.node (.call .assignmentExpression) := many_call (by simp) fun _ h => h
  obtain ⟨ns, rfl⟩ := (Many.seq .text one).star qs hqs
  rw [← List.map_cons (f := Phrase.node), phrase?, sequence, nodes?_map]
  cases ns
  all_goals exact ⟨_, rfl, _, rfl⟩

lemma builds_assignmentExpression : Builds .assignmentExpression := by
  intro e ps h
  simp [-existsAndEq, Grammar.body, Fits] at h
  obtain ⟨_, rfl, n, rfl⟩ |
    ⟨_, _, rfl, ⟨target, rfl⟩, rfl | ⟨_, _, rfl, ⟨operator, rfl⟩, _, rfl, value, rfl⟩⟩ := h
  all_goals exact ⟨_, rfl, _, rfl⟩

lemma builds_conditionalExpression : Builds .conditionalExpression := by
  intro e ps h
  simp [Grammar.body, all, token, Fits] at h
  obtain ⟨_, _, rfl, ⟨test, rfl⟩,
    rfl | ⟨_, _, rfl, ⟨consequent, rfl⟩, _, rfl, alternate, rfl⟩⟩ := h
  all_goals exact ⟨_, rfl, _, rfl⟩

/-- Operators that join operands join any number of them. -/
lemma chain_fits {left : Node} {pss : List (List Phrase)}
    (h : ∀ ps ∈ pss, ∃ w n, ps = [.token w, .node n] ∧ ∀ a b, (combine w a b).isSome) :
    ∃ n, chain left pss.flatten = some n := by
  induction pss generalizing left with
  | nil => exact ⟨left, rfl⟩
  | cons ps pss ih =>
    obtain ⟨w, right, rfl, joins⟩ := h ps List.mem_cons_self
    obtain ⟨joined, hjoined⟩ := Option.isSome_iff_exists.1 (joins left right)
    have rest : ∃ n, chain joined pss.flatten = some n :=
      ih fun qs hqs => h qs (List.mem_cons_of_mem _ hqs)
    obtain ⟨n, hn⟩ := rest
    refine ⟨n, ?_⟩
    rw [List.flatten_cons, List.cons_append, List.cons_append, List.nil_append, chain, hjoined,
      Option.bind_some, hn]

lemma builds_binaryExpression (level : Precedence) : Builds (.binaryExpression level) := by
  intro e ps h
  rw [Grammar.body, (single_operand level).seq] at h
  obtain ⟨_, _, rfl, ⟨left, rfl⟩, pss, rfl, each⟩ := h
  obtain ⟨n, hn⟩ : ∃ n, chain left pss.flatten = some n := by
    refine chain_fits fun ps hps => ?_
    have := each ps hps
    simp [-existsAndEq, single_operand level _, Fits] at this
    obtain ⟨_, _, rfl, ⟨w, rfl, joins⟩, _, rfl, right, rfl⟩ := this
    exact ⟨w, right, rfl, joins⟩
  exact ⟨.node n, congrArg (Option.map _) hn, n, rfl⟩

lemma builds_unaryExpression : Builds .unaryExpression := by
  intro e ps h
  simp [-existsAndEq, Grammar.body, Fits] at h
  obtain ⟨_, _, rfl, ⟨w, rfl, applies⟩, _, rfl, argument, rfl⟩ | ⟨_, rfl, n, rfl⟩ := h
  · obtain ⟨f, hf⟩ := Option.isSome_iff_exists.1 (applies argument)
    exact ⟨_, congrArg (Option.map _) hf, _, rfl⟩
  · exact ⟨_, rfl, _, rfl⟩

/-- An object may be accessed and changed any number of times. -/
lemma accessed_fits {object : Node} {ps : List Phrase} (h : ∀ p ∈ ps, IsAccess p ∨ IsUpdate p) :
    ∃ p, accessed (.node object :: ps) = some p ∧ IsNode p := by
  suffices ∃ n, accesses object ps = some n by
    obtain ⟨n, hn⟩ := this
    exact ⟨.node n, congrArg (Option.map _) hn, n, rfl⟩
  induction ps generalizing object with
  | nil => exact ⟨object, rfl⟩
  | cons p ps ih =>
    have rest := fun q hq => h q (List.mem_cons_of_mem p hq)
    obtain ⟨a, rfl⟩ | ⟨operator, span, rfl⟩ := h p List.mem_cons_self
    all_goals exact ih rest

lemma builds_postfixExpression : Builds .postfixExpression := by
  intro e ps h
  simp only [Grammar.body, all, yields_choice_seq] at h
  obtain ⟨object, qs, rs, rfl, hqs, hrs⟩ : ∃ object qs rs, ps = .node object :: (qs ++ rs) ∧
      Yields language Fits (.star (.call .postfixOperation)) qs ∧
      Yields language Fits (.opt (.call .updateSuffix)) rs := by
    rw [yields_rule_seq (by simp), single_primaryExpression.seq] at h
    obtain ⟨_, _, rfl, ⟨object, rfl⟩, qs, rs, rfl, hqs, hrs⟩ |
      ⟨_, _, rfl, ⟨object, rfl⟩, qs, rs, rfl, hqs, hrs⟩ := h
    all_goals exact ⟨object, qs, rs, rfl, hqs, hrs⟩
  refine accessed_fits fun p hp => ?_
  rcases List.mem_append.1 hp with hp | hp
  · exact .inl (yields_star_of_single (fun _ => (yields_rule (by simp)).1) hqs p hp)
  · obtain rfl | hrs := hrs
    · cases hp
    · obtain ⟨q, rfl, hq⟩ := (yields_rule (by simp)).1 hrs
      rw [List.mem_singleton.1 hp]
      exact .inr hq

lemma builds_newTarget : Builds .newTarget := by
  intro e ps h
  simp only [Grammar.body, yields_choice_seq] at h
  obtain ⟨object, qs, rfl, hqs⟩ : ∃ object qs, ps = .node object :: qs ∧
      Yields language Fits (.star (.choice (.call .memberAccess) (.call .computedAccess))) qs := by
    rw [yields_rule_seq (by simp), single_primaryExpression.seq] at h
    obtain ⟨_, qs, rfl, ⟨object, rfl⟩, hqs⟩ | ⟨_, qs, rfl, ⟨object, rfl⟩, hqs⟩ := h
    all_goals exact ⟨object, qs, rfl, hqs⟩
  refine accessed_fits fun p hp => .inl ?_
  refine yields_star_of_single (fun qs hqs => ?_) hqs p hp
  simpa [Fits] using hqs

lemma builds_postfixOperation : Builds .postfixOperation := by
  intro e ps h
  simp [Grammar.body, oneOf, Fits] at h
  obtain ⟨_, rfl, arguments, isOptional, span, rfl⟩ | ⟨_, rfl, a, rfl⟩ := h
  all_goals exact ⟨_, rfl, _, rfl⟩

lemma builds_callArguments : Builds .callArguments := by
  rintro e _ ⟨_, ps, rfl, hopt, h⟩
  obtain rfl : _ = [] := by simpa [token] using hopt
  obtain ⟨ns, rfl⟩ := (Many.single single_argument).bracketed ps h
  exact ⟨access e (.call ns), by simp [phrase?, callArguments], _, _, _, rfl⟩

lemma builds_memberAccess : Builds .memberAccess := by
  intro e ps h
  simp [Grammar.body, token, Fits] at h
  obtain ⟨_, rfl, name, rfl⟩ := h
  exact ⟨_, rfl, _, rfl⟩

lemma builds_computedAccess : Builds .computedAccess := by
  intro e ps h
  simp [Grammar.body, all, token, Fits] at h
  obtain ⟨_, rfl, n, rfl⟩ := h
  exact ⟨_, rfl, _, rfl⟩

lemma builds_newExpression : Builds .newExpression := by
  intro e ps h
  simp [Grammar.body, all, Fits] at h
  obtain ⟨_, _, rfl, ⟨callee, rfl⟩, rfl | ⟨_, rfl, arguments, isOptional, span, rfl⟩⟩ := h
  all_goals exact ⟨_, rfl, _, rfl⟩

lemma builds_parenthesizedExpression : Builds .parenthesizedExpression := by
  intro e ps h
  simp [Grammar.body, all, token, Fits] at h
  obtain ⟨_, rfl, n, rfl⟩ := h
  exact ⟨_, rfl, _, rfl⟩

lemma builds_importCall : Builds .importCall := by
  intro e ps h
  simp [Grammar.body, all, token, Fits] at h
  obtain ⟨_, _, rfl, ⟨source, rfl⟩, rfl | ⟨_, rfl, options, rfl⟩⟩ := h
  all_goals exact ⟨_, rfl, _, rfl⟩

lemma builds_metaProperty : Builds .metaProperty := by
  intro e ps h
  simp [Grammar.body, all, token, Fits] at h
  obtain ⟨_, _, rfl, ⟨target, rfl⟩, _, rfl, name, rfl⟩ := h
  exact ⟨_, rfl, _, rfl⟩

lemma builds_arrayLiteral : Builds .arrayLiteral := by
  intro e ps h
  obtain ⟨os, rfl⟩ := many_slots (r := .arrayItem) (by simp) (fun _ h => h) ps h
  refine ⟨.node (e.node (.arrayExpression (withoutLastHole os))), ?_, _, rfl⟩
  simp [phrase?, arrayLiteral]

lemma builds_arrayItem : Builds .arrayItem := by
  intro e ps h
  simp [Grammar.body, single_argument _] at h
  obtain rfl | ⟨_, rfl, n, rfl⟩ := h
  all_goals exact ⟨_, rfl, _, rfl⟩

lemma builds_spreadElement : Builds .spreadElement := by
  intro e ps h
  simp [Grammar.body, token, Fits] at h
  obtain ⟨_, rfl, n, rfl⟩ := h
  exact ⟨_, rfl, _, rfl⟩

lemma builds_objectLiteral : Builds .objectLiteral := by
  intro e ps h
  have one : Many Phrase.node (.choice (.call .spreadElement) (.call .property)) :=
    .choice (many_call (by simp) fun _ h => h) (many_call (by simp) fun _ h => h)
  obtain ⟨ns, rfl⟩ := one.bracketed ps h
  refine ⟨.node (e.node (.objectExpression ns)), ?_, _, rfl⟩
  simp [phrase?, objectLiteral]

lemma builds_property : Builds .property := by
  intro e ps h
  simp [Grammar.body, oneOf, all, single_key.seq, token, Fits] at h
  obtain ⟨_, _, rfl, ⟨name, computed, rfl⟩, _, rfl, value, rfl⟩ | ⟨_, rfl, m, rfl⟩ |
    ⟨_, rfl, n, rfl⟩ := h
  all_goals exact ⟨_, rfl, _, rfl⟩

lemma builds_shorthandProperty : Builds .shorthandProperty := by
  intro e ps h
  simp [Grammar.body, Fits] at h
  obtain ⟨_, rfl, n, rfl⟩ := h
  exact ⟨_, rfl, _, rfl⟩

lemma builds_propertyKey : Builds .propertyKey := by
  intro e ps h
  simp [Grammar.body, oneOf, Fits] at h
  obtain ⟨_, rfl, n, rfl⟩ := h
  exact ⟨_, rfl, _, _, rfl⟩

lemma builds_computedKey : Builds .computedKey := by
  intro e ps h
  simp [Grammar.body, all, token, Fits] at h
  obtain ⟨_, rfl, n, rfl⟩ := h
  exact ⟨_, rfl, _, _, rfl⟩

end Expressions

end ScriptTyping.Reading
