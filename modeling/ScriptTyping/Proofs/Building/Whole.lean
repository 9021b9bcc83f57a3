import ScriptTyping.Proofs.Building.Statement

/-!
# Parse trees agree

The parse trees of the grammar stand for the same phrases by the builders as by `assemble`.
-/

namespace ScriptTyping.Building
open Peg Peg.Expr Reading Building.Part

section Leaves

variable {r : Rule} {e : Extent}

lemma agrees_number : phrase .number e [] = assembled .number e [] := by
  change node (literal .number e) = build .number e []
  rw [literal, build, phrase?]
  cases Literal.number? e.text <;> rfl

/-- The text inside quotes is cut out by the same bounds either way. -/
lemma agrees_string : phrase .string e [] = assembled .string e [] := by
  change node (literal .string e) = build .string e []
  rw [literal, build, phrase?, inner?, slice]
  cases Text.slice? e.text 1 (Text.byteLength e.text - 1) <;> rfl

lemma agrees_templateLiteral : phrase .templateLiteral e [] = assembled .templateLiteral e [] := by
  change node (literal .templateLiteral e) = build .templateLiteral e []
  rw [literal, build, phrase?, inner?, slice]
  cases Text.slice? e.text 1 (Text.byteLength e.text - 1) <;> rfl

lemma agrees_regex : phrase .regex e [] = assembled .regex e [] := by
  change node (literal .regex e) = build .regex e []
  rw [literal, build, phrase?, regexValue?, slice, slice]
  cases Text.slice? e.text 1 (max (lastSlash e.text) 1) with
  | none => rfl
  | some pattern => cases Text.slice? e.text (lastSlash e.text + 1) (Text.byteLength e.text) <;> rfl

lemma agrees_leaf (leaf : isLeaf r = true) : phrase r e [] = assembled r e [] := by
  cases r
  case number => exact agrees_number
  case string => exact agrees_string
  case templateLiteral => exact agrees_templateLiteral
  case regex => exact agrees_regex
  all_goals first
    | rfl
    | cases leaf

end Leaves

/-- The parts of every rule that has parts agree, but for those of cases, which are told apart by the
word before them. -/
lemma agrees_of_kind {r : Rule} (parts : isLeaf r = false) (loud : r ≠ .templateHolePart)
    (switch : r ≠ .switchCase) : Agrees r := by
  -- One lemma for each rule with parts.
  cases r
  case program => exact agrees_program
  case variableDeclaration => exact agrees_variableDeclaration
  case forDeclaration => exact agrees_forDeclaration
  case variableDeclarator => exact agrees_variableDeclarator
  case functionDeclaration => exact agrees_functionDeclaration
  case functionBody => exact agrees_functionBody
  case classDeclaration => exact agrees_classDeclaration
  case classHeritage => exact agrees_classHeritage
  case classBody => exact agrees_classBody
  case classMember => exact agrees_classMember
  case classField => exact agrees_classField
  case importDeclaration => exact agrees_importDeclaration
  case importClause => exact agrees_importClause
  case namespaceImport => exact agrees_namespaceImport
  case namedImports => exact agrees_namedImports
  case importSpecifier => exact agrees_importSpecifier
  case exportDeclaration => exact agrees_exportDeclaration
  case exportDefault => exact agrees_exportDefault
  case exportList => exact agrees_exportList
  case exportSpecifier => exact agrees_exportSpecifier
  case exportAll => exact agrees_exportAll
  case returnStatement => exact agrees_returnStatement
  case ifStatement => exact agrees_ifStatement
  case whileStatement => exact agrees_whileStatement
  case doWhileStatement => exact agrees_doWhileStatement
  case forStatement => exact agrees_forStatement
  case forEachHead => exact agrees_forEachHead
  case forClassicHead => exact agrees_forClassicHead
  case forInit => exact agrees_forInit
  case forTest => exact agrees_forTest
  case forUpdate => exact agrees_forUpdate
  case tryStatement => exact agrees_tryStatement
  case catchClause => exact agrees_catchClause
  case finallyClause => exact agrees_finallyClause
  case switchStatement => exact agrees_switchStatement
  case breakStatement => exact agrees_breakStatement
  case continueStatement => exact agrees_continueStatement
  case labeledStatement => exact agrees_labeledStatement
  case throwStatement => exact agrees_throwStatement
  case block => exact agrees_block
  case expressionStatement => exact agrees_expressionStatement
  case bindingElement => exact agrees_bindingElement
  case restElement => exact agrees_restElement
  case objectPattern => exact agrees_objectPattern
  case patternProperty => exact agrees_patternProperty
  case arrayPattern => exact agrees_arrayPattern
  case patternItem => exact agrees_patternItem
  case parameterList => exact agrees_parameterList
  case expression => exact agrees_expression
  case assignmentExpression => exact agrees_assignmentExpression
  case arrowFunction => exact agrees_arrowFunction
  case arrowParameters => exact agrees_arrowParameters
  case conditionalExpression => exact agrees_conditionalExpression
  case binaryExpression level => exact agrees_binaryExpression level
  case unaryExpression => exact agrees_unaryExpression
  case postfixExpression => exact agrees_postfixExpression
  case postfixOperation => exact agrees_postfixOperation
  case callArguments => exact agrees_callArguments
  case memberAccess => exact agrees_memberAccess
  case computedAccess => exact agrees_computedAccess
  case newExpression => exact agrees_newExpression
  case newTarget => exact agrees_newTarget
  case parenthesizedExpression => exact agrees_parenthesizedExpression
  case importCall => exact agrees_importCall
  case metaProperty => exact agrees_metaProperty
  case functionExpression => exact agrees_functionExpression
  case classExpression => exact agrees_classExpression
  case arrayLiteral => exact agrees_arrayLiteral
  case arrayItem => exact agrees_arrayItem
  case spreadElement => exact agrees_spreadElement
  case objectLiteral => exact agrees_objectLiteral
  case property => exact agrees_property
  case methodProperty => exact agrees_methodProperty
  case shorthandProperty => exact agrees_shorthandProperty
  case propertyKey => exact agrees_propertyKey
  case computedKey => exact agrees_computedKey
  case templateHolePart => exact absurd rfl loud
  case switchCase => exact absurd rfl switch
  all_goals cases parts

section Trees

variable {file : String} {source : List Char} {t : Peg.Tree Rule}

lemma partOf_eq (t : Peg.Tree Rule) :
    partOf file source t = .of t.rule (Reading.extent file source t) (t.children.map (partOf file source)) := by
  obtain ⟨r, i, cs, ts⟩ := t
  rw [partOf, Tree.fold_node]
  rfl

/-- A marker that a match is told by is one that its rule may have. -/
lemma text_of_isRead (h : t.IsRead language source) (token : isToken t.rule = true) :
    Fits t.rule (.token (Reading.extent file source t).string) := by
  by_cases marker : t.rule = .generatorMarker
  · rw [marker]
    rw [Extent.string, Reading.extent, generatorMarker_text h marker]
    rfl
  · have atomic : Grammar.kind t.rule = .atomic := by
      cases rule : t.rule
      all_goals first
        | rfl
        | exact absurd rule marker
        | (rw [rule] at token; cases token)
    have number : t.rule ≠ .number := by
      intro number
      rw [number] at token
      cases token
    obtain ⟨p, made, fits⟩ : ∃ p, phrase? t.rule (Reading.extent file source t) [] = some p ∧ Fits t.rule p :=
      token_fits atomic (h.spells atomic) fun same => absurd same number
    have same : phrase? t.rule (Reading.extent file source t) [] =
        some (.token (Reading.extent file source t).string) := by
      cases rule : t.rule
      all_goals first
        | rfl
        | (rw [rule] at token; cases token)
    rw [same] at made
    cases made
    exact fits

lemma is_of_isRead (h : t.IsRead language source) : Is t.rule (partOf file source t) := by
  rw [partOf_eq]
  refine ⟨⟨_, _, rfl⟩, text_of_isRead h, fun normal => ?_, ?_⟩
  · have inside : Yields language (fun r u => u.rule = r) (Grammar.body t.rule) t.children :=
      h.yields (.inl normal)
    refine inside.map fun r u _ rule => ?_
    rw [partOf_eq, ← rule]
    rfl
  · intro m hm
    obtain ⟨u, _, rfl⟩ := List.mem_map.1 hm
    exact ⟨_, _, _, partOf_eq u⟩

/-- A part of a match is one of the rule that a tree is read by. -/
lemma Yields_map {a : Expr Rule} {ts : List (Peg.Tree Rule)} (each : ∀ u ∈ ts, u.IsRead language source)
    (h : Yields language (fun r u => u.rule = r) a ts) :
    Yields language Is a (ts.map (partOf file source)) :=
  h.map fun _ u hu rule => rule ▸ is_of_isRead (each u hu)

/-- A parse tree stands for the same phrase by the builder for its rule as by what is assembled. -/
theorem phrase_partOf (h : t.IsRead language source) :
    (partOf file source t).phrase = assemble file source t := by
  refine Tree.IsRead.induction (P := fun t => (partOf file source t).phrase = assemble file source t)
    (fun t h ih => ?_) t h
  -- On the match: of its parts it is known already.
  have parts : t.children.map (assemble file source) =
      (t.children.map (partOf file source)).map Part.phrase := by
    rw [List.map_map]
    exact List.map_congr_left fun u hu => (ih u hu).symm
  have whole : assemble file source t =
      assembled t.rule (Reading.extent file source t) (t.children.map (partOf file source)) := by
    rw [assemble_eq, parts]
    rfl
  rw [whole, partOf_eq]
  change phrase t.rule (Reading.extent file source t) _ = _
  by_cases leaf : isLeaf t.rule = true
  · rw [children_of_leaf h leaf]
    exact agrees_leaf leaf
  · have each := h.children
    by_cases switch : t.rule = .switchCase
    · rw [switch]
      refine agrees_switchCase ?_
      obtain ⟨word, left⟩ | ⟨word, test, rest, e, rule, left⟩ := switchCase_parts h switch
      · exact .inl ⟨word, Yields_map each left⟩
      · rw [e] at each ⊢
        refine .inr ⟨word, _, _, rfl, ?_, Yields_map (fun u hu => each u (List.mem_cons_of_mem _ hu)) left⟩
        rw [← rule]
        exact is_of_isRead (each test List.mem_cons_self)
    · have loud : t.rule ≠ .templateHolePart := by
        intro hole
        exact h.2.1 (by rw [hole]; rfl)
      refine agrees_of_kind (by simpa using leaf) loud switch _ _ (Yields_map each (h.yields ?_))
      have atomic : language.kind t.rule ≠ .atomic := by
        intro atomic
        exact leaf (Bool.or_eq_true_iff.2 (.inl (beq_iff_eq.2 atomic)))
      cases kind : language.kind t.rule with
      | normal => exact .inl rfl
      | compound => exact .inr rfl
      | atomic => exact absurd kind atomic
      | silent => exact absurd kind h.2.1

end Trees

end ScriptTyping.Building
