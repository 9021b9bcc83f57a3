import ScriptTyping.Proofs.Building.Function

/-!
# Expressions agree

What the builders of expressions make is what is assembled. Where a builder goes along operands and
operators, the induction is on the parts, and every step keeps what both sides have made so far.
-/

namespace ScriptTyping.Building
open Peg Peg.Expr Reading Building.Part

attribute [local simp] next optional assembled_eq

/-- Whether a rule is one of expressions. -/
def isExpression (r : Rule) : Bool :=
  r matches .expression | .assignmentExpression | .arrowFunction | .conditionalExpression
    | .binaryExpression _ | .unaryExpression | .postfixExpression | .newExpression
    | .parenthesizedExpression | .spreadElement | .functionExpression | .classExpression
    | .arrayLiteral | .objectLiteral | .thisExpression | .superExpression | .identifier
    | .propertyIdentifier | .privateIdentifier | .importCall | .metaProperty | .number | .bigint
    | .string | .boolean | .null | .regex | .templateLiteral

lemma isExpression_of {r : Rule} {m : Part} (expression : isExpression r = true) (h : Is r m) :
    m.IsExpression := by
  cases r
  all_goals first
    | exact h.expression fun _ _ => rfl
    | cases expression

lemma forall_isExpression {a : Expr Rule} {ms : List Part} (h : Yields language Is a ms)
    (only : a.callsOnly isExpression = true) : ∀ m ∈ ms, m.IsExpression :=
  forall_of_calls h only (fun _ hr _ => isExpression_of hr) rfl

/-! ### Operations -/

lemma agrees_expression : Agrees .expression := by
  intro e ms h
  change node (sequence e ms) = _
  have all := forall_isExpression h (by decide)
  obtain ⟨m, ms, rfl, -, -⟩ := (yields_rule_seq (by simp)).1 h
  rw [assembled_eq (by simp), mapM_phrase all, bind_map, sequence, node_bind, List.mapM_cons]
  cases m.expression with
  | error f => rfl
  | ok n =>
    cases ms.mapM Part.expression with
    | error f => rfl
    | ok ns => cases ns <;> simp [build, phrase?, Reading.sequence] <;> rfl

lemma agrees_assignmentExpression : Agrees .assignmentExpression := by
  intro e ms h
  change node (assignment e ms) = _
  simp [Grammar.body] at h
  obtain ⟨m, rfl, is⟩ | ⟨m, ms, rfl, is, h⟩ := h
  · have told : m.IsExpression := isExpression_of rfl is
    simp [assignment, told]
    rfl
  · have told : m.IsExpression := isExpression_of rfl is
    obtain rfl | ⟨operator, value, rfl, is_operator, is_value⟩ := h
    · simp [assignment, told]
      rfl
    · have told_operator : operator.phrase = .ok (.token operator.extent.string) := is_operator.phrase
      have told_value : value.IsExpression := isExpression_of rfl is_value
      simp [assignment, told, told_operator, told_value]
      rfl

lemma agrees_conditionalExpression : Agrees .conditionalExpression := by
  intro e ms h
  change node (conditional e ms) = _
  simp [Grammar.body, all, token] at h
  obtain ⟨test, ms, rfl, is_test, h⟩ := h
  have told_test : test.IsExpression := isExpression_of rfl is_test
  obtain rfl | ⟨a, b, rfl, is_a, is_b⟩ := h
  · simp [conditional, told_test]
    rfl
  · have told_a : a.IsExpression := isExpression_of rfl is_a
    have told_b : b.IsExpression := isExpression_of rfl is_b
    simp [conditional, told_test, told_a, told_b]
    rfl

lemma leaves_operand (level : Precedence) : Leaves (Grammar.operand level) IsExpression := by
  intro ms h
  cases level
  all_goals
    simp [Grammar.operand, Precedence.next?] at h
    obtain ⟨m, rfl, is⟩ := h
    exact ⟨m, rfl, isExpression_of rfl is⟩

lemma chain_agrees {level : Precedence} {e : Extent} {left : Node} {mss : List (List Part)}
    (each : ∀ ms ∈ mss, ∃ operator right, ms = [operator, right] ∧ Is (.binaryOperator level) operator ∧
      right.IsExpression) :
    node (Building.chain left mss.flatten) =
      mss.flatten.mapM Part.phrase >>= fun ps => orLacking e (Reading.chain left ps) := by
  induction mss generalizing left with
  | nil => rfl
  | cons ms mss ih =>
    obtain ⟨operator, right, rfl, is_operator, told_right⟩ := each ms List.mem_cons_self
    have told : operator.phrase = .ok (.token operator.extent.string) := is_operator.phrase
    obtain ⟨w, same, joins⟩ := is_operator.text rfl
    cases same
    simp only [List.flatten_cons, List.cons_append, List.nil_append, List.mapM_cons, told, told_right,
      ok_bind, Building.chain, node_bind, bind_node]
    cases right.expression with
    | error f => rfl
    | ok b =>
      obtain ⟨n, made⟩ := Option.isSome_iff_exists.1 (joins left b)
      simp only [ok_bind, made]
      rw [ih fun ms hms => each ms (List.mem_cons_of_mem _ hms)]
      cases mss.flatten.mapM Part.phrase with
      | error f => rfl
      | ok ps => simp [Reading.chain, made]

lemma agrees_binaryExpression (level : Precedence) : Agrees (.binaryExpression level) := by
  intro e ms h
  change node (binary e ms) = _
  obtain ⟨left, _, rfl, told, mss, rfl, each⟩ := (leaves_operand level).seq h
  replace each : ∀ ms ∈ mss, ∃ operator right, ms = [operator, right] ∧
      Is (.binaryOperator level) operator ∧ right.IsExpression := by
    intro ms hms
    obtain ⟨operator, _, rfl, is, h⟩ := (yields_rule_seq (by simp)).1 (each ms hms)
    obtain ⟨right, rfl, told⟩ := leaves_operand level _ h
    exact ⟨operator, right, rfl, is, told⟩
  rw [assembled_eq (by simp), List.mapM_cons, told, bind_node, binary]
  simp only [next, ok_bind, node_bind]
  cases left.expression with
  | error f => rfl
  | ok n =>
    simp only [ok_bind]
    rw [chain_agrees (e := e) each]
    cases mss.flatten.mapM Part.phrase with
    | error f => rfl
    | ok ps =>
      simp [build, phrase?, Reading.binary, orLacking]
      cases Reading.chain n ps <;> rfl

lemma agrees_unaryExpression : Agrees .unaryExpression := by
  intro e ms h
  change node (unary e ms) = _
  simp [Grammar.body] at h
  obtain ⟨operator, operand, rfl, is_operator, is⟩ | ⟨operand, rfl, is⟩ := h
  · have told : operand.IsExpression := isExpression_of rfl is
    have told_operator : operator.phrase = .ok (.token operator.extent.string) := is_operator.phrase
    obtain ⟨w, same, joins⟩ := is_operator.text rfl
    cases same
    simp [unary, told, told_operator, is_operator.rule]
    cases operand.expression with
    | error f => rfl
    | ok n =>
      obtain ⟨f, made⟩ := Option.isSome_iff_exists.1 (joins n)
      simp [made, build, phrase?, Reading.unary]
      rfl
  · have told : operand.IsExpression := isExpression_of rfl is
    simp [unary, told, is.rule]
    rfl

/-! ### Accesses -/

lemma agrees_callArguments : Agrees .callArguments := by
  intro e ms h
  have all := forall_isExpression h (by decide)
  have made (ns : List Node) : build .callArguments e (ns.map .node) =
      .ok (.access { kind := .call ns, optional := isOptional e, span := e.span }) := by
    simp [build, phrase?, Reading.callArguments]
    rfl
  rw [assembled_many all (by simp) made]
  change (access (.of .callArguments e ms)).map Phrase.access = _
  simp [access, callArguments]
  rfl

/-- A match of an access stands for the access. -/
lemma access_phrase {r : Rule} {m : Part} (rule : r = .callArguments ∨ r = .memberAccess ∨ r = .computedAccess)
    (h : Is r m) : m.phrase = (access m).map .access := by
  obtain ⟨e, ms, rfl⟩ := h.of
  obtain rfl | rfl | rfl := rule <;> rfl

lemma agrees_memberAccess : Agrees .memberAccess := by
  intro e ms h
  simp [Grammar.body, token] at h
  obtain ⟨m, rfl, told⟩ : ∃ m, ms = [m] ∧ m.IsExpression := by
    obtain ⟨m, rfl, is⟩ | ⟨m, rfl, is⟩ := h
    all_goals exact ⟨m, rfl, isExpression_of rfl is⟩
  change (access (.of .memberAccess e [m])).map Phrase.access = _
  simp [access, told]
  rfl

lemma agrees_computedAccess : Agrees .computedAccess := by
  intro e ms h
  simp [Grammar.body, all, token] at h
  obtain ⟨m, rfl, is⟩ := h
  have told : m.IsExpression := isExpression_of rfl is
  change (access (.of .computedAccess e [m])).map Phrase.access = _
  simp [access, told]
  rfl

lemma agrees_postfixOperation : Agrees .postfixOperation := by
  intro e ms h
  simp [Grammar.body, oneOf] at h
  obtain ⟨m, rfl, told⟩ : ∃ m, ms = [m] ∧ m.phrase = (access m).map .access := by
    obtain ⟨m, rfl, is⟩ | ⟨m, rfl, is⟩ | ⟨m, rfl, is⟩ := h
    · exact ⟨m, rfl, access_phrase (.inl rfl) is⟩
    · exact ⟨m, rfl, access_phrase (.inr (.inl rfl)) is⟩
    · exact ⟨m, rfl, access_phrase (.inr (.inr rfl)) is⟩
  change (access m >>= fun a => .ok (Phrase.access a)) = _
  simp [told]
  rfl

/-- A match of what follows an object: what a builder makes of it with an object is what is put
together of the object and its phrase. -/
structure IsSuffix (f : Node → Part → Except Fault Node) (m : Part) : Prop where
  told : ∃ x : Except Fault Phrase, m.phrase = x ∧ ∀ object, ∃ made : Phrase → Node,
    f object m = x.map made ∧ ∀ p, x = .ok p → ∀ ps, accesses object (p :: ps) = accesses (made p) ps

lemma accesses_agree {f : Node → Part → Except Fault Node} {e : Extent} {object : Node} {ms : List Part}
    (h : ∀ m ∈ ms, IsSuffix f m) :
    node (ms.foldlM f object) = ms.mapM Part.phrase >>= fun ps => orLacking e (accesses object ps) := by
  induction ms generalizing object with
  | nil => rfl
  | cons m ms ih =>
    obtain ⟨x, told, made⟩ := (h m List.mem_cons_self).told
    obtain ⟨n, first, rest⟩ := made object
    rw [List.foldlM_cons, List.mapM_cons, told, first]
    cases x with
    | error fault => rfl
    | ok p =>
      simp only [map_ok, ok_bind]
      rw [ih fun m' hm => h m' (List.mem_cons_of_mem _ hm)]
      cases ms.mapM Part.phrase with
      | error fault => rfl
      | ok ps =>
        simp only [ok_bind, pure_eq_ok, rest p rfl]

/-- An object with what it is accessed by. -/
def looksInto (object : Node) : Phrase → Node
  | .access a => a.apply object
  | _ => object

lemma isSuffix_of_access {f : Node → Part → Except Fault Node} {m a : Part}
    (told : m.phrase = (access a).map .access) (applies : ∀ object, f object m = applyAccess object a) :
    IsSuffix f m := by
  refine ⟨_, told, fun object => ⟨looksInto object, ?_, ?_⟩⟩
  · rw [applies, applyAccess]
    cases access a <;> rfl
  · intro p made ps
    cases accessed : access a with
    | error f =>
      rw [accessed] at made
      cases made
    | ok a =>
      rw [accessed] at made
      cases made
      rfl

lemma isSuffix_access {m : Part} (told : m.phrase = (access m).map .access) : IsSuffix applyAccess m :=
  isSuffix_of_access told fun _ => rfl

lemma isSuffix_postfixOperation {e : Extent} {m : Part} (h : Is .postfixOperation m) :
    IsSuffix (applySuffix e) m := by
  obtain ⟨a, parts⟩ : ∃ a, m.parts = [a] := by
    have inside := h.inside rfl
    simp [Grammar.body, oneOf] at inside
    obtain ⟨a, parts, -⟩ | ⟨a, parts, -⟩ | ⟨a, parts, -⟩ := inside
    all_goals exact ⟨a, parts⟩
  have told : m.phrase = (access a).map .access := by
    rw [h.phrase, parts]
    change (access a >>= fun a => .ok (Phrase.access a)) = _
    cases access a <;> rfl
  refine isSuffix_of_access told fun object => ?_
  simp only [applySuffix, h.rule, parts, next, ok_bind]

lemma isSuffix_updateSuffix {e : Extent} {m : Part} (h : Is .updateSuffix m) :
    IsSuffix (applySuffix e) m := by
  have told : m.phrase = .ok (.update (suffixOperator m.extent) m.extent.span) := h.phrase
  refine ⟨_, told, fun object => ⟨fun _ => .mk (.updateExpression (suffixOperator m.extent) false object)
    (object.siteTo (some m.extent.span)), ?_, ?_⟩⟩
  · simp [applySuffix, h.rule]
  · rintro _ ⟨⟩ ps
    rfl

lemma leaves_head :
    Leaves (.choice (.call .newExpression) Grammar.primaryExpression) IsExpression := by
  intro ms h
  simp [Grammar.primaryExpression, oneOf] at h
  have all : ∀ r, isExpression r = true → (∃ m, ms = [m] ∧ Is r m) → ∃ m, ms = [m] ∧ m.IsExpression := by
    rintro r expression ⟨m, rfl, is⟩
    exact ⟨m, rfl, isExpression_of expression is⟩
  obtain h | h | h | h | h | h | h | h | h | h | h | h | h | h | h | h | h | h | h := h
  all_goals exact all _ rfl h

lemma agrees_postfixExpression : Agrees .postfixExpression := by
  intro e ms h
  change node (suffixed e ms) = _
  simp only [Grammar.body, all] at h
  obtain ⟨head, ms, rfl, told, h⟩ := leaves_head.seq h
  have each : ∀ m ∈ ms, IsSuffix (applySuffix e) m := by
    have suffix (r : Rule) (hr : (r == .postfixOperation || r == .updateSuffix) = true) (m : Part)
        (is : Is r m) : IsSuffix (applySuffix e) m := by
      simp only [Bool.or_eq_true, beq_iff_eq] at hr
      obtain rfl | rfl := hr
      · exact isSuffix_postfixOperation is
      · exact isSuffix_updateSuffix is
    exact forall_of_calls h (by decide) suffix rfl
  rw [assembled_eq (by simp), List.mapM_cons, told, bind_node, suffixed]
  simp only [next, ok_bind, node_bind]
  cases head.expression with
  | error f => rfl
  | ok object =>
    simp only [ok_bind]
    rw [accesses_agree (e := e) each]
    cases ms.mapM Part.phrase with
    | error f => rfl
    | ok ps =>
      simp [build, phrase?, Reading.accessed, orLacking]
      cases accesses object ps <;> rfl

lemma agrees_newTarget : Agrees .newTarget := by
  intro e ms h
  change node (newTarget e ms) = _
  simp only [Grammar.body] at h
  obtain ⟨head, ms, rfl, told, h⟩ := leaves_head.seq h
  have each : ∀ m ∈ ms, IsSuffix applyAccess m := by
    have suffix (r : Rule) (hr : (r matches .memberAccess | .computedAccess) = true) (m : Part)
        (is : Is r m) : IsSuffix applyAccess m := by
      cases r
      case memberAccess => exact isSuffix_access (access_phrase (.inr (.inl rfl)) is)
      case computedAccess => exact isSuffix_access (access_phrase (.inr (.inr rfl)) is)
      all_goals cases hr
    exact forall_of_calls h (by decide) suffix rfl
  rw [assembled_eq (by simp), List.mapM_cons, told, bind_node, newTarget]
  simp only [next, ok_bind, node_bind]
  cases head.expression with
  | error f => rfl
  | ok object =>
    simp only [ok_bind]
    rw [accesses_agree (e := e) each]
    cases ms.mapM Part.phrase with
    | error f => rfl
    | ok ps =>
      simp [build, phrase?, Reading.accessed, orLacking]
      cases accesses object ps <;> rfl

lemma agrees_newExpression : Agrees .newExpression := by
  intro e ms h
  change node (newObject e ms) = _
  simp [Grammar.body, all] at h
  obtain ⟨callee, ms, rfl, is, h⟩ := h
  have told : callee.phrase = node (newTarget callee.extent callee.parts) := is.phrase
  obtain rfl | ⟨m, rfl, is_arguments⟩ := h
  · simp [newObject, told]
    rfl
  · have arguments : m.phrase = (callArguments m.parts).map fun ns =>
        .access { kind := .call ns, optional := isOptional m.extent, span := m.extent.span } := by
      rw [access_phrase (.inl rfl) is_arguments]
      simp [access, is_arguments.rule]
      cases callArguments m.parts <;> rfl
    simp [newObject, told, arguments]
    rfl

/-! ### Literals of lists and objects, and what is left -/

lemma agrees_parenthesizedExpression : Agrees .parenthesizedExpression := by
  intro e ms h
  simp [Grammar.body, all, token] at h
  obtain ⟨m, rfl, is⟩ := h
  have told : m.IsExpression := isExpression_of rfl is
  change node (expression .parenthesizedExpression e [m]) = _
  simp [expression, told]
  cases m.expression <;> rfl

lemma agrees_spreadElement : Agrees .spreadElement := by
  intro e ms h
  simp [Grammar.body, token] at h
  obtain ⟨m, rfl, is⟩ := h
  have told : m.IsExpression := isExpression_of rfl is
  change node (expression .spreadElement e [m]) = _
  simp [expression, told]
  rfl

lemma agrees_arrayItem : Agrees .arrayItem := by
  intro e ms h
  change (optional Part.expression ms).map Phrase.slot = _
  simp [Grammar.body, Grammar.argument] at h
  obtain rfl | ⟨m, rfl, told⟩ : ms = [] ∨ ∃ m, ms = [m] ∧ m.IsExpression := by
    obtain rfl | ⟨m, rfl, is⟩ | ⟨m, rfl, is⟩ := h
    · exact .inl rfl
    all_goals exact .inr ⟨m, rfl, isExpression_of rfl is⟩
  · rfl
  · simp [told]
    cases m.expression <;> rfl

lemma agrees_arrayLiteral : Agrees .arrayLiteral := by
  intro e ms h
  have all : ∀ m ∈ ms, m.phrase = (optional Part.expression m.parts).map .slot :=
    forall_of_call .arrayItem h (by decide) (by simp) fun _ _ => rfl
  rw [assembled_many (k := fun os => .node (e.node (.arrayExpression (withoutLastHole os)))) all (by simp)
    fun os => by simp [build, phrase?, Reading.arrayLiteral]]
  change node (arrayLiteral e ms) = _
  rw [arrayLiteral, node_bind]
  rfl

lemma agrees_shorthandProperty : Agrees .shorthandProperty := by
  intro e ms h
  simp [Grammar.body] at h
  obtain ⟨m, rfl, is⟩ := h
  have told : m.phrase = .ok (.node (identifier m.extent)) := is.phrase
  change (.ok (.shorthand (identifier m.extent)) : Except Fault Phrase) = _
  simp [told]
  rfl

lemma agrees_property : Agrees .property := by
  intro e ms h
  change node (property e ms) = _
  simp [Grammar.body, oneOf, all, token] at h
  obtain h | ⟨m, rfl, is⟩ | ⟨m, rfl, is⟩ := h
  · obtain ⟨k, _, rfl, ⟨hk, rule⟩, h⟩ := leaves_key.seq h
    simp at h
    obtain ⟨value, rfl, is⟩ := h
    have told : value.IsExpression := isExpression_of rfl is
    have first : property e [k, value] = (do
        let key ← propertyKey k.rule k.extent k.parts
        let value ← value.expression
        .ok (e.node (.property key.1 value .init false false key.2))) := by
      rcases rule with rule | rule
      all_goals simp [property, rule]
    rw [first]
    simp [hk, told]
    rfl
  · have told : m.phrase = (method m.extent m.parts).map .method := is.phrase
    simp [property, is.rule, told]
    rfl
  · obtain ⟨name, parts, -⟩ : ∃ a, m.parts = [a] ∧ a.rule = .identifier := by
      simpa [Grammar.body] using is.inside rfl
    have told : m.phrase = .ok (.shorthand (identifier name.extent)) := by
      rw [is.phrase, parts]
      rfl
    simp [property, is.rule, parts, told]
    rfl

lemma agrees_objectLiteral : Agrees .objectLiteral := by
  intro e ms h
  have member (r : Rule) (hr : (r matches .property | .spreadElement) = true) (m : Part) (is : Is r m) :
      m.phrase = node (objectMember m) := by
    cases r
    case property =>
      rw [is.phrase, objectMember, is.rule]
      rfl
    case spreadElement =>
      rw [isExpression_of rfl is, objectMember, is.rule]
    all_goals cases hr
  have all : ∀ m ∈ ms, m.phrase = node (objectMember m) := forall_of_calls h (by decide) member rfl
  exact (assembled_nodes all (by simp) fun ns => by simp [phrase?, Reading.objectLiteral]).symm

lemma agrees_importCall : Agrees .importCall := by
  intro e ms h
  change node (importCall e ms) = _
  simp [Grammar.body, all, token] at h
  obtain ⟨source, ms, rfl, is, h⟩ := h
  have told : source.IsExpression := isExpression_of rfl is
  obtain rfl | ⟨options, rfl, is_options⟩ := h
  · simp [importCall, told]
    rfl
  · have told_options : options.IsExpression := isExpression_of rfl is_options
    simp [importCall, told, told_options]
    rfl

lemma agrees_metaProperty : Agrees .metaProperty := by
  intro e ms h
  change node (metaProperty e ms) = _
  simp [Grammar.body, all, token] at h
  obtain ⟨object, name, rfl, is_object, is_name⟩ := h
  have told_object : object.phrase = .ok (.node (identifier object.extent)) := is_object.phrase
  have told_name : name.phrase = .ok (.node (identifier name.extent)) := is_name.phrase
  simp [metaProperty, told_object, told_name]
  rfl

end ScriptTyping.Building
