import ScriptTyping.Proofs.Building.Binding

/-!
# Functions and classes agree

What the builders of functions, methods and classes make is what is assembled.
-/

namespace ScriptTyping.Building
open Peg Peg.Expr Reading Building.Part

attribute [local simp] next optional assembled_eq

/-- A part that may be missing. -/
lemma opt_of_yields {r : Rule} {ms : List Part} (loud : r ≠ .templateHolePart)
    (h : Yields language Is (.opt (.call r)) ms) : ∃ o : Option Part, ms = o.toList ∧ ∀ m ∈ o, Is r m := by
  obtain rfl | h := h
  · exact ⟨none, rfl, by simp⟩
  · obtain ⟨m, rfl, is⟩ := (yields_rule loud).1 h
    exact ⟨some m, rfl, by simpa using is⟩

lemma told_asyncModifier {o : Option Part} (h : ∀ m ∈ o, Is .asyncModifier m) :
    ∀ m ∈ o, m.rule = .asyncModifier ∧ m.phrase = .ok (.token "async") :=
  fun m hm => ⟨(h m hm).rule, (h m hm).phrase.trans (congrArg _ ((h m hm).text rfl))⟩

lemma told_generatorMarker {o : Option Part} (h : ∀ m ∈ o, Is .generatorMarker m) :
    ∀ m ∈ o, m.rule = .generatorMarker ∧ m.phrase = .ok (.token "*") :=
  fun m hm => ⟨(h m hm).rule, (h m hm).phrase.trans (congrArg _ ((h m hm).text rfl))⟩

lemma told_identifier {o : Option Part} (h : ∀ m ∈ o, Is .identifier m) :
    ∀ m ∈ o, m.rule = .identifier ∧ m.phrase = .ok (.node (identifier m.extent)) :=
  fun m hm => ⟨(h m hm).rule, (h m hm).phrase⟩

lemma told_parameterList {o : Option Part} (h : ∀ m ∈ o, Is .parameterList m) :
    ∀ m ∈ o, m.rule = .parameterList ∧ m.phrase = (parameterList m.parts).map .nodes :=
  fun m hm => ⟨(h m hm).rule, (h m hm).phrase⟩

lemma agrees_functionBody : Agrees .functionBody := by
  intro e ms h
  have all := forall_isStatement h (by decide)
  rw [assembled_many (k := fun ns => .block { statements := ns, span := some e.span }) all (by simp)
    fun ns => by simp [build, phrase?, Reading.functionBody]]
  change (functionBody e ms).map _ = _
  rw [functionBody, map_bind]
  rfl

/-- The parameters of a function, which may be left out, and its body. -/
lemma signature_of_yields {ms : List Part} (h : Yields language Is Grammar.signatureAndBody ms) :
    ∃ (p : Option Part) (b : Part), ms = p.toList ++ [b] ∧ (∀ m ∈ p, Is .parameterList m) ∧
      Is .functionBody b := by
  simp [-existsAndEq, Grammar.signatureAndBody, all, token] at h
  obtain ⟨b, rfl, hb⟩ | ⟨p, _, rfl, hp, b, rfl, hb⟩ := h
  · exact ⟨none, b, rfl, by simp, hb⟩
  · exact ⟨some p, b, rfl, by simpa using hp, hb⟩

lemma agrees_function {r : Rule} (rule : r = .functionDeclaration ∨ r = .functionExpression)
    {e : Extent} {ms : List Part} (h : Yields language Is Grammar.function ms) :
    phrase r e ms = assembled r e ms := by
  obtain ⟨_, _, rfl, hasync, h⟩ := h
  simp only [all, yields_word_seq] at h
  obtain ⟨_, _, rfl, hgenerator, _, _, rfl, hid, h⟩ := h
  obtain ⟨params, b, rfl, hparams, hb⟩ := signature_of_yields h
  obtain ⟨async, rfl, isAsync⟩ := opt_of_yields (by simp) hasync
  obtain ⟨generator, rfl, isGenerator⟩ := opt_of_yields (by simp) hgenerator
  obtain ⟨id, rfl, isId⟩ := opt_of_yields (by simp) hid
  clear hasync hgenerator hid
  have hasync := told_asyncModifier isAsync
  have hgenerator := told_generatorMarker isGenerator
  have hid := told_identifier isId
  replace hparams := told_parameterList hparams
  have rule_b := hb.rule
  have body : b.phrase = (functionBody b.extent b.parts).map .block := hb.phrase
  have made (form : Function Node → Form Node) (same : ∀ ps, build r e ps =
      orLacking e ((Reading.function ps).map fun f => e.node (form f))) :
      node (function e (async.toList ++ (generator.toList ++ (id.toList ++ (params.toList ++ [b])))) >>=
        fun f => .ok (e.node (form f))) = assembled r e (async.toList ++ (generator.toList ++
          (id.toList ++ (params.toList ++ [b])))) := by
    rw [assembled_eq (by rintro rfl; simp at rule)]
    -- Each part stands there or not, and the builder notes those that do, whatever their order.
    cases async <;> cases generator <;> cases id <;> cases params
    all_goals
      simp at hasync hgenerator hid hparams
      simp [function, FunctionParts.note, FunctionParts.none, hasync, hgenerator, hid, hparams, rule_b,
        body, same]
      rfl
  obtain rfl | rfl := rule
  · exact made .functionDeclaration fun ps => by
      simp only [build, phrase?]
      cases Reading.function ps <;> rfl
  · exact made .functionExpression fun ps => by
      simp only [build, phrase?]
      cases Reading.function ps <;> rfl

lemma agrees_functionDeclaration : Agrees .functionDeclaration :=
  fun _ _ h => agrees_function (.inl rfl) h

lemma agrees_functionExpression : Agrees .functionExpression :=
  fun _ _ h => agrees_function (.inr rfl) h

lemma agrees_arrowParameters : Agrees .arrowParameters := by
  intro e ms h
  change (ms.foldlM arrowParameter []).map Phrase.nodes = _
  simp [Grammar.body, all, token] at h
  obtain ⟨m, rfl, is⟩ | rfl | ⟨m, rfl, is⟩ := h
  · have told : m.phrase = .ok (.node (identifier m.extent)) := is.phrase
    simp [arrowParameter, is.rule, told]
    rfl
  · rfl
  · have told : m.phrase = (parameterList m.parts).map .nodes := is.phrase
    simp [arrowParameter, is.rule, told]
    cases parameterList m.parts <;> rfl

lemma agrees_arrowFunction : Agrees .arrowFunction := by
  intro e ms h
  change node (arrowFunction e ms) = _
  obtain ⟨_, _, rfl, hasync, h⟩ := h
  obtain ⟨async, rfl, isAsync⟩ := opt_of_yields (by simp) hasync
  clear hasync
  have hasync := told_asyncModifier isAsync
  simp [all, token] at h
  obtain ⟨p, _, rfl, hp, h⟩ := h
  have rule_p := hp.rule
  have told_p : p.phrase = (p.parts.foldlM arrowParameter []).map .nodes := hp.phrase
  obtain ⟨b, rfl, hb⟩ | ⟨b, rfl, hb⟩ := h
  · have rule_b := hb.rule
    have told_b : b.phrase = (functionBody b.extent b.parts).map .block := hb.phrase
    cases async
    all_goals
      simp at hasync
      simp [arrowFunction, ArrowParts.note, ArrowParts.none, hasync, rule_p, told_p, rule_b, told_b]
      rfl
  · have rule_b := hb.rule
    have told_b : b.IsExpression := hb.expression fun _ _ => rfl
    cases async
    all_goals
      simp at hasync
      simp [arrowFunction, ArrowParts.note, ArrowParts.none, hasync, rule_p, told_p, rule_b, told_b]
      rfl

/-! ### Methods

A method is modifiers, and behind them what all methods have: a key, parameters and a body. -/

/-- What all methods have. -/
structure MethodTail where
  key : Node × Bool
  params : List Node
  body : Block Node

/-- Notes what all methods have. -/
def MethodParts.close (f : MethodParts) (t : MethodTail) : MethodParts :=
  { f with
    key := some t.key, params := t.params, body := some t.body
    span := Span.join? t.key.1.span? t.body.span }

/-- Phrases that stand for what all methods have. -/
structure IsTail (t : MethodTail) (ps : List Phrase) : Prop where
  shape : ∃ p rest, ps = p :: rest ∧ memberKey p = some t.key ∧ (∀ w, p ≠ .token w) ∧
    Phrase.takeNodes rest = (t.params, [.block t.body])

lemma phrase_of_memberKey {m : Part} (h : Is .computedKey m ∨ Is .propertyKey m ∨ Is .privateIdentifier m) :
    ∃ told : Node × Bool → Phrase, m.phrase = (propertyKey m.rule m.extent m.parts).map told ∧
      ∀ k, propertyKey m.rule m.extent m.parts = .ok k → memberKey (told k) = some k ∧
        ∀ w, told k ≠ .token w := by
  have keyed {r : Rule} (key : r = .computedKey ∨ r = .propertyKey) (h : Is r m) :
      m.phrase = (propertyKey m.rule m.extent m.parts).map fun k => .key k.1 k.2 := by
    rw [h.phrase, h.rule]
    obtain rfl | rfl := key <;> rfl
  obtain h | h | h := h
  · exact ⟨_, keyed (.inl rfl) h, fun k _ => ⟨rfl, by rintro _ ⟨⟩⟩⟩
  · exact ⟨_, keyed (.inr rfl) h, fun k _ => ⟨rfl, by rintro _ ⟨⟩⟩⟩
  · obtain ⟨e, ms, rfl⟩ := h.of
    refine ⟨fun k => .node k.1, rfl, ?_⟩
    rintro _ ⟨⟩
    exact ⟨rfl, by rintro _ ⟨⟩⟩

lemma note_memberKey {m : Part} (h : Is .computedKey m ∨ Is .propertyKey m ∨ Is .privateIdentifier m)
    (f : MethodParts) : f.note m = (do
      let key ← propertyKey m.rule m.extent m.parts
      .ok { f with key := some key }) := by
  obtain h | h | h := h
  all_goals simp [MethodParts.note, h.rule]

lemma leaves_memberKey :
    Leaves Grammar.memberKey fun m => Is .computedKey m ∨ Is .propertyKey m ∨ Is .privateIdentifier m := by
  intro ms h
  simp [Grammar.memberKey, oneOf] at h
  obtain ⟨m, rfl, h⟩ | ⟨m, rfl, h⟩ | ⟨m, rfl, h⟩ := h
  · exact ⟨m, rfl, .inl h⟩
  · exact ⟨m, rfl, .inr (.inl h)⟩
  · exact ⟨m, rfl, .inr (.inr h)⟩

lemma note_parameterList {m : Part} (h : m.rule = .parameterList) (f : MethodParts) : f.note m = (do
    let params ← parameterList m.parts
    .ok { f with params }) := by
  simp [MethodParts.note, h]

lemma note_functionBody {m : Part} (h : m.rule = .functionBody) (f : MethodParts) : f.note m = (do
    let body ← functionBody m.extent m.parts
    .ok { f with
      body := some body
      span := Span.join? (f.key.bind fun (key, _) => key.span?) body.span }) := by
  simp [MethodParts.note, h]

/-- What a builder notes of what all methods have, and what the phrases of it stand for. -/
lemma tail_of_yields {ms : List Part} (h : Yields language Is Grammar.methodTail ms) :
    ∃ x : Except Fault (MethodTail × List Phrase),
      (∀ f : MethodParts, f.params = [] → ms.foldlM MethodParts.note f = x.map fun (t, _) => f.close t) ∧
      ms.mapM Part.phrase = x.map Prod.snd ∧ ∀ t ps, x = .ok (t, ps) → IsTail t ps := by
  obtain ⟨k, _, rfl, hk, tail⟩ := leaves_memberKey.seq h
  obtain ⟨params, b, rfl, hparams, hb⟩ := signature_of_yields tail
  replace hparams := told_parameterList hparams
  have rule_b := hb.rule
  have told_b : b.phrase = (functionBody b.extent b.parts).map .block := hb.phrase
  obtain ⟨p, told, key⟩ := phrase_of_memberKey hk
  refine ⟨do
    let k' ← propertyKey k.rule k.extent k.parts
    let ns ← match params with
      | some m => parameterList m.parts
      | none => .ok []
    let b' ← functionBody b.extent b.parts
    .ok (⟨k', ns, b'⟩, p k' :: (params.toList.map fun _ => .nodes ns) ++ [.block b']), ?_, ?_, ?_⟩
  · intro f none
    cases params
    all_goals
      simp at hparams
      simp [note_memberKey hk, note_parameterList, note_functionBody rule_b, MethodParts.close, hparams, none]
  · cases params
    all_goals
      simp at hparams
      simp [told, hparams, told_b]
  -- The first part that fails decides, and the parts are read in the order of the text.
  · intro t ps made
    cases hk' : propertyKey k.rule k.extent k.parts with
    | error f =>
      rw [hk'] at made
      cases made
    | ok k' =>
      obtain ⟨same, other⟩ := key k' hk'
      rw [hk', ok_bind] at made
      cases params
      all_goals
        simp only [ok_bind] at made
      case none =>
        cases hb' : functionBody b.extent b.parts with
        | error f =>
          rw [hb'] at made
          cases made
        | ok b' =>
          rw [hb'] at made
          cases made
          exact ⟨_, _, rfl, same, other, rfl⟩
      case some m =>
        cases hm : parameterList m.parts with
        | error f =>
          rw [hm] at made
          cases made
        | ok ns =>
          rw [hm, ok_bind] at made
          cases hb' : functionBody b.extent b.parts with
          | error f =>
            rw [hb'] at made
            cases made
          | ok b' =>
            rw [hb'] at made
            cases made
            exact ⟨_, _, rfl, same, other, rfl⟩

lemma takeToken_ne {w : String} {p : Phrase} {ps : List Phrase} (h : ∀ w, p ≠ .token w) :
    Phrase.takeToken w (p :: ps) = (false, p :: ps) := by
  cases p
  case token t => exact absurd rfl (h t)
  all_goals rfl

lemma takeToken_self {w : String} {ps : List Phrase} :
    Phrase.takeToken w (.token w :: ps) = (true, ps) := by
  simp [Phrase.takeToken]

lemma takeToken_star {ps : List Phrase} :
    Phrase.takeToken "async" (.token "*" :: ps) = (false, .token "*" :: ps) := rfl

lemma accessorKind_async {ps : List Phrase} :
    Reading.accessorKind (.token "async" :: ps) = (.init, .token "async" :: ps) := rfl

lemma accessorKind_star {ps : List Phrase} :
    Reading.accessorKind (.token "*" :: ps) = (.init, .token "*" :: ps) := rfl

lemma accessorKind_ne {p : Phrase} {ps : List Phrase} (h : ∀ w, p ≠ .token w) :
    Reading.accessorKind (p :: ps) = (.init, p :: ps) := by
  cases p
  case token t => exact absurd rfl (h t)
  all_goals rfl

/-- The method with the modifiers that have been noted. -/
def methodOf (e : Extent) (f : MethodParts) (t : MethodTail) : Method :=
  let function : Function Node :=
    { id := none, params := t.params, body := t.body, isGenerator := f.isGenerator, isAsync := f.isAsync }
  { key := t.key.1, computed := t.key.2, kind := f.kind
    value := .mk (.functionExpression function) (methodSite e t.key.1 t.body) }

lemma agrees_method {e : Extent} {modifiers ms : List Part} (f : MethodParts) (tokens : List Phrase)
    (noted : modifiers.foldlM MethodParts.note .none = .ok f) (params : f.params = [])
    (told : modifiers.mapM Part.phrase = .ok tokens)
    (made : ∀ t ps, IsTail t ps → Reading.method e (tokens ++ ps) = some (.method (methodOf e f t)))
    (h : Yields language Is Grammar.methodTail ms) :
    (method e (modifiers ++ ms)).map Phrase.method = assembled .methodProperty e (modifiers ++ ms) := by
  obtain ⟨x, note, phrases, tail⟩ := tail_of_yields h
  rw [assembled_eq (by simp), method, List.foldlM_append, noted, ok_bind, note f params,
    List.mapM_append, told, phrases]
  cases x with
  | error fault => rfl
  | ok x =>
    obtain ⟨t, ps⟩ := x
    have whole : phrase? .methodProperty e (tokens ++ ps) = some (.method (methodOf e f t)) :=
      made t ps (tail t ps rfl)
    change _ = build .methodProperty e (tokens ++ ps)
    rw [build.eq_def, whole]
    rfl

lemma agrees_methodProperty : Agrees .methodProperty := by
  intro e ms h
  change (method e ms).map Phrase.method = _
  simp only [Grammar.body, all, yields_choice] at h
  -- A getter or setter is marked by its first word, any other method by two words that may be left out.
  obtain h | ⟨_, _, rfl, hasync, _, _, rfl, hgenerator, h⟩ := h
  · simp at h
    obtain ⟨m, ms, rfl, is, h⟩ := h
    obtain ⟨w, kind, same, accessor⟩ := is.text rfl
    cases same
    have told : m.phrase = .ok (.token m.extent.string) := is.phrase
    have noted : [m].foldlM MethodParts.note .none = .ok { MethodParts.none with kind } := by
      simp [MethodParts.note, is.rule, MethodParts.none, accessor]
    refine agrees_method { MethodParts.none with kind } [.token m.extent.string] noted rfl (by simp [told]) ?_ h
    · rintro t _ ⟨p, rest, rfl, key, other, tail⟩
      simp [Reading.method, Reading.accessorKind, accessor, takeToken_ne other, key, tail]
      rfl
  · obtain ⟨async, rfl, isAsync⟩ := opt_of_yields (by simp) hasync
    obtain ⟨generator, rfl, isGenerator⟩ := opt_of_yields (by simp) hgenerator
    clear hasync hgenerator
    have hasync := told_asyncModifier isAsync
    have hgenerator := told_generatorMarker isGenerator
    rw [← List.append_assoc]
    refine agrees_method { MethodParts.none with isAsync := async.isSome, isGenerator := generator.isSome }
      (async.toList.map (fun _ => .token "async") ++ generator.toList.map fun _ => .token "*") ?_ rfl ?_ ?_ h
    · cases async <;> cases generator
      all_goals
        simp at hasync hgenerator
        simp [MethodParts.note, MethodParts.none, hasync, hgenerator]
    · cases async <;> cases generator
      all_goals
        simp at hasync hgenerator
        simp [hasync, hgenerator]
    · rintro t _ ⟨p, rest, rfl, key, other, tail⟩
      cases async <;> cases generator
      all_goals
        simp [Reading.method, takeToken_self, takeToken_star, accessorKind_async, accessorKind_star,
          accessorKind_ne other, takeToken_ne other, key, tail]
        rfl

/-! ### Classes -/

lemma agrees_classField : Agrees .classField := by
  intro e ms h
  change (classField e ms).map (fun f => Phrase.field f.1 f.2.1 f.2.2) = _
  obtain ⟨k, ms, rfl, hk, h⟩ := leaves_memberKey.seq h
  obtain ⟨p, told, key⟩ := phrase_of_memberKey hk
  simp [all, Grammar.semicolon, token] at h
  cases made : propertyKey k.rule k.extent k.parts with
  | error f =>
    rw [made] at told
    obtain rfl | ⟨value, rfl, -⟩ := h
    all_goals
      simp [classField, made, told]
      rfl
  | ok k' =>
    rw [made] at told
    obtain ⟨same, -⟩ := key k' made
    obtain rfl | ⟨value, rfl, is⟩ := h
    · simp [classField, made, told, build, phrase?, Reading.classField, same]
    · have told_value : value.IsExpression := is.expression fun _ _ => rfl
      simp [classField, made, told, told_value, build, phrase?, Reading.classField, same]

lemma agrees_classMember : Agrees .classMember := by
  intro e ms h
  change node (classMember e ms) = _
  obtain ⟨_, _, rfl, hstatic, h⟩ := h
  obtain ⟨modifier, rfl, isStatic⟩ := opt_of_yields (by simp) hstatic
  clear hstatic
  have told : ∀ m ∈ modifier, m.rule = .staticModifier ∧ m.phrase = .ok (.token "static") :=
    fun m hm => ⟨(isStatic m hm).rule, (isStatic m hm).phrase.trans (congrArg _ ((isStatic m hm).text rfl))⟩
  simp at h
  obtain ⟨m, rfl, is⟩ | ⟨m, rfl, is⟩ := h
  · have rule := is.rule
    have told_m : m.phrase = (method m.extent m.parts).map .method := is.phrase
    cases modifier
    all_goals
      simp at told
      simp [classMember, told, rule, told_m]
      rfl
  · have rule := is.rule
    have told_m : m.phrase = (classField m.extent m.parts).map fun f => .field f.1 f.2.1 f.2.2 := is.phrase
    cases modifier
    all_goals
      simp at told
      simp [classMember, told, rule, told_m]
      rfl

lemma agrees_classBody : Agrees .classBody := by
  intro e ms h
  have all : ∀ m ∈ ms, m.phrase = node (classMember m.extent m.parts) :=
    forall_of_call .classMember h (by decide) (by simp) fun _ _ => rfl
  exact (assembled_nodes all (by simp) fun ns => by simp [phrase?, Reading.classBody]).symm

lemma agrees_classHeritage : Agrees .classHeritage := by
  intro e ms h
  simp [Grammar.body] at h
  obtain ⟨m, rfl, is⟩ := h
  have told : m.IsExpression := is.expression fun _ _ => rfl
  change (classHeritage e [m]).map Phrase.heritage = _
  simp [classHeritage, told]
  cases m.expression <;> rfl

lemma agrees_class {r : Rule} (rule : r = .classDeclaration ∨ r = .classExpression)
    {e : Extent} {ms : List Part} (h : Yields language Is Grammar.classDefinition ms) :
    phrase r e ms = assembled r e ms := by
  simp only [Grammar.classDefinition, all, yields_word_seq] at h
  obtain ⟨_, _, rfl, hid, _, _, rfl, hheritage, h⟩ := h
  obtain ⟨id, rfl, isId⟩ := opt_of_yields (by simp) hid
  obtain ⟨heritage, rfl, isHeritage⟩ := opt_of_yields (by simp) hheritage
  simp at h
  obtain ⟨b, rfl, hb⟩ := h
  clear hid hheritage
  have hid := told_identifier isId
  have hheritage : ∀ m ∈ heritage, m.rule = .classHeritage ∧
      m.phrase = (classHeritage m.extent m.parts).map .heritage :=
    fun m hm => ⟨(isHeritage m hm).rule, (isHeritage m hm).phrase⟩
  have rule_b := hb.rule
  have told_b : b.phrase = node (classBody b.extent b.parts) := hb.phrase
  have made (form : Class Node → Form Node) (same : ∀ ps, build r e ps =
      orLacking e ((Reading.classDefinition ps).map fun c => e.node (form c))) :
      node (classDefinition e (id.toList ++ (heritage.toList ++ [b])) >>=
        fun c => .ok (e.node (form c))) = assembled r e (id.toList ++ (heritage.toList ++ [b])) := by
    rw [assembled_eq (by rintro rfl; simp at rule)]
    cases id <;> cases heritage
    all_goals
      simp at hid hheritage
      simp [classDefinition, ClassParts.note, ClassParts.none, hid, hheritage, rule_b, told_b, same]
      rfl
  obtain rfl | rfl := rule
  · exact made .classDeclaration fun ps => by
      simp only [build, phrase?]
      cases Reading.classDefinition ps <;> rfl
  · exact made .classExpression fun ps => by
      simp only [build, phrase?]
      cases Reading.classDefinition ps <;> rfl

lemma agrees_classDeclaration : Agrees .classDeclaration :=
  fun _ _ h => agrees_class (.inl rfl) h

lemma agrees_classExpression : Agrees .classExpression :=
  fun _ _ h => agrees_class (.inr rfl) h

end ScriptTyping.Building
