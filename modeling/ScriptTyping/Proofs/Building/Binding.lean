import ScriptTyping.Proofs.Building.Agreement

/-!
# Bindings agree

What the builders of bindings make is what is assembled.
-/

namespace ScriptTyping.Building
open Peg Peg.Expr Reading Building.Part

attribute [local simp] next optional assembled_eq

lemma leaves_target : Leaves Grammar.bindingTarget IsTarget := by
  intro ms h
  simp [Grammar.bindingTarget, oneOf] at h
  obtain h | h | h := h
  all_goals
    obtain ⟨m, rfl, is⟩ := h
    exact ⟨m, rfl, is.target fun _ _ => rfl⟩

lemma agrees_bindingElement : Agrees .bindingElement := by
  intro e ms h
  obtain ⟨bound, ms, rfl, hbound, h⟩ := leaves_target.seq h
  simp [token] at h
  change node (bindingElement e _) = _
  obtain rfl | ⟨value, rfl, hvalue⟩ := h
  · simp [bindingElement, hbound]
    rfl
  · have hvalue : value.IsExpression := hvalue.expression fun _ _ => rfl
    simp [bindingElement, hbound, hvalue]
    rfl

lemma agrees_restElement : Agrees .restElement := by
  intro e ms h
  simp [Grammar.body, token] at h
  obtain ⟨bound, rfl, hbound⟩ := leaves_target _ h
  change node (restElement e _) = _
  simp [restElement, hbound]
  rfl

/-- A match that stands for what it is as a parameter. -/
abbrev IsParameter (m : Part) : Prop :=
  m.phrase = node (parameter m)

lemma isParameter_of {r : Rule} {m : Part} (rule : (r matches .restElement | .bindingElement) = true)
    (h : Is r m) : IsParameter m := by
  obtain ⟨e, ms, rfl⟩ := h.of
  cases r
  case restElement | bindingElement => rfl
  all_goals cases rule

lemma leaves_parameter : Leaves Grammar.parameter IsParameter := by
  intro ms h
  simp [Grammar.parameter] at h
  obtain ⟨m, rfl, h⟩ | ⟨m, rfl, h⟩ := h
  all_goals exact ⟨m, rfl, isParameter_of rfl h⟩

lemma agrees_patternItem : Agrees .patternItem := by
  intro e ms h
  change (optional parameter ms).map Phrase.slot = _
  obtain rfl | h := h
  · rfl
  · obtain ⟨m, rfl, hm⟩ := leaves_parameter _ h
    simp [hm]
    cases parameter m <;> rfl

lemma agrees_parameterList : Agrees .parameterList := by
  intro e ms h
  have all : ∀ m ∈ ms, IsParameter m :=
    forall_of_calls h (by decide) (fun r hr _ => isParameter_of hr) rfl
  rw [assembled_many (k := .nodes) all (by simp) fun ns => by simp [build, phrase?, list]]
  change (parameterList ms).map _ = _
  rw [parameterList]
  cases ms.mapM parameter <;> rfl

lemma agrees_objectPattern : Agrees .objectPattern := by
  intro e ms h
  have all : ∀ m ∈ ms, m.phrase = node (patternProperty m.extent m.parts) :=
    forall_of_call .patternProperty h (by decide) (by simp) fun _ _ => rfl
  exact (assembled_nodes all (by simp) fun ns => by simp [phrase?, Reading.objectPattern]).symm

lemma agrees_arrayPattern : Agrees .arrayPattern := by
  intro e ms h
  have all : ∀ m ∈ ms, m.phrase = (optional parameter m.parts).map .slot :=
    forall_of_call .patternItem h (by decide) (by simp) fun _ _ => rfl
  rw [assembled_many (k := fun os => .node (e.node (.arrayPattern (withoutLastHole os)))) all (by simp)
    fun os => by simp [build, phrase?, Reading.arrayPattern]]
  change node (arrayPattern e ms) = _
  rw [arrayPattern, node_bind]
  rfl

/-- A match that stands for a key. -/
abbrev IsKey (m : Part) : Prop :=
  m.phrase = (propertyKey m.rule m.extent m.parts).map fun (key, computed) => .key key computed

lemma leaves_key : Leaves Grammar.key fun m => IsKey m ∧ (m.rule = .computedKey ∨ m.rule = .propertyKey) := by
  intro ms h
  simp [Grammar.key] at h
  obtain ⟨_, rfl, ⟨e, ms, rfl⟩, -, -, -⟩ | ⟨_, rfl, ⟨e, ms, rfl⟩, -, -, -⟩ := h
  · exact ⟨_, rfl, rfl, .inl rfl⟩
  · exact ⟨_, rfl, rfl, .inr rfl⟩

lemma agrees_propertyKey : Agrees .propertyKey := by
  intro e ms h
  simp [Grammar.body, oneOf] at h
  obtain ⟨m, rfl, hm⟩ : ∃ m, ms = [m] ∧ m.IsExpression := by
    obtain ⟨m, rfl, h⟩ | ⟨m, rfl, h⟩ | ⟨m, rfl, h⟩ := h
    all_goals exact ⟨m, rfl, h.expression fun _ _ => rfl⟩
  change (propertyKey .propertyKey e [m]).map _ = _
  simp [propertyKey, hm]
  rfl

lemma agrees_computedKey : Agrees .computedKey := by
  intro e ms h
  simp [Grammar.body, all, token] at h
  obtain ⟨m, rfl, h⟩ := h
  have hm : m.IsExpression := h.expression fun _ _ => rfl
  change (propertyKey .computedKey e [m]).map _ = _
  simp [propertyKey, hm]
  rfl

/-- The target of a binding is no binding for the rest. -/
lemma form_of_target {m : Part} {n : Node} (known : m.Known) (h : m.target = .ok n) (b : Node) :
    n.form ≠ .restElement b := by
  obtain ⟨r, e, ms, rfl⟩ := known
  change target r e ms = .ok n at h
  cases r
  case identifier =>
    cases h
    rintro ⟨⟩
  case objectPattern =>
    change objectPattern e ms = .ok n at h
    rw [objectPattern] at h
    cases made : ms.mapM fun m => patternProperty m.extent m.parts with
    | error f =>
      rw [made] at h
      cases h
    | ok ns =>
      rw [made] at h
      cases h
      rintro ⟨⟩
  case arrayPattern =>
    change arrayPattern e ms = .ok n at h
    rw [arrayPattern] at h
    cases made : ms.mapM fun m => optional parameter m.parts with
    | error f =>
      rw [made] at h
      cases h
    | ok os =>
      rw [made] at h
      cases h
      rintro ⟨⟩
  all_goals cases h

lemma form_of_bindingElement {e : Extent} {ms : List Part} {n : Node} (known : ∀ m ∈ ms, m.Known)
    (h : bindingElement e ms = .ok n) (b : Node) : n.form ≠ .restElement b := by
  cases ms with
  | nil => cases h
  | cons m ms =>
    cases bound : m.target with
    | error f =>
      simp [bindingElement, bound] at h
      cases h
    | ok n' =>
      have target := form_of_target (known m List.mem_cons_self) bound b
      cases ms with
      | nil =>
        simp [bindingElement, bound] at h
        cases h
        exact target
      | cons value ms =>
        cases made : value.expression with
        | error f =>
          simp [bindingElement, bound, made] at h
          cases h
        | ok v =>
          simp [bindingElement, bound, made] at h
          cases h
          rintro ⟨⟩

lemma agrees_patternProperty : Agrees .patternProperty := by
  intro e ms h
  change node (patternProperty e ms) = _
  simp [Grammar.body, oneOf, all, token] at h
  obtain ⟨_, rfl, ⟨e', ms', rfl⟩, -, -, -⟩ | h | ⟨_, rfl, ⟨e', ms', rfl⟩, -, -, known⟩ := h
  · have told : (Part.of .restElement e' ms').phrase = node (restElement e' ms') := rfl
    simp [patternProperty, told, restElement]
    rfl
  · obtain ⟨k, _, rfl, ⟨hk, rule⟩, h⟩ := leaves_key.seq h
    simp at h
    obtain ⟨_, rfl, ⟨e', ms', rfl⟩, -, -, -⟩ := h
    have told : (Part.of .bindingElement e' ms').phrase = node (bindingElement e' ms') := rfl
    have first : patternProperty e [k, .of .bindingElement e' ms'] = (do
        let (key, computed) ← propertyKey k.rule k.extent k.parts
        let value ← bindingElement e' ms'
        .ok (e.node (.property key value .init false false computed))) := by
      rcases rule with rule | rule
      all_goals simp [patternProperty, rule]
    rw [first]
    simp [hk, told]
    rfl
  · have told : (Part.of .bindingElement e' ms').phrase = node (bindingElement e' ms') := rfl
    simp [patternProperty, told]
    cases made : bindingElement e' ms' with
    | error f => rfl
    | ok n =>
      have form := form_of_bindingElement known made
      -- A target that is no rest is its own key.
      have own : Reading.patternProperty e [.node n] =
          some (.node (e.node (.property (shorthandKey n) n .init false true false))) := by
        rw [Reading.patternProperty]
        split
        next b same => exact absurd same (form b)
        · rfl
      simp only [ok_bind, build, phrase?, own]
      rfl

end ScriptTyping.Building
