import ScriptTyping.Proofs.Peg.Yield
import ScriptTyping.Grammar.Language
import ScriptTyping.Proofs.Phrases.Assemble

/-!
# The sorts of phrases

`Fits r p` says that the phrase `p` is of the sort that a match of the rule `r` stands for.
-/

namespace ScriptTyping
open Peg Peg.Expr

/-- Whether a form declares variables or a function. -/
def Form.declares {α : Type} : Form α → Bool
  | .variableDeclaration .. | .functionDeclaration .. => true
  | _ => false

namespace Reading

/-- The sort of nodes. -/
def IsNode (p : Phrase) : Prop :=
  ∃ n, p = .node n

/-- The sort of keys. -/
def IsKey (p : Phrase) : Prop :=
  ∃ n computed, p = .key n computed

/-- The sort of fields. -/
def IsField (p : Phrase) : Prop :=
  ∃ key computed value, p = .field key computed value

/-- The sort of what is exported, which is no declaration itself. -/
def IsExport (p : Phrase) : Prop :=
  ∃ f, p = .exported f ∧ f.declares = false

/-- The sort of accesses. -/
def IsAccess (p : Phrase) : Prop :=
  ∃ a, p = .access a

/-- The sort of calls. -/
def IsCall (p : Phrase) : Prop :=
  ∃ ns isOptional span, p = .access { kind := .call ns, optional := isOptional, span }

/-- The sort of operators after their operand. -/
def IsUpdate (p : Phrase) : Prop :=
  ∃ operator span, p = .update operator span

/-- Whether a phrase is of the sort that a match of a rule stands for. -/
@[simp] def Fits : Rule → Phrase → Prop
  | .endOfInput, p => p = .finish
  | .keyword, p | .assignmentOperator, p | .forEachKind, p => ∃ w, p = .token w
  | .declarationKind, p => ∃ w k, p = .token w ∧ DeclarationKind.ofSymbol? w = some k
  | .asyncModifier, p => p = .token "async"
  | .staticModifier, p => p = .token "static"
  | .generatorMarker, p => p = .token "*"
  | .awaitMarker, p => p = .token "await"
  | .accessorKind, p => ∃ w k, p = .token w ∧ PropertyKind.ofAccessor? w = some k
  | .binaryOperator _, p => ∃ w, p = .token w ∧ ∀ a b, (combine w a b).isSome
  | .unaryOperator, p => ∃ w, p = .token w ∧ ∀ a, (unaryForm w a).isSome
  | .functionBody, p => ∃ b, p = .block b
  | .classHeritage, p => ∃ n, p = .heritage n
  | .classField, p => IsField p
  | .importClause, p | .namedImports, p | .parameterList, p | .arrowParameters, p =>
    ∃ ns, p = .nodes ns
  | .exportDefault, p | .exportList, p | .exportAll, p => IsExport p
  | .forEachHead, p => ∃ a k b, p = .forEach a k b
  | .forClassicHead, p => ∃ a b c, p = .forClassic a b c
  | .forInit, p => ∃ n, p = .forInit n
  | .forTest, p => ∃ n, p = .forTest n
  | .forUpdate, p => ∃ n, p = .forUpdate n
  | .finallyClause, p => ∃ n, p = .finalizer n
  | .patternItem, p | .arrayItem, p => ∃ o, p = .slot o
  | .callArguments, p => IsCall p
  | .postfixOperation, p | .memberAccess, p | .computedAccess, p => IsAccess p
  | .updateSuffix, p => IsUpdate p
  | .methodProperty, p => ∃ m, p = .method m
  | .shorthandProperty, p => ∃ n, p = .shorthand n
  | .propertyKey, p | .computedKey, p => IsKey p
  | .templateHolePart, _ => False
  | _, p => IsNode p

section Yields

variable {α : Type} {F : Rule → α → Prop} {b : Expr Rule} {ps : List α}

lemma kind_ne_silent {r : Rule} (h : r ≠ .templateHolePart) : language.kind r ≠ .silent := by
  cases r
  case templateHolePart => exact absurd rfl h
  all_goals nofun

@[simp] lemma yields_rule {r : Rule} (h : r ≠ .templateHolePart) :
    Yields language F (.call r) ps ↔ ∃ p, ps = [p] ∧ F r p :=
  yields_call (kind_ne_silent h)

@[simp] lemma yields_rule_seq {r : Rule} (h : r ≠ .templateHolePart) :
    Yields language F (.seq (.call r) b) ps ↔
      ∃ p qs, ps = p :: qs ∧ F r p ∧ Yields language F b qs :=
  yields_call_seq (kind_ne_silent h)

@[simp] lemma yields_word_seq {w : String} :
    Yields language F (.seq (Grammar.word w) b) ps ↔ Yields language F b ps := by
  simp [Grammar.word, token]

/-- A program leaves what its statements leave, and then the end of the input. -/
lemma yields_program : Yields language F (Grammar.body .program) ps ↔
    ∃ qs p, ps = qs ++ [p] ∧ F .endOfInput p ∧ Yields language F (.star Grammar.statement) qs := by
  simp only [Grammar.body, all, yields_empty_seq]
  constructor
  · rintro ⟨qs, _, rfl, hqs, hrs⟩
    obtain ⟨p, rfl, hp⟩ := (yields_rule (by decide)).1 hrs
    exact ⟨qs, p, rfl, hp, hqs⟩
  · rintro ⟨qs, p, rfl, hp, hqs⟩
    exact ⟨qs, [p], rfl, hqs, (yields_rule (by decide)).2 ⟨p, rfl, hp⟩⟩

end Yields

/-- An expression leaves one phrase, which may be any that has a property. -/
def Single (e : Expr Rule) (Q : Phrase → Prop) : Prop :=
  ∀ ps, Yields language Fits e ps ↔ ∃ p, ps = [p] ∧ Q p

lemma Single.seq {a b : Expr Rule} {Q : Phrase → Prop} {ps : List Phrase} (h : Single a Q) :
    Yields language Fits (.seq a b) ps ↔ ∃ p qs, ps = p :: qs ∧ Q p ∧ Yields language Fits b qs := by
  simp only [yields_seq, h _]
  constructor
  · rintro ⟨_, qs, rfl, ⟨p, rfl, hp⟩, hqs⟩
    exact ⟨p, qs, rfl, hp, hqs⟩
  · rintro ⟨p, qs, rfl, hp, hqs⟩
    exact ⟨[p], qs, rfl, ⟨p, rfl, hp⟩, hqs⟩

/-- An expression leaves any number of phrases made by `f`. -/
def Many {α : Type} (f : α → Phrase) (e : Expr Rule) : Prop :=
  ∀ ps, Yields language Fits e ps → ∃ xs : List α, ps = xs.map f

namespace Many

variable {α : Type} {f : α → Phrase} {a b : Expr Rule}

lemma nothing (h : ∀ ps, Yields language Fits a ps → ps = []) : Many f a :=
  fun ps hps => ⟨[], h ps hps⟩

lemma text {w : List Char} : Many f (.text w) :=
  nothing fun _ h => h

lemma single (h : Single a fun p => ∃ x, p = f x) : Many f a := by
  intro ps hps
  obtain ⟨_, rfl, x, rfl⟩ := (h ps).1 hps
  exact ⟨[x], rfl⟩

lemma seq (ha : Many f a) (hb : Many f b) : Many f (.seq a b) := by
  rintro _ ⟨qs, rs, rfl, hqs, hrs⟩
  obtain ⟨xs, rfl⟩ := ha qs hqs
  obtain ⟨ys, rfl⟩ := hb rs hrs
  exact ⟨xs ++ ys, List.map_append.symm⟩

lemma choice (ha : Many f a) (hb : Many f b) : Many f (.choice a b) := by
  rintro ps (h | h)
  · exact ha ps h
  · exact hb ps h

lemma opt (ha : Many f a) : Many f (.opt a) := by
  rintro ps (rfl | h)
  · exact ⟨[], rfl⟩
  · exact ha ps h

lemma star (ha : Many f a) : Many f (.star a) := by
  rintro _ ⟨pss, rfl, each⟩
  induction pss with
  | nil => exact ⟨[], rfl⟩
  | cons qs pss ih =>
    obtain ⟨xs, rfl⟩ := ha qs (each qs List.mem_cons_self)
    obtain ⟨ys, hys⟩ := ih fun rs h => each rs (List.mem_cons_of_mem _ h)
    exact ⟨xs ++ ys, by rw [List.flatten_cons, hys, List.map_append]⟩

lemma sepBy {w : String} (ha : Many f a) : Many f (sepBy a w) :=
  seq ha (star (seq text ha))

lemma bracketed {opening closing : String} (ha : Many f a) :
    Many f (Grammar.bracketed opening a closing) :=
  seq text (seq (opt (seq ha (seq (star (seq text ha)) (opt text)))) text)

end Many

section Singles

lemma single_statement : Single Grammar.statement IsNode := by
  intro ps
  simp [Grammar.statement, oneOf, Fits]

lemma single_bindingTarget : Single Grammar.bindingTarget IsNode := by
  intro ps
  simp [Grammar.bindingTarget, oneOf, Fits]

lemma single_primaryExpression : Single Grammar.primaryExpression IsNode := by
  intro ps
  simp [Grammar.primaryExpression, oneOf, Fits]

lemma single_argument : Single Grammar.argument IsNode := by
  intro ps
  simp [Grammar.argument, Fits]

lemma single_parameter : Single Grammar.parameter IsNode := by
  intro ps
  simp [Grammar.parameter, Fits]

lemma single_operand (level : Precedence) : Single (Grammar.operand level) IsNode := by
  intro ps
  cases level <;> simp [Grammar.operand, Precedence.next?, Fits]

lemma single_key : Single Grammar.key IsKey := by
  intro ps
  simp [Grammar.key, Fits]

lemma single_memberKey : Single Grammar.memberKey fun p => IsKey p ∨ IsNode p := by
  intro ps
  simp only [Grammar.memberKey, oneOf, yields_choice, yields_rule, ne_eq, reduceCtorEq,
    not_false_eq_true, Fits]
  grind

end Singles

end Reading

end ScriptTyping
