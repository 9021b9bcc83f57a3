import ScriptTyping.Proofs.Reading.Assembly

/-!
# What builders make is what is assembled

A builder takes the parts of a match one after the other and tells a fault where a part is not what it
expects. On the parse trees of the grammar no such fault is met: the parts of a match are those that
its rule leaves (`Yields`), and then a builder makes of them what `assemble` makes of the phrases that
they stand for.

* `phrase` is what a match stands for by the builder for matches of its rule.
* `Agrees r` says that the builder for `r` makes the phrase that is assembled, from any parts that the
  rule leaves; there is a lemma for each rule.
* `phrase_partOf` concludes that a parse tree stands for the same phrase either way.
-/

namespace ScriptTyping.Building
open Peg Peg.Expr Reading

/-- The phrase of a node. -/
def node (x : Except Fault Node) : Except Fault Phrase :=
  x.map .node

/-- What a match stands for, by the builder for matches of its rule. -/
def phrase (r : Rule) (e : Extent) (parts : List Part) : Except Fault Phrase :=
  match r with
  | .endOfInput => .ok .finish
  | .program => node (program e parts)
  | .keyword | .declarationKind | .asyncModifier | .staticModifier | .generatorMarker
  | .accessorKind | .awaitMarker | .forEachKind | .assignmentOperator | .binaryOperator _
  | .unaryOperator => .ok (.token e.string)
  | .metaObject | .metaName => .ok (.node (identifier e))
  | .templateHolePart => .error (.lacking e.site)
  | .variableDeclarator => node (variableDeclarator e parts)
  | .functionBody => (functionBody e parts).map .block
  | .classHeritage => (classHeritage e parts).map .heritage
  | .classBody => node (classBody e parts)
  | .classMember => node (classMember e parts)
  | .classField => (classField e parts).map fun (key, computed, value) => .field key computed value
  | .importClause => (importClause parts).map .nodes
  | .namespaceImport => node (namespaceImport e parts)
  | .namedImports => (parts.mapM fun m => renamed .importSpecifier m.extent m.parts).map .nodes
  | .importSpecifier => node (renamed .importSpecifier e parts)
  | .exportDefault => (exportDefault e parts).map .exported
  | .exportList => (exportList parts).map .exported
  | .exportSpecifier => node (renamed .exportSpecifier e parts)
  | .exportAll => (exportAll e parts).map .exported
  | .forEachHead => (forEachHead e parts).map fun (left, kind, right) => .forEach left kind right
  | .forClassicHead => (forClassicHead parts).map fun h => .forClassic h.init h.test h.update
  | .forInit => headPart .forInit
  | .forTest => headPart .forTest
  | .forUpdate => headPart .forUpdate
  | .catchClause => node (catchClause e parts)
  | .finallyClause => (finallyClause e parts).map .finalizer
  | .switchCase => node (switchCase e parts)
  | .bindingElement => node (bindingElement e parts)
  | .restElement => node (restElement e parts)
  | .objectPattern => node (objectPattern e parts)
  | .patternProperty => node (patternProperty e parts)
  | .arrayPattern => node (arrayPattern e parts)
  | .patternItem => (optional parameter parts).map .slot
  | .parameterList => (parameterList parts).map .nodes
  | .arrowParameters => (parts.foldlM arrowParameter []).map .nodes
  | .postfixOperation => do
    let (m, _) ← next e parts
    let a ← access m
    .ok (.access a)
  | .updateSuffix => .ok (.update (suffixOperator e) e.span)
  | .callArguments | .memberAccess | .computedAccess => (access (.of r e parts)).map .access
  | .newTarget => node (newTarget e parts)
  | .arrayItem => (optional Part.expression parts).map .slot
  | .property => node (property e parts)
  | .methodProperty => (method e parts).map .method
  | .shorthandProperty => do
    let (name, _) ← next e parts
    .ok (.shorthand (identifier name.extent))
  | .propertyKey | .computedKey =>
    (propertyKey r e parts).map fun (key, computed) => .key key computed
  | .importDeclaration | .exportDeclaration | .variableDeclaration | .forDeclaration
  | .functionDeclaration | .classDeclaration | .returnStatement | .ifStatement | .forStatement
  | .whileStatement | .doWhileStatement | .tryStatement | .switchStatement | .breakStatement
  | .continueStatement | .labeledStatement | .emptyStatement | .throwStatement | .block
  | .expressionStatement => node (statement r e parts)
  | _ => node (expression r e parts)
where
  /-- A part of a classic head. -/
  headPart (f : Node → Phrase) : Except Fault Phrase := do
    let (m, _) ← next e parts
    let n ← headValue m
    .ok (f n)

/-- Whether a match of a rule is told by its text. -/
def isToken : Rule → Bool
  | .declarationKind | .asyncModifier | .staticModifier | .generatorMarker | .awaitMarker
  | .accessorKind | .binaryOperator _ | .unaryOperator => true
  | _ => false

namespace Part

variable {r : Rule} {e : Extent} {ms : List Part} {m : Part}

@[simp] lemma rule_of : (Part.of r e ms).rule = r := rfl

@[simp] lemma extent_of : (Part.of r e ms).extent = e := rfl

@[simp] lemma parts_of : (Part.of r e ms).parts = ms := rfl

/-- What a match stands for. -/
def phrase (m : Part) : Except Fault Phrase :=
  Building.phrase m.rule m.extent m.parts

/-- A match that knows what it is. -/
def Known (m : Part) : Prop :=
  ∃ r e ms, m = .of r e ms

/-- A match of a rule, with a text and with parts that the rule may have. -/
structure Is (r : Rule) (m : Part) : Prop where
  of : ∃ e ms, m = .of r e ms
  text : isToken r = true → Fits r (.token m.extent.string)
  inside : Grammar.kind r = .normal → Yields language (fun r m => m.rule = r) (Grammar.body r) m.parts
  known : ∀ m' ∈ m.parts, m'.Known

/-- A match that stands for what it is as a statement. -/
abbrev IsStatement (m : Part) : Prop :=
  m.phrase = node m.statement

/-- A match that stands for what it is as an expression. -/
abbrev IsExpression (m : Part) : Prop :=
  m.phrase = node m.expression

/-- A match that stands for what it is as the target of a binding. -/
abbrev IsTarget (m : Part) : Prop :=
  m.phrase = node m.target

lemma Is.rule (h : Is r m) : m.rule = r := by
  obtain ⟨e, ms, rfl⟩ := h.of
  rfl

/-- A match of a rule stands for what the builder for the rule makes. -/
lemma Is.phrase (h : Is r m) : m.phrase = Building.phrase r m.extent m.parts := by
  rw [Part.phrase, h.rule]

lemma Is.statement (h : Is r m) (told : ∀ e ms, (Part.of r e ms).IsStatement) : m.IsStatement := by
  obtain ⟨e, ms, rfl⟩ := h.of
  exact told e ms

lemma Is.expression (h : Is r m) (told : ∀ e ms, (Part.of r e ms).IsExpression) :
    m.IsExpression := by
  obtain ⟨e, ms, rfl⟩ := h.of
  exact told e ms

lemma Is.target (h : Is r m) (told : ∀ e ms, (Part.of r e ms).IsTarget) : m.IsTarget := by
  obtain ⟨e, ms, rfl⟩ := h.of
  exact told e ms

end Part

open Building.Part

section Faults

variable {α β γ : Type} {x : Except Fault α}

@[simp] lemma map_bind {f : α → Except Fault β} {g : β → γ} :
    (x >>= f).map g = x >>= fun a => (f a).map g := by
  cases x <;> rfl

@[simp] lemma bind_map {f : β → Except Fault γ} {g : α → β} :
    x.map g >>= f = x >>= fun a => f (g a) := by
  cases x <;> rfl

@[simp] lemma ok_bind {a : α} {f : α → Except Fault β} : (.ok a : Except Fault α) >>= f = f a := rfl

@[simp] lemma pure_eq_ok {a : α} : (pure a : Except Fault α) = .ok a := rfl

@[simp] lemma fmap_ok {a : α} {f : α → β} : f <$> (.ok a : Except Fault α) = .ok (f a) := rfl

@[simp] lemma map_ok {a : α} {f : α → β} : (.ok a : Except Fault α).map f = .ok (f a) := rfl

@[simp] lemma node_bind {f : α → Except Fault Node} : node (x >>= f) = x >>= fun a => node (f a) :=
  map_bind

@[simp] lemma bind_node {x : Except Fault Node} {f : Phrase → Except Fault α} :
    node x >>= f = x >>= fun n => f (.node n) :=
  bind_map

end Faults

/-- The outcome of putting phrases together, or the fault that there are too few. -/
def orLacking (e : Extent) (o : Option Node) : Except Fault Phrase :=
  match o with
  | some n => .ok (.node n)
  | none => .error (.lacking e.site)

/-- What is assembled of the phrases that parts stand for. -/
def assembled (r : Rule) (e : Extent) (ms : List Part) : Except Fault Phrase :=
  inReadingOrder r (ms.map Part.phrase) >>= build r e

lemma assembled_eq {r : Rule} {e : Extent} {ms : List Part} (h : r ≠ .forStatement) :
    assembled r e ms = ms.mapM Part.phrase >>= build r e := by
  have whole : inReadingOrder r (ms.map Part.phrase) = ms.mapM Part.phrase := by
    rw [inReadingOrder.eq_def]
    split
    · contradiction
    · rw [List.mapM_map]
      rfl
  rw [assembled, whole]

/-- The builder for a rule makes of the parts that the rule leaves what is assembled of them. -/
def Agrees (r : Rule) : Prop :=
  ∀ (e : Extent) (ms : List Part), Yields language Is (Grammar.body r) ms →
    phrase r e ms = assembled r e ms

/-! ### The parts that an expression leaves -/

/-- An expression leaves one part, of which something holds. -/
def Leaves (a : Expr Rule) (Q : Part → Prop) : Prop :=
  ∀ ms, Yields language Is a ms → ∃ m, ms = [m] ∧ Q m

section Shapes

variable {a b : Expr Rule} {ms : List Part}

lemma Leaves.seq {Q : Part → Prop} (ha : Leaves a Q) (h : Yields language Is (.seq a b) ms) :
    ∃ m rest, ms = m :: rest ∧ Q m ∧ Yields language Is b rest := by
  obtain ⟨_, rest, rfl, first, h⟩ := h
  obtain ⟨m, rfl, q⟩ := ha _ first
  exact ⟨m, rest, rfl, q, h⟩

/-- Each of the parts is a match of one of the rules that the expression calls. -/
lemma forall_of_calls {Q : Part → Prop} {ok : Rule → Bool} (h : Yields language Is a ms)
    (only : a.callsOnly ok = true) (told : ∀ r, ok r = true → ∀ m, Is r m → Q m)
    (loud : ok .templateHolePart = false) : ∀ m ∈ ms, Q m := by
  intro m hm
  obtain ⟨r, hr, is⟩ := h.exists_rule (fun r hr => kind_ne_silent (by
    rintro rfl
    rw [loud] at hr
    cases hr)) only m hm
  exact told r hr m is

/-- Whether a rule is one of statements. -/
def isStatement (r : Rule) : Bool :=
  r matches .importDeclaration | .exportDeclaration | .variableDeclaration | .functionDeclaration
    | .classDeclaration | .returnStatement | .ifStatement | .forStatement | .whileStatement
    | .doWhileStatement | .tryStatement | .switchStatement | .breakStatement | .continueStatement
    | .throwStatement | .block | .emptyStatement | .labeledStatement | .expressionStatement

lemma isStatement_of {r : Rule} {m : Part} (statement : isStatement r = true) (h : Is r m) :
    m.IsStatement := by
  cases r
  all_goals first
    | exact h.statement fun _ _ => rfl
    | cases statement

lemma forall_isStatement (h : Yields language Is a ms) (only : a.callsOnly isStatement = true) :
    ∀ m ∈ ms, m.IsStatement :=
  forall_of_calls h only (fun _ hr _ => isStatement_of hr) rfl

end Shapes

/-! ### Parts of one sort -/

section Lists

variable {α : Type} {f : Part → Except Fault α} {g : α → Phrase} {k : List α → Phrase} {r : Rule}
  {e : Extent} {ms : List Part}

lemma mapM_phrase (h : ∀ m ∈ ms, m.phrase = (f m).map g) :
    ms.mapM Part.phrase = (ms.mapM f).map (List.map g) := by
  induction ms with
  | nil => rfl
  | cons m ms ih =>
    have first := h m List.mem_cons_self
    have rest := ih fun m' hm => h m' (List.mem_cons_of_mem _ hm)
    rw [List.mapM_cons, List.mapM_cons, first, rest]
    cases f m with
    | error fault => rfl
    | ok a => cases ms.mapM f <;> rfl

/-- Of parts of one sort a phrase is made of what they all are. -/
lemma assembled_many (h : ∀ m ∈ ms, m.phrase = (f m).map g) (ne : r ≠ .forStatement)
    (made : ∀ xs, build r e (xs.map g) = .ok (k xs)) :
    assembled r e ms = ms.mapM f >>= fun xs => .ok (k xs) := by
  rw [assembled_eq ne, mapM_phrase h, bind_map]
  exact congrArg _ (funext made)

lemma assembled_nodes {f : Part → Except Fault Node} {form : List Node → Form Node}
    (h : ∀ m ∈ ms, m.phrase = node (f m)) (ne : r ≠ .forStatement)
    (made : ∀ ns, phrase? r e (ns.map .node) = some (.node (e.node (form ns)))) :
    assembled r e ms = node (do
      let ns ← ms.mapM f
      .ok (e.node (form ns))) := by
  rw [node_bind]
  refine assembled_many h ne fun ns => ?_
  simp only [build, made]

end Lists

/-- Each of the parts is a match of one rule. -/
lemma forall_of_call {a : Expr Rule} {ms : List Part} {Q : Part → Prop} (r : Rule)
    (h : Yields language Is a ms) (only : a.callsOnly (· == r) = true) (loud : r ≠ .templateHolePart)
    (told : ∀ e ms, Q (.of r e ms)) : ∀ m ∈ ms, Q m := by
  refine forall_of_calls h only ?_ (beq_false_of_ne loud.symm)
  rintro r' same _ ⟨⟨e, ms, rfl⟩, -, -, -⟩
  rw [beq_iff_eq.1 same]
  exact told e ms

end ScriptTyping.Building
