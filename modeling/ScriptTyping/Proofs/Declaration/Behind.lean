import ScriptTyping.Emission.Typed
import ScriptTyping.Proofs.Reading.Behind

/-!
# Declarations behind a preamble

The declarations of a script are the same behind a preamble, and so is its typed source: the text of a
node and the body of a function are cut from the same characters, at other offsets
(`Script.typed_behind`).
-/

namespace ScriptTyping

/-- A variable declared at the place of the same character behind a text. -/
def Variable.behind (p : List Char) (v : Variable) : Variable :=
  { v with location := v.location.map (Location.behind p) }

/-- A function declared at the place of the same character behind a text. -/
def Routine.behind (p : List Char) (r : Routine) : Routine :=
  { r with
    range := r.range.map fun (start, stop) =>
      (start + Text.byteLength p, stop + Text.byteLength p)
    location := r.location.map (Location.behind p) }

/-- A problem at the place of the same character behind a text. -/
def Problem.behind (p : List Char) (d : Problem) : Problem :=
  { d with
    location := d.location.map (Location.behind p)
    span := d.span.map (Span.relocate (Location.behind p)) }

/-- The index is the same: the variables keep their names and their order. -/
lemma Indexed.behind {index : List (String × Nat)} {bindings : List Variable}
    (h : Indexed index bindings) (p : List Char) :
    Indexed index (bindings.map (Variable.behind p)) := by
  intro name i
  rw [h name i, List.getElem?_map]
  simp [Variable.behind]

/-- The table of the same declarations behind a text. -/
def Table.behind (p : List Char) (t : Table) : Table :=
  { bindings := t.bindings.map (Variable.behind p)
    index := t.index
    indexed := t.indexed.behind p
    routines := t.routines.map (Routine.behind p)
    findings := t.findings.map (Problem.behind p) }

variable {p : List Char}

namespace Text

lemma splitBytes?_behind (cs : List Char) (n : Nat) :
    splitBytes? (p ++ cs) (n + byteLength p) =
      (splitBytes? cs n).map fun (before, after) => (p ++ before, after) := by
  induction p with
  | nil =>
    rw [List.nil_append, byteLength_nil, Nat.add_zero]
    cases splitBytes? cs n
    all_goals rfl
  | cons c p ih =>
    have pos := c.utf8Size_pos
    obtain ⟨k, hk⟩ : ∃ k, n + byteLength (c :: p) = k + 1 :=
      ⟨n + byteLength (c :: p) - 1, by rw [byteLength_cons]; omega⟩
    have rest : k + 1 - c.utf8Size = n + byteLength p := by
      rw [← hk, byteLength_cons]
      omega
    have fits : c.utf8Size ≤ k + 1 := by
      rw [← hk, byteLength_cons]
      omega
    rw [hk, List.cons_append, splitBytes?, if_pos fits, rest, ih, Option.map_map]
    rfl

/-- The same text is cut out behind another one. -/
lemma slice?_behind (cs : List Char) (start stop : Nat) :
    slice? (p ++ cs) (start + byteLength p) (stop + byteLength p) = slice? cs start stop := by
  simp only [slice?, splitBytes?_behind, Nat.add_le_add_iff_right, Nat.add_sub_add_right]
  cases splitBytes? cs start with
  | none => rfl
  | some parts => rfl

lemma sliceString?_behind (s : String) (start stop : Nat) :
    sliceString? (String.ofList p ++ s) (start + byteLength p) (stop + byteLength p) =
      sliceString? s start stop := by
  rw [sliceString?, String.toList_append, String.toList_ofList, slice?_behind, sliceString?]

end Text

namespace Node

variable {g : Location → Location} {source : String}

@[simp] lemma sourceText?_behind (n : Node) :
    (n.relocate (Location.behind p)).sourceText? (String.ofList p ++ source) =
      n.sourceText? source := by
  rw [sourceText?, sourceText?, span?_relocate]
  cases n.span? with
  | none => rfl
  | some s =>
    simp only [Option.map_some, Option.bind_some, Span.slice?, Span.relocate_start,
      Span.relocate_stop, Location.behind_offset]
    exact Text.sliceString?_behind _ _ _

@[simp] lemma name?_relocate (n : Node) : (n.relocate g).name? = n.name? := by
  obtain ⟨f, s⟩ := n
  cases f
  all_goals rfl

@[simp] lemma isCopied_relocate (n : Node) : (n.relocate g).isCopied = n.isCopied := by
  obtain ⟨f, s⟩ := n
  cases f
  case unaryExpression operator argument =>
    obtain ⟨f, s⟩ := argument
    cases operator
    case plus | minus =>
      cases f
      all_goals rfl
    all_goals rfl
  all_goals rfl

@[simp] lemma isMixed_relocate (n : Node) : (n.relocate g).isMixed = n.isMixed := by
  obtain ⟨f, s⟩ := n
  cases f
  case arrayExpression elements =>
    rcases elements with _ | ⟨first, rest⟩
    · rfl
    · simp [isMixed, form, Form.relocate, Function.comp_def]
  all_goals rfl

/-- A parameter is declared as it was: a pattern is named by the same text. -/
@[simp] lemma parameter_behind (n : Node) :
    parameter (String.ofList p ++ source) (n.relocate (Location.behind p)) = parameter source n := by
  fun_induction parameter source n with
  | case1 n name form => rw [parameter, form_relocate, form, Form.relocate]
  | case2 n left right form ih =>
    rw [parameter, form_relocate, form, Form.relocate]
    exact ih
  | case3 n argument form ih =>
    rw [parameter, form_relocate, form, Form.relocate]
    exact congrArg (fun q => Parameter.rest q.name) ih
  | case4 n identifier assignment rest =>
    rw [parameter, sourceText?_behind]
    obtain ⟨f, s⟩ := n
    cases f
    case identifier name => exact absurd rfl (identifier name)
    case assignmentPattern left right => exact absurd rfl (assignment left right)
    case restElement argument => exact absurd rfl (rest argument)
    all_goals rfl

end Node

namespace Block

@[simp] lemma range?_behind (b : Block Node) :
    (relocateBlock (Location.behind p) b).range? =
      b.range?.map fun (start, stop) => (start + Text.byteLength p, stop + Text.byteLength p) := by
  have span (n : Option Node) : (n.map (Node.relocate (Location.behind p))).bind Node.span? =
      (n.bind Node.span?).map (Span.relocate (Location.behind p)) := by
    cases n with
    | none => rfl
    | some n => exact n.span?_relocate
  simp only [range?, relocateBlock_eq, List.head?_map, List.getLast?_map, span,
    Span.join?_relocate]
  cases Span.join? (b.statements.head?.bind Node.span?) (b.statements.getLast?.bind Node.span?) with
  | none => rfl
  | some s => rfl

@[simp] lemma returns_relocate {g : Location → Location} (b : Block Node) :
    (relocateBlock g b).returns = b.returns := by
  simp only [returns, relocateBlock_eq, List.findSome?_map]
  congr 2
  funext n
  obtain ⟨f, s⟩ := n
  cases f
  case returnStatement argument => simp [Node.form, Form.relocate]
  all_goals rfl

end Block

namespace Table

variable {source : String} {t : Table}

@[simp] lemma contains_behind (name : String) : (t.behind p).contains name = t.contains name :=
  rfl

lemma insert_behind (v : Variable) : (t.behind p).insert (v.behind p) = (t.insert v).behind p := by
  have name : (v.behind p).name = v.name := rfl
  unfold insert tryInsert
  simp only [name, contains_behind]
  split
  · rfl
  · simp [behind]

lemma tell_behind (f : Finding) (n : Node) :
    (t.behind p).tell f (n.relocate (Location.behind p)) = (t.tell f n).behind p := by
  have problem : f.problem (n.relocate (Location.behind p)) = (f.problem n).behind p := by
    simp [Finding.problem, Problem.behind]
  rw [tell, tell, problem]
  simp [addFinding, behind]

lemma recordNamed_behind (kind : DeclarationKind) (declarator : Node) (name : String)
    (init : Option Node) :
    (t.behind p).recordNamed (String.ofList p ++ source) kind
        (declarator.relocate (Location.behind p)) name
        (init.map (Node.relocate (Location.behind p))) =
      (t.recordNamed source kind declarator name init).behind p := by
  -- The text in front moves the place of a value, and the value is cut out of the longer text.
  have copied : ((init.map (Node.relocate (Location.behind p))).filter Node.isCopied).bind
      (·.sourceText? (String.ofList p ++ source)) =
        (init.filter Node.isCopied).bind (·.sourceText? source) := by
    cases init with
    | none => rfl
    | some n =>
      simp only [Option.map_some, Option.filter_some, Node.isCopied_relocate]
      split
      · simp
      · rfl
  unfold recordNamed
  rw [contains_behind, copied, Node.kindOf_relocate, Node.location?_relocate]
  split
  · rfl
  · cases init with
    | none =>
      simp only [Option.map_none, constantFinding]
      split
      all_goals
        simp only [tell_behind, ← insert_behind]
        rfl
    | some n =>
      simp only [Option.map_some, constantFinding, Node.isMixed_relocate, tell_behind]
      repeat' split
      all_goals
        simp only [tell_behind, ← insert_behind]
        rfl

lemma recordVariable_behind (kind : DeclarationKind) (declarator : Node) :
    (t.behind p).recordVariable (String.ofList p ++ source) kind
        (declarator.relocate (Location.behind p)) =
      (t.recordVariable source kind declarator).behind p := by
  unfold recordVariable
  rw [Node.form_relocate]
  cases declarator.form
  case variableDeclarator id init =>
    simp only [Form.relocate, relocateMaybe_eq, Node.name?_relocate, Node.sourceText?_behind]
    cases id.name? with
    | none => exact tell_behind _ _
    | some name => exact recordNamed_behind _ _ _ _
  all_goals rfl

lemma recordFunction_behind (n : Node) (f : Function Node) :
    (t.behind p).recordFunction (String.ofList p ++ source) (n.relocate (Location.behind p))
        (relocateFunction (Location.behind p) f) =
      (t.recordFunction source n f).behind p := by
  obtain ⟨id, params, body, isGenerator, isAsync⟩ := f
  have name : (id.map (Node.relocate (Location.behind p))).bind Node.name? = id.bind Node.name? := by
    cases id
    all_goals simp
  have routine (t : Table) (r : Routine) : (t.behind p).addRoutine (r.behind p) =
      (t.addRoutine r).behind p := by
    simp [addRoutine, behind]
  simp only [recordFunction, relocateFunction, relocateMaybe_eq, relocateAll_eq, name,
    Block.range?_behind, Option.isNone_map, tell_behind, Block.returns_relocate, List.map_map,
    Function.comp_def, Node.parameter_behind, Node.location?_relocate]
  split
  all_goals
    rw [← routine]
    rfl

/-- What a node declares behind a text is recorded as it was, at other places. -/
lemma record_behind (t : Table) (n : Node) :
    (t.behind p).record (String.ofList p ++ source) (n.relocate (Location.behind p)) =
      (t.record source n).behind p := by
  unfold record
  rw [Node.form_relocate]
  cases n.form
  case variableDeclaration kind declarations =>
    simp only [Form.relocate, relocateAll_eq]
    induction declarations generalizing t with
    | nil => rfl
    | cons d ds ih =>
      rw [List.map_cons, List.foldl_cons, List.foldl_cons, recordVariable_behind]
      exact ih _
  case functionDeclaration f => exact recordFunction_behind _ f
  all_goals rfl

end Table

/-- The declarations of a program are collected from the nodes below it. -/
lemma collect_program {n : Node} {source : String} {body : List Node}
    (form : n.form = .program body) :
    collect n source = (n.children.flatMap Node.preorder).foldl (Table.record source) .empty := by
  rw [collect, Node.preorder_eq, List.foldl_cons, Table.record, form]

/-- The declarations of a program behind a text are collected as they were, at other places. -/
lemma collect_behind {n n' : Node} {source : String} {body : List Node}
    (form : n.form = .program body) (moved : n'.form = n.form.relocate (Location.behind p)) :
    collect n' (String.ofList p ++ source) = (collect n source).behind p := by
  have form' : n'.form = .program (body.map (Node.relocate (Location.behind p))) := by
    rw [moved, form, Form.relocate, relocateAll_eq]
  have children : n'.children.flatMap Node.preorder =
      (n.children.flatMap Node.preorder).map (Node.relocate (Location.behind p)) := by
    rw [Node.children, moved, Form.children_relocate, List.flatMap_map, List.map_flatMap]
    exact List.flatMap_congr fun c _ => Node.preorder_relocate c
  have recorded (t : Table) (ns : List Node) :
      (ns.map (Node.relocate (Location.behind p))).foldl (Table.record (String.ofList p ++ source))
        (t.behind p) = (ns.foldl (Table.record source) t).behind p := by
    induction ns generalizing t with
    | nil => rfl
    | cons m ns ih =>
      rw [List.map_cons, List.foldl_cons, List.foldl_cons, Table.record_behind]
      exact ih _
  rw [collect_program form, collect_program form', children]
  exact recorded Table.empty _

@[simp] lemma Variable.line_behind (v : Variable) : (v.behind p).line = v.line := by
  simp only [line, behind]

/-- A function is written with the same statements. -/
@[simp] lemma Routine.definition_behind (r : Routine) (source : String) :
    (r.behind p).definition (String.ofList p ++ source) = r.definition source := by
  have body : (r.behind p).bodyText? (String.ofList p ++ source) = r.bodyText? source := by
    simp only [bodyText?, behind]
    cases r.range with
    | none => rfl
    | some range => exact Text.sliceString?_behind _ _ _
  -- The longer text is only a name from here on: to compare it with the shorter one is costly.
  generalize String.ofList p ++ source = longer at body ⊢
  unfold definition
  rw [body]
  simp only [paramText, behind]

/-- The typed source is the same behind a text. -/
lemma typedSource_behind (t : Table) (s : Script) :
    (t.behind p).typedSource (s.behind p) = t.typedSource s := by
  have lines : (t.behind p).bindings.map Variable.line = t.bindings.map Variable.line := by
    rw [Table.behind, List.map_map]
    exact List.map_congr_left fun v _ => v.line_behind
  have definitions : (t.behind p).routines.map (Routine.definition · (s.behind p).content) =
      t.routines.map (Routine.definition · s.content) := by
    rw [Table.behind, List.map_map]
    exact List.map_congr_left fun r _ => r.definition_behind s.content
  exact congrArg₂ (· ++ ·) (congrArg₂ (· ++ ·) rfl (congrArg String.join lines))
    (congrArg String.join definitions)

namespace Script
open Grammar

/-- The root of a syntax tree is a program. -/
lemma form_of_parse {s : Script} {n : Node} (parsed : s.parse = .ok n) :
    ∃ body, n.form = .program body := by
  obtain ⟨t, -, matched, made⟩ := match_of_parse parsed
  obtain ⟨rule, -, -⟩ := isRead_of_match matched
  obtain ⟨value, -, whole⟩ := Reading.phrase?_of_assemble made
  rw [rule] at whole
  simp only [Reading.phrase?, Reading.program] at whole
  split at whole
  · obtain ⟨body, -, e⟩ := Option.bind_eq_some_iff.1 whole
    cases e
    exact ⟨body, rfl⟩
  · cases whole

/-- Blanks and closed comments before a script change nothing but places: with them it has a syntax tree
exactly if it has one without, the tree below the program is the same at the places of the same
characters, and so are the declarations; the typed source is the same text. -/
theorem typed_behind {p : List Char} (h : IsPreamble p) (s : Script) :
    ((∃ n, (s.behind p).parse = .ok n) ↔ ∃ n, s.parse = .ok n) ∧
      ∀ n, s.parse = .ok n →
        (∃ n', (s.behind p).parse = .ok n' ∧ n'.form = n.form.relocate (Location.behind p)) ∧
          ∃ text table, s.typed none = .ok (text, table) ∧
            (s.behind p).typed none = .ok (text, table.behind p) := by
  refine ⟨parse_behind_iff h, fun n parsed => ?_⟩
  obtain ⟨n', parsed', moved⟩ := parse_behind_of_parse h parsed
  obtain ⟨body, form⟩ := form_of_parse parsed
  have collected : collect n' (s.behind p).content = (collect n s.content).behind p :=
    collect_behind form moved
  refine ⟨⟨n', parsed', moved⟩, (collect n s.content).typedSource s, collect n s.content, ?_, ?_⟩
  · rw [typed, parsed]
    rfl
  · rw [typed, parsed', ← typedSource_behind, ← collected]
    rfl

/-- Brackets in the comments before a script do not count. -/
theorem typed_behind_comments :
    ∃ p s, p = "/* \x7b */ // (\n".toList ∧ s = ofSource "a.js" "let x = ')';" ∧ IsPreamble p ∧
      (∃ n, (s.behind p).parse = .ok n) ∧
        ∃ table, s.typed none =
            .ok ("// Generated by typeify from a.js\nlet x: string = ')';\n", table) ∧
          (s.behind p).typed none =
            .ok ("// Generated by typeify from a.js\nlet x: string = ')';\n", table.behind p) := by
  have preamble : IsPreamble "/* \x7b */ // (\n".toList :=
    .append (@IsFiller.block " \x7b ".toList (by decide))
      (.append (.blank (c := ' ') (by decide))
        (.append (@IsFiller.line " (".toList (by decide) (by decide)) .nil))
  generalize e : ofSource "a.js" "let x = ')';" = s
  have shown : (s.typed none).toOption.map (·.1) =
      some "// Generated by typeify from a.js\nlet x: string = ')';\n" := by
    subst e
    decide +kernel
  obtain ⟨accepted, same⟩ := typed_behind preamble s
  obtain ⟨n, parsed⟩ : ∃ n, s.parse = .ok n := by
    cases parsed : s.parse with
    | ok n => exact ⟨n, rfl⟩
    | error f =>
      rw [typed, parsed] at shown
      cases shown
  obtain ⟨-, text, table, typed, typed'⟩ := same n parsed
  rw [typed] at shown
  obtain rfl : text = _ := Option.some.inj shown
  exact ⟨_, s, rfl, rfl, preamble, accepted.2 ⟨n, parsed⟩, table, typed, typed'⟩

end Script

end ScriptTyping
