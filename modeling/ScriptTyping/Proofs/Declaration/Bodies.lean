import ScriptTyping.Proofs.Declaration.Copied

/-!
# The bodies of functions

A function is recorded for each declaration of one, in the order of a walk (`routines_collect`). The
text of its body is cut out of the source from the start of its first statement to the end of the
span of its last, which is where the scan for blanks and comments stops in the match of this statement
(`range?_of_children`).
-/

namespace ScriptTyping

namespace Node

/-- The function that a declaration of one is recorded as. -/
def routine (source : String) (n : Node) (f : Function Node) : Routine :=
  { name := (f.id.bind name?).getD Routine.anonymous
    params := f.params.map (parameter source)
    range := f.body.range?
    returns := if f.isGenerator || f.isAsync then .any else f.body.returns
    location := n.location? }

/-- The function that a node is recorded as, if it declares one. -/
def routine? (source : String) (n : Node) : Option Routine :=
  match n.form with
  | .functionDeclaration f => some (n.routine source f)
  | _ => none

end Node

section Walk

variable {source : String}

lemma routines_recordNamed (kind : DeclarationKind) (t : Table) (declarator : Node) (name : String)
    (init : Option Node) :
    (t.recordNamed source kind declarator name init).routines = t.routines := by
  unfold Table.recordNamed
  split
  · rfl
  · dsimp only
    rw [Table.routines_insert]
    repeat' split
    all_goals rfl

lemma routines_recordVariable (kind : DeclarationKind) (t : Table) (d : Node) :
    (t.recordVariable source kind d).routines = t.routines := by
  unfold Table.recordVariable
  split
  · split
    · exact routines_recordNamed ..
    · rfl
  · rfl

lemma routines_record (t : Table) (n : Node) :
    (t.record source n).routines = t.routines ++ (n.routine? source).toList := by
  obtain ⟨f, site⟩ := n
  cases f
  case variableDeclaration kind ds =>
    have same : ∀ t : Table, (ds.foldl (Table.recordVariable source kind) t).routines = t.routines := by
      induction ds with
      | nil => exact fun _ => rfl
      | cons d ds ih =>
        intro t
        rw [List.foldl_cons, ih, routines_recordVariable]
    exact (same t).trans (List.append_nil _).symm
  case functionDeclaration f =>
    simp only [Table.record, Node.form, Table.recordFunction]
    split
    all_goals rfl
  all_goals exact (List.append_nil _).symm

/-- The functions of a program are those that its nodes declare. -/
lemma routines_collect (program : Node) (source : String) :
    (collect program source).routines = program.preorder.filterMap (Node.routine? source) := by
  have walk : ∀ (ns : List Node) (t : Table), (ns.foldl (Table.record source) t).routines =
      t.routines ++ ns.filterMap (Node.routine? source) := by
    intro ns
    induction ns with
    | nil => exact fun t => (List.append_nil _).symm
    | cons n ns ih =>
      intro t
      rw [List.foldl_cons, ih, routines_record, List.append_assoc, List.filterMap_cons]
      cases n.routine? source
      all_goals rfl
  exact walk program.preorder Table.empty

/-- A function that is recorded is declared by a node. -/
lemma exists_declaration {program : Node} {r : Routine} (h : r ∈ (collect program source).routines) :
    ∃ d ∈ program.declarations, ∃ f, d.form = .functionDeclaration f ∧ r = d.routine source f := by
  rw [routines_collect] at h
  obtain ⟨d, hd, h⟩ := List.mem_filterMap.1 h
  unfold Node.routine? at h
  split at h
  · rename_i f form
    cases h
    exact ⟨d, List.mem_filter.2 ⟨hd, by rw [form]; rfl⟩, f, form, rfl⟩
  · cases h

end Walk

namespace Reading
open Peg Peg.Expr

variable {file : String} {source : List Char}

/-- The rules of statements. -/
def isStatement : Rule → Bool
  | .importDeclaration | .exportDeclaration | .variableDeclaration | .functionDeclaration
  | .classDeclaration | .returnStatement | .ifStatement | .forStatement | .whileStatement
  | .doWhileStatement | .tryStatement | .switchStatement | .breakStatement | .continueStatement
  | .throwStatement | .block | .emptyStatement | .labeledStatement | .expressionStatement => true
  | _ => false

/-- A statement is a node of its own making. -/
lemma own_of_statement {r : Rule} {e : Extent} {parts : List Phrase} {i : Node}
    (statement : isStatement r = true) (h : phrase? r e parts = some (.node i)) :
    ∃ f, i = e.node f := by
  have optional {form : Option Node → Form Node} (h : withOptional e form parts = some (.node i)) :
      ∃ f, i = e.node f := by
    unfold withOptional at h
    split at h
    all_goals cases h
    all_goals exact ⟨_, rfl⟩
  have one {form : Node → Form Node} (h : withOne e form parts = some (.node i)) :
      ∃ f, i = e.node f := by
    unfold withOne at h
    split at h
    all_goals cases h
    exact ⟨_, rfl⟩
  have two {form : Node → Node → Form Node} (h : withTwo e form parts = some (.node i)) :
      ∃ f, i = e.node f := by
    unfold withTwo at h
    split at h
    all_goals cases h
    exact ⟨_, rfl⟩
  cases r
  case importDeclaration =>
    change importDeclaration e parts = _ at h
    unfold importDeclaration at h
    split at h
    all_goals cases h
    all_goals exact ⟨_, rfl⟩
  case exportDeclaration =>
    change exportDeclaration e parts = _ at h
    unfold exportDeclaration at h
    split at h
    all_goals cases h
    all_goals exact ⟨_, rfl⟩
  case variableDeclaration =>
    obtain ⟨f, own, _⟩ := covers_variableDeclaration h
    cases own
    exact ⟨f, rfl⟩
  case ifStatement =>
    change ifStatement e parts = _ at h
    unfold ifStatement at h
    split at h
    all_goals cases h
    all_goals exact ⟨_, rfl⟩
  case forStatement =>
    change forStatement e parts = _ at h
    revert h
    fun_cases forStatement e parts
    all_goals
      intro h
      cases h
    all_goals exact ⟨_, rfl⟩
  case tryStatement =>
    change tryStatement e parts = _ at h
    unfold tryStatement at h
    split at h
    all_goals cases h
    all_goals exact ⟨_, rfl⟩
  case switchStatement =>
    change switchStatement e parts = _ at h
    unfold switchStatement at h
    split at h
    · exact exists_own_of_map h
    · cases h
  case returnStatement | breakStatement | continueStatement => exact optional h
  case throwStatement | expressionStatement => exact one h
  case whileStatement | doWhileStatement | labeledStatement => exact two h
  case functionDeclaration | classDeclaration | block => exact exists_own_of_map h
  case emptyStatement =>
    cases h
    exact ⟨_, rfl⟩
  all_goals cases statement

/-- The parts of a body are statements. -/
lemma statements_of_isRead {t : Peg.Tree Rule} (h : t.IsRead language source)
    (rule : t.rule = .functionBody) : ∀ u ∈ t.children, isStatement u.rule = true := by
  have left : Yields language (fun r u => u.rule = r) (Grammar.body t.rule) t.children :=
    h.yields (by rw [rule]; exact .inl rfl)
  rw [rule] at left
  simp only [Grammar.body, all, token, yields_text_seq, yields_seq_text] at left
  obtain ⟨pss, whole, each⟩ := left
  intro u hu
  rw [whole] at hu
  obtain ⟨us, hus, hu⟩ := List.mem_flatten.1 hu
  have one := each us hus
  obtain ⟨e, he, one⟩ := yields_oneOf.1 one
  obtain ⟨r, hr, rfl⟩ : ∃ r, isStatement r = true ∧ .call r = e := by
    simp only [List.mem_cons, List.not_mem_nil, or_false] at he
    rcases he with rfl | rfl | rfl | rfl | rfl | rfl | rfl | rfl | rfl | rfl | rfl | rfl | rfl |
      rfl | rfl | rfl | rfl | rfl | rfl
    all_goals exact ⟨_, rfl, rfl⟩
  rw [yields_rule (by rintro rfl; cases hr)] at one
  obtain ⟨v, rfl, rule⟩ := one
  rwa [List.mem_singleton.1 hu, rule]

/-- A block is what the body of a function stands for. -/
lemma rule_of_block {r : Rule} {b : Block Node} (h : Fits r (.block b)) : r = .functionBody := by
  cases r
  case functionBody => rfl
  all_goals simp [Fits, IsNode, IsKey, IsField, IsExport, IsAccess, IsCall, IsUpdate] at h

/-- The body of a function is what a part of its match stands for. -/
lemma exists_body {t : Peg.Tree Rule} {n : Node} {f : Function Node} (read : t.IsRead language source)
    (declares : isDeclaration t.rule = true) (made : assemble file source t = .ok (.node n))
    (form : n.form = .functionDeclaration f) :
    ∃ u ∈ t.children, u.rule = .functionBody ∧ assemble file source u = .ok (.block f.body) := by
  obtain ⟨value, each, found⟩ := phrase?_of_assemble made
  have parts : function (t.children.map value) = some f := by
    cases rule : t.rule
    case functionDeclaration =>
      rw [rule] at found
      obtain ⟨g, parts, e⟩ := Option.map_eq_some_iff.1 found
      cases e
      cases form
      exact parts
    case variableDeclaration | forDeclaration =>
      rw [rule] at found
      obtain ⟨_, _, us, form', _⟩ := declarators_of_declaration read (by simp [rule]) found
      rw [form] at form'
      cases form'
    all_goals simp [rule, isDeclaration] at declares
  obtain ⟨u, hu, here⟩ := List.mem_map.1 (parts_of_function parts).2.2
  have madeU := each u hu
  rw [here] at madeU
  exact ⟨u, hu, rule_of_block (fits_of_assemble (read.children u hu) madeU), madeU⟩

/-- The body of a function is what a match in the source stands for. -/
lemma Declared.body {n : Node} {f : Function Node} (h : Declared file source n)
    (form : n.form = .functionDeclaration f) :
    ∃ u : Peg.Tree Rule, u.IsRead language source ∧ u.rule = .functionBody ∧
      assemble file source u = .ok (.block f.body) := by
  obtain ⟨t, read, declares, made⟩ := h
  obtain ⟨u, hu, body⟩ := exists_body read declares made form
  exact ⟨u, read.children u hu, body⟩

/-- The statements of a body are what the matches in it stand for, each a node of its own making. -/
lemma trees_of_body {u : Peg.Tree Rule} {b : Block Node} (h : u.IsRead language source)
    (rule : u.rule = .functionBody) (made : assemble file source u = .ok (.block b)) :
    ∃ value, u.children.map value = b.statements.map .node ∧
      ∀ t ∈ u.children, assemble file source t = .ok (value t) ∧
        ∀ i, value t = .node i → ∃ f, i = (extent file source t).node f := by
  obtain ⟨value, each, found⟩ := phrase?_of_assemble made
  rw [rule] at found
  obtain ⟨ns, nodes, e⟩ := Option.map_eq_some_iff.1 found
  cases e
  refine ⟨value, map_of_nodes? nodes, fun t ht => ⟨each t ht, fun i here => ?_⟩⟩
  obtain ⟨_, _, found⟩ := phrase?_of_assemble (here ▸ each t ht)
  exact own_of_statement (statements_of_isRead h rule t ht) found

/-- The first of trees that lie one after the other begins no later than the last. -/
lemma start_le_of_spread {lo hi : Nat} {ts : List (Peg.Tree Rule)} {t u : Peg.Tree Rule}
    (spread : Tree.Spread lo hi ts) (first : ts.head? = some t) (last : ts.getLast? = some u) :
    t.start ≤ u.start := by
  obtain ⟨ts, rfl⟩ := List.head?_eq_some_iff.1 first
  rcases List.mem_cons.1 (List.mem_of_getLast? last) with rfl | hu
  · exact Nat.le_refl _
  · exact Nat.le_trans t.start_le_stop ((List.pairwise_cons.1 spread.apart).1 u hu)

/-- A body with statements reaches from the start of its first part to where the scan for blanks and
comments stops in its last. -/
lemma range?_of_children {u : Peg.Tree Rule} {b : Block Node} {x y : Node}
    (h : u.IsRead language source) (rule : u.rule = .functionBody)
    (made : assemble file source u = .ok (.block b)) (first : b.statements.head? = some x)
    (last : b.statements.getLast? = some y) :
    ∃ v ∈ u.children, ∃ w ∈ u.children, assemble file source v = .ok (.node x) ∧
      assemble file source w = .ok (.node y) ∧ v.start ≤ w.start ∧
      b.range? = some (offsetAt source v.start,
        offsetAt source (w.start + (Scan.trimTrailing w.text).length)) := by
  obtain ⟨value, parts, each⟩ := trees_of_body h rule made
  have head : u.children.head?.map value = some (.node x) := by
    rw [← List.head?_map, parts, List.head?_map, first, Option.map_some]
  have getLast : u.children.getLast?.map value = some (.node y) := by
    rw [← List.getLast?_map, parts, List.getLast?_map, last, Option.map_some]
  obtain ⟨v, isFirst, hx⟩ := Option.map_eq_some_iff.1 head
  obtain ⟨w, isLast, hy⟩ := Option.map_eq_some_iff.1 getLast
  have hv := List.mem_of_head? isFirst
  have hw := List.mem_of_getLast? isLast
  obtain ⟨madeV, ownV⟩ := each v hv
  obtain ⟨madeW, ownW⟩ := each w hw
  obtain ⟨f, rfl⟩ := ownV x hx
  obtain ⟨g, rfl⟩ := ownW y hy
  refine ⟨v, hv, w, hw, hx ▸ madeV, hy ▸ madeW, start_le_of_spread h.spread isFirst isLast, ?_⟩
  simp only [Block.range?, first, last]
  rfl

end Reading

end ScriptTyping
