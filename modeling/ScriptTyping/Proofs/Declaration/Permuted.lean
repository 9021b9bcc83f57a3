import ScriptTyping.Proofs.Declaration.Bodies

/-!
# The order of statements

The table of a program is put together from what its statements contain. What is told of a declarator
and of a function depends on nothing else, except that nothing is told of a declarator whose name has a
variable (`Tells`). So the order of the statements matters only for the order of the entries, and for
names that several declarators have (`collect_perm`).
-/

namespace ScriptTyping

namespace Candidate

/-- What is told of an array that a candidate begins with. -/
def mixedFindings (c : Candidate) : List Problem :=
  match c.init with
  | some array =>
    if array.isMixed then [(Finding.mixedArray c.name (Node.kindOf c.init)).problem array] else []
  | none => []

/-- What is told of a candidate whose value is shown as `value`. -/
def constantFindings (value : Option String) (c : Candidate) : List Problem :=
  if c.kind = .const ∧ value = none then
    [(Table.constantFinding c.name c.declarator c.init).1.problem
      (Table.constantFinding c.name c.declarator c.init).2]
  else []

/-- What is told of a candidate that is recorded. -/
def findings (source : String) (c : Candidate) : List Problem :=
  c.mixedFindings ++ c.constantFindings (c.recorded source).value

end Candidate

namespace Node

/-- What is told of a declarator, if its name is new. -/
def declaratorFindings (source : String) (n : Node) (kind : DeclarationKind) (d : Node) :
    List Problem :=
  match d.form with
  | .variableDeclarator id _ =>
    match n.candidate? kind d with
    | some c => c.findings source
    | none => [(Finding.destructured ((id.sourceText? source).getD "pattern")).problem d]
  | _ => []

/-- What is told of a node, if the names that it declares are new. -/
def ownFindings (source : String) (n : Node) : List Problem :=
  match n.form with
  | .variableDeclaration kind ds => ds.flatMap (n.declaratorFindings source kind)
  | .functionDeclaration f =>
    if f.body.range?.isNone then [(Finding.emptyBody (n.routine source f).name).problem n] else []
  | _ => []

end Node

section Walk

variable {source : String} {t t' t'' : Table} {cs ds : List Candidate} {ps qs : List Problem}

/-- Candidates of different names that are all new are kept. -/
lemma firsts_eq_self {taken : List String} (distinct : (cs.map Candidate.name).Nodup)
    (new : ∀ c ∈ cs, c.name ∉ taken) : firsts taken cs = cs := by
  fun_induction firsts taken cs with
  | case1 => rfl
  | case2 taken c cs old ih => exact absurd old (new c List.mem_cons_self)
  | case3 taken c cs free ih =>
    rw [List.map_cons, List.nodup_cons] at distinct
    rw [ih distinct.2]
    intro d hd
    rw [List.mem_append, List.mem_singleton, not_or]
    exact ⟨new d (List.mem_cons_of_mem c hd),
      fun same => distinct.1 (same ▸ List.mem_map_of_mem hd)⟩

/-- A table has come to hold the variables of some candidates, and if their names are different and were
free, also what is told of them. -/
structure Tells (source : String) (t t' : Table) (cs : List Candidate) (ps : List Problem) : Prop where
  adds : Adds source t t' cs
  findings : (cs.map Candidate.name).Nodup → (∀ c ∈ cs, c.name ∉ t.names) →
    t'.findings = t.findings ++ ps

lemma Tells.nil (bindings : t'.bindings = t.bindings) (findings : t'.findings = t.findings ++ ps) :
    Tells source t t' [] ps :=
  ⟨.nil bindings, fun _ _ => findings⟩

lemma Tells.append (h₁ : Tells source t t' cs ps) (h₂ : Tells source t' t'' ds qs) :
    Tells source t t'' (cs ++ ds) (ps ++ qs) := by
  refine ⟨h₁.adds.append h₂.adds, fun distinct new => ?_⟩
  rw [List.map_append, List.nodup_append] at distinct
  obtain ⟨first, second, apart⟩ := distinct
  rw [List.forall_mem_append] at new
  have names : t'.names = t.names ++ cs.map Candidate.name := by
    rw [h₁.adds.names, firsts_eq_self first new.1]
  have later : ∀ d ∈ ds, d.name ∉ t'.names := by
    intro d hd old
    rw [names, List.mem_append] at old
    rcases old with old | old
    · exact new.2 d hd old
    · exact apart _ old _ (List.mem_map_of_mem hd) rfl
  rw [h₂.findings second later, h₁.findings first new.1, List.append_assoc]

/-- What each step tells is told in turn. -/
lemma Tells.foldl {α : Type} {f : Table → α → Table} {own : α → List Candidate}
    {told : α → List Problem} (step : ∀ t x, Tells source t (f t x) (own x) (told x)) (xs : List α)
    (t : Table) : Tells source t (xs.foldl f t) (xs.flatMap own) (xs.flatMap told) := by
  induction xs generalizing t with
  | nil => exact .nil rfl (List.append_nil _).symm
  | cons x xs ih => exact (step t x).append (ih (f t x))

lemma tells_recordNamed (t : Table) (c : Candidate) :
    Tells source t (t.recordNamed source c.kind c.declarator c.name c.init) [c]
      (c.findings source) := by
  refine ⟨adds_recordNamed t c, fun _ new => ?_⟩
  have open' : ¬ t.contains c.name = true := by
    rw [Table.contains_iff]
    exact new c (List.mem_singleton_self c)
  have mixed : (match c.init with
      | some array =>
        if array.isMixed then t.tell (.mixedArray c.name (Node.kindOf c.init)) array else t
      | none => t).findings = t.findings ++ c.mixedFindings := by
    unfold Candidate.mixedFindings
    cases c.init with
    | none => exact (List.append_nil _).symm
    | some array =>
      simp only
      split
      · rfl
      · exact (List.append_nil _).symm
  have constant (u : Table) (value : Option String) :
      (if c.kind = .const ∧ value = none then
          u.tell (Table.constantFinding c.name c.declarator c.init).1
            (Table.constantFinding c.name c.declarator c.init).2
        else u).findings = u.findings ++ c.constantFindings value := by
    unfold Candidate.constantFindings
    split
    · rfl
    · exact (List.append_nil _).symm
  rw [Table.recordNamed, if_neg open', Table.findings_insert, Candidate.findings, ← List.append_assoc,
    ← mixed]
  exact constant ..

lemma tells_recordVariable (n : Node) (kind : DeclarationKind) (t : Table) (d : Node) :
    Tells source t (t.recordVariable source kind d) (n.candidate? kind d).toList
      (n.declaratorFindings source kind d) := by
  obtain ⟨f, site⟩ := d
  cases f
  case variableDeclarator id init =>
    simp only [Table.recordVariable, Node.declaratorFindings, Node.candidate?, Node.form]
    cases id.name? with
    | some name =>
      exact tells_recordNamed t
        { declaration := n, kind, declarator := .mk (.variableDeclarator id init) site, name, init }
    | none => exact .nil rfl rfl
  all_goals exact .nil rfl (List.append_nil _).symm

/-- What is told of one node. -/
lemma tells_record (t : Table) (n : Node) :
    Tells source t (t.record source n) n.ownCandidates (n.ownFindings source) := by
  obtain ⟨f, site⟩ := n
  cases f
  case variableDeclaration kind ds =>
    exact .foldl (tells_recordVariable (.mk (.variableDeclaration kind ds) site) kind) ds t
  case functionDeclaration f =>
    simp only [Table.record, Node.ownFindings, Node.form, Table.recordFunction]
    split
    · exact .nil rfl rfl
    · exact .nil rfl (List.append_nil _).symm
  all_goals exact .nil rfl (List.append_nil _).symm

/-- When no two candidates have one name, all that there is to tell is told. -/
lemma findings_collect {program : Node} (distinct : (program.candidates.map Candidate.name).Nodup) :
    (collect program source).findings = program.preorder.flatMap (Node.ownFindings source) := by
  have told : Tells source Table.empty (collect program source) program.candidates
      (program.preorder.flatMap (Node.ownFindings source)) :=
    .foldl tells_record program.preorder Table.empty
  exact told.findings distinct fun _ _ => List.not_mem_nil

/-- To keep names free is to leave out the candidates that have them. -/
lemma firsts_eq_filter {taken taken' before : List String}
    (all : ∀ name, name ∈ taken' ↔ name ∈ taken ∨ name ∈ before) (cs : List Candidate) :
    firsts taken' cs = (firsts before cs).filter (·.name ∉ taken) := by
  induction cs generalizing taken' before with
  | nil => rfl
  | cons c cs ih =>
    rw [firsts, firsts]
    by_cases early : c.name ∈ before
    · rw [if_pos early, if_pos ((all _).2 (.inr early)), ih all]
    · by_cases old : c.name ∈ taken
      · have same : ∀ name, name ∈ taken' ↔ name ∈ taken ∨ name ∈ before ++ [c.name] := by
          intro name
          rw [all name, List.mem_append, List.mem_singleton]
          constructor
          · exact Or.imp_right .inl
          · rintro (h | h | rfl)
            · exact .inl h
            · exact .inr h
            · exact .inl old
        rw [if_neg early, if_pos ((all _).2 (.inl old)), ih same, List.filter_cons_of_neg (by simpa)]
      · have new : c.name ∉ taken' := fun h => ((all _).1 h).elim old early
        have more : ∀ name, name ∈ taken' ++ [c.name] ↔ name ∈ taken ∨ name ∈ before ++ [c.name] := by
          intro name
          rw [List.mem_append, List.mem_append, all name, or_assoc]
        rw [if_neg early, if_neg new, ih more, List.filter_cons_of_pos (by simpa)]

end Walk

section Programs

variable {source : String}

/-- The nodes of a program are those of its statements, behind the program itself. -/
lemma preorder_program (body : List Node) (site : Site) :
    (Node.mk (.program body) site).preorder =
      .mk (.program body) site :: body.flatMap Node.preorder :=
  Node.preorder_eq _

lemma candidates_program (body : List Node) (site : Site) :
    (Node.mk (.program body) site).candidates = body.flatMap Node.candidates := by
  rw [Node.candidates, preorder_program, List.flatMap_cons, List.flatMap_assoc]
  rfl

lemma routines_program (body : List Node) (site : Site) :
    (collect (.mk (.program body) site) source).routines =
      body.flatMap fun n => n.preorder.filterMap (Node.routine? source) := by
  rw [routines_collect, preorder_program, List.filterMap_cons, List.filterMap_flatMap]
  rfl

/-- A name has a variable if some candidate has it. -/
lemma mem_names_collect {program : Node} {name : String} :
    name ∈ (collect program source).names ↔ ∃ c ∈ program.candidates, c.name = name := by
  rw [Table.names, bindings_collect, List.map_map, List.mem_map]
  constructor
  · rintro ⟨c, kept, rfl⟩
    obtain ⟨-, front, back, whole, -⟩ := split_of_mem_firsts kept
    exact ⟨c, whole ▸ List.mem_append_right _ List.mem_cons_self, rfl⟩
  · rintro ⟨c, hc, rfl⟩
    obtain ⟨w, kept, same⟩ := (exists_mem_firsts hc).resolve_left List.not_mem_nil
    exact ⟨w, kept, same⟩

/-- However the statements of a program are ordered, the same names have variables, and the same
functions are recorded. If no two candidates have one name, the variables are the same too, and all
that is told. The functions of a body that is put before another come before the functions of that, and
so do its variables, but those of its names are left out. -/
theorem collect_perm {body body' : List Node} (perm : body.Perm body') (site site' : Site)
    (source : String) :
    let t := collect (.mk (.program body) site) source
    let t' := collect (.mk (.program body') site') source
    (∀ name, name ∈ t.names ↔ name ∈ t'.names) ∧
    t.routines.Perm t'.routines ∧
    (((Node.mk (.program body) site).candidates.map Candidate.name).Nodup →
      t.bindings.Perm t'.bindings ∧ t.findings.Perm t'.findings) ∧
    ∀ (rest : List Node) (site₁ site₂ : Site),
      let t₁ := collect (.mk (.program rest) site₁) source
      let t₂ := collect (.mk (.program (body ++ rest)) site₂) source
      t₂.routines = t.routines ++ t₁.routines ∧
      t₂.bindings = t.bindings ++ t₁.bindings.filter (·.name ∉ t.names) := by
  intro t t'
  have candidates : (Node.mk (.program body) site).candidates.Perm
      (Node.mk (.program body') site').candidates := by
    rw [candidates_program, candidates_program]
    exact perm.flatMap_right _
  refine ⟨fun name => ?_, ?_, fun distinct => ⟨?_, ?_⟩, fun rest site₁ site₂ => ⟨?_, ?_⟩⟩
  · rw [mem_names_collect, mem_names_collect]
    exact exists_congr fun c => and_congr_left fun _ => candidates.mem_iff
  · rw [routines_program, routines_program]
    exact perm.flatMap_right _
  -- No name is recorded twice, so all candidates are kept.
  · have distinct' := (candidates.map _).nodup_iff.1 distinct
    rw [bindings_collect, bindings_collect, firsts_eq_self distinct (by simp),
      firsts_eq_self distinct' (by simp)]
    exact candidates.map _
  · rw [findings_collect distinct, findings_collect ((candidates.map _).nodup_iff.1 distinct),
      preorder_program, preorder_program]
    exact (perm.flatMap_right _).flatMap_right _
  · rw [routines_program, routines_program, routines_program, List.flatMap_append]
  · have names : t.names = (firsts [] (body.flatMap Node.candidates)).map Candidate.name := by
      rw [Table.names, bindings_collect, List.map_map, candidates_program]
      rfl
    rw [bindings_collect, bindings_collect, bindings_collect, candidates_program, candidates_program,
      candidates_program, List.flatMap_append, firsts_append, List.nil_append, List.map_append,
      List.filter_map, names]
    congr 2
    exact firsts_eq_filter (by simp) _

/-- Of a constant without a value and a function without statements, the findings are told in the order of
the two. -/
theorem collect_perm_two :
    ∃ a f : Node, [a, f].Perm [f, a] ∧
      let t := collect (.mk (.program [a, f]) default) "";
      let t' := collect (.mk (.program [f, a]) default) "";
      t.names = ["a"] ∧ t.findings.length = 2 ∧ t.findings ≠ t'.findings ∧
        t.bindings.Perm t'.bindings ∧ t.findings.Perm t'.findings := by
  let name (text : String) : Node := .mk (.identifier text) default
  let a : Node :=
    .mk (.variableDeclaration .const [.mk (.variableDeclarator (name "a") none) default]) default
  let f : Node :=
    .mk (.functionDeclaration
      { id := some (name "f"), params := [], body := { statements := [], span := default },
        isGenerator := false, isAsync := false }) default
  have swap : [a, f].Perm [f, a] := .swap f a []
  have distinct : ((Node.mk (.program [a, f]) default).candidates.map Candidate.name).Nodup := by
    decide +kernel
  obtain ⟨-, -, same, -⟩ := collect_perm swap default default ""
  refine ⟨a, f, swap, ?_, ?_, ?_, same distinct⟩
  all_goals decide +kernel

end Programs

end ScriptTyping
