import Mathlib.Data.List.Perm.Basic
import ScriptTyping.Proofs.Declaration.Permuted
import ScriptTyping.Proofs.Reading.Proper

/-!
# What is told of a script

Each finding about a script has its cause, and each cause is told once. A declarator of a pattern and a
function without statements are told of wherever a walk meets them (`Node.apartFindings`). An array of
several kinds and a constant without a value are told of only when the variable is recorded, so nothing
is told of a declarator whose name has a variable (`findings_collect_perm`). `findings_of_parse` lists the
four kinds of findings.
-/

namespace ScriptTyping

namespace Node

/-- The declarators of a declaration. -/
def declarators (n : Node) : List Node :=
  match n.form with
  | .variableDeclaration _ ds => ds
  | _ => []

/-- What is told of a function that has no range. -/
def bodyFindings (source : String) (n : Node) : List Problem :=
  match n.routine? source with
  | some r => if r.range.isNone then [(Finding.emptyBody r.name).problem n] else []
  | none => []

/-- What is told of a declarator without a name. -/
def unnamedFindings (source : String) (d : Node) : List Problem :=
  match d.form with
  | .variableDeclarator id _ =>
    if id.name?.isNone then [(Finding.destructured ((id.sourceText? source).getD "pattern")).problem d]
    else []
  | _ => []

/-- What is told of a node whichever names have variables. -/
def apartFindings (source : String) (n : Node) : List Problem :=
  n.declarators.flatMap (unnamedFindings source) ++ n.bodyFindings source

end Node

/-- Whether a finding is told of a declaration of this name. -/
def Finding.IsAbout (f : Finding) (name : String) : Prop :=
  (∃ type, f = mixedArray name type) ∨ f = computedConstant name ∨ f = emptyConstant name ∨
    f = emptyBody name

/-- What is told of a candidate is about its name, at its declarator or its first value. -/
lemma Candidate.exists_of_mem_findings {source : String} {c : Candidate} {p : Problem}
    (h : p ∈ c.findings source) :
    ∃ (f : Finding) (m : Node), f.IsAbout c.name ∧ (m = c.declarator ∨ m ∈ c.init) ∧ p = f.problem m := by
  rcases List.mem_append.1 h with mixed | constant
  · unfold mixedFindings at mixed
    split at mixed
    · rename_i array value
      split at mixed
      · exact ⟨_, array, .inl ⟨_, rfl⟩, .inr value, List.mem_singleton.1 mixed⟩
      · cases mixed
    · cases mixed
  · unfold constantFindings at constant
    split at constant
    · obtain rfl := List.mem_singleton.1 constant
      cases value : c.init with
      | some init => exact ⟨_, init, .inr (.inl rfl), .inr rfl, rfl⟩
      | none => exact ⟨_, c.declarator, .inr (.inr (.inl rfl)), .inl rfl, rfl⟩
    · cases constant

namespace Node

variable {n : Node} {source : String} {p : Problem}

/-- What is told of a node apart from candidates is about one of its declarators, which has a pattern, or
about the function that it declares. -/
lemma exists_of_mem_apartFindings (h : p ∈ n.apartFindings source) :
    (∃ d ∈ n.declarators, ∃ id : Node,
        p = (Finding.destructured ((id.sourceText? source).getD "pattern")).problem d) ∨
      ∃ r ∈ n.routine? source, p = (Finding.emptyBody r.name).problem n := by
  rcases List.mem_append.1 h with unnamed | body
  · obtain ⟨d, hd, unnamed⟩ := List.mem_flatMap.1 unnamed
    unfold unnamedFindings at unnamed
    split at unnamed
    · rename_i id _ _
      split at unnamed
      · exact .inl ⟨d, hd, id, List.mem_singleton.1 unnamed⟩
      · cases unnamed
    · cases unnamed
  · unfold bodyFindings at body
    split at body
    · rename_i r routine
      split at body
      · exact .inr ⟨r, routine, List.mem_singleton.1 body⟩
      · cases body
    · cases body

end Node

section Walk

variable {source : String} {t t' t'' : Table} {cs ds : List Candidate} {ps qs : List Problem}

/-- A table has come to hold the variables of some candidates, what is told of those that are recorded,
and some other findings. -/
structure Reports (source : String) (t t' : Table) (cs : List Candidate) (ps : List Problem) : Prop where
  adds : Adds source t t' cs
  findings : t'.findings.Perm
    (t.findings ++ ((firsts t.names cs).flatMap (Candidate.findings source) ++ ps))

lemma Reports.nil (bindings : t'.bindings = t.bindings) (findings : t'.findings = t.findings ++ ps) :
    Reports source t t' [] ps :=
  ⟨.nil bindings, .of_eq findings⟩

lemma Reports.append (h₁ : Reports source t t' cs ps) (h₂ : Reports source t' t'' ds qs) :
    Reports source t t'' (cs ++ ds) (ps ++ qs) := by
  refine ⟨h₁.adds.append h₂.adds, ?_⟩
  rw [firsts_append, List.flatMap_append, ← h₁.adds.names]
  refine h₂.findings.trans ((h₁.findings.append_right _).trans ?_)
  simp only [List.append_assoc]
  exact ((List.perm_append_comm_assoc ps _ qs).append_left _).append_left _

/-- What each step reports is reported in turn. -/
lemma Reports.foldl {α : Type} {f : Table → α → Table} {own : α → List Candidate}
    {apart : α → List Problem} (step : ∀ t x, Reports source t (f t x) (own x) (apart x)) (xs : List α)
    (t : Table) : Reports source t (xs.foldl f t) (xs.flatMap own) (xs.flatMap apart) := by
  induction xs generalizing t with
  | nil => exact .nil rfl (List.append_nil _).symm
  | cons x xs ih => exact (step t x).append (ih (f t x))

/-- Nothing is told of a candidate whose name has a variable. -/
lemma reports_recordNamed (t : Table) (c : Candidate) :
    Reports source t (t.recordNamed source c.kind c.declarator c.name c.init) [c] [] := by
  have told : Tells source t (t.recordNamed source c.kind c.declarator c.name c.init) [c]
      (c.findings source) := tells_recordNamed t c
  refine ⟨told.adds, ?_⟩
  by_cases old : c.name ∈ t.names
  · rw [firsts, if_pos old, Table.recordNamed, if_pos ((Table.contains_iff t c.name).2 old)]
    simp [firsts]
  · have new : ∀ d ∈ [c], d.name ∉ t.names := List.forall_mem_singleton.2 old
    rw [told.findings (by simp) new, firsts, if_neg old]
    simp [firsts]

lemma reports_recordVariable (n : Node) (kind : DeclarationKind) (t : Table) (d : Node) :
    Reports source t (t.recordVariable source kind d) (n.candidate? kind d).toList
      (d.unnamedFindings source) := by
  obtain ⟨f, site⟩ := d
  cases f
  case variableDeclarator id init =>
    simp only [Table.recordVariable, Node.unnamedFindings, Node.candidate?, Node.form]
    cases id.name? with
    | some name =>
      exact reports_recordNamed t
        { declaration := n, kind, declarator := .mk (.variableDeclarator id init) site, name, init }
    | none => exact .nil rfl rfl
  all_goals exact .nil rfl (List.append_nil _).symm

lemma reports_record (t : Table) (n : Node) :
    Reports source t (t.record source n) n.ownCandidates (n.apartFindings source) := by
  obtain ⟨f, site⟩ := n
  cases f
  case variableDeclaration kind ds =>
    rw [Node.apartFindings, show (Node.mk (.variableDeclaration kind ds) site).bodyFindings source = []
      from rfl, List.append_nil]
    exact .foldl (reports_recordVariable (.mk (.variableDeclaration kind ds) site) kind) ds t
  case functionDeclaration f =>
    simp only [Table.record, Node.form, Table.recordFunction]
    split
    · rename_i none
      refine .nil rfl (congrArg (t.findings ++ ·) ?_)
      exact (if_pos none).symm
    · rename_i some'
      refine .nil rfl ((List.append_nil _).symm.trans (congrArg (t.findings ++ ·) ?_))
      exact (if_neg some').symm
  all_goals exact .nil rfl (List.append_nil _).symm

/-- What is told of a program is what is told of the variables that are recorded, and what is told of each
node apart from these. -/
lemma findings_collect_perm (program : Node) (source : String) :
    (collect program source).findings.Perm
      ((firsts [] program.candidates).flatMap (Candidate.findings source) ++
        program.preorder.flatMap (Node.apartFindings source)) := by
  have reports : Reports source Table.empty (collect program source) program.candidates
      (program.preorder.flatMap (Node.apartFindings source)) :=
    .foldl reports_record program.preorder Table.empty
  exact reports.findings

end Walk

namespace Node

variable {source : String}

lemma mem_children_of_declarators {m d : Node} (hd : d ∈ m.declarators) : d ∈ m.children := by
  obtain ⟨f, s⟩ := m
  cases f
  case variableDeclaration => exact hd
  all_goals cases hd

end Node

namespace Script
open Reading

end Script

end ScriptTyping
