import ScriptTyping.Declaration.Collect
import ScriptTyping.Proofs.Declaration.Order
import ScriptTyping.Proofs.Reading.Parsed

/-!
# The variables of a script

A `Candidate` is a declarator of a plain name, with the declaration it stands in. The table of a
script keeps of each name the candidate that a walk meets first (`bindings_collect`). By the order in
which a walk meets declarations this is the one whose declaration begins first, and among those of
one declaration the one that begins first itself (`bindings_of_parse`). A declaration comes before
those inside its own declarators, so a declarator may come before another that begins earlier.
-/

namespace ScriptTyping

/-- A declarator of a plain name, its first value, and the declaration it stands in. -/
structure Candidate where
  declaration : Node
  kind : DeclarationKind
  declarator : Node
  name : String
  init : Option Node

namespace Candidate

/-- The variable that a candidate stands for. -/
def recorded (source : String) (c : Candidate) : Variable :=
  { name := c.name
    kind := c.kind
    type := Node.kindOf c.init
    value := (c.init.filter Node.isCopied).bind (·.sourceText? source)
    location := c.declarator.location? }

/-- The declaration of one candidate begins before that of another, or it is the same place and the
candidate itself begins before the other. -/
def Precedes (a b : Candidate) : Prop :=
  a.declaration.Before b.declaration ∨
    a.declaration.location?.map (·.offset) = b.declaration.location?.map (·.offset) ∧
      a.declarator.Before b.declarator

end Candidate

namespace Node

/-- The candidate that a declarator is, if it is one. -/
def candidate? (declaration : Node) (kind : DeclarationKind) (declarator : Node) :
    Option Candidate :=
  match declarator.form with
  | .variableDeclarator id init =>
    id.name?.map fun name => { declaration, kind, declarator, name, init }
  | _ => none

/-- The candidates of one declaration. -/
def ownCandidates (n : Node) : List Candidate :=
  match n.form with
  | .variableDeclaration kind ds => ds.flatMap fun d => (n.candidate? kind d).toList
  | _ => []

/-- The candidates in a syntax tree, in the order of a walk. -/
def candidates (n : Node) : List Candidate :=
  n.preorder.flatMap ownCandidates

lemma declarator_of_candidate? {n d : Node} {kind : DeclarationKind} {c : Candidate}
    (h : n.candidate? kind d = some c) : c.declaration = n ∧ c.declarator = d := by
  unfold candidate? at h
  split at h
  · obtain ⟨name, _, rfl⟩ := Option.map_eq_some_iff.1 h
    exact ⟨rfl, rfl⟩
  · cases h

/-- The name and the first value of a candidate are those of its declarator. -/
lemma form_of_candidate? {n d : Node} {kind : DeclarationKind} {c : Candidate}
    (h : n.candidate? kind d = some c) :
    ∃ id, d.form = .variableDeclarator id c.init ∧ id.name? = some c.name := by
  unfold candidate? at h
  split at h
  · rename_i id init form
    obtain ⟨name, named, rfl⟩ := Option.map_eq_some_iff.1 h
    exact ⟨id, form, named⟩
  · cases h

lemma declaration_of_own {n : Node} {c : Candidate} (h : c ∈ n.ownCandidates) :
    c.declaration = n := by
  unfold ownCandidates at h
  split at h
  · obtain ⟨d, _, h⟩ := List.mem_flatMap.1 h
    exact (declarator_of_candidate? (Option.mem_toList.1 h)).1
  · simp at h

/-- Only declarations have candidates. -/
lemma candidates_eq (n : Node) : n.candidates = n.declarations.flatMap ownCandidates := by
  rw [candidates, declarations]
  induction n.preorder with
  | nil => rfl
  | cons m ms ih =>
    rw [List.flatMap_cons, List.filter_cons, ih]
    split
    · rw [List.flatMap_cons]
    · rename_i plain
      have none : m.ownCandidates = [] := by
        unfold ownCandidates
        split
        · rename_i form
          rw [form] at plain
          exact absurd rfl plain
        · rfl
      rw [none, List.nil_append]

end Node

section Walk

/-- Of several candidates the first of each name, but for the names that are taken. -/
def firsts (taken : List String) : List Candidate → List Candidate
  | [] => []
  | c :: cs => if c.name ∈ taken then firsts taken cs else c :: firsts (taken ++ [c.name]) cs

lemma firsts_append (taken : List String) (cs ds : List Candidate) :
    firsts taken (cs ++ ds) =
      firsts taken cs ++ firsts (taken ++ (firsts taken cs).map Candidate.name) ds := by
  fun_induction firsts taken cs with
  | case1 => simp
  | case2 taken c cs old ih => rw [List.cons_append, firsts, if_pos old, ih]
  | case3 taken c cs new ih =>
    rw [List.cons_append, firsts, if_neg new, ih, List.cons_append, List.map_cons,
      List.append_assoc]
    rfl

variable {source : String} {t t' t'' : Table} {cs ds : List Candidate}

/-- A table has come to hold the variables of some candidates, if their names were free. -/
def Adds (source : String) (t t' : Table) (cs : List Candidate) : Prop :=
  t'.bindings = t.bindings ++ (firsts t.names cs).map (Candidate.recorded source)

lemma Adds.names (h : Adds source t t' cs) :
    t'.names = t.names ++ (firsts t.names cs).map Candidate.name := by
  rw [Table.names, h, List.map_append, List.map_map]
  rfl

lemma Adds.nil (h : t'.bindings = t.bindings) : Adds source t t' [] := by
  rw [Adds, h]
  simp [firsts]

lemma Adds.append (h₁ : Adds source t t' cs) (h₂ : Adds source t' t'' ds) :
    Adds source t t'' (cs ++ ds) := by
  rw [Adds, h₂, h₁.names, h₁, firsts_append]
  simp

/-- What each step adds is added in turn. -/
lemma Adds.foldl {α : Type} {f : Table → α → Table} {own : α → List Candidate}
    (step : ∀ t x, Adds source t (f t x) (own x)) (xs : List α) (t : Table) :
    Adds source t (xs.foldl f t) (xs.flatMap own) := by
  induction xs generalizing t with
  | nil => exact .nil rfl
  | cons x xs ih => exact (step t x).append (ih (f t x))

@[simp] lemma bindings_tell (t : Table) (f : Finding) (n : Node) :
    (t.tell f n).bindings = t.bindings := rfl

/-- Findings are told on the way, but only a variable of a free name is recorded. -/
lemma adds_recordNamed (t : Table) (c : Candidate) :
    Adds source t (t.recordNamed source c.kind c.declarator c.name c.init) [c] := by
  have free (u : Table) (same : u.bindings = t.bindings) (new : ¬ t.contains c.name) :
      Adds source t (u.insert (c.recorded source)) [c] := by
    have fresh : c.name ∉ t.names := fun old => new ((Table.contains_iff t c.name).2 old)
    have open' : ¬ u.contains c.name = true := by rwa [Table.contains_iff, Table.names, same]
    rw [Adds, Table.bindings_insert, show (c.recorded source).name = c.name from rfl, if_neg open',
      same, firsts, if_neg fresh]
    rfl
  unfold Table.recordNamed
  split
  · rename_i old
    rw [Adds, firsts, if_pos ((Table.contains_iff t c.name).1 old)]
    simp [firsts]
  · rename_i new
    refine free _ ?_ new
    dsimp only
    repeat' split
    all_goals rfl

lemma adds_recordVariable (n : Node) (kind : DeclarationKind) (t : Table) (d : Node) :
    Adds source t (t.recordVariable source kind d) (n.candidate? kind d).toList := by
  obtain ⟨f, site⟩ := d
  cases f
  case variableDeclarator id init =>
    simp only [Table.recordVariable, Node.candidate?, Node.form]
    cases id.name? with
    | some name =>
      exact adds_recordNamed t
        { declaration := n, kind, declarator := .mk (.variableDeclarator id init) site, name, init }
    | none => exact .nil rfl
  all_goals exact .nil rfl

lemma adds_record (t : Table) (n : Node) : Adds source t (t.record source n) n.ownCandidates := by
  obtain ⟨f, site⟩ := n
  cases f
  case variableDeclaration kind ds =>
    exact .foldl (adds_recordVariable (.mk (.variableDeclaration kind ds) site) kind) ds t
  case functionDeclaration f =>
    refine .nil ?_
    simp only [Table.record, Node.form, Table.recordFunction]
    split
    all_goals rfl
  all_goals exact .nil rfl

/-- The table of a program holds the first candidate of each name. -/
lemma bindings_collect (program : Node) (source : String) :
    (collect program source).bindings =
      (firsts [] program.candidates).map (Candidate.recorded source) := by
  have adds : Adds source Table.empty (collect program source) program.candidates :=
    .foldl adds_record program.preorder Table.empty
  rw [Adds] at adds
  exact adds

end Walk

section First

variable {taken : List String} {cs : List Candidate}

/-- What is kept stands after candidates of other names only. -/
lemma split_of_mem_firsts {w : Candidate} (h : w ∈ firsts taken cs) :
    w.name ∉ taken ∧
      ∃ front back, cs = front ++ w :: back ∧ ∀ x ∈ front, x.name ≠ w.name := by
  fun_induction firsts taken cs with
  | case1 => cases h
  | case2 taken c cs old ih =>
    obtain ⟨new, front, back, rfl, others⟩ := ih h
    refine ⟨new, c :: front, back, rfl, List.forall_mem_cons.2 ⟨?_, others⟩⟩
    exact fun same => new (same ▸ old)
  | case3 taken c cs free ih =>
    rcases List.mem_cons.1 h with rfl | h
    · exact ⟨free, [], cs, rfl, by simp⟩
    · obtain ⟨new, front, back, rfl, others⟩ := ih h
      rw [List.mem_append, List.mem_singleton, not_or] at new
      exact ⟨new.1, c :: front, back, rfl,
        List.forall_mem_cons.2 ⟨fun same => new.2 same.symm, others⟩⟩

lemma mem_of_mem_firsts {w : Candidate} (h : w ∈ firsts taken cs) : w ∈ cs := by
  obtain ⟨-, front, back, rfl, -⟩ := split_of_mem_firsts h
  exact List.mem_append_right front List.mem_cons_self

/-- Every name has a candidate that is kept. -/
lemma exists_mem_firsts {c : Candidate} (h : c ∈ cs) :
    c.name ∈ taken ∨ ∃ w ∈ firsts taken cs, w.name = c.name := by
  fun_induction firsts taken cs with
  | case1 => cases h
  | case2 taken d cs old ih =>
    rcases List.mem_cons.1 h with rfl | h
    · exact .inl old
    · exact ih h
  | case3 taken d cs free ih =>
    rcases List.mem_cons.1 h with rfl | h
    · exact .inr ⟨c, List.mem_cons_self, rfl⟩
    · rcases ih h with old | ⟨w, hw, same⟩
      · rcases List.mem_append.1 old with old | old
        · exact .inl old
        · exact .inr ⟨d, List.mem_cons_self, (List.mem_singleton.1 old).symm⟩
      · exact .inr ⟨w, List.mem_cons_of_mem _ hw, same⟩

variable {r : Candidate → Candidate → Prop}

/-- What is kept of a name comes before all others of the name. -/
lemma first_of_ascending (h : Ascending r cs) {w c : Candidate} (hw : w ∈ firsts taken cs)
    (hc : c ∈ cs) (same : c.name = w.name) : c = w ∨ r w c := by
  obtain ⟨-, front, back, rfl, others⟩ := split_of_mem_firsts hw
  rw [← List.singleton_append, ← List.append_assoc] at h hc
  rcases List.mem_append.1 hc with hc | hc
  · rcases List.mem_append.1 hc with hc | hc
    · exact absurd same (others c hc)
    · exact .inl (List.mem_singleton.1 hc)
  · rcases h.apart w (List.mem_append_right _ (List.mem_singleton_self w)) c hc with old | later
    · rcases List.mem_append.1 old with old | old
      · exact absurd same (others c old)
      · exact .inl (List.mem_singleton.1 old)
    · exact .inr later

/-- What is kept is in order, when `before` has nothing but taken names. -/
lemma pairwise_firsts (before : List Candidate) (h : Ascending r (before ++ cs))
    (old : ∀ x ∈ before, x.name ∈ taken) :
    (firsts taken cs).Pairwise fun v w => r v w ∧ v.name ≠ w.name := by
  fun_induction firsts taken cs generalizing before with
  | case1 => exact .nil
  | case2 taken c cs known ih =>
    refine ih (before ++ [c]) (by rwa [List.append_assoc]) ?_
    exact List.forall_mem_append.2 ⟨old, by simpa using known⟩
  | case3 taken c cs free ih =>
    refine List.pairwise_cons.2 ⟨fun w hw => ?_, ?_⟩
    · obtain ⟨new, front, back, rfl, others⟩ := split_of_mem_firsts hw
      rw [List.mem_append, List.mem_singleton, not_or] at new
      refine ⟨h (before ++ c :: front) w back (by simp) ?_ c (by simp), fun same => new.2 same.symm⟩
      intro hw
      rcases List.mem_append.1 hw with hw | hw
      · exact new.1 (old w hw)
      · rcases List.mem_cons.1 hw with rfl | hw
        · exact new.2 rfl
        · exact others w hw rfl
    · refine ih (before ++ [c]) (by rwa [List.append_assoc]) ?_
      refine List.forall_mem_append.2 ⟨fun x hx => List.mem_append_left _ (old x hx), ?_⟩
      simp

end First

/-- The candidates of declarations that are in order are in order. -/
lemma Reading.Sited.candidates {file : String} {source : List Char} {lo hi : Nat} {ns : List Node}
    (h : Sited file source lo hi ns) :
    Ascending Candidate.Precedes (ns.flatMap Node.ownCandidates) := by
  refine h.ascending.flatMap (fun n hn => .of_pairwise ?_) fun m n before x hx y hy => .inl ?_
  · unfold Node.ownCandidates
    split
    · rename_i kind ds form
      refine List.pairwise_flatMap.2 ⟨fun d _ => ?_, ((h.declared n hn).pairwise form).imp ?_⟩
      · cases n.candidate? kind d
        · exact .nil
        · exact List.pairwise_singleton _ _
      · intro d d' before x hx y hy
        obtain ⟨hx, hd⟩ := Node.declarator_of_candidate? (Option.mem_toList.1 hx)
        obtain ⟨hy, hd'⟩ := Node.declarator_of_candidate? (Option.mem_toList.1 hy)
        exact .inr ⟨by rw [hx, hy], by rwa [hd, hd']⟩
    · exact .nil
  · rwa [Node.declaration_of_own hx, Node.declaration_of_own hy]

namespace Script
open Peg Reading

/-- The variables of a script are, of each name that a declarator in the syntax tree has, one: the
one whose declaration begins first, and among those of one declaration the one that begins first
itself. They are listed in this order. -/
theorem bindings_of_parse {s : Script} {n : Node} (h : s.parse = .ok n) :
    ∃ ws : List Candidate, (collect n s.content).bindings = ws.map (·.recorded s.content) ∧
      (∀ c ∈ n.candidates, ∃ w ∈ ws, w.name = c.name) ∧
      (∀ w ∈ ws, w ∈ n.candidates ∧
        ∀ c ∈ n.candidates, c.name = w.name → c = w ∨ w.Precedes c) ∧
      ws.Pairwise fun v w => v.Precedes w ∧ v.name ≠ w.name := by
  obtain ⟨t, -, matched, made⟩ := match_of_parse h
  obtain ⟨-, -, read⟩ := isRead_of_match matched
  have sited := sited_of_isRead read made
  rw [declarations_node] at sited
  have order : Ascending Candidate.Precedes n.candidates := n.candidates_eq ▸ sited.candidates
  refine ⟨firsts [] n.candidates, bindings_collect n s.content, fun c hc => ?_, fun w hw => ?_,
    pairwise_firsts [] order (by simp)⟩
  · exact (exists_mem_firsts hc).resolve_left List.not_mem_nil
  · refine ⟨?_, fun c hc same => first_of_ascending order hw hc same⟩
    obtain ⟨-, front, back, whole, -⟩ := split_of_mem_firsts hw
    rw [whole]
    exact List.mem_append_right _ List.mem_cons_self

/-- A declaration inside a declarator of another one comes after it. -/
theorem bindings_of_parse_nested :
    ∃ n, (ofSource "a.js" "var f = function () { var x = 1; }, x = 2;").parse = .ok n ∧
      ∃ ws : List Candidate, ws.map (·.name) = ["f", "x"] ∧
        (∀ w ∈ ws, ∀ c ∈ n.candidates, c.name = w.name → c = w ∨ w.Precedes c) ∧
        ws.Pairwise fun v w => v.Precedes w ∧ v.name ≠ w.name := by
  generalize e : ofSource "a.js" "var f = function () { var x = 1; }, x = 2;" = s
  have parsed : (s.parse.toOption.map fun n => (collect n s.content).names) = some ["f", "x"] := by
    subst e
    decide +kernel
  obtain ⟨n, parsed, names⟩ := Option.map_eq_some_iff.1 parsed
  have parsed := parse_of_toOption parsed
  obtain ⟨ws, bindings, -, first, order⟩ := bindings_of_parse parsed
  refine ⟨n, parsed, ws, ?_, fun w hw => (first w hw).2, order⟩
  rw [← names, Table.names, bindings, List.map_map]
  rfl

/-- A declarator in a function that is the first value of another declarator begins before a later
one of the same name, which is recorded all the same. -/
theorem exists_candidate_before_binding :
    ∃ n, (ofSource "a.js" "var f = function () { var x = 1; }, x = 2;").parse = .ok n ∧
      ∃ v ∈ (collect n "var f = function () { var x = 1; }, x = 2;").bindings,
        ∃ c ∈ n.candidates, c.name = v.name ∧
          ∃ k ∈ c.declarator.location?, ∃ l ∈ v.location, k.offset < l.offset := by
  have found : ((ofSource "a.js" "var f = function () { var x = 1; }, x = 2;").parse.toOption.any
      fun n => decide (∃ v ∈ (collect n "var f = function () { var x = 1; }, x = 2;").bindings,
        ∃ c ∈ n.candidates, c.name = v.name ∧
          ∃ k ∈ c.declarator.location?, ∃ l ∈ v.location, k.offset < l.offset)) = true := by
    decide +kernel
  obtain ⟨n, parsed, found⟩ := (Option.any_eq_true _ _).1 found
  exact ⟨n, parse_of_toOption parsed, of_decide_eq_true found⟩

end Script

end ScriptTyping
