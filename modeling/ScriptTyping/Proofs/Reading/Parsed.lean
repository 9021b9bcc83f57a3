import ScriptTyping.Proofs.Building.Whole

/-!
# Scripts with a syntax tree

A script that is not nested too deeply and that the grammar matches has a syntax tree: no builder meets
a match that it does not expect. The only fault that is left is that of a number that denotes too much.
-/

namespace ScriptTyping.Script
open Peg Reading

/-- A script is shallow enough if no bracket opens a level too many. -/
lemma checkNesting_eq_ok {s : Script} : s.checkNesting = .ok () ↔
    Scan.excess? maxNesting ';' 0 s.content.toList = none := by
  rw [checkNesting, Scan.beforeExcess?]
  cases Scan.excess? maxNesting ';' 0 s.content.toList with
  | none => simp
  | some rest => simp

/-- The match of a script is a program that the grammar reads. -/
lemma isRead_of_match {s : Script} {t : Peg.Tree Rule} (h : s.match? = .ok t) :
    t.rule = .program ∧ t.start = 0 ∧ t.IsRead language s.content.toList := by
  unfold match? at h
  dsimp only at h
  split at h
  · rename_i accepted
    cases h
    obtain ⟨u, e, rule, start, read⟩ := isRead_of_parse (by nofun) accepted
    cases e
    exact ⟨rule, start, read⟩
  all_goals cases h

/-- What is read of a match is what is assembled of it. -/
lemma parse_eq {s : Script} {t : Peg.Tree Rule} (shallow : s.checkNesting = .ok ())
    (matched : s.match? = .ok t) : s.parse.map .node = assemble s.name s.content.toList t := by
  obtain ⟨rule, -, read⟩ := isRead_of_match matched
  have told : (Building.partOf s.name s.content.toList t).phrase = assemble s.name s.content.toList t :=
    Building.phrase_partOf read
  rw [← told, (Building.is_of_isRead read).phrase, rule, parse, shallow, matched]
  rfl

/-- The tree of a script is what its match stands for. -/
lemma parse_of_assemble {s : Script} {t : Peg.Tree Rule} {n : Node} (shallow : s.checkNesting = .ok ())
    (matched : s.match? = .ok t) (made : Reading.assemble s.name s.content.toList t = .ok (.node n)) :
    s.parse = .ok n := by
  have same := parse_eq shallow matched
  rw [made] at same
  cases parsed : s.parse with
  | error f =>
    rw [parsed] at same
    cases same
  | ok n' =>
    rw [parsed] at same
    cases same
    rfl

lemma parse_of_fault {s : Script} {t : Peg.Tree Rule} {f : Fault} (shallow : s.checkNesting = .ok ())
    (matched : s.match? = .ok t) (fails : Reading.assemble s.name s.content.toList t = .error f) :
    s.parse = .error f := by
  have same := parse_eq shallow matched
  rw [fails] at same
  cases parsed : s.parse with
  | error f' =>
    rw [parsed] at same
    cases same
    rfl
  | ok n =>
    rw [parsed] at same
    cases same

/-- The syntax tree of a script is what its match stands for. -/
lemma match_of_parse {s : Script} {n : Node} (h : s.parse = .ok n) :
    ∃ t : Peg.Tree Rule, s.checkNesting = .ok () ∧ s.match? = .ok t ∧
      assemble s.name s.content.toList t = .ok (.node n) := by
  cases shallow : s.checkNesting with
  | error f =>
    rw [parse, shallow] at h
    cases h
  | ok =>
    cases matched : s.match? with
    | error f =>
      rw [parse, shallow, matched] at h
      cases h
    | ok t =>
      have same := parse_eq shallow matched
      rw [h] at same
      exact ⟨t, rfl, rfl, same.symm⟩

/-- A script with a tree is parsed. -/
lemma parse_of_toOption {s : Script} {n : Node} (h : s.parse.toOption = some n) :
    s.parse = .ok n := by
  cases parsed : s.parse with
  | ok m =>
    rw [parsed] at h
    cases h
    rfl
  | error f =>
    rw [parsed] at h
    cases h

/-- A script that is not nested too deeply and that the grammar matches has a syntax tree, unless a
number in it has a prefix and digits that denote `2 ^ 64` or more. Then it is told of such a number
that its format is invalid, and nothing else. -/
theorem parse_of_match {s : Script} {t : Peg.Tree Rule} (shallow : s.checkNesting = .ok ())
    (matched : s.match? = .ok t) :
    ((∀ u, ¬ Excessive t u) → ∃ n, s.parse = .ok n) ∧
      ((∃ u, Excessive t u) → ∃ u, Excessive t u ∧
        s.parse = .error (excess s.name s.content.toList u)) := by
  obtain ⟨rule, -, read⟩ := isRead_of_match matched
  have assembled : Assembled s.name s.content.toList t := assemble_of_isRead read
  obtain ⟨modest, excessive⟩ := assembled
  refine ⟨fun none => ?_, fun some => ?_⟩
  · obtain ⟨p, made, fits⟩ := modest none
    rw [rule] at fits
    obtain ⟨n, rfl⟩ := fits
    exact ⟨n, parse_of_assemble shallow matched made⟩
  · obtain ⟨u, below, fails⟩ := excessive some
    exact ⟨u, below, parse_of_fault shallow matched fails⟩

/-- A number of seventeen hexadecimal digits denotes too much. -/
theorem parse_of_match_wide :
    ∃ t, (ofSource "a.js" "let a = [0x10000000000000000];").match? = .ok t ∧
      ∃ u, Excessive t u ∧ (ofSource "a.js" "let a = [0x10000000000000000];").parse =
        .error (excess "a.js" "let a = [0x10000000000000000];".toList u) := by
  generalize e : ofSource "a.js" "let a = [0x10000000000000000];" = s
  have shallow : s.checkNesting = .ok () := by
    have none : Scan.beforeExcess? maxNesting s.content.toList = none := by
      subst e
      decide +kernel
    rw [checkNesting, none]
  have accepted : s.match?.toOption.isSome = true := by
    subst e
    decide +kernel
  have fails : s.parse.toOption.isSome = false := by
    subst e
    decide +kernel
  obtain ⟨t, matched⟩ : ∃ t, s.match? = .ok t := by
    cases h : s.match? with
    | ok t => exact ⟨t, rfl⟩
    | error f => simp [h, Except.toOption] at accepted
  obtain ⟨modest, excessive⟩ := parse_of_match shallow matched
  by_cases some : ∃ u, Excessive t u
  · obtain ⟨u, below, told⟩ := excessive some
    subst e
    exact ⟨t, matched, u, below, told⟩
  · obtain ⟨n, parsed⟩ := modest fun u below => some ⟨u, below⟩
    rw [parsed] at fails
    cases fails

end ScriptTyping.Script
