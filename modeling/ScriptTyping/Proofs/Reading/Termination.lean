import ScriptTyping.Proofs.Grammar.Ranking
import ScriptTyping.Proofs.Peg.Descent
import ScriptTyping.Proofs.Reading.Parsed

/-!
# Matching a script comes to an end

Whatever the text, the evaluation of a script as a program makes no endless chain of evaluations, and
its match is a tree or a complaint about the text (`Script.evaluation_ends`).
-/

namespace ScriptTyping.Script
open Peg Reading Relation

/-- The evaluation of a script as a program. -/
def evaluation (s : Script) : Evaluation Rule :=
  ⟨.outset, .once (.call .program), ⟨0, s.content.toList⟩⟩

/-- Whatever the evaluation of a script makes repeats only what reads something. -/
lemma guards_of_reaches {s : Script} {x : Evaluation Rule}
    (h : ReflTransGen (Needs language) s.evaluation x) :
    Grammar.ranking.Guards Grammar.ranking.top x :=
  Ranking.guards_of_reaches h rfl

/-- A script is matched, or the text is complained about. -/
lemma match?_cases (s : Script) :
    (∃ t, s.match? = .ok t) ∨ ∃ a : Attempts Rule, s.match? =
      .error (.rejected s.name (a.message Rule.all Rule.name) (s.place a.furthest)) := by
  obtain ⟨o, reads⟩ := Grammar.ranking.exists_reads (m := .outset) (e := .call .program)
    (c := ⟨0, s.content.toList⟩) rfl
  cases o with
  | some q =>
    left
    obtain ⟨t, trees⟩ : ∃ t, q.trees = [t] := by
      cases reads with
      | silent silent => cases silent
      | call _ _ => exact ⟨_, rfl⟩
    exact ⟨t, match?_eq_ok.2 ⟨q, reads, trees⟩⟩
  | none =>
    right
    obtain ⟨attempts, rejected⟩ := Grammar.ranking.parse_of_fails (depth_le_depthFor _) reads
    refine ⟨attempts, ?_⟩
    unfold match?
    dsimp only
    rw [rejected]

/-- Why a script is not read: it is nested too deeply, its text is complained about, or a number in
its match denotes too much. -/
lemma fault_cases {s : Script} {f : Fault} (fails : s.parse = .error f) :
    (∃ m n, f = .tooDeep { start := s.place m, stop := s.place n } maxNesting) ∨
      (∃ a : Attempts Rule,
        f = .rejected s.name (a.message Rule.all Rule.name) (s.place a.furthest)) ∨
      ∃ t u, s.match? = .ok t ∧ Excessive t u ∧ f = excess s.name s.content.toList u := by
  cases shallow : s.checkNesting with
  | error g =>
    left
    rw [parse, shallow] at fails
    cases fails
    unfold checkNesting at shallow
    split at shallow
    all_goals cases shallow
    exact ⟨_, _, rfl⟩
  | ok =>
    right
    obtain ⟨t, matched⟩ | ⟨a, rejected⟩ := s.match?_cases
    · right
      obtain ⟨rule, -, read⟩ := isRead_of_match matched
      have assembled : Assembled s.name s.content.toList t := assemble_of_isRead read
      -- A match stands for a node unless a number in it is too large for the program.
      by_cases some : ∃ u, Excessive t u
      · obtain ⟨u, excessive, told⟩ := assembled.2 some
        rw [parse_of_fault shallow matched told] at fails
        cases fails
        exact ⟨t, u, matched, excessive, rfl⟩
      · obtain ⟨p, made, fits⟩ := assembled.1 fun u excessive => some ⟨u, excessive⟩
        rw [rule] at fits
        obtain ⟨n, rfl⟩ := fits
        rw [parse_of_assemble shallow matched made] at fails
        cases fails
    · left
      rw [parse, shallow, rejected] at fails
      cases fails
      exact ⟨a, rfl⟩

/-- The reading of a script is never broken off. -/
lemma parse_ne_interrupted (s : Script) (reason : String) :
    s.parse ≠ .error (.interrupted reason) := by
  intro broken
  obtain ⟨_, _, e⟩ | ⟨_, e⟩ | ⟨_, _, _, _, e⟩ := fault_cases broken
  all_goals cases e

/-- The evaluation of a script as a program ends. No chain of evaluations inside evaluations goes on
for ever: before a character is read, no rule is called inside itself, and nothing else is evaluated
inside itself where blanks are treated alike; and each time of a repetition, that of the blanks
between tokens among them, reads something. So the depth that a script is given is never used up, nor
any greater one: its match is a tree or a complaint about the text, and its reading is not broken
off. -/
theorem evaluation_ends (s : Script) :
    Acc (fun y x => Needs language x y) s.evaluation ∧
    (∀ x y r, ReflTransGen (Needs language) s.evaluation x → TransGen (Needs language) x y →
      x.task = .once (.call r) → y.task = .once (.call r) → x.place.index < y.place.index) ∧
    (∀ x y, ReflTransGen (Needs language) s.evaluation x → TransGen (Needs language) x y →
      y.task = x.task → y.mode.atomicity = x.mode.atomicity → x.place.index < y.place.index) ∧
    (∀ x y e q, ReflTransGen (Needs language) s.evaluation x → x.task.expr = .star e →
      Needs language x y → y.task = .once e → Reads language y.mode y.task y.place (some q) →
      y.place.index < q.place.index) ∧
    (∀ depth, depthFor s.content.toList ≤ depth →
      Peg.parse language depth .program s.content.toList ≠ .exhausted) ∧
    ((∃ t, s.match? = .ok t) ∨
      ∃ complaint place, s.match? = .error (.rejected s.name complaint place)) ∧
    ∀ reason, s.parse ≠ .error (.interrupted reason) := by
  refine ⟨?_, ?_, ?_, ?_, ?_, s.match?_cases.imp_right fun ⟨_, rejected⟩ => ⟨_, _, rejected⟩,
    s.parse_ne_interrupted⟩
  -- What is left are facts about the ranking of the rules.
  · exact Ranking.acc (Nat.le_refl _) (guards_of_reaches (s := s) .refl)
  · intro x y r reached inside call call'
    refine Ranking.index_lt_of_repeats (guards_of_reaches reached) inside (call'.trans call.symm) ?_
    rw [Evaluation.height, call, Evaluation.height, call']
    exact Nat.le_refl _
  · intro x y reached inside same alike
    refine Ranking.index_lt_of_repeats (guards_of_reaches reached) inside same ?_
    exact Nat.le_of_eq (by rw [Evaluation.height, Evaluation.height, same, alike])
  · intro x y e q reached repeats _ task reads
    rw [task] at reads
    exact Ranking.index_lt_of_repeated (guards_of_reaches reached) repeats reads
  · intro depth le
    have enough := Nat.le_trans (depth_le_depthFor s.content.toList) le
    have answer := Grammar.ranking.answers_call (m := .outset) (r := .program)
      (c := ⟨0, s.content.toList⟩) enough .none
    rw [Peg.parse]
    split
    case h_1 | h_2 =>
      intro same
      cases same
    case h_3 exhausted =>
      rw [exhausted] at answer
      exact absurd rfl answer

end ScriptTyping.Script
