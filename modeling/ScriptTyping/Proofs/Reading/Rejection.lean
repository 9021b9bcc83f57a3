import ScriptTyping.Proofs.Grammar.Ranking
import ScriptTyping.Proofs.Peg.Attempts
import ScriptTyping.Proofs.Reading.Parsed

/-!
# What a rejected script is told

The grammar takes as many statements as it can and then wants the end of the text. So when it rejects a
script, the end was wanted where the first token stands behind those statements, and the record of what
was tried is about this place or a later one, and names a rule.
-/

namespace ScriptTyping
open Peg Grammar

namespace Peg

variable {R : Type} {g : Grammar R} {m : Mode} {e : Expr R} {c : Cursor} {q q₁ q₂ : Match R}

lemma Reads.again_ends (h : Reads g m (.again e) c (some q₁))
    (gap : Reads g m (.once .gap) q₁.place (some q₂)) : Reads g m (.once e) q₂.place none := by
  generalize k : Task.again e = t at h
  generalize o : some q₁ = r at h
  induction h generalizing q₁
  case againSome q₃ _ _ _ _ _ ih =>
    cases k
    cases o
    exact @ih q₃ gap rfl rfl
  case againNone before none _ _ =>
    cases k
    cases o
    cases before.unique gap
    exact none
  all_goals cases k

/-- Behind a repetition and a gap what was repeated does not match once more. -/
lemma Reads.star_ends {q₀ : Match R} (rest : Reads g m (.once .gap) c (some q₀))
    (h : Reads g m (.once (.star e)) q₀.place (some q₁))
    (gap : Reads g m (.once .gap) q₁.place (some q₂)) : Reads g m (.once e) q₂.place none := by
  cases h with
  | starSome _ more => exact (more.again_ends gap :)
  | starNone none =>
    cases rest.gap_gap.unique gap
    exact none

end Peg

section Complaints

variable {names : List String}

/-- A message that names a rule says that it was expected or that it was not. -/
lemma complaint_ne {expected unexpected : List String} (named : expected ++ unexpected ≠ []) :
    complaint expected unexpected ≠ "unknown parsing error" := by
  have differs {start rest : String} (other : ¬ start.toList <+: "unknown parsing error".toList) :
      start ++ rest ≠ "unknown parsing error" := fun same => other ⟨rest.toList, by
    rw [← String.toList_append, same]⟩
  cases expected with
  | nil =>
    cases unexpected with
    | nil => exact absurd rfl named
    | cons u unexpected => exact differs (by decide)
  | cons e expected =>
    cases unexpected with
    | nil => exact differs (by decide)
    | cons u unexpected =>
      rw [complaint, String.append_assoc, String.append_assoc]
      · exact differs (by decide)
      · exact nofun
      · exact nofun
      · exact nofun

/-- The names of a record are those of rules on record, in the order of the grammar. -/
lemma inOrder_ne_nil {rules : List Rule} (ne : rules ≠ []) : inOrder Rule.all rules ≠ [] := by
  obtain ⟨r, rules, rfl⟩ := List.exists_cons_of_ne_nil ne
  exact List.ne_nil_of_mem (List.mem_filter.2 ⟨Rule.mem_all r, by simp⟩)

end Complaints

namespace Script

/-- What is on record when a text is rejected: a rule, at a place of the text that is no earlier than the
one where its end was wanted. -/
lemma attempts_of_rejected {depth : Nat} {source : List Char} {a : Attempts Rule}
    (rejected : Peg.parse language depth .program source = .rejected a) :
    a.IsSound source.length ∧ a.IsNamed ∧ ∃ q₀ q₁ q₂,
      Reads language .outset (.once .gap) ⟨0, source⟩ (some q₀) ∧
      Reads language .outset (.once (.star statement)) q₀.place (some q₁) ∧
      Reads language .outset (.once .gap) q₁.place (some q₂) ∧ q₂.place.index ≤ a.furthest := by
  have begins : Cursor.Within ⟨0, source⟩ source := ⟨rfl, Nat.zero_le _⟩
  have failed : run language depth .outset (.call .program) ⟨0, source⟩ .none = (.failed, a) := by
    rw [Peg.parse] at rejected
    split at rejected
    · cases rejected
    next failed =>
      cases rejected
      exact failed
    · cases rejected
  have sound : a.IsSound source.length := by
    have later := run_later (g := language) (n := depth) (m := .outset) (e := .call .program)
      (a := .none) begins
    rw [failed] at later
    exact later.isSound (Attempts.isSound_none _)
  obtain ⟨k, a₁, inner, rfl⟩ := exists_of_call_failed (by decide) failed
  have sound₁ : a₁.IsSound source.length := by
    have later := run_later (g := language) (n := k) (m := .outset) (e := body .program)
      (a := .none) begins
    rw [show run language k .outset (body .program) ⟨0, source⟩ .none = (.failed, a₁) from inner] at later
    exact later.isSound (Attempts.isSound_none _)
  refine ⟨sound, sound₁.isNamed_record, ?_⟩
  -- A program is a sequence: statements, which never fail, and the end of the input, which does.
  obtain ⟨j, nothing⟩ | ⟨j, c₁, ts₁, a₂, c₂, ts₂, a₃, nothing, ran₀, rest⟩ :=
    exists_of_seq_failed inner
  · cases j with
    | zero => rw [run_zero] at nothing; cases nothing
    | succ j => rw [run] at nothing; cases nothing
  obtain ⟨j', star⟩ | ⟨j', c₃, ts₃, a₄, c₄, ts₄, a₅, ran₁, ran₂, last⟩ :=
    exists_of_seq_failed rest
  · exact absurd star star_ne_failed
  obtain ⟨_, empty, rfl⟩ := reads_of_run nothing
  obtain ⟨q₀, first, rfl⟩ := reads_of_run ran₀
  obtain ⟨q₁, statements, rfl⟩ := reads_of_run ran₁
  obtain ⟨q₂, gap, rfl⟩ := reads_of_run ran₂
  obtain ⟨j, a₆, -, rfl⟩ := exists_of_call_failed (by decide) last
  cases empty
  refine ⟨q₀, q₁, q₂, first, statements, gap, ?_⟩
  exact Nat.le_trans Attempts.le_furthest_record
    (later_settle (Nat.zero_le source.length)).furthest_le

/-- **A script that the grammar rejects is told where and why.** The place lies in the text or at its end,
and its line and column are those that the text before it leads up to. It is no earlier than the first
token behind the statements that were read, behind which no further statement can be read; and the
complaint names a rule, in words of its own. -/
theorem parse_of_rejects (s : Script) (shallow : s.checkNesting = .ok ())
    (rejects : Reads language .outset (.once (.call .program)) ⟨0, s.content.toList⟩ none) :
    ∃ before after expected unexpected, s.content.toList = before ++ after ∧
      s.parse = .error (.rejected s.name
        (complaint (expected.map Rule.name) (unexpected.map Rule.name))
        (Location.after s.name before)) ∧
      (∃ q₀ q₁ q₂, Reads language .outset (.once .gap) ⟨0, s.content.toList⟩ (some q₀) ∧
        Reads language .outset (.once (.star statement)) q₀.place (some q₁) ∧
        Reads language .outset (.once .gap) q₁.place (some q₂) ∧
        Reads language .outset (.once .gap) q₂.place (some ⟨q₂.place, [], none⟩) ∧
        Reads language .outset (.once statement) q₂.place none ∧
        q₂.place.index ≤ before.length) ∧
      expected ++ unexpected ≠ [] ∧
      complaint (expected.map Rule.name) (unexpected.map Rule.name) ≠ "unknown parsing error" := by
  obtain ⟨a, rejected⟩ := Grammar.ranking.parse_of_fails (depth_le_depthFor _) rejects
  obtain ⟨sound, named, q₀, q₁, q₂, first, statements, gap, le⟩ := attempts_of_rejected rejected
  have names : inOrder Rule.all a.expected ++ inOrder Rule.all a.unexpected ≠ [] := by
    intro empty
    obtain ⟨expected, unexpected⟩ := List.append_eq_nil_iff.1 empty
    refine named (List.append_eq_nil_iff.2 ⟨?_, ?_⟩)
    · exact Classical.byContradiction fun ne => inOrder_ne_nil ne expected
    · exact Classical.byContradiction fun ne => inOrder_ne_nil ne unexpected
  have parsed : s.parse = .error (.rejected s.name (a.message Rule.all Rule.name) (s.place a.furthest)) := by
    have unmatched : s.match? = .error
        (.rejected s.name (a.message Rule.all Rule.name) (s.place a.furthest)) := by
      unfold match?
      dsimp only
      rw [rejected]
    rw [Script.parse, shallow, unmatched]
    rfl
  refine ⟨s.content.toList.take a.furthest, s.content.toList.drop a.furthest, _, _,
    (List.take_append_drop _ _).symm, parsed,
    ⟨q₀, q₁, q₂, first, statements, gap, gap.gap_gap, first.star_ends statements gap, ?_⟩, names,
    complaint_ne ?_⟩
  · rw [List.length_take, Nat.min_eq_left sound.le]
    exact le
  · rw [← List.map_append]
    exact mt List.map_eq_nil_iff.1 names

/-- A script without a match is one that the grammar rejects. -/
lemma rejects_of_match? {s : Script} (unmatched : s.match?.toOption.isNone = true) :
    Reads language .outset (.once (.call .program)) ⟨0, s.content.toList⟩ none := by
  obtain ⟨o, reads⟩ := ScriptTyping.Grammar.ranking.exists_reads (m := .outset) (e := .call .program)
    (c := ⟨0, s.content.toList⟩) rfl
  cases o with
  | none => exact reads
  | some q =>
    obtain ⟨t, trees⟩ : ∃ t, q.trees = [t] := by
      cases reads with
      | silent silent => cases silent
      | call _ _ => exact ⟨_, rfl⟩
    rw [match?_eq_ok.2 ⟨q, reads, trees⟩] at unmatched
    cases unmatched

/-- A parenthesis that nothing opens. -/
theorem parse_of_rejects_parenthesis :
    ∃ before after expected unexpected, "a)".toList = before ++ after ∧
      (ofSource "a.js" "a)").parse = .error (.rejected "a.js"
        (complaint (expected.map Rule.name) (unexpected.map Rule.name))
        (Location.after "a.js" before)) ∧ expected ++ unexpected ≠ [] := by
  have shallow : (ofSource "a.js" "a)").checkNesting = .ok () :=
    checkNesting_eq_ok.2 (by decide +kernel)
  have rejects := rejects_of_match? (s := ofSource "a.js" "a)") (by decide +kernel)
  obtain ⟨before, after, expected, unexpected, split, parsed, -, names, -⟩ :=
    parse_of_rejects (ofSource "a.js" "a)") shallow rejects
  exact ⟨before, after, expected, unexpected, split, parsed, names⟩

end Script

end ScriptTyping
