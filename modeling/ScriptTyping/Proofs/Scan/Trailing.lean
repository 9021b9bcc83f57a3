import ScriptTyping.Proofs.Scan.Bytes
import ScriptTyping.Proofs.Scan.Lexeme

/-!
# What is trimmed

`trimTrailing` keeps a text up to the end of its last lexeme that is code. What it takes off are blanks
and comments (`IsTrivia`), and nothing more of what it keeps can be taken off: the lexemes of what is
kept are those of the whole text, because each but the last has the same character behind it and the
last one may end the text (`lexeme_stopsAlike`).
-/

namespace ScriptTyping.Scan

/-- A text of blanks and comments. A line comment goes up to a line feed or the end, a block comment up to
its first end or the end of the text. -/
inductive IsTrivia : List Char → Prop where
  | nil : IsTrivia []
  | blank {c : Char} {cs : List Char} : Text.isAsciiBlank c = true → IsTrivia cs → IsTrivia (c :: cs)
  | line {note cs : List Char} : '\n' ∉ note → Follows cs ['\n'] → IsTrivia cs →
      IsTrivia ('/' :: '/' :: (note ++ cs))
  | block {note cs : List Char} : ¬ ['*', '/'] <:+: note ++ ['*'] → IsTrivia cs →
      IsTrivia ('/' :: '*' :: (note ++ '*' :: '/' :: cs))
  | unclosed {note : List Char} : ¬ ['*', '/'] <:+: note → IsTrivia ('/' :: '*' :: note)

variable {c : Char} {cs : List Char}

/-- A lexeme that is no code is trivia. -/
lemma IsTrivia.of_lexeme (noCode : (lexeme c cs).1 = false) (rest : IsTrivia (lexeme c cs).2) :
    IsTrivia (c :: cs) := by
  -- A lexeme without code is a comment or a blank.
  unfold lexeme at noCode rest
  split at noCode
  next line =>
    rw [if_pos line] at rest
    obtain ⟨rfl, head⟩ := line
    obtain ⟨cs, rfl⟩ := List.head?_eq_some_iff.1 head
    obtain ⟨note, split, free, follows⟩ := dropLine_cases cs
    rw [split]
    exact .line free follows rest
  next line =>
  rw [if_neg line] at rest
  split at noCode
  next block =>
    rw [if_pos block] at rest
    obtain ⟨rfl, head⟩ := block
    obtain ⟨cs, rfl⟩ := List.head?_eq_some_iff.1 head
    obtain ⟨free, -⟩ | ⟨note, split, free⟩ := dropBlock_cases cs
    · exact .unclosed free
    · rw [split]
      exact .block free rest
  next block =>
  rw [if_neg block] at rest
  split at noCode
  · contradiction
  next quote =>
  rw [if_neg quote] at rest
  split at noCode
  · contradiction
  next escape =>
  rw [if_neg escape] at rest
  exact .blank (by simpa using noCode) rest

/-- A text of trivia holds no code. -/
lemma IsTrivia.afterCode_eq (h : IsTrivia cs) (rest : List Char) : afterCode rest cs = rest := by
  have skip {c : Char} {cs after : List Char} (reads : lexeme c cs = (false, after)) :
      afterCode rest (c :: cs) = afterCode rest after := by
    rw [afterCode, reads]
    rfl
  -- On the trivia, piece by piece: none of them changes where the code ended.
  induction h with
  | nil => rw [afterCode]
  | @blank c cs blank _ ih =>
    have reads : lexeme c cs = (false, cs) := by
      have mem := isAsciiBlank_eq_true_iff.1 blank
      have slash {p : Prop} : ¬(c = '/' ∧ p) := by
        rintro ⟨rfl, -⟩
        exact absurd mem (by decide)
      have quotes : ∀ d ∈ blanks, ¬ isQuote d = true := List.all_iff_forall_prop.mp (by decide)
      have quote : ¬ isQuote c = true := quotes c mem
      have escape : c ≠ '\\' := by
        rintro rfl
        exact absurd mem (by decide)
      rw [lexeme, if_neg slash, if_neg slash, if_neg quote, if_neg escape, blank, Bool.not_true]
    rw [skip reads, ih]
  | @line note cs free follows _ ih =>
    have stop : dropLine ('/' :: (note ++ cs)) = cs :=
      (dropLine_append ('/' :: note) (by simpa using free)).trans (dropLine_of_follows follows)
    have reads : lexeme '/' ('/' :: (note ++ cs)) = (false, cs) := congrArg (Prod.mk false) stop
    rw [skip reads, ih]
  | @block note cs free _ ih =>
    have reads : lexeme '/' ('*' :: (note ++ '*' :: '/' :: cs)) = (false, cs) :=
      congrArg (Prod.mk false) (dropBlock_of_closed free)
    rw [skip reads, ih]
  | @unclosed note free =>
    have reads : lexeme '/' ('*' :: note) = (false, []) :=
      congrArg (Prod.mk false) (dropBlock_of_free free)
    rw [skip reads, afterCode]

/-- **What a text keeps.** It is all trivia, or it ends in trivia after a text that is not empty and that
ends in code. -/
lemma afterCode_cases (rest cs : List Char) :
    (afterCode rest cs = rest ∧ IsTrivia cs) ∨
      ∃ kept, kept ≠ [] ∧ cs = kept ++ afterCode rest cs ∧ IsTrivia (afterCode rest cs) ∧
        ∀ r, afterCode r kept = [] := by
  fun_induction afterCode rest cs with
  | case1 rest => exact .inl ⟨rfl, .nil⟩
  | case2 rest c cs ih =>
    obtain ⟨front, split, stops⟩ := lexeme_stopsAlike c cs
    obtain ⟨same, trivia⟩ | ⟨kept, ne, keeps, trivia, ends⟩ := ih
    · by_cases code : (lexeme c cs).1 = true
      · have after : afterCode (if (lexeme c cs).1 then (lexeme c cs).2 else rest) (lexeme c cs).2 =
            (lexeme c cs).2 := same.trans (if_pos code)
        have last : lexeme c front = (true, []) := by
          have stop := stops [] (.nil _)
          rwa [List.append_nil, code] at stop
        rw [after]
        refine .inr ⟨c :: front, List.cons_ne_nil _ _, congrArg (c :: ·) split, trivia, fun r => ?_⟩
        rw [afterCode, last, if_pos rfl, afterCode]
      · exact .inl ⟨same.trans (if_neg code), .of_lexeme (Bool.eq_false_iff.2 code) trivia⟩
    · refine .inr ⟨c :: (front ++ kept), List.cons_ne_nil _ _, ?_, trivia, fun r => ?_⟩
      · rw [List.cons_append, List.append_assoc]
        exact congrArg (c :: ·) (split.trans (congrArg (front ++ ·) keeps))
      · have alike : Follows kept (lexeme c cs).2 := by
          have begins := Follows.of_append kept
            (afterCode (if (lexeme c cs).1 then (lexeme c cs).2 else rest) (lexeme c cs).2)
          exact keeps ▸ begins
        rw [afterCode, stops kept alike]
        exact ends _

/-- What is trimmed off stands at the end. -/
lemma trimTrailing_append (cs : List Char) : trimTrailing cs ++ afterCode cs cs = cs := by
  have suffix : afterCode cs cs <:+ cs := by
    obtain ⟨none, -⟩ | ⟨kept, -, keeps, -⟩ := afterCode_cases cs cs
    · exact ⟨[], none⟩
    · exact ⟨kept, keeps.symm⟩
  calc trimTrailing cs ++ afterCode cs cs
      = cs.take (cs.length - (afterCode cs cs).length) ++
          cs.drop (cs.length - (afterCode cs cs).length) :=
        congrArg (trimTrailing cs ++ ·) (List.suffix_iff_eq_drop.1 suffix)
    _ = cs := List.take_append_drop _ cs

/-- The loop over the bytes never cuts inside a character, and keeps the same. -/
lemma trimBytes?_bytes (cs : List Char) : trimBytes? (bytes cs) = some (bytes (trimTrailing cs)) := by
  have whole : bytes cs = bytes (trimTrailing cs) ++ bytes (afterCode cs cs) := by
    rw [← bytes_append, trimTrailing_append]
  have kept : (bytes cs).take ((bytes cs).length - (bytes (afterCode cs cs)).length) =
      bytes (trimTrailing cs) := by
    rw [whole, List.length_append, Nat.add_sub_cancel, List.take_left]
  rw [trimBytes?, afterCodeBytes?_bytes, Option.bind_some, if_pos (isBoundary_bytes _), kept]

/-- **Trimming takes trivia off the end, and all of it at once.** The loop over the bytes never cuts
inside a character; what is kept is the text without some trivia at its end, keeps everything when it is
trimmed again, and is empty only for a text of trivia. -/
theorem trimTrailing_spec (cs : List Char) :
    trimBytes? (bytes cs) = some (bytes (trimTrailing cs)) ∧
      (∃ trivia, IsTrivia trivia ∧ cs = trimTrailing cs ++ trivia) ∧
      trimTrailing (trimTrailing cs) = trimTrailing cs ∧
      (trimTrailing cs = [] ↔ IsTrivia cs) := by
  have split := trimTrailing_append cs
  refine ⟨trimBytes?_bytes cs, ?_⟩
  obtain ⟨all, trivia⟩ | ⟨kept, ne, keeps, trivia, ends⟩ := afterCode_cases cs cs
  · have empty : trimTrailing cs = [] := by rw [trimTrailing, all, Nat.sub_self, List.take_zero]
    rw [empty]
    exact ⟨⟨cs, trivia, rfl⟩, List.take_nil, iff_of_true rfl trivia⟩
  · have same : trimTrailing cs = kept := List.append_cancel_right (split.trans keeps)
    rw [same]
    refine ⟨⟨_, trivia, keeps⟩, ?_, iff_of_false ne fun whole => ?_⟩
    · rw [trimTrailing, ends, List.length_nil, Nat.sub_zero, List.take_length]
    · have none : trimTrailing cs = [] := by
        rw [trimTrailing, whole.afterCode_eq, Nat.sub_self, List.take_zero]
      exact ne (same.symm.trans none)

end ScriptTyping.Scan
