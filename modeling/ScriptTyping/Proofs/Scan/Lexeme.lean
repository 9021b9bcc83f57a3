import Mathlib.Tactic.Lemma
import ScriptTyping.Proofs.Scan.Depth
import ScriptTyping.Scan.Trailing

/-!
# Where lexemes end

Each scanner reads a part of its text and leaves the rest. What it reads does not depend on the whole
rest, but on its first character alone: put another text that begins like it in its place, or none, and
the scanner stops at the same point (`StopsAlike`). The same holds of a rough lexeme
(`lexeme_stopsAlike`) and of one step of the search for a bracket too many (`excess?_step`).
-/

namespace ScriptTyping.Scan

/-- A text is empty or begins like another one. -/
def Follows (es rest : List Char) : Prop :=
  ∀ x ∈ es.head?, x ∈ rest.head?

/-- A scanner leaves any text that may follow what it read here. -/
def StopsAlike (drop : List Char → List Char) (cs : List Char) : Prop :=
  ∃ front, cs = front ++ drop cs ∧ ∀ es, Follows es (drop cs) → drop (front ++ es) = es

variable {c : Char} {cs es front rest : List Char}

namespace Follows

lemma refl (cs : List Char) : Follows cs cs := fun _ h => h

lemma nil (rest : List Char) : Follows [] rest := fun _ h => absurd h (by simp)

lemma eq_nil (h : Follows es []) : es = [] := by
  cases es with
  | nil => rfl
  | cons e es => exact absurd (h e rfl) (by simp)

/-- The beginning of a text follows what the text follows. -/
lemma of_append (before ext : List Char) : Follows before (before ++ ext) := by
  cases before with
  | nil => exact nil ext
  | cons b before => exact fun _ h => h

lemma cons (c : Char) (es rest : List Char) : Follows (c :: es) (c :: rest) := fun _ h => h

/-- Texts that begin alike still do with the same text before them. -/
lemma append (front : List Char) (h : Follows es rest) : Follows (front ++ es) (front ++ rest) := by
  cases front with
  | nil => exact h
  | cons f front => exact cons f _ _

lemma head?_ne (h : Follows es rest) (ne : rest.head? ≠ some c) : es.head? ≠ some c :=
  fun here => ne (h c here)

end Follows

namespace StopsAlike

variable {drop drop' : List Char → List Char}

/-- A scanner that reads everything leaves nothing. -/
lemma of_eq_nil (h : drop cs = []) : StopsAlike drop cs := by
  refine ⟨cs, by rw [h, List.append_nil], fun es follows => ?_⟩
  rw [h] at follows
  rw [follows.eq_nil, List.append_nil, h]

/-- A scanner that stops behind the first character. -/
lemma behind (h : ∀ es, drop (c :: es) = es) : StopsAlike drop (c :: cs) :=
  ⟨[c], by rw [h]; rfl, fun es _ => h es⟩

/-- A scanner that goes on behind the first character. -/
lemma cons (steps : ∀ es, Follows es cs → drop (c :: es) = drop' es) (h : StopsAlike drop' cs) :
    StopsAlike drop (c :: cs) := by
  obtain ⟨front, split, stops⟩ := h
  have step : drop (c :: cs) = drop' cs := steps cs (.refl cs)
  refine ⟨c :: front, by rw [step, List.cons_append, ← split], fun es follows => ?_⟩
  rw [step] at follows
  have alike : Follows (front ++ es) cs := by
    rw [split]
    exact follows.append front
  rw [List.cons_append, steps _ alike, stops es follows]

/-- A scanner that takes the next character with the first one. -/
lemma escape {d : Char} (steps : ∀ es, drop (c :: es) = drop es.tail) (h : StopsAlike drop cs) :
    StopsAlike drop (c :: d :: cs) :=
  .cons (fun es _ => steps es) (h.cons fun _ _ => rfl)

/-- What a step answers that leaves its text to a scanner. -/
lemma exists_front {α : Type} (step answer : List Char → α) (h : StopsAlike drop cs)
    (eq : ∀ es, Follows es cs → step es = answer (drop es)) :
    ∃ front, cs = front ++ drop cs ∧ ∀ es, Follows es (drop cs) → step (front ++ es) = answer es := by
  obtain ⟨front, split, stops⟩ := h
  refine ⟨front, split, fun es follows => ?_⟩
  have alike : Follows (front ++ es) cs := by
    rw [split]
    exact follows.append front
  rw [eq _ alike, stops es follows]

end StopsAlike

section Scanners

lemma dropLine_of_follows (follows : Follows cs ['\n']) : dropLine cs = cs := by
  cases cs with
  | nil => rfl
  | cons c cs =>
    obtain rfl : c = '\n' := (Option.some.inj (follows c rfl)).symm
    rfl

lemma dropLine_stopsAlike (cs : List Char) : StopsAlike dropLine cs := by
  fun_induction dropLine cs with
  | case1 => exact .of_eq_nil rfl
  | case2 cs => exact ⟨[], rfl, fun es follows => dropLine_of_follows follows⟩
  | case3 c cs other ih => exact ih.cons fun es _ => dropLine.eq_3 c es other

lemma dropBlock_stopsAlike (cs : List Char) : StopsAlike dropBlock cs := by
  fun_induction dropBlock cs with
  | case1 => exact .of_eq_nil rfl
  | case2 cs => exact ⟨['*', '/'], rfl, fun es _ => rfl⟩
  | case3 c cs other ih =>
    refine ih.cons fun es alike => dropBlock.eq_3 c es fun rest star slash => ?_
    obtain ⟨ds, begins⟩ := List.head?_eq_some_iff.1 (alike '/' (by rw [slash]; rfl))
    exact other ds star begins

lemma dropQuoted_stopsAlike (quote : Char) (cs : List Char) : StopsAlike (dropQuoted quote) cs := by
  fun_induction dropQuoted quote cs with
  | case1 => exact .of_eq_nil rfl
  | case2 cs => exact .behind fun es => by rw [dropQuoted.eq_def]; simp
  | case3 other => exact .of_eq_nil (by simp [dropQuoted, other])
  | case4 d cs other ih =>
    exact ih.escape fun es => by cases es <;> simp [dropQuoted, other]
  | case5 c cs other notSlash ih =>
    exact ih.cons fun es _ => by rw [dropQuoted.eq_def]; simp [other, notSlash]

/-- One step inside a regular expression. -/
lemma dropPattern_cons {inBrackets : Bool} (feed : c ≠ '\n') :
    dropPattern inBrackets (c :: cs) =
      if c = '\\' then dropPattern inBrackets cs.tail
      else if c = '[' then dropPattern true cs
      else if c = ']' then dropPattern false cs
      else if c = '/' ∧ inBrackets = false then cs
      else dropPattern inBrackets cs := by
  rw [dropPattern.eq_def]
  split
  · contradiction
  · simp_all
  next heq =>
    obtain ⟨rfl, rfl⟩ := List.cons.inj heq
    cases cs <;> rfl

lemma dropPattern_stopsAlike (inBrackets : Bool) (cs : List Char) :
    StopsAlike (dropPattern inBrackets) cs := by
  fun_induction dropPattern inBrackets cs with
  | case1 => exact .of_eq_nil rfl
  | case2 inBrackets cs =>
    refine ⟨[], rfl, fun es follows => ?_⟩
    cases es with
    | nil => rfl
    | cons e es =>
      obtain rfl : '\n' = e := Option.some.inj (follows e rfl)
      rfl
  | case3 => exact .of_eq_nil rfl
  | case4 inBrackets d cs feed ih =>
    exact ih.escape fun es => by rw [dropPattern_cons feed, if_pos rfl]
  | case5 inBrackets cs feed _ ih =>
    exact ih.cons fun es _ => by rw [dropPattern_cons feed, if_neg (by decide), if_pos rfl]
  | case6 inBrackets cs feed _ _ ih =>
    exact ih.cons fun es _ => by
      rw [dropPattern_cons feed, if_neg (by decide), if_neg (by decide), if_pos rfl]
  | case7 inBrackets c cs feed escape opens ends closes =>
    exact .behind fun es => by
      rw [dropPattern_cons feed, if_neg escape, if_neg opens, if_neg ends, if_pos closes]
  | case8 inBrackets c cs feed escape opens ends closes ih =>
    exact ih.cons fun es _ => by
      rw [dropPattern_cons feed, if_neg escape, if_neg opens, if_neg ends, if_neg closes]

end Scanners

section Comments

/-- What is read of a line. -/
lemma dropLine_cases (cs : List Char) :
    ∃ note, cs = note ++ dropLine cs ∧ '\n' ∉ note ∧ Follows (dropLine cs) ['\n'] := by
  fun_induction dropLine cs with
  | case1 => exact ⟨[], rfl, List.not_mem_nil, .nil _⟩
  | case2 cs => exact ⟨[], rfl, List.not_mem_nil, .cons _ _ _⟩
  | case3 c cs other ih =>
    obtain ⟨note, split, free, follows⟩ := ih
    refine ⟨c :: note, congrArg (c :: ·) split, ?_, follows⟩
    rintro (_ | ⟨_, mem⟩)
    · exact other rfl
    · exact free mem

lemma dropLine_append (note : List Char) {ds : List Char} (free : '\n' ∉ note) :
    dropLine (note ++ ds) = dropLine ds := by
  induction note with
  | nil => rfl
  | cons x xs ih =>
    rw [List.cons_append, dropLine]
    · exact ih fun h => free (List.mem_cons_of_mem _ h)
    · rintro rfl
      exact free List.mem_cons_self

/-- What is read of a block comment: all of the text, or up to the first end. -/
lemma dropBlock_cases (cs : List Char) :
    (¬ ['*', '/'] <:+: cs ∧ dropBlock cs = []) ∨
      ∃ note, cs = note ++ '*' :: '/' :: dropBlock cs ∧ ¬ ['*', '/'] <:+: note ++ ['*'] := by
  fun_induction dropBlock cs with
  | case1 => exact .inl ⟨by decide, rfl⟩
  | case2 cs => exact .inr ⟨[], rfl, by decide⟩
  | case3 c cs other ih =>
    obtain ⟨free, all⟩ | ⟨note, split, free⟩ := ih
    · refine .inl ⟨fun inside => ?_, all⟩
      obtain ⟨ds, ends⟩ | inside := List.infix_cons_iff.1 inside
      · obtain ⟨star, slash⟩ := List.cons.inj ends
        exact other ds star.symm slash.symm
      · exact free inside
    · refine .inr ⟨c :: note, congrArg (c :: ·) split, fun inside => ?_⟩
      obtain ⟨ds, ends⟩ | inside := List.infix_cons_iff.1 inside
      · obtain ⟨star, slash⟩ := List.cons.inj ends
        cases note with
        | nil => exact absurd slash (by simp)
        | cons n note =>
          obtain ⟨rfl, -⟩ := List.cons.inj slash
          exact other _ star.symm split
      · exact free inside

lemma dropBlock_of_free (free : ¬ ['*', '/'] <:+: cs) : dropBlock cs = [] := by
  obtain ⟨-, all⟩ | ⟨note, split, -⟩ := dropBlock_cases cs
  · exact all
  · exact absurd ⟨note, dropBlock cs, by simpa using split.symm⟩ free

lemma dropBlock_of_closed {cs ds : List Char} (closed : ¬ ['*', '/'] <:+: cs ++ ['*']) :
    dropBlock (cs ++ '*' :: '/' :: ds) = ds := by
  induction cs with
  | nil => rfl
  | cons x xs ih =>
    have inner : ¬ ['*', '/'] <:+: xs ++ ['*'] :=
      fun inside => closed (inside.trans (List.suffix_cons x _).isInfix)
    rw [List.cons_append, dropBlock]
    · exact ih inner
    · rintro ys rfl e
      rcases xs with _ | ⟨y, ys'⟩
      · cases e
      · cases e
        exact closed ⟨[], ys' ++ ['*'], rfl⟩

end Comments

section Steps

lemma tail_stopsAlike (cs : List Char) : StopsAlike List.tail cs := by
  cases cs with
  | nil => exact .of_eq_nil rfl
  | cons c cs => exact .behind fun _ => rfl

lemma id_stopsAlike (cs : List Char) : StopsAlike id cs :=
  ⟨[], rfl, fun _ _ => rfl⟩

/-- Whether a comment begins shows in the first two characters. -/
lemma not_begins {d : Char} (follows : Follows es cs) (other : ¬(c = '/' ∧ cs.head? = some d)) :
    ¬(c = '/' ∧ es.head? = some d) :=
  fun h => follows.head?_ne (fun here => other ⟨h.1, here⟩) h.2

/-- A lexeme and what it is do not depend on what follows it. -/
lemma lexeme_stopsAlike (c : Char) (cs : List Char) :
    ∃ front, cs = front ++ (lexeme c cs).2 ∧
      ∀ es, Follows es (lexeme c cs).2 → lexeme c (front ++ es) = ((lexeme c cs).1, es) := by
  by_cases line : c = '/' ∧ cs.head? = some '/'
  · obtain ⟨rfl, head⟩ := line
    obtain ⟨cs, rfl⟩ := List.head?_eq_some_iff.1 head
    obtain ⟨front, split, stops⟩ := (dropLine_stopsAlike cs).exists_front
      (fun es => lexeme '/' ('/' :: es)) (Prod.mk false) fun es _ => rfl
    exact ⟨'/' :: front, congrArg ('/' :: ·) split, stops⟩
  by_cases block : c = '/' ∧ cs.head? = some '*'
  · obtain ⟨rfl, head⟩ := block
    obtain ⟨cs, rfl⟩ := List.head?_eq_some_iff.1 head
    obtain ⟨front, split, stops⟩ := (dropBlock_stopsAlike cs).exists_front
      (fun es => lexeme '/' ('*' :: es)) (Prod.mk false) fun es _ => rfl
    exact ⟨'*' :: front, congrArg ('*' :: ·) split, stops⟩
  -- Only the character behind a slash can make a comment of it, and this stays the same.
  have plain (es : List Char) (follows : Follows es cs) : lexeme c es =
      if isQuote c then (true, dropQuoted c es)
      else if c = '\\' then (true, es.tail)
      else (!Text.isAsciiBlank c, es) := by
    rw [lexeme, if_neg (not_begins follows line), if_neg (not_begins follows block)]
  rw [plain cs (.refl cs)]
  split
  next quote =>
    exact (dropQuoted_stopsAlike c cs).exists_front (lexeme c) (Prod.mk true) fun es follows => by
      rw [plain es follows, if_pos quote]
  next quote =>
  split
  next escape =>
    exact (tail_stopsAlike cs).exists_front (lexeme c) (Prod.mk true) fun es follows => by
      rw [plain es follows, if_neg quote, if_pos escape]
  next escape =>
    exact (id_stopsAlike cs).exists_front (lexeme c) (Prod.mk (!Text.isAsciiBlank c)) fun es follows => by
      rw [plain es follows, if_neg quote, if_neg escape, id]

variable {last : Char} {depth : Nat}

/-- A bracket that opens a level is the one that is searched for, or counts for one level more. -/
lemma excess?_opener (opens : c ∈ openers) (limit : Nat) (cs : List Char) :
    excess? limit last depth (c :: cs) =
      if limit < depth + 1 then some (c :: cs) else excess? limit c (depth + 1) cs := by
  have slash {p : Prop} : ¬(c = '/' ∧ p) := by
    rintro ⟨rfl, -⟩
    exact absurd opens (by decide)
  have quotes : ∀ d ∈ openers, ¬ isQuote d = true := List.all_iff_forall_prop.mp (by decide)
  have quote : ¬ isQuote c = true := quotes c opens
  rw [excess?, if_neg slash, if_neg slash, if_neg slash, if_neg quote]
  exact if_pos opens

/-- Whether a lexeme takes the search on, however many levels may be open. -/
def GoesOn (last : Char) (depth : Nat) (c : Char) (cs : List Char) : Prop :=
  ∃ front rest last' depth', cs = front ++ rest ∧ ∀ es, Follows es rest → ∀ limit,
    excess? limit last depth (c :: (front ++ es)) = excess? limit last' depth' es

lemma GoesOn.of_stopsAlike {drop : List Char → List Char} {last' : Char} {depth' : Nat}
    (before : List Char) (h : StopsAlike drop cs)
    (eq : ∀ es, Follows es cs → ∀ limit,
      excess? limit last depth (c :: (before ++ es)) = excess? limit last' depth' (drop es)) :
    GoesOn last depth c (before ++ cs) := by
  obtain ⟨front, split, stops⟩ := h.exists_front
    (fun es limit => excess? limit last depth (c :: (before ++ es)))
    (fun es limit => excess? limit last' depth' es) fun es follows => funext (eq es follows)
  refine ⟨before ++ front, drop cs, last', depth', by rw [List.append_assoc, ← split], ?_⟩
  intro es follows limit
  rw [List.append_assoc]
  exact congrFun (stops es follows) limit

/-- **A step of the search.** A bracket that opens a level may end it; any other lexeme takes it on, and
what the lexeme is does not depend on what follows it. -/
lemma goesOn_of_notMem (last : Char) (depth : Nat) (cs : List Char) (closed : c ∉ openers) :
    GoesOn last depth c cs := by
  by_cases line : c = '/' ∧ cs.head? = some '/'
  · obtain ⟨rfl, head⟩ := line
    obtain ⟨cs, rfl⟩ := List.head?_eq_some_iff.1 head
    exact .of_stopsAlike ['/'] (dropLine_stopsAlike cs) fun es _ limit => by
      rw [List.singleton_append, excess?, if_pos ⟨rfl, rfl⟩]
      rfl
  by_cases block : c = '/' ∧ cs.head? = some '*'
  · obtain ⟨rfl, head⟩ := block
    obtain ⟨cs, rfl⟩ := List.head?_eq_some_iff.1 head
    exact .of_stopsAlike ['*'] (dropBlock_stopsAlike cs) fun es _ limit => by
      rw [List.singleton_append, excess?, if_neg (by simp), if_pos ⟨rfl, rfl⟩, List.tail_cons]
  -- Only the character behind a slash can make a comment of it, and this stays the same.
  have plain (es : List Char) (follows : Follows es cs) (limit : Nat) :
      excess? limit last depth (c :: es) =
        if c = '/' ∧ last ∈ beforePattern then excess? limit '/' depth (dropPattern false es)
        else if isQuote c then excess? limit c depth (dropQuoted c es)
        else if c ∈ enders then excess? limit c (depth - 1) es
        else excess? limit (if Text.isAsciiBlank c then last else c) depth es := by
    rw [excess?, if_neg (not_begins follows line), if_neg (not_begins follows block)]
    rw [if_neg (show c ∉ ['(', '[', '\x7b'] from closed)]
    rfl
  by_cases pattern : c = '/' ∧ last ∈ beforePattern
  · exact .of_stopsAlike [] (dropPattern_stopsAlike false cs) fun es follows limit => by
      rw [List.nil_append, plain es follows, if_pos pattern]
  by_cases quote : isQuote c = true
  · exact .of_stopsAlike [] (dropQuoted_stopsAlike c cs) fun es follows limit => by
      rw [List.nil_append, plain es follows, if_neg pattern, if_pos quote]
  by_cases ends : c ∈ enders
  · exact .of_stopsAlike [] (id_stopsAlike cs) fun es follows limit => by
      rw [List.nil_append, plain es follows, if_neg pattern, if_neg quote, if_pos ends, id]
  · exact .of_stopsAlike [] (id_stopsAlike cs) fun es follows limit => by
      rw [List.nil_append, plain es follows, if_neg pattern, if_neg quote, if_neg ends, id]

end Steps

end ScriptTyping.Scan
