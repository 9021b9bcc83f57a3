import ScriptTyping.Proofs.Peg.Idle
import ScriptTyping.Proofs.Peg.Yield

/-!
# The tokens of a match

A match where gaps are skipped is made of tokens: what its rules without gaps cover, the texts that its
other rules ask for as they stand, and the gaps between them. `Lexes` follows the evaluation and lists
them. Their texts make up the text of the match (`Lexes.row`, `Row.leads`), and the trees that the match
leaves have a stretch of its tokens each (`Lexes.trees`).
-/

namespace ScriptTyping.Peg

variable {R : Type} {g : Grammar R}

/-- A token of a text, or the gap between two tokens. -/
inductive Token (R : Type) where
  /-- What a rule without gaps covers. -/
  | word (rule : R) (text : List Char)
  /-- A text that a rule with gaps asks for. -/
  | sign (text : List Char)
  /-- Blanks and comments. -/
  | gap (text : List Char)

namespace Token

/-- The text of a token or a gap. -/
def text : Token R → List Char
  | word _ cs | sign cs | gap cs => cs

/-- Whether it is no token. -/
def isGap : Token R → Bool
  | gap _ => true
  | _ => false

/-- The text that tokens make up. -/
def textOf (ts : List (Token R)) : List Char :=
  ts.flatMap text

@[simp] lemma textOf_nil : textOf ([] : List (Token R)) = [] := rfl

@[simp] lemma textOf_cons (t : Token R) (ts : List (Token R)) :
    textOf (t :: ts) = t.text ++ textOf ts := rfl

@[simp] lemma textOf_append (ts us : List (Token R)) : textOf (ts ++ us) = textOf ts ++ textOf us :=
  List.flatMap_append

/-- A token is read from one place to another. -/
inductive Stands (g : Grammar R) : Token R → Cursor → Cursor → Prop where
  | word {r c q} :
    g.kind r = .atomic ∨ g.kind r = .compound →
    Reads g .outset (.once (.call r)) c (some q) →
    Stands g (.word r (c.upTo q.place)) c q.place
  | sign {cs c d} :
    c.Leads cs d →
    Stands g (.sign cs) c d
  | gap {c q} :
    Reads g .outset (.once .gap) c (some q) →
    Stands g (.gap (c.upTo q.place)) c q.place

lemma Stands.leads {t : Token R} {c d : Cursor} (h : t.Stands g c d) : c.Leads t.text d := by
  cases h with
  | word _ reads =>
    obtain ⟨cs, l⟩ := reads.leads
    rwa [text, l.upTo]
  | sign l => exact l
  | gap reads =>
    obtain ⟨cs, l⟩ := reads.leads
    rwa [text, l.upTo]

end Token

/-- Tokens are read one after the other, from one place to another. -/
inductive Row (g : Grammar R) : List (Token R) → Cursor → Cursor → Prop where
  | nil {c} : Row g [] c c
  | cons {t ts c d e} : t.Stands g c d → Row g ts d e → Row g (t :: ts) c e

namespace Row

variable {ts us : List (Token R)} {t : Token R} {c d e : Cursor}

lemma one (h : t.Stands g c d) : Row g [t] c d :=
  .cons h .nil

lemma append (h₁ : Row g ts c d) (h₂ : Row g us d e) : Row g (ts ++ us) c e := by
  induction h₁ with
  | nil => exact h₂
  | cons here _ ih => exact .cons here (ih h₂)

lemma leads (h : Row g ts c d) : c.Leads (Token.textOf ts) d := by
  induction h with
  | nil => exact .refl _
  | cons here _ ih => exact here.leads.trans ih

/-- Tokens may be told in two parts. -/
lemma split (h : Row g (ts ++ us) c e) : ∃ d, Row g ts c d ∧ Row g us d e := by
  induction ts generalizing c with
  | nil => exact ⟨c, .nil, h⟩
  | cons t ts ih =>
    cases h with
    | cons here rest =>
      obtain ⟨d, first, second⟩ := ih rest
      exact ⟨d, .cons here first, second⟩

end Row

/-- The tokens of a match, in their order. A gap after which nothing more is read does not belong to it. -/
inductive Lexes (g : Grammar R) : Task R → Cursor → Match R → List (Token R) → Prop where
  | empty {c} :
    Lexes g (.once .empty) c ⟨c, [], none⟩ []
  | text {cs c d} :
    c.skip? cs = some d →
    Lexes g (.once (.text cs)) c ⟨d, [], if cs = [] then none else some d.index⟩ [.sign cs]
  | char {p i x xs} :
    p x = true →
    Lexes g (.once (.char p)) ⟨i, x :: xs⟩ ⟨⟨i + 1, xs⟩, [], some (i + 1)⟩ [.sign [x]]
  | finish {i} :
    Lexes g (.once .finish) ⟨i, []⟩ ⟨⟨i, []⟩, [], none⟩ []
  | gap {c q} :
    Reads g .outset (.once .gap) c (some q) →
    Lexes g (.once .gap) c q [.gap (c.upTo q.place)]
  | seq {a b c q₁ q₂ q₃ ts₁ ts₂ ts₃} :
    Lexes g (.once a) c q₁ ts₁ →
    Lexes g (.once .gap) q₁.place q₂ ts₂ →
    Lexes g (.once b) q₂.place q₃ ts₃ →
    Lexes g (.once (.seq a b)) c ⟨q₃.place, q₁.trees ++ q₃.trees, q₃.stop.or q₁.stop⟩
      (ts₁ ++ ts₂ ++ ts₃)
  | choiceFirst {a b c q ts} :
    Lexes g (.once a) c q ts →
    Lexes g (.once (.choice a b)) c q ts
  | choiceSecond {a b c q ts} :
    Reads g .outset (.once a) c none →
    Lexes g (.once b) c q ts →
    Lexes g (.once (.choice a b)) c q ts
  | optSome {a c q ts} :
    Lexes g (.once a) c q ts →
    Lexes g (.once (.opt a)) c q ts
  | optNone {a c} :
    Reads g .outset (.once a) c none →
    Lexes g (.once (.opt a)) c ⟨c, [], none⟩ []
  | starSome {a c q₁ q₂ ts₁ ts₂} :
    Lexes g (.once a) c q₁ ts₁ →
    Lexes g (.again a) q₁.place q₂ ts₂ →
    Lexes g (.once (.star a)) c ⟨q₂.place, q₁.trees ++ q₂.trees, q₂.stop.or q₁.stop⟩ (ts₁ ++ ts₂)
  | starNone {a c} :
    Reads g .outset (.once a) c none →
    Lexes g (.once (.star a)) c ⟨c, [], none⟩ []
  | againSome {a c q₁ q₂ q₃ ts₁ ts₂ ts₃} :
    Lexes g (.once .gap) c q₁ ts₁ →
    Lexes g (.once a) q₁.place q₂ ts₂ →
    Lexes g (.again a) q₂.place q₃ ts₃ →
    Lexes g (.again a) c ⟨q₃.place, q₂.trees ++ q₃.trees, q₃.stop.or q₂.stop⟩ (ts₁ ++ ts₂ ++ ts₃)
  | againNone {a c q} :
    Reads g .outset (.once .gap) c (some q) →
    Reads g .outset (.once a) q.place none →
    Lexes g (.again a) c ⟨c, [], none⟩ []
  | ahead {a c q} :
    Reads g Mode.outset.wanting (.once a) c (some q) →
    Lexes g (.once (.ahead a)) c ⟨c, [], none⟩ []
  | notAhead {a c} :
    Reads g Mode.outset.refusing (.once a) c none →
    Lexes g (.once (.notAhead a)) c ⟨c, [], none⟩ []
  | silent {r c q ts} :
    g.kind r = .silent →
    Lexes g (.once (g.body r)) c q ts →
    Lexes g (.once (.call r)) c q ts
  | normal {r c q ts} :
    g.kind r = .normal →
    Lexes g (.once (g.body r)) c q ts →
    Lexes g (.once (.call r)) c
      ⟨q.place, [.node r c.index (c.upTo q.place) q.trees], q.stop⟩ ts
  | word {r c q} :
    g.kind r = .atomic ∨ g.kind r = .compound →
    Reads g .outset (.once (.call r)) c (some q) →
    Lexes g (.once (.call r)) c q [.word r (c.upTo q.place)]

variable {k : Task R} {c : Cursor} {q : Match R} {ts : List (Token R)}

/-- What is told in tokens is read. -/
lemma Lexes.reads (h : Lexes g k c q ts) : Reads g .outset k c (some q) := by
  induction h with
  | empty => exact .empty
  | text skip => exact .text skip
  | char hx => exact .char hx
  | finish => exact .finish
  | gap reads => exact reads
  | seq _ _ _ ih₁ ih₂ ih₃ => exact .seq ih₁ ih₂ ih₃
  | choiceFirst _ ih => exact .choiceFirst ih
  | choiceSecond fails _ ih => exact .choiceSecond fails ih
  | optSome _ ih => exact .optSome ih
  | optNone fails => exact .optNone fails
  | starSome _ _ ih₁ ih₂ => exact .starSome ih₁ ih₂
  | starNone fails => exact .starNone fails
  | againSome _ _ _ ih₁ ih₂ ih₃ => exact .againSome ih₁ ih₂ ih₃
  | againNone gap fails => exact .againNone gap fails
  | ahead reads => exact .ahead reads
  | notAhead fails => exact .notAhead fails
  | silent quiet _ ih => exact .silent quiet ih
  | @normal r c q _ kind _ ih =>
    have inner : Reads g (Mode.outset.within (g.kind r)) (.once (g.body r)) c (some q) := by
      rw [kind]
      exact ih
    have called := Reads.call (by simp [kind]) inner
    rwa [kind] at called
  | word _ reads => exact reads

/-- A match where gaps are skipped is told in tokens. -/
theorem Reads.exists_lexes (h : Reads g .outset k c (some q)) : ∃ ts, Lexes g k c q ts := by
  -- The mode stays the outermost one down to a word, which is told as a whole.
  generalize mode : Mode.outset = m at h
  generalize o : some q = r at h
  induction h generalizing q
  case empty => cases o; exact ⟨_, .empty⟩
  case text skip => cases o; exact ⟨_, .text skip⟩
  case char hx => cases o; exact ⟨_, .char hx⟩
  case finish => cases o; exact ⟨_, .finish⟩
  case gap normal h _ => subst mode; cases o; exact ⟨_, .gap (.gap normal h)⟩
  case tight tight => subst mode; exact absurd rfl tight
  case seq ih₁ ih₂ ih₃ =>
    cases o
    obtain ⟨_, l₁⟩ := ih₁ mode rfl
    obtain ⟨_, l₂⟩ := ih₂ mode rfl
    obtain ⟨_, l₃⟩ := ih₃ mode rfl
    exact ⟨_, .seq l₁ l₂ l₃⟩
  case choiceFirst ih =>
    obtain ⟨_, l⟩ := ih mode o
    exact ⟨_, .choiceFirst l⟩
  case choiceSecond fails _ _ ih =>
    obtain ⟨_, l⟩ := ih mode o
    exact ⟨_, .choiceSecond (mode ▸ fails) l⟩
  case optSome ih =>
    obtain ⟨_, l⟩ := ih mode o
    exact ⟨_, .optSome l⟩
  case optNone fails _ => cases o; exact ⟨_, .optNone (mode ▸ fails)⟩
  case starSome ih₁ ih₂ =>
    cases o
    obtain ⟨_, l₁⟩ := ih₁ mode rfl
    obtain ⟨_, l₂⟩ := ih₂ mode rfl
    exact ⟨_, .starSome l₁ l₂⟩
  case starNone fails _ => cases o; exact ⟨_, .starNone (mode ▸ fails)⟩
  case againSome ih₁ ih₂ ih₃ =>
    cases o
    obtain ⟨_, l₁⟩ := ih₁ mode rfl
    obtain ⟨_, l₂⟩ := ih₂ mode rfl
    obtain ⟨_, l₃⟩ := ih₃ mode rfl
    exact ⟨_, .againSome l₁ l₂ l₃⟩
  case againNone gap fails _ _ => cases o; exact ⟨_, .againNone (mode ▸ gap) (mode ▸ fails)⟩
  case ahead reads _ => subst mode; cases o; exact ⟨_, .ahead reads⟩
  case notAhead fails _ => subst mode; cases o; exact ⟨_, .notAhead fails⟩
  case silent quiet _ ih =>
    obtain ⟨_, l⟩ := ih mode o
    exact ⟨_, .silent quiet l⟩
  case call r _ q loud h ih =>
    subst mode
    cases o
    cases kind : g.kind r with
    | silent => exact absurd kind loud
    | normal =>
      rw [kind] at ih
      obtain ⟨_, l⟩ := ih (q := q) rfl rfl
      exact ⟨_, .normal kind l⟩
    | atomic => exact ⟨_, .word (.inl kind) (kind ▸ .call loud h)⟩
    | compound => exact ⟨_, .word (.inr kind) (kind ▸ .call loud h)⟩
  all_goals cases o

/-- The tokens of a match are read one after the other, from its beginning to its end. -/
lemma Lexes.row (h : Lexes g k c q ts) : Row g ts c q.place := by
  induction h with
  | text skip => exact .one (.sign (Cursor.leads_of_skip? skip))
  | char _ => exact .one (.sign ⟨rfl, rfl⟩)
  | gap reads => exact .one (.gap reads)
  | seq _ _ _ ih₁ ih₂ ih₃ => exact (ih₁.append ih₂).append ih₃
  | choiceFirst _ ih => exact ih
  | choiceSecond _ _ ih => exact ih
  | optSome _ ih => exact ih
  | starSome _ _ ih₁ ih₂ => exact ih₁.append ih₂
  | againSome _ _ _ ih₁ ih₂ ih₃ => exact (ih₁.append ih₂).append ih₃
  | silent _ _ ih => exact ih
  | normal _ _ ih => exact ih
  | word kind reads => exact .one (.word kind reads)
  | _ => exact .nil

/-- A match with a last token has a token that is no gap. -/
lemma Lexes.exists_token (h : Lexes g k c q ts) (stop : q.stop ≠ none) : ∃ t ∈ ts, t.isGap = false := by
  -- A part that has an end has a token, and of two parts the later end counts.
  have either {o o' : Option Nat} {us vs : List (Token R)} (stop : o'.or o ≠ none)
      (first : o ≠ none → ∃ t ∈ us, t.isGap = false) (second : o' ≠ none → ∃ t ∈ vs, t.isGap = false) :
      ∃ t ∈ us ++ vs, t.isGap = false := by
    by_cases none : o' = none
    · rw [none, Option.none_or] at stop
      obtain ⟨t, ht, solid⟩ := first stop
      exact ⟨t, List.mem_append_left _ ht, solid⟩
    · obtain ⟨t, ht, solid⟩ := second none
      exact ⟨t, List.mem_append_right _ ht, solid⟩
  induction h with
  | text _ => exact ⟨_, List.mem_singleton_self _, rfl⟩
  | char _ => exact ⟨_, List.mem_singleton_self _, rfl⟩
  | gap reads =>
    cases reads with
    | gap _ _ => exact absurd rfl stop
    | tight _ => exact absurd rfl stop
  | seq _ _ _ ih₁ _ ih₃ =>
    refine either stop (fun stop => ?_) ih₃
    obtain ⟨t, ht, solid⟩ := ih₁ stop
    exact ⟨t, List.mem_append_left _ ht, solid⟩
  | choiceFirst _ ih => exact ih stop
  | choiceSecond _ _ ih => exact ih stop
  | optSome _ ih => exact ih stop
  | starSome _ _ ih₁ ih₂ => exact either stop ih₁ ih₂
  | againSome _ _ _ _ ih₂ ih₃ =>
    refine either stop (fun stop => ?_) ih₃
    obtain ⟨t, ht, solid⟩ := ih₂ stop
    exact ⟨t, List.mem_append_right _ ht, solid⟩
  | silent _ _ ih => exact ih stop
  | normal _ _ ih => exact ih stop
  | word _ _ => exact ⟨_, List.mem_singleton_self _, rfl⟩
  | _ => exact absurd rfl stop

/-- Every text that an expression asks for itself is of a class, and every rule that it calls is known. It
asks for no class of characters. -/
def Expr.asks (ok : List Char → Bool) (known : R → Bool) : Expr R → Bool
  | .text cs => ok cs
  | .char _ => false
  | .seq a b | .choice a b => a.asks ok known && b.asks ok known
  | .opt a | .star a => a.asks ok known
  | .call r => known r
  | _ => true

/-- A sign is a text that some rule asks for. -/
lemma Lexes.sign_of_mem {ok : List Char → Bool} {known : R → Bool}
    (asks : ∀ r, known r = true → g.kind r = .normal ∨ g.kind r = .silent →
      (g.body r).asks ok known = true)
    (h : Lexes g k c q ts) (here : k.expr.asks ok known = true) {cs : List Char}
    (mem : .sign cs ∈ ts) : ok cs = true := by
  induction h with
  | text _ =>
    cases List.mem_singleton.1 mem
    exact here
  | char _ => cases here
  | gap _ => cases List.mem_singleton.1 mem
  | seq _ _ _ ih₁ ih₂ ih₃ =>
    obtain ⟨ha, hb⟩ := Bool.and_eq_true_iff.1 here
    rw [List.mem_append, List.mem_append, or_assoc] at mem
    exact mem.elim (ih₁ ha) (Or.elim · (ih₂ rfl) (ih₃ hb))
  | choiceFirst _ ih => exact ih (Bool.and_eq_true_iff.1 here).1 mem
  | choiceSecond _ _ ih => exact ih (Bool.and_eq_true_iff.1 here).2 mem
  | optSome _ ih => exact ih here mem
  | starSome _ _ ih₁ ih₂ => exact (List.mem_append.1 mem).elim (ih₁ here) (ih₂ here)
  | againSome _ _ _ ih₁ ih₂ ih₃ =>
    rw [List.mem_append, List.mem_append, or_assoc] at mem
    exact mem.elim (ih₁ rfl) (Or.elim · (ih₂ here) (ih₃ here))
  | silent quiet _ ih => exact ih (asks _ here (.inr quiet)) mem
  | normal kind _ ih => exact ih (asks _ here (.inl kind)) mem
  | word _ _ => cases List.mem_singleton.1 mem
  | _ => cases mem

/-- The tokens of a tree in a source: those of its match, or itself where it is a token. -/
def Tree.Lexed (g : Grammar R) (source : List Char) (t : Tree R) (ts : List (Token R)) : Prop :=
  t.text = Token.textOf ts ∧
    ((g.kind t.rule = .normal ∧ ∃ q, t.children = q.trees ∧
        Lexes g (.once (g.body t.rule)) ⟨t.start, source.drop t.start⟩ q ts) ∨
      (g.kind t.rule = .atomic ∨ g.kind t.rule = .compound) ∧ ts = [.word t.rule t.text])

/-- The tokens of a match where gaps are skipped are those of what its rule stands for. -/
lemma Tree.Lexed.exists_lexes {source : List Char} {t : Tree R} (h : t.Lexed g source ts)
    (normal : g.kind t.rule = .normal) : ∃ q, t.children = q.trees ∧
      Lexes g (.once (g.body t.rule)) ⟨t.start, source.drop t.start⟩ q ts := by
  obtain ⟨-, ⟨-, found⟩ | ⟨tight, -⟩⟩ := h
  · exact found
  · rw [normal] at tight
    rcases tight with kind | kind
    all_goals cases kind

/-- A stretch of the tokens of a match is that of a tree. -/
def Tree.Among (g : Grammar R) (source : List Char) (t : Tree R) (i : Nat) (ts : List (Token R)) : Prop :=
  ∃ front own back, ts = front ++ own ++ back ∧ t.start = i + (Token.textOf front).length ∧
    t.Lexed g source own

lemma Tree.Among.append_left {source : List Char} {t : Tree R} {d : Cursor} {us : List (Token R)}
    (h : t.Among g source d.index ts) (leads : c.Leads (Token.textOf us) d) :
    t.Among g source c.index (us ++ ts) := by
  obtain ⟨front, own, back, rfl, start, lexed⟩ := h
  refine ⟨us ++ front, own, back, by simp, ?_, lexed⟩
  rw [start, leads.2, Token.textOf_append, List.length_append, Nat.add_assoc]

lemma Tree.Among.append_right {source : List Char} {t : Tree R} {i : Nat}
    (h : t.Among g source i ts) (us : List (Token R)) : t.Among g source i (ts ++ us) := by
  obtain ⟨front, own, back, rfl, start, lexed⟩ := h
  exact ⟨front, own, back ++ us, by simp, start, lexed⟩

/-- Each tree that a match leaves has a stretch of its tokens. -/
theorem Lexes.trees {source : List Char} (bare : g.blank.isBare = true) (h : Lexes g k c q ts)
    (w : c.Within source) : ∀ t ∈ q.trees, t.Among g source c.index ts := by
  induction h with
  | gap reads =>
    cases reads with
    | gap _ blanks =>
      have none := blanks.trees_eq_nil bare
      -- Gaps leave no trees.
      simp [none]
    | tight _ => simp
  | seq h₁ h₂ _ ih₁ _ ih₃ =>
    have w₂ := h₂.reads.within (h₁.reads.within w)
    refine List.forall_mem_append.2 ⟨fun t ht => ?_, fun t ht => ?_⟩
    · rw [List.append_assoc]
      exact (ih₁ w t ht).append_right _
    · exact (ih₃ w₂ t ht).append_left (h₁.row.append h₂.row).leads
  | choiceFirst _ ih => exact ih w
  | choiceSecond _ _ ih => exact ih w
  | optSome _ ih => exact ih w
  | starSome h₁ _ ih₁ ih₂ =>
    refine List.forall_mem_append.2 ⟨fun t ht => (ih₁ w t ht).append_right _, fun t ht => ?_⟩
    exact (ih₂ (h₁.reads.within w) t ht).append_left h₁.row.leads
  | againSome h₁ h₂ _ _ ih₂ ih₃ =>
    have w₁ := h₁.reads.within w
    refine List.forall_mem_append.2 ⟨fun t ht => ?_, fun t ht => ?_⟩
    · exact ((ih₂ w₁ t ht).append_left h₁.row.leads).append_right _
    · exact (ih₃ (h₂.reads.within w₁) t ht).append_left (h₁.row.append h₂.row).leads
  | silent _ _ ih => exact ih w
  | @normal r c q ts kind h _ =>
    obtain ⟨i, rest⟩ := c
    obtain ⟨here, -⟩ := w
    dsimp only at here
    subst here
    refine List.forall_mem_singleton.2 ⟨[], ts, [], by simp, rfl, ?_, .inl ⟨kind, q, rfl, h⟩⟩
    exact h.row.leads.upTo
  | @word r c q kind reads =>
    cases reads with
    | silent quiet => simp [quiet] at kind
    | @call _ _ _ q loud inner =>
      have builds : (Mode.outset.around (g.kind r)).builds = true := by
        rcases kind with kind | kind <;> simp [kind, Mode.around, Mode.builds, Mode.outset]
      rw [if_pos builds]
      let t : Tree R := .node r c.index (c.upTo q.place) q.trees
      refine List.forall_mem_singleton.2 ⟨[], [.word r t.text], [], rfl, rfl, ?_, .inr ⟨kind, rfl⟩⟩
      exact (List.append_nil _).symm
  | _ => simp

section Tight

variable {m : Mode} {a b : Expr R} (tight : m.atomicity ≠ .normal)

include tight

/-- Where gaps are not skipped, one part of a sequence begins where the one before it ends. -/
lemma Reads.seq_parts (h : Reads g m (.once (.seq a b)) c (some q)) :
    ∃ q₁ q₂, Reads g m (.once a) c (some q₁) ∧ Reads g m (.once b) q₁.place (some q₂) ∧
      q.place = q₂.place := by
  cases h with
  | seq first gap second =>
    cases gap with
    | gap normal _ => exact absurd normal tight
    | tight _ => exact ⟨_, _, first, second, rfl⟩

lemma Reads.again_back {P : Cursor → Prop} (h : Reads g m (.again a) c (some q))
    (step : ∀ {c q}, Reads g m (.once a) c (some q) → P q.place → P c) (last : P q.place) : P c := by
  generalize here : Task.again a = k at h
  generalize o : some q = r at h
  induction h generalizing q
  case againSome q₃ gap one _ _ _ ih =>
    cases o
    cases here
    have rest := ih (q := q₃) tight step last rfl rfl
    cases gap with
    | gap normal _ => exact absurd normal tight
    | tight _ => exact step one rest
  case againNone =>
    cases o
    exact last
  all_goals cases here

/-- What holds at the end of a repetition holds at its beginning, if it does not get lost from the end of
one time to the beginning of it. -/
lemma Reads.star_back {P : Cursor → Prop} (h : Reads g m (.once (.star a)) c (some q))
    (step : ∀ {c q}, Reads g m (.once a) c (some q) → P q.place → P c) (last : P q.place) : P c := by
  cases h with
  | starSome one more => exact step one (more.again_back tight step last)
  | starNone _ => exact last

end Tight

end ScriptTyping.Peg
