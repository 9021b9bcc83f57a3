import ScriptTyping.Proofs.Grammar.Spelling
import ScriptTyping.Proofs.Reading.Places

/-!
# Where words end

A place is parted if no word goes on across it. Every token ends at a parted place (`seals_body`), and so
do blanks and comments (`gap_parted`). What an expression makes of the places around its parts is told by
a walk through it (`Stance.through`): a reserved word is looked for before its text is read, so that it
is read whole, but a word that is a mere text may be the beginning of a longer one. After such a word
stands a string, or, in the items of imports and exports that give a new name, this name. All other
matches begin at parted places (`placed_of_child`).
-/

namespace ScriptTyping.Peg

variable {R : Type} {g : Grammar R}

/-- Where gaps are not skipped, what is repeated does not match at the end of a repetition. -/
lemma Reads.star_no_more {m : Mode} {e : Expr R} {c : Cursor} {q : Match R}
    (tight : m.atomicity ≠ .normal) (h : Reads g m (.once (.star e)) c (some q)) :
    Reads g m (.once e) q.place none := by
  cases h with
  | starSome _ more => exact (more.no_more tight :)
  | starNone none => exact none

/-- The place where a tree begins. -/
def Tree.place (source : List Char) (t : Tree R) : Cursor :=
  ⟨t.start, source.drop t.start⟩

/-- A place in a source is told by its index. -/
lemma Cursor.Within.eq {c : Cursor} {source : List Char} (h : c.Within source) :
    ⟨c.index, source.drop c.index⟩ = c := by
  rw [← h.1]

/-- The text before a place grows by what leads on from it. -/
lemma Cursor.Within.take_leads {c d : Cursor} {cs source : List Char} (h : c.Within source)
    (l : c.Leads cs d) : source.take d.index = source.take c.index ++ cs := by
  rw [l.2, List.take_add, ← h.1, l.1, List.take_left]

end ScriptTyping.Peg

namespace ScriptTyping.Grammar
open Peg Peg.Expr

/-- No word goes on across a place: of the characters beside it not both may go on an identifier. -/
def Parted (source : List Char) (c : Cursor) : Prop :=
  ∀ x ∈ (source.take c.index).getLast?, isIdentPart x = true → c.Stops isIdentPart

section Places

variable {source cs : List Char} {c d : Cursor} {m : Mode} {q : Match Rule}

lemma parted_start (source : List Char) : Parted source ⟨0, source⟩ := by
  intro x hx
  simp at hx

lemma parted_of_stops (stops : c.Stops isIdentPart) : Parted source c :=
  fun _ _ _ => stops

/-- A place after a character that goes on no word is parted. -/
lemma parted_of_leads (w : c.Within source) (l : c.Leads cs d)
    (last : cs.getLast?.any (fun x => !isIdentPart x) = true) : Parted source d := by
  obtain ⟨x, hx, other⟩ := (Option.any_eq_true _ _).1 last
  intro y hy part
  rw [w.take_leads l, List.getLast?_append, hx, Option.some_or] at hy
  cases hy
  simp [part] at other

/-- Where a class of characters is not read, none of them follows. -/
lemma stops_of_fails {p : Char → Bool} (h : Reads language m (.once (.char p)) c none) :
    c.Stops p := by
  cases h with
  | charFail other => exact Cursor.stops_of_cons rfl other
  | charEnd => exact Cursor.stops_of_nil rfl

lemma isIdentPart_of_isBlank {x : Char} (h : isBlank x = true) : isIdentPart x = false := by
  cases part : isIdentPart x with
  | false => rfl
  | true =>
    have solid := Reading.isSolid_of_isIdentPart part
    simp [Reading.isSolid, h] at solid

/-- A line break goes on no word. -/
lemma stops_of_newline (h : Reads language m (.once newline) c (some q)) : c.Stops isIdentPart := by
  have text {x : Char} {xs : List Char} (other : isIdentPart x = false)
      (h : Reads language m (.once (.text (x :: xs))) c (some q)) : c.Stops isIdentPart := by
    cases h with
    | text skip => exact Cursor.stops_of_cons (Cursor.leads_of_skip? skip).1 other
  cases h with
  | choiceFirst h => exact text (by decide) h
  | choiceSecond _ h =>
    cases h with
    | choiceFirst h => exact text (by decide) h
    | choiceSecond _ h => exact text (by decide) h

/-- A comment of one line ends where the line does. -/
lemma line_parted (tight : m.atomicity ≠ .normal)
    (h : Reads language m (.once (.seq (.text cs) (.star (anyBut newline)))) c (some q)) :
    Parted source q.place := by
  cases h with
  | seq _ _ more =>
    refine parted_of_stops ?_
    cases more.star_no_more tight with
    | seqFirst ahead =>
      cases ahead with
      | notAheadFail line => exact stops_of_newline line
    | seqSecond ahead gap any =>
      cases ahead
      cases gap with
      | gap normal _ => exact absurd normal tight
      | tight _ => exact (stops_of_fails any).mono fun _ _ => rfl

/-- A blank or a comment ends at a parted place. -/
lemma blank_parted (tight : m.atomicity ≠ .normal) (w : c.Within source)
    (h : Reads language m (.once blank) c (some q)) : Parted source q.place := by
  cases h with
  | choiceFirst h =>
    cases h with
    | @char _ _ i x xs hx =>
      have l : Cursor.Leads ⟨i, x :: xs⟩ [x] ⟨i + 1, xs⟩ := ⟨rfl, rfl⟩
      exact parted_of_leads w l (by simp [isIdentPart_of_isBlank hx])
  | choiceSecond _ h =>
    cases h with
    | choiceFirst h =>
      cases h with
      | seq h₁ h₂ h₃ =>
        have w₂ := h₂.within (h₁.within w)
        cases h₃ with
        | seq h₃ h₄ h₅ =>
          have w₄ := h₄.within (h₃.within w₂)
          cases h₅ with
          | text skip => exact parted_of_leads w₄ (Cursor.leads_of_skip? skip) (by decide)
    | choiceSecond _ h =>
      cases h with
      | choiceFirst h => exact line_parted tight h
      | choiceSecond _ h => exact line_parted tight h

/-- Further times of what ends at parted places end at one. -/
lemma again_parted {e : Peg.Expr Rule}
    (each : ∀ {c q}, c.Within source → Reads language m (.once e) c (some q) → Parted source q.place)
    (w : c.Within source) (parted : Parted source c) (h : Reads language m (.again e) c (some q)) :
    Parted source q.place := by
  generalize k : Task.again e = t at h
  generalize o : some q = r at h
  induction h generalizing q
  case againSome h₁ h₂ h₃ _ _ ih =>
    cases k
    cases o
    have w₁ := h₁.within w
    exact (ih each (h₂.within w₁) (each w₁ h₂) rfl rfl :)
  case againNone =>
    cases o
    exact parted
  all_goals cases k

/-- Blanks and comments, if there are any, end at a parted place. -/
lemma gap_parted (w : c.Within source) (h : Reads language m (.once .gap) c (some q)) :
    q.place = c ∨ Parted source q.place := by
  cases h with
  | tight _ => exact .inl rfl
  | gap _ h =>
    have tight : Atomicity.atomic ≠ .normal := by simp
    cases h with
    | starNone _ => exact .inl rfl
    | starSome first more =>
      have w₁ := first.within w
      exact .inr (again_parted (blank_parted tight) w₁ (blank_parted tight w first) more :)

end Places

section Tokens

/-- Whatever a token reads ends at a parted place. -/
structure Seals (e : Peg.Expr Rule) : Prop where
  parted : ∀ {source : List Char} {m : Mode} {c : Cursor} {q : Match Rule}, m.atomicity ≠ .normal →
    c.Within source → Reads language m (.once e) c (some q) → Parted source q.place

variable {a b e : Peg.Expr Rule} {es : List (Peg.Expr Rule)}

lemma Seals.second (h : Seals b) : Seals (.seq a b) := by
  refine ⟨fun {source m c q} tight w reads => ?_⟩
  cases reads with
  | seq h₁ h₂ h₃ => exact (h.parted tight (h₂.within (h₁.within w)) h₃ :)

/-- What only must not follow reads nothing. -/
lemma Seals.first (h : Seals a) : Seals (.seq a (.notAhead b)) := by
  refine ⟨fun {source m c q} tight w reads => ?_⟩
  cases reads with
  | seq h₁ h₂ h₃ =>
    cases h₃
    cases h₂ with
    | gap normal _ => exact absurd normal tight
    | tight _ => exact (h.parted tight w h₁ :)

lemma Seals.choice (ha : Seals a) (hb : Seals b) : Seals (.choice a b) := by
  refine ⟨fun {source m c q} tight w reads => ?_⟩
  cases reads with
  | choiceFirst h => exact ha.parted tight w h
  | choiceSecond _ h => exact hb.parted tight w h

lemma Seals.oneOf (h : ∀ e ∈ es, Seals e) : Seals (oneOf es) := by
  induction es with
  | nil =>
    refine ⟨fun {source m c q} tight w reads => ?_⟩
    cases reads with
    | notAhead fails => cases fails
  | cons e es ih =>
    cases es with
    | nil => exact h e List.mem_cons_self
    | cons e' es => exact (h e List.mem_cons_self).choice (ih fun a ha => h a (List.mem_cons_of_mem e ha))

lemma seals_text {cs : List Char} (last : cs.getLast?.any (fun x => !isIdentPart x) = true) :
    Seals (.text cs) := by
  refine ⟨fun {source m c q} tight w reads => ?_⟩
  cases reads with
  | text skip => exact parted_of_leads w (Cursor.leads_of_skip? skip) last

/-- Texts that each end in a sign. -/
lemma seals_tokens {ws : List String}
    (last : ws.all (fun w => w.toList.getLast?.any (fun x => !isIdentPart x)) = true) :
    ∀ e ∈ ws.map token, Seals e :=
  List.forall_mem_map.2 fun w hw => seals_text (List.all_eq_true.1 last w hw)

/-- Where no word goes on, none does. -/
lemma seals_notPart : Seals (.notAhead identPart) := by
  refine ⟨fun {source m c q} tight w reads => ?_⟩
  cases reads with
  | notAhead fails => exact parted_of_stops (stops_of_fails fails)

/-- A word is read to its end. -/
lemma seals_parts : Seals (.star identPart) := by
  refine ⟨fun {source m c q} tight w reads => ?_⟩
  exact parted_of_stops (stops_of_fails (reads.star_no_more tight))

lemma seals_wholeWord (words : List String) : Seals (wholeWord words) :=
  seals_notPart.second

lemma seals_butNot {operator : String} {others : List String}
    (last : operator.toList.getLast?.any (fun x => !isIdentPart x) = true) :
    Seals (butNot operator others) :=
  (seals_text last).first

lemma seals_quoted {quote : String}
    (last : quote.toList.getLast?.any (fun x => !isIdentPart x) = true) : Seals (quoted quote) :=
  (seals_text last).second.second

lemma seals_operators (level : Precedence) : Seals (operators level) := by
  cases level
  case logicalOr => exact ((seals_text (by decide)).choice (seals_text (by decide))).first
  case equality =>
    have signs : ∀ e ∈ ["===", "!==", "==", "!="].map token, Seals e := seals_tokens (by decide)
    exact .oneOf signs
  case relational =>
    exact ((seals_text (by decide)).choice (seals_text (by decide))).choice
      ((seals_butNot (by decide)).choice
        ((seals_butNot (by decide)).choice (seals_wholeWord ["instanceof", "in"])))
  case shift =>
    exact (seals_butNot (by decide)).choice
      ((seals_butNot (by decide)).choice (seals_butNot (by decide)))
  case additive => exact (seals_butNot (by decide)).choice (seals_butNot (by decide))
  case multiplicative =>
    exact (seals_butNot (by decide)).choice ((seals_butNot (by decide)).choice
      ((seals_butNot (by decide)).choice (seals_butNot (by decide))))
  all_goals exact seals_butNot (by decide)

/-- Every token ends at a parted place. -/
theorem seals_body {r : Rule} (atomic : kind r = .atomic) : Seals (body r) := by
  cases r
  case identifier => exact seals_parts.second.second
  case propertyIdentifier => exact seals_parts.second
  case privateIdentifier => exact seals_parts.second.second
  case bigint => exact seals_notPart.second.second
  case number => exact seals_notPart.second
  case string => exact (seals_quoted (by decide)).choice (seals_quoted (by decide))
  case templateLiteral => exact (seals_text (by decide)).second.second
  case regex => exact seals_parts.second.second.second.second
  case assignmentOperator =>
    exact .oneOf (List.forall_mem_cons.2 ⟨seals_butNot (by decide), seals_tokens (by decide)⟩)
  case binaryOperator level => exact seals_operators level
  case unaryOperator =>
    exact .oneOf (List.forall_mem_append.2
      ⟨seals_tokens (by decide), List.forall_mem_singleton.2 (seals_wholeWord _)⟩)
  case updateSuffix => exact (seals_text (by decide)).choice (seals_text (by decide))
  all_goals first
    | exact seals_wholeWord _
    | cases atomic

end Tokens

/-- The rules in which a word that is a mere text stands before a new name. -/
def renames : Rule → Bool
  | .namespaceImport | .importSpecifier | .exportSpecifier | .exportAll => true
  | _ => false

/-- What is known of a place: that it is parted, that a reserved word stands there whole, or that it is
parted unless a text stands directly before it that began at a parted place. -/
inductive Stance where
  | clear
  | reserved
  | after (cs : List Char)
  deriving DecidableEq

namespace Stance

/-- What is known after the evaluation of an expression, from what is known before it, if that allows
the rules in it to be called. Only strings and, where it is said so, names may be called directly after
a text. -/
def through (renames : Bool) : Peg.Expr Rule → Stance → Option Stance
  | .empty, s | .finish, s => some s
  | .text cs, clear =>
    some (if cs.getLast?.any (fun x => !isIdentPart x) then clear else after cs)
  | .text cs, reserved =>
    if cs.all isIdentPart && reservedWords.all fun w => !cs.isPrefixOf w.toList || w.toList == cs then
      some clear
    else none
  | .seq a b, s => (through renames a s).bind (through renames b)
  | .choice a b, s =>
    (through renames a s).bind fun t => if through renames b s = some t then some t else none
  | .opt a, clear =>
    match through renames a clear with
    | some clear => some clear
    | some (after cs) => some (after cs)
    | _ => none
  | .star a, clear => if through renames a clear = some clear then some clear else none
  | .ahead (.call r), clear => if r = .keyword then some reserved else none
  | .call r, clear => if kind r = .silent then none else some clear
  | .call r, after cs =>
    if r = .string ∨ renames = true ∧ isName r = true ∧ cs = "as".toList then some clear else none
  | _, _ => none

/-- Whatever is called in the expressions of the rules begins at a parted place, or after such a text,
and it ends at a parted place. -/
lemma through_body {r : Rule} (normal : kind r = .normal) :
    through (renames r) (body r) clear = some clear := by
  have each : ∀ r ∈ Rule.all, kind r = .normal → through (renames r) (body r) clear = some clear := by
    decide +kernel
  exact each r (Rule.mem_all r) normal

end Stance

/-- A text stands directly before a place, and it began at a parted place. -/
def Behind (source cs : List Char) (c : Cursor) : Prop :=
  ∃ d : Cursor, d.Within source ∧ Parted source d ∧ d.Leads cs c

/-- What a stance says of a place. -/
def Stance.Holds (source : List Char) (c : Cursor) : Stance → Prop
  | clear => Parted source c
  | reserved => ∃ w ∈ reservedWords, ∃ d, c.Leads w.toList d ∧ d.Stops isIdentPart
  | after cs => Parted source c ∨ Behind source cs c

/-- A match begins at a parted place, or directly after a text: if it is a string, or if it is a name and
may be a new one. -/
def Placed (source : List Char) (renames : Bool) (t : Peg.Tree Rule) : Prop :=
  Parted source (t.place source) ∨ t.rule = .string ∨
    renames = true ∧ isName t.rule = true ∧ Behind source "as".toList (t.place source)

section Stances

variable {source : List Char} {c d : Cursor} {m : Mode} {q : Match Rule} {s s' : Stance}

/-- What a name of a property is made of is a word. -/
lemma isWord_of_spells {cs : List Char} (h : Spells propertyIdentifier cs) : isWord cs = true := by
  obtain ⟨_, _, rfl, ⟨x, rfl, start⟩, css, rfl, each⟩ := h
  simp only [isWord, List.singleton_append, Bool.and_eq_true, List.all_eq_true]
  refine ⟨start, fun y hy => ?_⟩
  obtain ⟨cs, hcs, hy⟩ := List.mem_flatten.1 hy
  obtain ⟨z, rfl, part⟩ := each cs hcs
  rwa [List.mem_singleton.1 hy]

/-- A word that is no identifier is found whole. -/
lemma reads_keyword (h : Reads language m (.once (.call .keyword)) c (some q)) :
    ∃ w ∈ reservedWords, ∃ d, c.Leads w.toList d ∧ d.Stops isIdentPart := by
  cases h with
  | silent kind _ => cases kind
  | call _ h =>
    have tight : (m.within (language.kind .keyword)).atomicity ≠ .normal := by
      simp [language, kind, Mode.within]
    cases h with
    | seq words gap last =>
      obtain fails | ⟨w, hw, q', reads, leads⟩ := reads_words (m := m.within (language.kind .keyword))
        (c := c) reservedWords
      · cases fails.unique words
      · cases reads.unique words
        cases gap with
        | gap normal _ => exact absurd normal tight
        | tight _ =>
          cases last with
          | notAhead fails => exact ⟨w, hw, _, leads, stops_of_fails fails⟩

/-- A reserved word that stands whole is read as one: of two such words the one that begins the other
stands after it in the list. -/
lemma reads_of_reserved {w : String} (reserved : w ∈ reservedWords) (leads : c.Leads w.toList d)
    (stops : d.Stops isIdentPart) : ∃ q, Reads language m (.once (.call .keyword)) c (some q) := by
  have order : reservedWords.Pairwise fun v w => ¬ v.toList <+: w.toList := by decide
  have parts : ∀ v ∈ reservedWords, v.toList.all isIdentPart = true := by decide
  obtain ⟨before, after, whole⟩ := List.append_of_mem reserved
  have fails : ∀ e ∈ before.map token, ∀ m, Reads language m (.once e) c none := by
    refine List.forall_mem_map.2 fun v hv m => ?_
    cases skip : c.skip? v.toList with
    | none => exact .textFail skip
    | some e =>
      have shorter : ¬ v.toList <+: w.toList :=
        (List.pairwise_append.1 (whole ▸ order)).2.2 v hv w List.mem_cons_self
      have prefix₁ : v.toList <+: c.rest := ⟨_, (Cursor.leads_of_skip? skip).1.symm⟩
      have prefix₂ : w.toList <+: c.rest := ⟨_, leads.1.symm⟩
      obtain ⟨xs, longer⟩ := (List.prefix_or_prefix_of_prefix prefix₁ prefix₂).resolve_left shorter
      cases xs with
      | nil => exact absurd ⟨[], by rw [← longer, List.append_nil, List.append_nil]⟩ shorter
      | cons x xs =>
        obtain ⟨rest, here⟩ := prefix₁
        rw [leads.1, ← longer, List.append_assoc] at here
        have other := stops x _ (List.append_cancel_left here).symm
        have part := List.all_eq_true.1 (parts v (by rw [whole]; simp [hv])) x
          (by rw [← longer]; simp)
        rw [part] at other
        cases other
  obtain ⟨stop, reads⟩ := Reads.text_of_leads (g := language)
    (m := m.within .atomic) leads
  have word : Reads language (m.within .atomic) (.once (oneOf (reservedWords.map token))) c
      (some { place := d, trees := [], stop }) := by
    rw [whole, List.map_append, List.map_cons]
    exact .oneOf_append (fun e he => fails e he _) reads.oneOf_first
  have tight : (m.within .atomic).atomicity ≠ .normal := by simp [Mode.within]
  exact ⟨_, .call (by decide) (.seq word (.tight tight) (.notAhead (char_fails stops)))⟩

/-- The text of a reserved word that begins no other one leads to its end. -/
lemma stops_of_reserved {cs : List Char} (holds : Stance.reserved.Holds source c)
    (parts : cs.all isIdentPart = true)
    (alone : (reservedWords.all fun w => !cs.isPrefixOf w.toList || w.toList == cs) = true)
    (l : c.Leads cs d) : d.Stops isIdentPart := by
  obtain ⟨w, hw, e, leads, stops⟩ := holds
  have both : w.toList ++ e.rest = cs ++ d.rest := leads.1.symm.trans l.1
  rcases List.append_eq_append_iff.1 both with ⟨as, longer, after⟩ | ⟨as, shorter, after⟩
  · cases as with
    | nil =>
      rw [List.append_nil] at longer
      subst longer
      rw [l.unique leads]
      exact stops
    | cons a as =>
      have part : isIdentPart a = true := List.all_eq_true.1 parts a (by simp [longer])
      rw [stops a _ after] at part
      cases part
  · have told := List.all_eq_true.1 alone w hw
    have begins : cs.isPrefixOf w.toList = true :=
      List.isPrefixOf_iff_prefix.2 (shorter ▸ List.prefix_append cs as)
    rw [begins, Bool.not_true, Bool.false_or, beq_iff_eq] at told
    subst told
    rw [l.unique leads]
    exact stops

/-- Blanks and comments keep what is known. -/
lemma Stance.Holds.gap (holds : s.Holds source c) (w : c.Within source)
    (h : Reads language m (.once .gap) c (some q)) : s.Holds source q.place := by
  cases s with
  | reserved =>
    obtain ⟨k, hk, d, leads, stops⟩ := id holds
    have letter : ∀ w ∈ reservedWords, w.toList.head?.any Char.isAlpha = true := by decide
    obtain ⟨x, first, alpha⟩ := (Option.any_eq_true _ _).1 (letter k hk)
    obtain ⟨xs, text⟩ := List.head?_eq_some_iff.1 first
    have rest : c.rest = x :: (xs ++ d.rest) := by rw [leads.1, text, List.cons_append]
    rw [Reading.gap_place h rest alpha]
    exact holds
  | clear =>
    obtain same | parted := gap_parted w h
    · rw [same]
      exact holds
    · exact parted
  | after cs =>
    obtain same | parted := gap_parted w h
    · rw [same]
      exact holds
    · exact .inl parted

/-- A statement with a keyword of its own reads this word whole, then perhaps spaces and a label, and
then perhaps a semicolon. -/
lemma jump_reads {w : String} (tight : m.atomicity ≠ .normal)
    (h : Reads language m (.once (jump w)) c (some q)) :
    ∃ d label last, c.Leads w.toList d ∧ d.Stops isIdentPart ∧
      Reads language m (.once (.opt (.seq inlineSpace (.call .identifier)))) d (some label) ∧
      Reads language m (.once (.opt (.seq (.opt inlineSpace) (token ";")))) label.place (some last) ∧
      q.place = last.place ∧ q.trees = label.trees := by
  have here {c : Cursor} {q : Match Rule} (h : Reads language m (.once .gap) c (some q)) :
      q.place = c := by
    cases h with
    | gap normal _ => exact absurd normal tight
    | tight _ => rfl
  cases h with
  | seq word gap₁ h =>
    cases word with
    | text skip =>
      rw [here gap₁] at h
      cases h with
      | seq whole gap₂ h =>
        cases whole with
        | notAhead fails =>
          rw [here gap₂] at h
          cases h with
          | seq label gap₃ last =>
            rw [here gap₃] at last
            refine ⟨_, _, _, Cursor.leads_of_skip? skip, stops_of_fails fails, label, last, rfl, ?_⟩
            rw [last.trees_eq_nil rfl]
            simp

lemma seals_inlineSpace : Seals inlineSpace := by
  refine ⟨fun {source m c q} tight w reads => ?_⟩
  have space {c : Cursor} {q : Match Rule} (w : c.Within source)
      (h : Reads language m (.once (charIn [' ', '\t'])) c (some q)) : Parted source q.place := by
    cases h with
    | @char _ _ i x xs hx =>
      have l : Cursor.Leads ⟨i, x :: xs⟩ [x] ⟨i + 1, xs⟩ := ⟨rfl, rfl⟩
      have other : [' ', '\t'].all (isIdentPart · = false) = true := by decide
      have blank := of_decide_eq_true (List.all_eq_true.1 other x (of_decide_eq_true hx))
      exact parted_of_leads w l (by simp [blank])
  cases reads with
  | seq first gap more =>
    have w₁ := first.within w
    cases gap with
    | gap normal _ => exact absurd normal tight
    | tight _ =>
      cases more with
      | starNone _ => exact (space w first :)
      | starSome one more =>
        exact (again_parted space (one.within w₁) (space w₁ one) more :)

/-- A statement with a keyword of its own ends at a parted place, and so begins its label. -/
lemma jump_parted {w : String} (builds : m.builds = true) (tight : m.atomicity ≠ .normal)
    (within : c.Within source) (h : Reads language m (.once (jump w)) c (some q)) :
    Parted source q.place ∧ ∀ t ∈ q.trees, Parted source (t.place source) := by
  obtain ⟨d, label, last, leads, stops, labelled, ended, place, trees⟩ := jump_reads tight h
  have w₁ := within.leads leads
  have labels : Parted source label.place ∧ ∀ t ∈ label.trees, Parted source (t.place source) := by
    cases labelled with
    | optNone _ => exact ⟨parted_of_stops stops, by simp⟩
    | optSome h =>
      cases h with
      | @seq _ _ _ _ q₁ q₂ q₃ space gap name =>
        -- Blanks end at a boundary, and the label begins there.
        have begins : Parted source q₂.place := by
          cases gap with
          | gap normal _ => exact absurd normal tight
          | tight _ => exact (seals_inlineSpace.parted tight w₁ space :)
        have w₂ := gap.within (space.within w₁)
        have bare : q₁.trees = [] := space.trees_eq_nil rfl
        cases name with
        | silent kind _ => cases kind
        | @call _ _ _ q₃ _ name =>
          have tight' : (m.within (language.kind .identifier)).atomicity ≠ .normal := by
            simp [language, kind, Mode.within]
          have ends := (seals_body (r := .identifier) rfl).parted tight' w₂ name
          refine ⟨ends, ?_⟩
          have builds' : (m.around (language.kind .identifier)).builds = true := builds
          rw [bare, if_pos builds', List.nil_append]
          refine List.forall_mem_singleton.2 ?_
          rw [Tree.place, Tree.start, w₂.eq]
          exact begins
  rw [place, trees]
  refine ⟨?_, labels.2⟩
  cases ended with
  | optNone _ => exact labels.1
  | optSome h =>
    have seals : Seals (.seq (.opt inlineSpace) (token ";")) := (seals_text (by decide)).second
    exact seals.parted tight (labelled.within w₁) h

lemma around_builds {m : Mode} (builds : m.builds = true) (k : RuleKind) :
    (m.around k).builds = true := by
  cases k
  case compound =>
    simp only [Mode.builds, decide_eq_true_eq] at builds ⊢
    exact ⟨builds.1, by simp [Mode.around]⟩
  all_goals exact builds

/-- The rules that keep their label on the line of their keyword. -/
lemma exists_jump {r : Rule} (compound : kind r = .compound) : ∃ w, body r = jump w := by
  cases r
  case breakStatement => exact ⟨"break", rfl⟩
  case continueStatement => exact ⟨"continue", rfl⟩
  all_goals cases compound

namespace Stance

variable {renames : Bool}

lemma through_text {cs : List Char} (walk : through renames (.text cs) s = some s')
    (holds : s.Holds source c) (w : c.Within source) (l : c.Leads cs d) : s'.Holds source d := by
  cases s with
  | clear =>
    obtain rfl := Option.some.inj walk
    split
    · rename_i sign
      exact parted_of_leads w l sign
    · exact .inr ⟨c, w, holds, l⟩
  | reserved =>
    rw [through] at walk
    split at walk
    · rename_i told
      obtain ⟨parts, alone⟩ := Bool.and_eq_true_iff.1 told
      cases walk
      exact parted_of_stops (stops_of_reserved holds parts alone l)
    · cases walk
  | after _ => cases walk

/-- A rule is called at a parted place, or where a string or a new name may stand. -/
lemma through_call {r : Rule} (walk : through renames (.call r) s = some s')
    (holds : s.Holds source c) : s' = clear ∧ kind r ≠ .silent ∧
      (Parted source c ∨ kind r = .atomic ∧
        (r = .string ∨ renames = true ∧ isName r = true ∧ Behind source "as".toList c)) := by
  cases s with
  | clear =>
    rw [through] at walk
    split at walk
    · cases walk
    · rename_i loud
      exact ⟨(Option.some.inj walk).symm, loud, .inl holds⟩
  | reserved => cases walk
  | after cs =>
    rw [through] at walk
    split at walk
    · rename_i may
      refine ⟨(Option.some.inj walk).symm, ?_⟩
      rcases may with rfl | ⟨new, name, rfl⟩
      · exact ⟨nofun, .inr ⟨rfl, .inl rfl⟩⟩
      · have atomic := kind_of_isName name
        refine ⟨by simp [atomic], ?_⟩
        exact holds.imp id fun behind => ⟨atomic, .inr ⟨new, name, behind⟩⟩
    · cases walk

/-- Only reserved words are looked for ahead. -/
lemma through_ahead {a : Peg.Expr Rule} (walk : through renames (.ahead a) s = some s') :
    a = .call .keyword ∧ s = clear ∧ s' = reserved := by
  cases a
  case call r =>
    cases s with
    | clear =>
      rw [through] at walk
      split at walk
      · rename_i word
        exact ⟨by rw [word], rfl, (Option.some.inj walk).symm⟩
      · cases walk
    | _ => cases walk
  all_goals
    cases s
    all_goals cases walk

/-- What may be left out keeps a place parted, or leads to one after a text. -/
lemma through_opt {a : Peg.Expr Rule} (walk : through renames (.opt a) s = some s') :
    s = clear ∧ through renames a clear = some s' ∧
      ∀ {source c}, Parted source c → s'.Holds source c := by
  cases s with
  | clear =>
    rw [through] at walk
    split at walk
    · rename_i inner
      cases walk
      exact ⟨rfl, inner, id⟩
    · rename_i inner
      cases walk
      exact ⟨rfl, inner, .inl⟩
    · cases walk
  | _ => cases walk

lemma through_star {a : Peg.Expr Rule} (walk : through renames (.star a) s = some s') :
    s = clear ∧ s' = clear ∧ through renames a clear = some clear := by
  cases s with
  | clear =>
    rw [through] at walk
    split at walk
    · exact ⟨rfl, (Option.some.inj walk).symm, ‹_›⟩
    · cases walk
  | _ => cases walk

/-- What is known of a place before an evaluation leads to what is known after it, and the matches that
it leaves begin where they may. -/
theorem holds_of_reads {k : Peg.Task Rule} (builds : m.builds = true)
    (w : c.Within source) (walk : through renames k.expr s = some s') (holds : s.Holds source c)
    (h : Reads language m k c (some q)) :
    s'.Holds source q.place ∧ ∀ t ∈ q.trees, Placed source renames t := by
  generalize o : some q = r at h
  -- On the reading; the walk over the expression says at each step where words may meet.
  induction h generalizing q s s' renames
  case empty =>
    cases o
    obtain rfl := Option.some.inj walk
    exact ⟨holds, by simp⟩
  case text skip =>
    cases o
    exact ⟨through_text walk holds w (Cursor.leads_of_skip? skip), by simp⟩
  case finish =>
    cases o
    obtain rfl := Option.some.inj walk
    exact ⟨holds, by simp⟩
  case seq h₁ h₂ _ ih₁ _ ih₃ =>
    cases o
    obtain ⟨t, walk₁, walk₂⟩ := Option.bind_eq_some_iff.1 walk
    have w₁ := h₁.within w
    obtain ⟨holds₁, trees₁⟩ := ih₁ builds w walk₁ holds rfl
    obtain ⟨holds₃, trees₃⟩ := ih₃ builds (h₂.within w₁) walk₂ (holds₁.gap w₁ h₂) rfl
    exact ⟨holds₃, List.forall_mem_append.2 ⟨trees₁, trees₃⟩⟩
  case choiceFirst ih =>
    obtain ⟨t, walk₁, walk₂⟩ := Option.bind_eq_some_iff.1 walk
    split at walk₂
    · cases walk₂
      exact ih builds w walk₁ holds o
    · cases walk₂
  case choiceSecond ih =>
    obtain ⟨t, walk₁, walk₂⟩ := Option.bind_eq_some_iff.1 walk
    split at walk₂
    · rename_i same
      cases walk₂
      exact ih builds w same holds o
    · cases walk₂
  case optSome ih =>
    obtain ⟨rfl, inner, -⟩ := through_opt walk
    exact ih builds w inner holds o
  case optNone =>
    cases o
    obtain ⟨rfl, -, stays⟩ := through_opt walk
    exact ⟨stays holds, by simp⟩
  case starSome h₁ _ ih₁ ih₂ =>
    cases o
    obtain ⟨rfl, rfl, inner⟩ := through_star walk
    obtain ⟨holds₁, trees₁⟩ := ih₁ builds w inner holds rfl
    obtain ⟨holds₂, trees₂⟩ := ih₂ builds (h₁.within w) walk holds₁ rfl
    exact ⟨holds₂, List.forall_mem_append.2 ⟨trees₁, trees₂⟩⟩
  case starNone =>
    cases o
    obtain ⟨rfl, rfl, -⟩ := through_star walk
    exact ⟨holds, by simp⟩
  case againSome h₁ h₂ _ _ ih₂ ih₃ =>
    cases o
    obtain ⟨rfl, rfl, inner⟩ := through_star walk
    have w₁ := h₁.within w
    obtain ⟨holds₂, trees₂⟩ := ih₂ builds w₁ inner (holds.gap w h₁) rfl
    obtain ⟨holds₃, trees₃⟩ := ih₃ builds (h₂.within w₁) walk holds₂ rfl
    exact ⟨holds₃, List.forall_mem_append.2 ⟨trees₂, trees₃⟩⟩
  case againNone =>
    cases o
    obtain ⟨rfl, rfl, -⟩ := through_star walk
    exact ⟨holds, by simp⟩
  -- The only look ahead on the walk is the one for a keyword.
  case ahead h _ =>
    cases o
    obtain ⟨rfl, rfl, rfl⟩ := through_ahead walk
    exact ⟨reads_keyword h, by simp⟩
  case silent silent _ _ =>
    obtain ⟨-, loud, -⟩ := through_call walk holds
    exact absurd silent loud
  case call m r c q loud h ih =>
    cases o
    obtain ⟨rfl, -, stands⟩ := through_call walk holds
    have builds' : (m.around (language.kind r)).builds = true := around_builds builds (kind r)
    refine ⟨?_, ?_⟩
    -- A token ends at a boundary by its spelling, and any other match by what is in it.
    · cases k : kind r with
      | silent => exact absurd k loud
      | atomic =>
        rw [show language.kind r = .atomic from k] at h
        have sealed := (seals_body k).parted (m := m.within .atomic) (by simp [Mode.within]) w h
        exact sealed
      | normal =>
        rw [show language.kind r = .normal from k] at ih
        have parted := stands.resolve_right fun token => by simp [k] at token
        exact (ih (s := .clear) builds w (through_body k) parted rfl).1
      | compound =>
        obtain ⟨word, jumps⟩ := exists_jump k
        rw [show language.kind r = .compound from k] at h builds'
        rw [show language.body r = jump word from jumps] at h
        have ends := jump_parted (m := m.within .compound) builds' (by simp [Mode.within]) w h
        exact ends.1
    · rw [if_pos builds']
      refine List.forall_mem_singleton.2 ?_
      rw [Placed, Tree.place, Tree.start, w.eq]
      exact stands.imp id fun token => token.2.imp id id
  all_goals cases o
  all_goals
    cases s
    all_goals cases walk

end Stance

end Stances

section Trees

variable {source : List Char} {t u v : Peg.Tree Rule}

/-- The matches inside a match that begins at a parted place begin where they may. -/
lemma placed_of_child (h : t.IsRead language source) (here : Parted source (t.place source))
    (hu : u ∈ t.children) : Placed source (renames t.rule) u := by
  obtain ⟨le, loud, m, q, builds, reads, -, below⟩ := id h
  rw [below] at hu
  have within : (t.place source).Within source := ⟨rfl, le⟩
  cases k : kind t.rule with
  | silent => exact absurd k loud
  | atomic =>
    have none : q.trees = [] := by
      rw [← below]
      exact children_of_atomic h k
    rw [none] at hu
    cases hu
  | normal =>
    rw [show language.kind t.rule = .normal from k] at builds reads
    exact (Stance.holds_of_reads (s := .clear) builds within (Stance.through_body k) here reads).2 u hu
  | compound =>
    obtain ⟨word, jumps⟩ := exists_jump k
    rw [show language.kind t.rule = .compound from k] at builds reads
    rw [show language.body t.rule = jump word from jumps] at reads
    exact .inl ((jump_parted (m := m.within .compound) builds (by simp [Mode.within]) within reads).2 u hu)

end Trees

end ScriptTyping.Grammar
