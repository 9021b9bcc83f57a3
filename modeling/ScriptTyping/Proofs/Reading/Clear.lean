import ScriptTyping.Proofs.Peg.Fresh
import ScriptTyping.Proofs.Reading.Boundaries

/-!
# Matches begin with code

No blank and no comment begins where a match below the program does (`clear_of_match`). Where gaps are
skipped, the gap before it was read to its end. The labels of jumps are read without gaps, but they are
names, and no blank or comment begins as these do.
-/

namespace ScriptTyping.Reading
open Peg Grammar Peg.Expr Script

variable {source : List Char} {t u : Peg.Tree Rule} {c : Cursor}

/-- No blank and no comment begins at a place. -/
def IsCode (c : Cursor) : Prop :=
  Reads language ⟨.atomic, .none⟩ (.once language.blank) c none

/-- Where no gap is left to skip, there is code. -/
lemma isCode_of_atRest (rest : AtRest language .outset c) : IsCode c := by
  obtain ⟨o, blanks⟩ := ranking.exists_reads (m := ⟨.atomic, .none⟩) (e := .star blank) (c := c) rfl
  cases blanks with
  | starNone fails => exact fails
  | @starSome _ _ _ q₁ q₂ one others =>
    exfalso
    have gap := Reads.gap (m := .outset) rfl (.starSome one others)
    have here := congrArg Cursor.index (rest _ gap)
    have lt := one.index_lt consumes_body rfl
    have le := others.index_le
    dsimp only at here
    omega

/-- A name begins with code. -/
lemma isCode_of_identifier (h : t.IsRead language source) (rule : t.rule = .identifier) :
    IsCode (t.place source) := by
  have spelled := h.spells (by rw [rule]; rfl)
  rw [rule] at spelled
  obtain ⟨_, _, text, rfl, _, _, rfl, ⟨x, rfl, start⟩, -⟩ := spelled
  have here : (t.place source).rest = source.drop t.start := rfl
  obtain ⟨rest, follows⟩ : t.text <+: source.drop t.start := h.text_eq.1 ▸ List.take_prefix _ _
  rw [text] at follows
  refine shut_of_solid (here.trans follows.symm) ?_ _ (by simp)
  exact isSolid_of_isIdentPart (isIdentPart_of_isIdentStart start)

/-- A match begins with code, and so do all that are inside it. -/
def Clear (source : List Char) (t : Peg.Tree Rule) : Prop :=
  ∀ u : Peg.Tree Rule, u.Under t → IsCode (u.place source)

lemma Clear.child (h : Clear source t) (hu : u ∈ t.children) : Clear source u :=
  fun _ below => h _ (.inside hu below)

lemma clear_of_children (here : IsCode (t.place source)) (each : ∀ u ∈ t.children, Clear source u) :
    Clear source t := by
  intro u below
  cases below with
  | self => exact here
  | inside hv below => exact each _ hv u below

/-- Only a label stands in what is read without gaps and is no token. -/
lemma identifier_of_compound (h : t.IsRead language source)
    (compound : language.kind t.rule = .compound) (hu : u ∈ t.children) : u.rule = .identifier := by
  have only : ∀ r ∈ Rule.all, kind r = .compound → (body r).callsOnly (· = .identifier) = true := by
    decide +kernel
  have quiet : ∀ r, decide (r = Rule.identifier) = true → language.kind r ≠ .silent := by
    intro r name
    rw [of_decide_eq_true name]
    nofun
  obtain ⟨r, label, rule⟩ :=
    (h.yields (.inr compound)).exists_rule quiet (only _ (Rule.mem_all _) compound) u hu
  exact rule.trans (of_decide_eq_true label)

/-- A match that is read where no gap is left to skip is clear. -/
lemma clear_of_isFresh (read : t.IsRead language source) (fresh : t.IsFresh language source) :
    Clear source t := by
  suffices ∀ t : Peg.Tree Rule, t.IsRead language source → t.IsFresh language source → Clear source t from
    this t read fresh
  refine Tree.IsRead.induction fun t read ih fresh => ?_
  refine clear_of_children (isCode_of_atRest fresh.1) fun u hu => ?_
  have readU := read.children u hu
  cases kind : language.kind t.rule with
  | normal => exact ih u hu (fresh.children (by decide) kind u hu)
  | silent => exact absurd kind read.2.1
  | atomic =>
    rw [children_of_atomic read kind] at hu
    cases hu
  | compound =>
    have rule := identifier_of_compound read kind hu
    refine clear_of_children (isCode_of_identifier readU rule) fun v hv => ?_
    rw [children_of_atomic readU (by rw [rule]; rfl)] at hv
    cases hv

/-- All matches inside the match of a program are clear. -/
lemma clear_of_match {s : Script} {t : Peg.Tree Rule} (h : s.match? = .ok t) :
    ∀ u ∈ t.children, Clear s.content.toList u := by
  obtain ⟨q, reads, trees⟩ := match?_eq_ok.1 h
  cases reads with
  | silent silent => cases silent
  | call _ reads =>
    obtain rfl := List.singleton_injective trees
    have w : Cursor.Within ⟨0, s.content.toList⟩ s.content.toList := ⟨rfl, Nat.zero_le _⟩
    -- The program itself may begin with a gap, but what is in it begins behind that.
    cases reads with
    | @seq _ _ _ _ _ _ q₃ nothing gap rest =>
      have w₁ := gap.within (nothing.within w)
      intro u hu
      have hu : u ∈ q₃.trees := by
        simpa [Tree.children, nothing.trees_eq_nil rfl] using hu
      exact clear_of_isFresh (rest.isRead w₁ u hu)
        (rest.isFresh (by decide) w₁ (fun _ _ => gap.atRest) u hu)

end ScriptTyping.Reading
