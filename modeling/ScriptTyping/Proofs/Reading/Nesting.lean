import Mathlib.Order.Bounds.Basic
import ScriptTyping.Proofs.Grammar.Tokens
import ScriptTyping.Proofs.Reading.Parsed
import ScriptTyping.Proofs.Scan.Excess

/-!
# The brackets that are counted

The search for a bracket too many does not know the grammar. Token by token it counts the brackets that
the grammar reads as such, as long as it takes each token for what it is (`Tells`): a slash for a regular
expression only where one begins, a template up to its end, and a gap as blanks and comments. Then it
finds the first bracket that opens a level when at least `limit` are open (`nesting_of_match`).
-/

namespace ScriptTyping

namespace Reading
open Peg Grammar Scan

/-- The last character of code after a token, when `last` is the one before it. -/
def lastOf (last : Char) (t : Token Rule) : Char :=
  if t.isGap then last else t.text.getLast?.getD last

/-- The search for a bracket too many takes a token for what it is, when `last` is the last character of
code before it and `rest` stands behind it. -/
def Tells (last : Char) (rest : List Char) : Token Rule → Prop
  | .gap cs => Spacing rest cs
  | .word r cs => (cs.head? = some '/' → (r = .regex ↔ last ∈ beforePattern)) ∧
      (r = .templateLiteral → dropQuoted '\x60' (cs.tail ++ rest) = rest)
  | .sign _ => True

/-- The search takes each of some tokens for what it is. -/
def Told (last : Char) (rest : List Char) : List (Token Rule) → Prop
  | [] => True
  | t :: ts => Tells last (Token.textOf ts ++ rest) t ∧ Told (lastOf last t) rest ts

/-- An opening bracket stands at an offset, and at least `limit` of those before it are open there. -/
def Beyond (limit : Nat) (due : List Char) (ts : List (Token Rule)) (i : Nat) : Prop :=
  ∃ front x back within, ts = front ++ .sign [x] :: back ∧ x ∈ openers ∧ dues? due front = some within ∧
    limit ≤ within.length ∧ i = Text.byteLength (Token.textOf front)

variable {limit i : Nat} {last : Char} {due due' : List Char} {t : Token Rule} {ts : List (Token Rule)}
  {c d : Cursor}

/-- What is searched for is the first token or further on. -/
lemma beyond_cons (h : Beyond limit due (t :: ts) i) :
    (∃ x ∈ openers, t = .sign [x] ∧ limit ≤ due.length) ∨
      ∃ within j, due? due t = some within ∧ Beyond limit within ts j := by
  obtain ⟨front, x, back, within, split, opens, before, deep, -⟩ := h
  cases front with
  | nil =>
    obtain ⟨rfl, -⟩ := List.cons.inj split
    cases before
    exact .inl ⟨x, opens, rfl, deep⟩
  | cons f front =>
    obtain ⟨rfl, rest⟩ := List.cons.inj split
    obtain ⟨mid, here, before⟩ := Option.bind_eq_some_iff.1 before
    exact .inr ⟨mid, _, here, front, x, back, within, rest, opens, before, deep, rfl⟩

section Step

variable (tells : Tells last d.rest t) (after : due? due t = some due')
  (shallow : ∀ x ∈ openers, t = .sign [x] → due.length < limit)

include tells after shallow

/-- A sign counts for what it is. -/
lemma excess?_sign {cs : List Char} (same : t = .sign cs) (leads : c.Leads cs d)
    (sign : (cs ≠ [] ∧ Lone cs) ∨ ∃ x ∈ openers ++ enders, cs = [x]) :
    excess? limit last due.length c.rest = excess? limit (lastOf last t) due'.length d.rest := by
  subst same
  rw [leads.1]
  rcases sign with ⟨-, lone⟩ | ⟨x, bracket, rfl⟩
  · have kept : due' = due := by
      unfold due? at after
      split at after
      next x same =>
        cases same
        obtain ⟨-, -, -, opens, closes⟩ := isLone_spec (lone.lone x List.mem_cons_self)
        rw [if_neg opens, if_neg closes] at after
        exact (Option.some.inj after).symm
      next => exact (Option.some.inj after).symm
    rw [excess?_lones lone.lone, lone.codeAfter, kept]
    rfl
  · by_cases opens : x ∈ openers
    · rw [due?, if_pos opens] at after
      cases after
      have room : due.length < limit := shallow x opens rfl
      rw [List.singleton_append, excess?_opener opens, if_neg (by omega)]
      rfl
    · have closes : x ∈ enders := (List.mem_append.1 bracket).resolve_left opens
      rw [due?, if_neg opens, if_pos closes] at after
      split at after
      · cases after
        rw [List.singleton_append, excess?_ender closes, List.length_tail]
        rfl
      · cases after

/-- A word is passed over. -/
lemma excess?_word {r : Rule} {cs : List Char} (same : t = .word r cs) (stands : t.Stands language c d) :
    excess? limit last due.length c.rest = excess? limit (lastOf last t) due'.length d.rest := by
  subst same
  cases after
  have leads : c.rest = cs ++ d.rest := stands.leads.1
  have shape := shape_of_word stands
  have quoted {quote : Char} {body : List Char} (isQuote : isQuote quote = true)
      (closed : body.getLast? = some quote) (ends : dropQuoted quote (body ++ d.rest) = d.rest) :
      excess? limit last due.length (quote :: body ++ d.rest) =
        excess? limit (lastOf last (.word r (quote :: body))) due.length d.rest := by
    have last_eq : lastOf last (.word r (quote :: body)) = quote := by
      change (quote :: body).getLast?.getD last = quote
      rw [List.getLast?_cons, closed]
      rfl
    rw [List.cons_append, last_eq]
    exact excess?_quoted isQuote ends
  rw [leads]
  -- By the first character: the search tells a literal by it, and skips it as the grammar does.
  cases shape with
  | plain _ _ lone =>
    rw [excess?_lones lone.lone, lone.codeAfter]
    rfl
  | quoted isQuote closed ends => exact quoted isQuote closed ends
  | template closed => exact quoted rfl closed (tells.2 rfl)
  | @pattern body flags parts noSlash noStar ends =>
    have lone : Lone flags := lone_of_ink fun x hx => isInk_of_isIdentPart (parts x hx)
    have last_eq : lastOf last (.word .regex ('/' :: (body ++ '/' :: flags))) = flags.getLast?.getD '/' := by
      change ('/' :: (body ++ '/' :: flags)).getLast?.getD last = _
      rw [List.getLast?_cons, List.getLast?_append, List.getLast?_cons]
      simp
    rw [List.cons_append, excess?_slash ⟨noSlash, noStar⟩, if_pos ((tells.1 rfl).1 rfl), ends,
      excess?_lones lone.lone, lone.codeAfter, last_eq]
  | @slash _ cs other _ lone noSlash noStar =>
    have last_eq : lastOf last (.word r ('/' :: cs)) = cs.getLast?.getD '/' := by
      change ('/' :: cs).getLast?.getD last = _
      rw [List.getLast?_cons]
      rfl
    have division : last ∉ beforePattern := fun h => other ((tells.1 rfl).2 h)
    rw [List.cons_append, excess?_slash ⟨noSlash, noStar⟩, if_neg division, excess?_lones lone.lone,
      lone.codeAfter, last_eq]

/-- A token is passed over, unless it is the bracket that is searched for. -/
lemma excess?_token (stands : t.Stands language c d)
    (sign : ∀ cs, t = .sign cs → (cs ≠ [] ∧ Lone cs) ∨ ∃ x ∈ openers ++ enders, cs = [x]) :
    excess? limit last due.length c.rest = excess? limit (lastOf last t) due'.length d.rest := by
  cases t with
  | word r cs => exact excess?_word tells after shallow rfl stands
  | sign cs => exact excess?_sign tells after shallow rfl stands.leads (sign cs rfl)
  | gap cs =>
    cases after
    rw [stands.leads.1]
    exact tells.excess?

end Step

/-- Token by token the search comes to the first bracket that opens a level when `limit` are open, or to the
end. -/
lemma excess?_row (limit : Nat) (row : Row language ts c d) (told : Told last d.rest ts)
    (after : dues? due ts = some due')
    (signs : ∀ cs, .sign cs ∈ ts → (cs ≠ [] ∧ Lone cs) ∨ ∃ x ∈ openers ++ enders, cs = [x]) :
    (∃ front x back within, ts = front ++ .sign [x] :: back ∧ x ∈ openers ∧
      dues? due front = some within ∧ limit ≤ within.length ∧ (∀ i, ¬ Beyond limit due front i) ∧
      excess? limit last due.length c.rest = some (x :: (Token.textOf back ++ d.rest))) ∨
    (∀ i, ¬ Beyond limit due ts i) ∧
      ∃ last', excess? limit last due.length c.rest = excess? limit last' due'.length d.rest := by
  -- Along the tokens: the level of the search is the number of brackets that are due.
  induction row generalizing last due with
  | nil =>
    cases after
    refine .inr ⟨?_, last, rfl⟩
    rintro i ⟨front, x, back, within, split, -⟩
    simp at split
  | @cons t ts c e d stands rest ih =>
    obtain ⟨mid, here, after⟩ := Option.bind_eq_some_iff.1 after
    by_cases found : ∃ x ∈ openers, t = .sign [x] ∧ limit ≤ due.length
    · obtain ⟨x, opens, rfl, deep⟩ := found
      refine .inl ⟨[], x, ts, due, rfl, opens, rfl, deep, ?_, ?_⟩
      · rintro i ⟨front, x, back, within, split, -⟩
        simp at split
      · have text : c.rest = x :: e.rest := stands.leads.1
        rw [text, excess?_opener opens, if_pos (by omega), rest.leads.1]
    have tells : Tells last e.rest t := by
      rw [rest.leads.1]
      exact told.1
    have step : excess? limit last due.length c.rest = excess? limit (lastOf last t) mid.length e.rest :=
      excess?_token tells here
        (fun x opens same => Nat.lt_of_not_le fun deep => found ⟨x, opens, same, deep⟩)
        stands fun cs same => signs cs (same ▸ List.mem_cons_self)
    rw [step]
    have none {i : Nat} {us : List (Token Rule)} (h : ∀ i, ¬ Beyond limit mid us i) :
        ¬ Beyond limit due (t :: us) i := by
      intro beyond
      rcases beyond_cons beyond with ⟨x, opens, same, deep⟩ | ⟨within, j, here', beyond⟩
      · exact found ⟨x, opens, same, deep⟩
      · obtain rfl : mid = within := Option.some.inj (here.symm.trans here')
        exact h j beyond
    rcases ih told.2 after fun cs mem => signs cs (List.mem_cons_of_mem t mem) with
      ⟨front, x, back, within, rfl, opens, before, deep, first, ends⟩ | ⟨first, ends⟩
    · refine .inl ⟨t :: front, x, back, within, rfl, opens, ?_, deep, fun i => none first, ends⟩
      rw [dues?_cons, here]
      exact before
    · exact .inr ⟨fun i => none first, ends⟩

section Search

variable {source : List Char} (row : Row language ts ⟨0, source⟩ d) (all : d.rest = [])
  (told : Told ';' [] ts) (balanced : dues? [] ts = some due)
  (signs : ∀ cs, .sign cs ∈ ts → (cs ≠ [] ∧ Lone cs) ∨ ∃ x ∈ openers ++ enders, cs = [x])

include row all told balanced signs

/-- The search finds the first bracket that opens a level when at least `limit` are open, or no level is
opened then. -/
lemma excess?_cases (limit : Nat) :
    (∃ before rest, source = before ++ rest ∧ excess? limit ';' 0 (before ++ rest) = some rest ∧
      IsLeast {i | Beyond limit [] ts i} (Text.byteLength before)) ∨
    (∀ i, ¬ Beyond limit [] ts i) ∧ excess? limit ';' 0 source = none := by
  have text : source = Token.textOf ts := by simpa [all] using row.leads.1
  rcases excess?_row limit row (all ▸ told) balanced signs with
    ⟨front, x, back, within, rfl, opens, before, deep, first, found⟩ | ⟨none, last', ends⟩
  · have split : source = Token.textOf front ++ x :: (Token.textOf back ++ d.rest) := by
      simpa [all, Token.text] using text
    have found : excess? limit ';' 0 source = some (x :: (Token.textOf back ++ d.rest)) := found
    refine .inl ⟨_, _, split, split ▸ found, ⟨front, x, back, within, rfl, opens, before, deep, rfl⟩, ?_⟩
    rintro i ⟨front', x', back', within', same, opens', before', deep', rfl⟩
    rcases List.append_eq_append_iff.1 same with ⟨as, longer, -⟩ | ⟨as, longer, rest⟩
    · rw [longer, Token.textOf_append, Text.byteLength_append]
      exact Nat.le_add_right _ _
    · cases as with
      | nil => rw [longer, List.append_nil]
      | cons a as =>
        -- A bracket before this one would have been found first.
        obtain ⟨rfl, -⟩ := List.cons.inj rest
        exact absurd ⟨front', x', as, within', longer, opens', before', deep', rfl⟩ (first _)
  · have ends : excess? limit ';' 0 source = excess? limit last' due.length d.rest := ends
    rw [all, excess?] at ends
    exact .inr ⟨none, ends⟩

lemma excessOffset?_iff {limit j : Nat} :
    excessOffset? limit source = some j ↔ IsLeast {i | Beyond limit [] ts i} j := by
  rcases excess?_cases row all told balanced signs limit with
    ⟨before, rest, rfl, found, least⟩ | ⟨none, found⟩
  · rw [excessOffset?_of_some found, Option.some_inj]
    exact ⟨fun same => same ▸ least, fun h => least.unique h⟩
  · rw [excessOffset?_of_none found]
    exact ⟨nofun, fun h => absurd h.1 (none j)⟩

lemma excess?_eq_none_iff_beyond {limit : Nat} :
    excess? limit ';' 0 source = none ↔ ∀ i, ¬ Beyond limit [] ts i := by
  rcases excess?_cases row all told balanced signs limit with
    ⟨before, rest, rfl, found, least⟩ | ⟨none, found⟩
  · rw [found]
    exact ⟨nofun, fun none => absurd least.1 (none _)⟩
  · exact iff_of_true found none

end Search

/-- Nothing is taken for what it is not where nothing but blanks, strings and plain words and signs stand. -/
lemma told_of_clear {rest : List Char} (row : Row language ts c d)
    (clear : ∀ x ∈ Token.textOf ts, isClear x = true) : Told last rest ts := by
  induction row generalizing last with
  | nil => trivial
  | cons stands _ ih =>
    obtain ⟨here, others⟩ := List.forall_mem_append.1 clear
    refine ⟨?_, ih others⟩
    cases stands with
    | sign _ => trivial
    | gap reads => exact spacing_of_stands (.gap reads) here
    | word kind reads =>
      refine ⟨fun slash => ?_, fun template => ?_⟩
      · obtain ⟨cs, split⟩ := List.head?_eq_some_iff.1 slash
        have yes := here '/' (by simp [Token.text, split])
        cases yes
      · subst template
        have shape := shape_of_word (.word kind reads)
        generalize Cursor.upTo _ _ = cs at here shape
        cases shape with
        | plain other _ _ => exact absurd rfl other
        | slash _ other _ _ _ => exact absurd rfl other
        | template _ =>
          have yes := here '\x60' (by simp [Token.text])
          cases yes

end Reading

namespace Script
open Peg Grammar Reading

/-- The tokens of an accepted script make up its text, and its brackets are closed by their partners. As long
as the search for a bracket too many takes each token for what it is, it finds the first opening bracket that
has at least `limit` open brackets around it, and none if there is none; so the script is refused exactly if
a bracket has too many around it. -/
theorem nesting_of_match {s : Script} {t : Peg.Tree Rule} (h : s.match? = .ok t) :
    ∃ ts, t.Lexed language s.content.toList ts ∧ Token.textOf ts = s.content.toList ∧
      dues? [] ts = some [] ∧
      (Told ';' [] ts →
        (∀ limit j, Scan.excessOffset? limit s.content.toList = some j ↔
          IsLeast {i | Beyond limit [] ts i} j) ∧
        (s.checkNesting = .ok () ↔ ∀ i, ¬ Beyond maxNesting [] ts i)) := by
  obtain ⟨ts, d, lexed, row, all, signs, balanced⟩ := exists_tokens h
  have text : s.content.toList = Token.textOf ts := by simpa [all] using row.leads.1
  refine ⟨ts, lexed, text.symm, balanced, fun told => ⟨fun limit j => ?_, ?_⟩⟩
  · exact excessOffset?_iff row all told balanced signs
  · rw [checkNesting_eq_ok]
    exact excess?_eq_none_iff_beyond row all told balanced signs

/-- A bracket in a string does not count, so the second one is the first with a bracket around it. -/
theorem nesting_of_match_string :
    ∃ t, (ofSource "a.js" "f('(', g(x))").match? = .ok t ∧ ∃ ts, t.Lexed language "f('(', g(x))".toList ts ∧
      Told ';' [] ts ∧ IsLeast {i | Beyond 1 [] ts i} 8 := by
  obtain ⟨t, matched⟩ : ∃ t, (ofSource "a.js" "f('(', g(x))").match? = .ok t := by
    have found : (ofSource "a.js" "f('(', g(x))").match?.toOption.isSome = true := by decide +kernel
    cases e : (ofSource "a.js" "f('(', g(x))").match? with
    | ok t => exact ⟨t, rfl⟩
    | error f => simp [e, Except.toOption] at found
  obtain ⟨ts, lexed, text, -, told⟩ := nesting_of_match matched
  have clear : ∀ x ∈ Token.textOf ts, isClear x = true := by
    rw [text]
    exact List.all_iff_forall_prop.mp (by decide +kernel)
  obtain ⟨rule, -, -⟩ := isRead_of_match matched
  obtain ⟨q, -, lexes⟩ := lexed.exists_lexes (by rw [rule]; rfl)
  have told' : Told ';' [] ts := told_of_clear lexes.row clear
  exact ⟨t, matched, ts, lexed, told', ((told told').1 1 8).1 (by decide +kernel)⟩

end Script

end ScriptTyping
