import ScriptTyping.Peg.Attempts
import ScriptTyping.Peg.Expr
import ScriptTyping.Peg.Tree

/-!
# Running a grammar

`run` evaluates a parsing expression at a place in a text. It answers with the place reached and
the trees of the rules matched on the way, or with failure, and in either case with the attempts
made so far: going back to an earlier place takes back what was read but not what was tried.

The evaluation counts its steps in depth, so that it is defined for every grammar. `.exhausted`
says that the count was too low and nothing else; `parse` gives it a count that grows with the
text.
-/

namespace ScriptTyping.Peg

/-- Whether blanks are skipped between parts, and whether rules leave trees. -/
inductive Atomicity where
  | normal
  | compound
  | atomic
  deriving DecidableEq, Repr

/-- Whether what is being read is only looked at, and if so whether it is wanted there. -/
inductive Lookahead where
  | none
  | positive
  | negative
  deriving DecidableEq, Repr

/-- The circumstances under which an expression is evaluated. -/
structure Mode where
  atomicity : Atomicity
  lookahead : Lookahead

namespace Mode

/-- Reading as it begins: blanks are skipped, and nothing is a mere look ahead. -/
def outset : Mode :=
  { atomicity := .normal, lookahead := .none }

/-- The circumstances in which a rule of some kind is tried and leaves its tree. -/
def around (m : Mode) : RuleKind → Mode
  | .compound => { m with atomicity := .compound }
  | _ => m

/-- The circumstances of the parts of a rule of some kind. -/
def within (m : Mode) : RuleKind → Mode
  | .compound => { m with atomicity := .compound }
  | .atomic => { m with atomicity := .atomic }
  | _ => m

/-- The circumstances of what is looked for ahead. -/
def wanting (m : Mode) : Mode :=
  match m.lookahead with
  | .negative => m
  | _ => { m with lookahead := .positive }

/-- The circumstances of what must not be ahead; what is unwanted where it is unwanted is
wanted. -/
def refusing (m : Mode) : Mode :=
  match m.lookahead with
  | .negative => { m with lookahead := .positive }
  | _ => { m with lookahead := .negative }

/-- Whether matches are unwanted here. -/
def unwanted (m : Mode) : Bool :=
  m.lookahead = .negative

/-- Whether rules leave trees here. -/
def builds (m : Mode) : Bool :=
  m.lookahead = .none ∧ m.atomicity ≠ .atomic

/-- Whether rules are recorded here. -/
def records (m : Mode) : Bool :=
  m.atomicity ≠ .atomic

end Mode

/-- A place in a text: the number of characters before it and the characters after it. -/
structure Cursor where
  index : Nat
  rest : List Char

namespace Cursor

/-- The place after the given text, if that is what follows. -/
def skip? : List Char → Cursor → Option Cursor
  | [], c => some c
  | x :: xs, ⟨i, y :: ys⟩ => if x = y then skip? xs ⟨i + 1, ys⟩ else none
  | _ :: _, ⟨_, []⟩ => none

/-- The text from one place to a later one. -/
def upTo (c d : Cursor) : List Char :=
  c.rest.take (d.index - c.index)

end Cursor

/-- What an evaluation comes to. -/
inductive Outcome (R : Type) where
  | matched (place : Cursor) (trees : List (Tree R))
  | failed
  | exhausted

variable {R : Type}

/-- The record after a rule was tried: what failed where it was wanted, and what matched where it
was not, is put down. -/
def settle (m : Mode) (r : R) (place : Nat) (mark : Mark) (matched : Bool) (a : Attempts R) :
    Attempts R :=
  if m.records && matched == m.unwanted then a.record m.unwanted r place mark else a

mutual

/-- Evaluates an expression at a place, at most `n` calls deep. -/
def run (g : Grammar R) : Nat → Mode → Expr R → Cursor → Attempts R → Outcome R × Attempts R
  | 0, _, _, _, a => (.exhausted, a)
  | n + 1, m, e, c, a =>
    match e with
    | .empty => (.matched c [], a)
    | .text cs =>
      match c.skip? cs with
      | some d => (.matched d [], a)
      | none => (.failed, a)
    | .char p =>
      match c.rest with
      | x :: xs => if p x then (.matched ⟨c.index + 1, xs⟩ [], a) else (.failed, a)
      | [] => (.failed, a)
    | .finish =>
      match c.rest with
      | [] => (.matched c [], a)
      | _ :: _ => (.failed, a)
    | .gap =>
      match m.atomicity with
      | .normal => run g n { m with atomicity := .atomic } (.star g.blank) c a
      | _ => (.matched c [], a)
    | .seq e₁ e₂ =>
      match run g n m e₁ c a with
      | (.matched c₁ ts₁, a₁) =>
        match run g n m .gap c₁ a₁ with
        | (.matched c₂ _, a₂) =>
          match run g n m e₂ c₂ a₂ with
          | (.matched c₃ ts₃, a₃) => (.matched c₃ (ts₁ ++ ts₃), a₃)
          | other => other
        | other => other
      | other => other
    | .choice e₁ e₂ =>
      match run g n m e₁ c a with
      | (.failed, a₁) => run g n m e₂ c a₁
      | other => other
    | .opt e₁ =>
      match run g n m e₁ c a with
      | (.failed, a₁) => (.matched c [], a₁)
      | other => other
    | .star e₁ =>
      match run g n m e₁ c a with
      | (.matched c₁ ts, a₁) => again g n m e₁ c₁ ts a₁
      | (.failed, a₁) => (.matched c [], a₁)
      | other => other
    | .ahead e₁ =>
      match run g n m.wanting e₁ c a with
      | (.matched _ _, a₁) => (.matched c [], a₁)
      | other => other
    | .notAhead e₁ =>
      match run g n m.refusing e₁ c a with
      | (.matched _ _, a₁) => (.failed, a₁)
      | (.failed, a₁) => (.matched c [], a₁)
      | other => other
    | .call r =>
      match g.kind r with
      | .silent => run g n m (g.body r) c a
      | k =>
        let outer := m.around k
        let mark := a.mark c.index
        match run g n (m.within k) (g.body r) c a with
        | (.matched d ts, a₁) =>
          let trees := if outer.builds then [.node r c.index (c.upTo d) ts] else ts
          (.matched d trees, settle outer r c.index mark true a₁)
        | (.failed, a₁) => (.failed, settle outer r c.index mark false a₁)
        | other => other

/-- Repeats an expression for as long as it matches, after it has matched before and left the
given trees. A gap that no further match follows is not read. -/
def again (g : Grammar R) :
    Nat → Mode → Expr R → Cursor → List (Tree R) → Attempts R → Outcome R × Attempts R
  | 0, _, _, _, _, a => (.exhausted, a)
  | n + 1, m, e, c, trees, a =>
    match run g n m .gap c a with
    | (.matched c₁ _, a₁) =>
      match run g n m e c₁ a₁ with
      | (.matched c₂ ts, a₂) => again g n m e c₂ (trees ++ ts) a₂
      | (.failed, a₂) => (.matched c trees, a₂)
      | other => other
    | other => other

end

@[simp] theorem run_zero (g : Grammar R) (m : Mode) (e : Expr R) (c : Cursor) (a : Attempts R) :
    run g 0 m e c a = (.exhausted, a) := by
  rw [run]

@[simp] theorem again_zero (g : Grammar R) (m : Mode) (e : Expr R) (c : Cursor)
    (trees : List (Tree R)) (a : Attempts R) : again g 0 m e c trees a = (.exhausted, a) := by
  rw [again]

/-- The answer to whether a text is of a grammar. -/
inductive Verdict (R : Type) where
  | accepted (trees : List (Tree R))
  | rejected (attempts : Attempts R)
  | exhausted

/-- Reads a text from its beginning as what `start` stands for, at most `depth` calls deep. -/
def parse (g : Grammar R) (depth : Nat) (start : R) (text : List Char) : Verdict R :=
  match run g depth .outset (.call start) ⟨0, text⟩ .none with
  | (.matched _ trees, _) => .accepted trees
  | (.failed, a) => .rejected a
  | (.exhausted, _) => .exhausted

end ScriptTyping.Peg
