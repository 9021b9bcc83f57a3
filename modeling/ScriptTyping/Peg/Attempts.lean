/-!
# What a parser last tried

While it reads, a parser remembers the furthest place at which a rule did not do what was wanted of
it, with the rules that were expected there and those that were not. Once a text is rejected these
rules are what the message names.

A rule that failed only because one rule inside it failed at the same place is not named: the inner
one says more. A rule with several failures inside it at its own start replaces them all.
-/

namespace ScriptTyping.Peg

/-- The rules tried at the furthest place so far, the latest first. -/
structure Attempts (R : Type) where
  furthest : Nat
  expected : List R
  unexpected : List R

/-- How many rules were on record at a place when a rule began there. -/
structure Mark where
  expected : Nat
  unexpected : Nat

namespace Attempts

variable {R : Type}

/-- Nothing tried yet. -/
def none : Attempts R :=
  { furthest := 0, expected := [], unexpected := [] }

/-- The number of rules on record at a place. -/
def mark (a : Attempts R) (place : Nat) : Mark :=
  if a.furthest = place then
    { expected := a.expected.length, unexpected := a.unexpected.length }
  else
    { expected := 0, unexpected := 0 }

/-- The oldest `n` of a list that has its latest first. -/
def oldest (n : Nat) (rules : List R) : List R :=
  rules.drop (rules.length - n)

/-- The record as far as it concerns `place`: cut back to the mark if it is about this very place,
begun anew if it is about an earlier one. -/
def rewind (a : Attempts R) (place : Nat) (m : Mark) : Attempts R :=
  if a.furthest = place then
    { a with
      expected := oldest m.expected a.expected
      unexpected := oldest m.unexpected a.unexpected }
  else if a.furthest < place then
    { furthest := place, expected := [], unexpected := [] }
  else
    a

/-- Puts a rule on record at the furthest place. -/
def push (a : Attempts R) (unwanted : Bool) (r : R) : Attempts R :=
  if unwanted then
    { a with unexpected := r :: a.unexpected }
  else
    { a with expected := r :: a.expected }

/-- Records that rule `r`, begun at `place` with mark `m`, did not do what was wanted: it failed,
or matched where it was unwanted. -/
def record (a : Attempts R) (unwanted : Bool) (r : R) (place : Nat) (m : Mark) : Attempts R :=
  let now := a.mark place
  if now.expected + now.unexpected = m.expected + m.unexpected + 1 then
    a
  else
    let a := a.rewind place m
    if a.furthest = place then a.push unwanted r else a

end Attempts

end ScriptTyping.Peg
