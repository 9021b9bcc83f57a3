/-!
# Parsing expressions

A grammar gives a parsing expression to each of its rules and says how the rule shows in the
result. Choices are ordered and repetitions take all they can, so a grammar of this kind reads a
text in at most one way.
-/

namespace ScriptTyping.Peg

/-- How a rule shows in the tree, and whether blanks may stand between its parts. -/
inductive RuleKind where
  /-- A node of the tree; blanks are skipped where the caller skips them. -/
  | normal
  /-- No node of its own; its parts belong to the caller. -/
  | silent
  /-- A node without children, read without skipping blanks. -/
  | atomic
  /-- A node with children, read without skipping blanks. -/
  | compound
  deriving DecidableEq, Repr

/-- A parsing expression over the rules `R`. -/
inductive Expr (R : Type) where
  /-- Nothing at all. -/
  | empty
  /-- This very text. -/
  | text (cs : List Char)
  /-- One character of a class. -/
  | char (p : Char → Bool)
  /-- The end of the input. -/
  | finish
  /-- The blanks that may stand between two parts. -/
  | gap
  /-- One after the other, with a gap between them. -/
  | seq (a b : Expr R)
  /-- The first, or else the second. -/
  | choice (a b : Expr R)
  /-- Once or not at all. -/
  | opt (a : Expr R)
  /-- Any number of times, with a gap before each time but the first. -/
  | star (a : Expr R)
  /-- Ahead, without being read. -/
  | ahead (a : Expr R)
  /-- Not ahead. -/
  | notAhead (a : Expr R)
  /-- What a rule stands for. -/
  | call (r : R)

/-- A grammar: a kind and an expression for each rule, and what counts as one blank. -/
structure Grammar (R : Type) where
  kind : R → RuleKind
  body : R → Expr R
  blank : Expr R

namespace Expr

variable {R : Type}

/-- These parts in this order. -/
def all : List (Expr R) → Expr R
  | [] => .empty
  | [e] => e
  | e :: es => .seq e (all es)

/-- The first of these that matches. -/
def oneOf : List (Expr R) → Expr R
  | [] => .notAhead .empty
  | [e] => e
  | e :: es => .choice e (oneOf es)

/-- The given text. -/
def token (s : String) : Expr R :=
  .text s.toList

/-- At least once. -/
def plus (a : Expr R) : Expr R :=
  .seq a (.star a)

/-- One or more, with a separator between them. -/
def sepBy (a : Expr R) (separator : String) : Expr R :=
  .seq a (.star (.seq (token separator) a))

end Expr

end ScriptTyping.Peg
