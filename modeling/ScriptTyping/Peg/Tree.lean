/-!
# Parse trees

A tree records, for each rule that matched, where the match begins, the text it covers and the
matches inside it. `Tree.fold` computes a value from a tree from the leaves up.
-/

namespace ScriptTyping.Peg

/-- A match of a rule: the number of characters before it, the text it covers, and the matches
inside it in order. -/
inductive Tree (R : Type) where
  | node (rule : R) (start : Nat) (text : List Char) (children : List (Tree R))

namespace Tree

variable {R α : Type}

/-- The rule that matched. -/
def rule : Tree R → R
  | node r _ _ _ => r

/-- The number of characters before the match. -/
def start : Tree R → Nat
  | node _ s _ _ => s

/-- The text that the match covers. -/
def text : Tree R → List Char
  | node _ _ t _ => t

/-- The matches inside. -/
def children : Tree R → List (Tree R)
  | node _ _ _ cs => cs

mutual

/-- The value of a tree, from its rule, its start, its text and the values of its children. -/
def fold (f : R → Nat → List Char → List α → α) : Tree R → α
  | node r s t cs => f r s t (foldAll f cs)

/-- The values of several trees. -/
def foldAll (f : R → Nat → List Char → List α → α) : List (Tree R) → List α
  | [] => []
  | t :: ts => fold f t :: foldAll f ts

end

/-- Folding several trees folds each. -/
theorem foldAll_eq_map (f : R → Nat → List Char → List α → α) (ts : List (Tree R)) :
    foldAll f ts = ts.map (fold f) := by
  induction ts with
  | nil => rfl
  | cons t ts ih => simp [foldAll, ih]

/-- The value of a tree is a function of the values of its children. -/
@[simp] theorem fold_node (f : R → Nat → List Char → List α → α) (r : R) (s : Nat)
    (t : List Char) (cs : List (Tree R)) :
    fold f (node r s t cs) = f r s t (cs.map (fold f)) := by
  rw [fold, foldAll_eq_map]

end Tree

end ScriptTyping.Peg
