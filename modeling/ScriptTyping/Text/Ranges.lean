/-!
# Classes of characters as ranges

A class is written as the list of its ranges, first and last member of each, in rising order.
-/

namespace ScriptTyping.Text

/-- Membership in a class given by its ranges. -/
def inRanges (ranges : List (Nat × Nat)) (c : Char) : Bool :=
  ranges.any fun (first, last) => first ≤ c.toNat && c.toNat ≤ last

end ScriptTyping.Text
