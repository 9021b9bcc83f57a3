/-!
# Texts measured in UTF-8 bytes

A text is a list of characters, and an offset into it counts the bytes of the UTF-8 form of what
stands before. `splitBytes?` cuts a text at an offset and `slice?` takes what lies between two.
Main statements: a cut loses nothing (`append_of_splitBytes?`) and falls where it was asked to
(`byteLength_of_splitBytes?`); a cut that falls between two characters is always found
(`splitBytes?_append`).
-/

namespace ScriptTyping.Text

/-- The number of bytes of a text in UTF-8. -/
def byteLength : List Char → Nat
  | [] => 0
  | c :: cs => c.utf8Size + byteLength cs

@[simp] theorem byteLength_nil : byteLength [] = 0 := rfl

@[simp] theorem byteLength_cons (c : Char) (cs : List Char) :
    byteLength (c :: cs) = c.utf8Size + byteLength cs := rfl

@[simp] theorem byteLength_append (a b : List Char) :
    byteLength (a ++ b) = byteLength a + byteLength b := by
  induction a with
  | nil => simp
  | cons c cs ih => simp [ih, Nat.add_assoc]

/-- A text is cut after `n` bytes; there is no cut past the end or inside a character. -/
def splitBytes? : List Char → Nat → Option (List Char × List Char)
  | cs, 0 => some ([], cs)
  | [], _ + 1 => none
  | c :: cs, n + 1 =>
    if c.utf8Size ≤ n + 1 then
      (splitBytes? cs (n + 1 - c.utf8Size)).map fun (before, after) => (c :: before, after)
    else
      none

/-- A cut loses nothing. -/
theorem append_of_splitBytes? {cs before after : List Char} {n : Nat}
    (h : splitBytes? cs n = some (before, after)) : before ++ after = cs := by
  fun_induction splitBytes? cs n generalizing before with
  | case1 cs => simp_all
  | case2 => simp at h
  | case3 c cs n le ih =>
    obtain ⟨⟨b, a⟩, hb, e⟩ := Option.map_eq_some_iff.1 h
    obtain ⟨rfl, rfl⟩ := Prod.mk.inj e
    simp [ih hb]
  | case4 => simp at h

/-- What stands before a cut has as many bytes as were asked for. -/
theorem byteLength_of_splitBytes? {cs before after : List Char} {n : Nat}
    (h : splitBytes? cs n = some (before, after)) : byteLength before = n := by
  fun_induction splitBytes? cs n generalizing before with
  | case1 cs => simp_all
  | case2 => simp at h
  | case3 c cs n le ih =>
    obtain ⟨⟨b, a⟩, hb, e⟩ := Option.map_eq_some_iff.1 h
    obtain ⟨rfl, rfl⟩ := Prod.mk.inj e
    simp only [byteLength_cons, ih hb]
    omega
  | case4 => simp at h

/-- A cut between two characters is found. -/
theorem splitBytes?_append (before after : List Char) :
    splitBytes? (before ++ after) (byteLength before) = some (before, after) := by
  induction before with
  | nil => simp [splitBytes?]
  | cons c cs ih =>
    have pos := c.utf8Size_pos
    obtain ⟨n, hn⟩ : ∃ n, c.utf8Size + byteLength cs = n + 1 :=
      ⟨c.utf8Size + byteLength cs - 1, by omega⟩
    have hrest : n + 1 - c.utf8Size = byteLength cs := by omega
    simp only [List.cons_append, byteLength_cons, hn, splitBytes?, hrest, ih]
    rw [if_pos (by omega)]
    rfl

/-- The text between two offsets; none when they are out of order, past the end or inside a
character. -/
def slice? (cs : List Char) (start stop : Nat) : Option (List Char) :=
  if start ≤ stop then
    match splitBytes? cs start with
    | some (_, after) => (splitBytes? after (stop - start)).map Prod.fst
    | none => none
  else
    none

/-- A slice of a `String`, by offsets. -/
def sliceString? (s : String) (start stop : Nat) : Option String :=
  (slice? s.toList start stop).map String.ofList

end ScriptTyping.Text
