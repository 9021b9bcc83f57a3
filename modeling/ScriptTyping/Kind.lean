import ScriptTyping.Text.Letter
import ScriptTyping.Text.Quoted

/-!
# Kinds

A `Kind` is the type of a declaration as far as it is known. `Kind.text` writes it in the notation
of types. The key of an object's entry is written bare when it is a letter, an underscore or a
dollar sign followed by letters, numerals, underscores and dollar signs, and between quotes
otherwise. Equality of kinds is decided by `Kind.beq`.
-/

namespace ScriptTyping

/-- The type of a declaration. -/
inductive Kind where
  | number
  | string
  | boolean
  | null
  /-- Not known. -/
  | any
  /-- The result of a function that returns nothing. -/
  | void
  | array (item : Kind)
  /-- An object with these entries in order. -/
  | object (entries : List (String × Kind))

namespace Kind

instance : Inhabited Kind := ⟨any⟩

mutual

/-- Whether two kinds are the same. -/
def beq : Kind → Kind → Bool
  | number, number => true
  | string, string => true
  | boolean, boolean => true
  | null, null => true
  | any, any => true
  | void, void => true
  | array a, array b => beq a b
  | object a, object b => beqEntries a b
  | _, _ => false

/-- Whether two lists of entries are the same. -/
def beqEntries : List (String × Kind) → List (String × Kind) → Bool
  | [], [] => true
  | (k, a) :: as, (l, b) :: bs => k == l && beq a b && beqEntries as bs
  | _, _ => false

end

mutual

theorem eq_of_beq : ∀ {a b : Kind}, beq a b = true → a = b
  | number, b, h | string, b, h | boolean, b, h | null, b, h | any, b, h | void, b, h => by
    cases b <;> simp_all [beq]
  | array a, b, h => by
    cases b <;> simp only [beq, Bool.false_eq_true] at h
    rw [eq_of_beq h]
  | object as, b, h => by
    cases b <;> simp only [beq, Bool.false_eq_true] at h
    rw [eq_of_beqEntries h]

theorem eq_of_beqEntries : ∀ {as bs : List (String × Kind)}, beqEntries as bs = true → as = bs
  | [], [], _ => rfl
  | [], _ :: _, h | _ :: _, [], h => by simp [beqEntries] at h
  | (k, a) :: as, (l, b) :: bs, h => by
    simp only [beqEntries, Bool.and_eq_true, beq_iff_eq] at h
    rw [h.1.1, eq_of_beq h.1.2, eq_of_beqEntries h.2]

end

mutual

theorem beq_self : ∀ a : Kind, beq a a = true
  | number | string | boolean | null | any | void => by simp [beq]
  | array a => by simp [beq, beq_self a]
  | object as => by simp [beq, beqEntries_self as]

theorem beqEntries_self : ∀ as : List (String × Kind), beqEntries as as = true
  | [] => by simp [beqEntries]
  | (k, a) :: as => by simp [beqEntries, beq_self a, beqEntries_self as]

end

instance : DecidableEq Kind := fun a b =>
  decidable_of_iff (beq a b = true) ⟨eq_of_beq, fun h => h ▸ beq_self a⟩

/-- Whether a key is written without quotes. -/
def isBareKey (key : List Char) : Bool :=
  match key with
  | [] => false
  | c :: cs =>
    (Text.isAlphabetic c || c == '_' || c == '$') &&
      cs.all fun c => Text.isAlphanumeric c || c == '_' || c == '$'

/-- A key as it is written. -/
def keyText (key : String) : List Char :=
  if isBareKey key.toList then key.toList else Text.quoted key.toList

mutual

/-- The characters of a kind. -/
def chars : Kind → List Char
  | number => "number".toList
  | string => "string".toList
  | boolean => "boolean".toList
  | null => "null".toList
  | any => "any".toList
  | void => "void".toList
  | array a => chars a ++ "[]".toList
  | object [] => "\x7b\x7d".toList
  | object (e :: es) => "\x7b ".toList ++ entryChars (e :: es) ++ " \x7d".toList

/-- The characters of entries, with semicolons between them. -/
def entryChars : List (String × Kind) → List Char
  | [] => []
  | [(key, a)] => keyText key ++ ": ".toList ++ chars a
  | (key, a) :: es => keyText key ++ ": ".toList ++ chars a ++ "; ".toList ++ entryChars es

end

/-- A kind in the notation of types. -/
def text (k : Kind) : String :=
  String.ofList k.chars

end Kind

end ScriptTyping
