import ScriptTyping.Proofs.Kind.Text
import ScriptTyping.Proofs.Reading.Boundaries

/-!
# The keys in the text of a kind

The text of a kind is put together from signs and keys (`Kind.chars_eq_pieces`). A key in quotes is the
string that it stands for. A bare key is made of letters and numerals, and the grammar has other classes
of these: a bare key is a word unless there is a stray among its characters, one that the grammar does
not allow where it stands (`Kind.key_spec`). In ASCII there are no strays.
-/

namespace ScriptTyping.Kind
open Peg Grammar

/-! ### Pieces -/

/-- A part of the text of a kind. -/
inductive Piece where
  | sign (text : String)
  | key (name : String)

/-- The text of a part. -/
def Piece.chars : Piece → List Char
  | sign text => text.toList
  | key name => keyText name

mutual

/-- The parts of the text of a kind. -/
def pieces : Kind → List Piece
  | number => [.sign "number"]
  | string => [.sign "string"]
  | boolean => [.sign "boolean"]
  | null => [.sign "null"]
  | any => [.sign "any"]
  | void => [.sign "void"]
  | array a => pieces a ++ [.sign "[]"]
  | object [] => [.sign "\x7b\x7d"]
  | object (e :: es) => .sign "\x7b " :: (entryPieces (e :: es) ++ [.sign " \x7d"])

/-- The parts of the text of entries. -/
def entryPieces : List (String × Kind) → List Piece
  | [] => []
  | [(key, a)] => .key key :: .sign ": " :: pieces a
  | (key, a) :: es => .key key :: .sign ": " :: (pieces a ++ .sign "; " :: entryPieces es)

end

/-- The keys of a kind at any depth. -/
def keys (k : Kind) : List String :=
  k.pieces.filterMap fun
    | .sign _ => none
    | .key name => some name

mutual

/-- The text of a kind is that of its parts. -/
lemma chars_eq_pieces : ∀ k : Kind, k.chars = k.pieces.flatMap Piece.chars
  | number | string | boolean | null | any | void | object [] => (List.append_nil _).symm
  | array a => by
    have split : (array a).pieces = pieces a ++ [.sign "[]"] := rfl
    rw [chars_array, split, List.flatMap_append, ← chars_eq_pieces a]
    exact congrArg _ (List.append_nil _).symm
  | object (e :: es) => by
    have split : (object (e :: es)).pieces =
      .sign "\x7b " :: (entryPieces (e :: es) ++ [.sign " \x7d"]) := rfl
    rw [chars_object, split, List.flatMap_cons, List.flatMap_append, ← entryChars_eq_pieces (e :: es)]
    rfl

lemma entryChars_eq_pieces : ∀ es : List (String × Kind),
    entryChars es = (entryPieces es).flatMap Piece.chars
  | [] => rfl
  | [(key, a)] => by
    have last : entryChars [(key, a)] = keyText key ++ (": ".toList ++ a.chars) := List.append_assoc _ _ _
    rw [last, chars_eq_pieces a]
    rfl
  | (key, a) :: e :: es => by
    have more : entryChars ((key, a) :: e :: es) =
      keyText key ++ ": ".toList ++ a.chars ++ "; ".toList ++ entryChars (e :: es) := rfl
    have split : entryPieces ((key, a) :: e :: es) =
      .key key :: .sign ": " :: (pieces a ++ .sign "; " :: entryPieces (e :: es)) := rfl
    rw [more, split, List.flatMap_cons, List.flatMap_cons, List.flatMap_append, List.flatMap_cons,
      ← chars_eq_pieces a, ← entryChars_eq_pieces (e :: es)]
    simp only [List.append_assoc]
    rfl

end

/-! ### Strays -/

/-- Whether a letter may not begin a word. -/
def isStrayStart (c : Char) : Bool :=
  Text.isAlphabetic c && !Text.isXidStart c

/-- Whether a letter or a numeral may not go on with a word. -/
def isStrayPart (c : Char) : Bool :=
  Text.isAlphanumeric c && !Text.isXidContinue c

/-- Whether there is a letter or a numeral in a key where the grammar allows none. -/
def hasStray : List Char → Bool
  | [] => false
  | c :: cs => isStrayStart c || cs.any isStrayPart

section Strays

variable {c : Char} {key : List Char}

lemma isIdentStart_of_bare (bare : (Text.isAlphabetic c || c == '_' || c == '$') = true) :
    isIdentStart c = !isStrayStart c := by
  by_cases sign : c = '_' ∨ c = '$'
  · rcases sign with rfl | rfl
    all_goals decide +kernel
  · simp only [not_or, ← beq_eq_false_iff_ne] at sign
    simp only [sign.1, sign.2, Bool.or_false] at bare
    simp only [isIdentStart, isStrayStart, sign.1, sign.2, bare, Bool.or_false, Bool.true_and,
      Bool.not_not]

lemma not_isKeyChar_of_joiner (joiner : c = '\u200C' ∨ c = '\u200D') : isKeyChar c = false := by
  rcases joiner with rfl | rfl
  all_goals decide +kernel

lemma isIdentPart_of_bare (bare : isKeyChar c = true) : isIdentPart c = !isStrayPart c := by
  by_cases sign : c = '_' ∨ c = '$'
  · rcases sign with rfl | rfl
    all_goals decide +kernel
  · have free : ¬ (c = '\u200C' ∨ c = '\u200D') := by
      intro joiner
      rw [not_isKeyChar_of_joiner joiner] at bare
      cases bare
    simp only [not_or, ← beq_eq_false_iff_ne] at sign free
    simp only [isKeyChar, sign.1, sign.2, Bool.or_false] at bare
    simp only [isIdentPart, isStrayPart, sign.2, free.1, free.2, bare, Bool.or_false, Bool.true_and,
      Bool.not_not]

/-- A bare key is a word unless there is a stray in it. -/
lemma isWord_of_isBareKey (bare : isBareKey key = true) : isWord key = !hasStray key := by
  cases key with
  | nil => cases bare
  | cons c cs =>
    simp only [isBareKey, Bool.and_eq_true] at bare
    have parts : cs.all isIdentPart = !cs.any isStrayPart := by
      have each := List.all_eq_true.1 bare.2
      clear bare
      induction cs with
      | nil => rfl
      | cons d ds ih =>
        obtain ⟨here, others⟩ := List.forall_mem_cons.1 each
        rw [List.all_cons, List.any_cons, isIdentPart_of_bare here, ih others, Bool.not_or]
    rw [isWord, hasStray, isIdentStart_of_bare bare.1, parts, Bool.not_or]

lemma not_hasStray_of_ascii (ascii : ∀ c ∈ key, c.toNat < 128) : hasStray key = false := by
  have table : ∀ n < 128, isStrayStart (Char.ofNat n) = false ∧ isStrayPart (Char.ofNat n) = false := by
    decide +kernel
  have each : ∀ c ∈ key, isStrayStart c = false ∧ isStrayPart c = false := by
    intro c hc
    have here := table c.toNat (ascii c hc)
    rwa [Char.ofNat_toNat] at here
  cases key with
  | nil => rfl
  | cons c cs =>
    rw [hasStray, (each c List.mem_cons_self).1, Bool.false_or, List.any_eq_false]
    exact fun d hd => Bool.eq_false_iff.1 (each d (List.mem_cons_of_mem c hd)).2

lemma spells_propertyIdentifier : Spells propertyIdentifier key ↔ isWord key = true := by
  refine ⟨Grammar.isWord_of_spells, fun word => ?_⟩
  cases key with
  | nil => cases word
  | cons c cs =>
    simp only [isWord, Bool.and_eq_true, List.all_eq_true] at word
    have each : ∀ w ∈ cs.map ([·]), Spells identPart w := by
      intro w hw
      obtain ⟨d, hd, rfl⟩ := List.mem_map.1 hw
      exact ⟨d, rfl, word.2 d hd⟩
    have whole : cs = (cs.map ([·])).flatten := by
      rw [← List.flatMap_def, List.flatMap_singleton']
    exact ⟨[c], cs, rfl, ⟨c, rfl, word.1⟩, cs.map ([·]), whole, each⟩

end Strays

/-- The text of a kind is put together from signs and keys. A key that is not bare is a string that
stands for it. One that is bare is a word exactly if there is no stray in it, and in ASCII there is
none. -/
theorem key_spec (k : Kind) :
    k.chars = k.pieces.flatMap Piece.chars ∧
      ∀ key ∈ k.keys,
        (isBareKey key.toList = false → (Piece.key key).chars = Text.quoted key.toList ∧
          Json.Reader.token? (Piece.key key).chars = some (.string key, [])) ∧
        (isBareKey key.toList = true → (Piece.key key).chars = key.toList ∧
          (Spells (Grammar.body .propertyIdentifier) key.toList ↔ hasStray key.toList = false)) ∧
        ((∀ c ∈ key.toList, c.toNat < 128) → hasStray key.toList = false) := by
  refine ⟨chars_eq_pieces k, fun key _ => ⟨fun other => ?_, fun bare => ?_, not_hasStray_of_ascii⟩⟩
  · have quoted : (Piece.key key).chars = Text.quoted key.toList := if_neg (Bool.eq_false_iff.1 other)
    have read := Json.Reader.token?_quoted key []
    rw [List.append_nil, ← quoted] at read
    exact ⟨quoted, read⟩
  · refine ⟨if_pos bare, ?_⟩
    rw [Grammar.body, spells_propertyIdentifier, isWord_of_isBareKey bare, Bool.not_eq_true']

/-- The superscript two is a numeral, but no word has one. -/
theorem key_spec_superscript :
    (object [("a²", number)]).text = "\x7b a²: number \x7d" ∧
      ¬ Spells (Grammar.body .propertyIdentifier) "a²".toList := by
  have bare : isBareKey "a²".toList = true := by decide +kernel
  have stray : hasStray "a²".toList = true := by decide +kernel
  obtain ⟨-, keys⟩ := key_spec (object [("a²", number)])
  obtain ⟨-, word, -⟩ := keys "a²" (by decide)
  refine ⟨by decide +kernel, fun spells => ?_⟩
  rw [(word bare).2.1 spells] at stray
  cases stray

end ScriptTyping.Kind
