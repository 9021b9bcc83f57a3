import Mathlib.Tactic.Lemma
import Mathlib.Logic.Function.Iterate
import ScriptTyping.Kind
import ScriptTyping.Proofs.Json.RoundTrip

/-!
# The text of a kind

The text of a kind can be read in one way only: whatever stands behind the text of a kind, as long as it
is no bracket, the kind and what stands behind it are known from the whole (`Kind.chars_append_inj`). So
kinds with the same text are equal (`Kind.text_inj`).
-/

namespace ScriptTyping.Kind

/-! ### Keys -/

section Keys

variable {c : Char} {key a b : String} {r r' : List Char}

/-- Whether a character may stand in a key that is written bare. -/
def isKeyChar (c : Char) : Bool :=
  Text.isAlphanumeric c || c == '_' || c == '$'

lemma isKeyChar_of_mem (bare : isBareKey key.toList = true) : ∀ c ∈ key.toList, isKeyChar c = true := by
  unfold isBareKey at bare
  split at bare
  · cases bare
  · rename_i c cs text
    rw [text]
    simp only [Bool.and_eq_true, List.all_eq_true] at bare
    refine List.forall_mem_cons.2 ⟨?_, bare.2⟩
    have start := bare.1
    simp only [isKeyChar, Text.isAlphanumeric, Bool.or_eq_true] at start ⊢
    rcases start with (start | start) | start
    all_goals simp [start]

lemma ne_nil_of_isBareKey (bare : isBareKey key.toList = true) : key.toList ≠ [] := by
  intro nil
  rw [nil] at bare
  cases bare

/-- A key is read up to the colon behind it. -/
lemma keyText_append_inj (same : keyText a ++ ':' :: r = keyText b ++ ':' :: r') : a = b ∧ r = r' := by
  have mixed {a b : String} (bare : isBareKey a.toList = true) {r r' : List Char} :
      a.toList ++ ':' :: r ≠ Text.quoted b.toList ++ ':' :: r' := by
    intro same
    obtain ⟨c, cs, text⟩ := List.exists_cons_of_ne_nil (ne_nil_of_isBareKey bare)
    have start := isKeyChar_of_mem bare c (by rw [text]; exact List.mem_cons_self)
    rw [text] at same
    rw [(List.cons.inj same).1] at start
    exact absurd start (by decide)
  unfold keyText at same
  by_cases bareA : isBareKey a.toList = true
  · by_cases bareB : isBareKey b.toList = true
    · rw [if_pos bareA, if_pos bareB] at same
      have colon : ¬ isKeyChar ':' = true := by decide
      have upTo {a : String} (bare : isBareKey a.toList = true) (r : List Char) :
          (a.toList ++ ':' :: r).takeWhile isKeyChar = a.toList := by
        rw [List.takeWhile_append_of_pos (isKeyChar_of_mem bare), List.takeWhile_cons_of_neg colon,
          List.append_nil]
      have keys : a.toList = b.toList := by rw [← upTo bareA r, same, upTo bareB r']
      rw [keys] at same
      exact ⟨String.toList_inj.1 keys, (List.cons.inj (List.append_cancel_left same)).2⟩
    · rw [if_pos bareA, if_neg bareB] at same
      exact absurd same (mixed bareA)
  · by_cases bareB : isBareKey b.toList = true
    · rw [if_neg bareA, if_pos bareB] at same
      exact absurd same.symm (mixed bareB)
    · rw [if_neg bareA, if_neg bareB] at same
      have read := Json.Reader.token?_quoted a (':' :: r)
      rw [same, Json.Reader.token?_quoted] at read
      cases read
      exact ⟨rfl, rfl⟩

end Keys

/-! ### Arrays -/

/-- The brackets of so many arrays. -/
def brackets (n : Nat) : List Char :=
  (List.replicate n "[]".toList).flatten

/-- Whether a kind is that of no array. -/
def isCore : Kind → Bool
  | array _ => false
  | _ => true

/-- No bracket begins a text. -/
def Stops (r : List Char) : Prop :=
  r.head? ≠ some '['

section Arrays

variable {m n : Nat} {r r' : List Char} {k : Kind}

lemma chars_array (a : Kind) : (array a).chars = a.chars ++ "[]".toList :=
  rfl

lemma brackets_succ (n : Nat) : brackets (n + 1) = "[]".toList ++ brackets n :=
  rfl

lemma brackets_append_inj (stops : Stops r) (stops' : Stops r')
    (same : brackets m ++ r = brackets n ++ r') : m = n ∧ r = r' := by
  induction m generalizing n with
  | zero =>
    cases n with
    | zero => exact ⟨rfl, same⟩
    | succ n =>
      have head := congrArg List.head? same
      exact absurd head stops
  | succ m ih =>
    cases n with
    | zero =>
      have head := congrArg List.head? same
      exact absurd head.symm stops'
    | succ n =>
      rw [brackets_succ, brackets_succ, List.append_assoc, List.append_assoc] at same
      obtain ⟨rfl, rest⟩ := ih (List.append_cancel_left same)
      exact ⟨rfl, rest⟩

lemma chars_iterate_array (n : Nat) (k : Kind) : (array^[n] k).chars = k.chars ++ brackets n := by
  induction n generalizing k with
  | zero => exact (List.append_nil _).symm
  | succ n ih =>
    rw [Function.iterate_succ_apply, ih, chars_array, brackets_succ, List.append_assoc]

/-- A kind is that of arrays of arrays of something that is none. -/
lemma exists_core : ∀ k : Kind, ∃ n c, isCore c = true ∧ k = array^[n] c
  | array a => by
    obtain ⟨n, c, core, rfl⟩ := exists_core a
    exact ⟨n + 1, c, core, (Function.iterate_succ_apply' array n c).symm⟩
  | number | string | boolean | null | any | void | object _ => ⟨0, _, rfl, rfl⟩

end Arrays

/-! ### Kinds without parts -/

/-- The kinds without parts. -/
def words : List Kind :=
  [number, string, boolean, null, any, void, object []]

section Words

variable {k c : Kind} {e d : String × Kind} {es ds : List (String × Kind)} {x y : List Char}

lemma mem_words : ∀ k : Kind, isCore k = true → k ∈ words ∨ ∃ e es, k = object (e :: es)
  | array _, core => by cases core
  | object (e :: es), _ => .inr ⟨e, es, rfl⟩
  | number, _ | string, _ | boolean, _ | null, _ | any, _ | void, _ | object [], _ => .inl (by decide)

lemma chars_object (e : String × Kind) (es : List (String × Kind)) :
    (object (e :: es)).chars = "\x7b ".toList ++ (entryChars (e :: es) ++ " \x7d".toList) :=
  rfl

/-- No text of a kind without parts begins another one. -/
lemma eq_of_words (hk : k ∈ words) (hc : c ∈ words) (same : k.chars ++ x = c.chars ++ y) :
    k = c ∧ x = y := by
  have apart : ∀ k ∈ words, ∀ c ∈ words, k.chars <+: c.chars → k = c := by decide
  obtain rfl : k = c := by
    rcases List.prefix_or_prefix_of_prefix ⟨x, same⟩ ⟨y, rfl⟩ with le | le
    · exact apart k hk c hc le
    · exact (apart c hc k hk le).symm
  exact ⟨rfl, List.append_cancel_left same⟩

/-- No text of a kind without parts begins like that of an object with entries. -/
lemma ne_of_words (hk : k ∈ words) : k.chars ++ x ≠ (object (e :: es)).chars ++ y := by
  have apart : ∀ k ∈ words, ¬ k.chars <+: "\x7b ".toList ∧ ¬ "\x7b ".toList <+: k.chars := by decide
  intro same
  rw [chars_object, List.append_assoc] at same
  rcases List.prefix_or_prefix_of_prefix ⟨x, same⟩ ⟨_, rfl⟩ with le | le
  · exact (apart k hk).1 le
  · exact (apart k hk).2 le

lemma word_append_inj {m n : Nat} {r r' : List Char} (hk : k ∈ words) (core : isCore c = true)
    (stops : Stops r) (stops' : Stops r')
    (same : k.chars ++ (brackets m ++ r) = c.chars ++ (brackets n ++ r')) :
    array^[m] k = array^[n] c ∧ r = r' := by
  rcases mem_words c core with hc | ⟨d, ds, rfl⟩
  · obtain ⟨rfl, behind⟩ := eq_of_words hk hc same
    obtain ⟨rfl, rest⟩ := brackets_append_inj stops stops' behind
    exact ⟨rfl, rest⟩
  · exact absurd same (ne_of_words hk)

end Words

/-! ### Entries -/

/-- What stands behind the kind of an entry. -/
def behindEntry (es : List (String × Kind)) (r : List Char) : List Char :=
  match es with
  | [] => ' ' :: '\x7d' :: r
  | e :: es => ';' :: ' ' :: (entryChars (e :: es) ++ ' ' :: '\x7d' :: r)

section Entries

variable {es : List (String × Kind)} {r : List Char}

lemma entryChars_cons (key : String) (a : Kind) (es : List (String × Kind)) (r : List Char) :
    entryChars ((key, a) :: es) ++ ' ' :: '\x7d' :: r =
      keyText key ++ ':' :: ' ' :: (a.chars ++ behindEntry es r) := by
  have last (key : String) (a : Kind) : entryChars [(key, a)] = keyText key ++ ": ".toList ++ a.chars := rfl
  have more (key : String) (a : Kind) (e : String × Kind) (es : List (String × Kind)) :
    entryChars ((key, a) :: e :: es) =
      keyText key ++ ": ".toList ++ a.chars ++ "; ".toList ++ entryChars (e :: es) := rfl
  cases es with
  | nil =>
    rw [last, List.append_assoc, List.append_assoc]
    rfl
  | cons e es =>
    rw [more]
    simp only [List.append_assoc]
    rfl

lemma stops_behindEntry (es : List (String × Kind)) (r : List Char) : Stops (behindEntry es r) := by
  cases es
  all_goals simp [Stops, behindEntry]

end Entries

mutual

/-- Behind brackets and what is none, a kind is read as it was written. -/
lemma core_append_inj : ∀ (k : Kind) {c : Kind} {m n : Nat} {r r' : List Char}, isCore c = true →
    Stops r → Stops r' → k.chars ++ (brackets m ++ r) = c.chars ++ (brackets n ++ r') →
    array^[m] k = array^[n] c ∧ r = r'
  | array a, c, m, n, r, r', core, stops, stops', same => by
    refine core_append_inj a (m := m + 1) core stops stops' ?_
    rw [brackets_succ]
    rw [chars_array] at same
    simpa only [List.append_assoc] using same
  | object (e :: es), c, m, n, r, r', core, stops, stops', same => by
    rcases mem_words c core with hc | ⟨d, ds, rfl⟩
    · exact absurd same.symm (ne_of_words hc)
    · simp only [chars_object, List.append_assoc] at same
      obtain ⟨here, behind⟩ := entries_append_inj (e :: es) (List.cons_ne_nil e es)
        (List.cons_ne_nil d ds) (List.append_cancel_left same)
      obtain ⟨rfl, rest⟩ := brackets_append_inj stops stops' behind
      exact ⟨by rw [here], rest⟩
  | object [], _, _, _, _, _, core, stops, stops', same
  | number, _, _, _, _, _, core, stops, stops', same
  | string, _, _, _, _, _, core, stops, stops', same
  | boolean, _, _, _, _, _, core, stops, stops', same
  | null, _, _, _, _, _, core, stops, stops', same
  | any, _, _, _, _, _, core, stops, stops', same
  | void, _, _, _, _, _, core, stops, stops', same =>
    word_append_inj (by decide) core stops stops' same

/-- Before the closing brace, entries are read as they were written. -/
lemma entries_append_inj : ∀ (es : List (String × Kind)) {ds : List (String × Kind)} {r r' : List Char},
    es ≠ [] → ds ≠ [] → entryChars es ++ ' ' :: '\x7d' :: r = entryChars ds ++ ' ' :: '\x7d' :: r' →
    es = ds ∧ r = r'
  | [], _, _, _, ne, _, _ => absurd rfl ne
  | _, [], _, _, _, ne, _ => absurd rfl ne
  | (key, a) :: es, (key', b) :: ds, r, r', _, _, same => by
    rw [entryChars_cons, entryChars_cons] at same
    obtain ⟨rfl, value⟩ := keyText_append_inj same
    obtain ⟨n, c, core, rfl⟩ := exists_core b
    rw [List.cons.injEq, chars_iterate_array, List.append_assoc] at value
    obtain ⟨rfl, rest⟩ : a = array^[n] c ∧ behindEntry es r = behindEntry ds r' :=
      core_append_inj a (m := 0) core (stops_behindEntry es r) (stops_behindEntry ds r') value.2
    match es, ds, rest with
    | [], [], rest => exact ⟨rfl, by cases rest; rfl⟩
    | [], _ :: _, rest | _ :: _, [], rest => cases rest
    | e :: es, d :: ds, rest =>
      obtain ⟨more, rest⟩ := entries_append_inj (e :: es) (List.cons_ne_nil e es)
        (List.cons_ne_nil d ds) (List.cons.inj (List.cons.inj rest).2).2
      exact ⟨by rw [more], rest⟩

end

/-- A kind is read as it was written, and so is what stands behind it. -/
lemma chars_append_inj {k l : Kind} {r r' : List Char} (stops : Stops r) (stops' : Stops r')
    (same : k.chars ++ r = l.chars ++ r') : k = l ∧ r = r' := by
  obtain ⟨n, c, core, rfl⟩ := exists_core l
  rw [chars_iterate_array, List.append_assoc] at same
  exact core_append_inj k (m := 0) core stops stops' same

/-- Kinds with the same text are equal. -/
theorem text_inj {k l : Kind} : k.text = l.text ↔ k = l := by
  refine ⟨fun same => ?_, fun same => same ▸ rfl⟩
  have stops : Stops [] := by simp [Stops]
  have chars : k.chars ++ [] = l.chars ++ [] := by
    rw [List.append_nil, List.append_nil]
    exact String.ofList_inj.1 same
  exact (chars_append_inj stops stops chars).1

end ScriptTyping.Kind
