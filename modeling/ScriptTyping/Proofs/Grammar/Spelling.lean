import Mathlib.Algebra.Group.Nat.Defs
import Mathlib.Tactic.Lemma
import ScriptTyping.Grammar.Language
import ScriptTyping.Proofs.Peg.Progress
import ScriptTyping.Proofs.Peg.Yield
import ScriptTyping.Proofs.Phrases.Expression

/-!
# What tokens are made of

A token is read without gaps, so its text is spelled by the expression of its rule. From this follows
what the reading of tokens relies on: a word is one of those of its rule, a quoted text has a quote
on either side of its body, a regular expression has a slash on either side of its pattern and none
after it, and a number is made of digits of its base.

* `start_lt_stop`: only four rules may match nothing.
* `inner?_of_string`, `inner?_of_template`, `regexValue?_of_regex`: no slice of a token falls out of
  its text.
* `number?_eq_none_iff`: a number has no value exactly when the digits after its prefix denote too
  much.
-/

namespace ScriptTyping.Grammar
open Peg Peg.Expr

/-- A whole word is one of those that are given. -/
lemma spells_wholeWord {w : String} {ws : List String} {cs : List Char} :
    Spells (wholeWord (w :: ws)) cs ↔ ∃ v ∈ w :: ws, cs = v.toList := by
  rw [wholeWord, spells_seq]
  simp only [List.map_cons, spells_oneOf, spells_notAhead]
  constructor
  · rintro ⟨xs, _, rfl, ⟨a, ha, hxs⟩, rfl⟩
    rw [← List.map_cons] at ha
    obtain ⟨v, hv, rfl⟩ := List.mem_map.1 ha
    exact ⟨v, hv, by simpa [token] using hxs⟩
  · rintro ⟨v, hv, rfl⟩
    refine ⟨v.toList, [], by simp, ⟨token v, ?_, rfl⟩, rfl⟩
    rw [← List.map_cons]
    exact List.mem_map_of_mem hv

/-- The rules of which a match reads at least one character. -/
def isConsuming : Rule → Bool
  | .endOfInput | .program | .patternItem | .arrayItem => false
  | _ => true

lemma consumes_body (r : Rule) (h : isConsuming r = true) :
    Consumes isConsuming (body r) = true := by
  have each : ∀ r ∈ Rule.all, isConsuming r = true → Consumes isConsuming (body r) = true := by
    decide +kernel
  exact each r r.mem_all h

/-- A match of such a rule covers some text. -/
lemma start_lt_stop {source : List Char} {t : Peg.Tree Rule} (h : t.IsRead language source)
    (consuming : isConsuming t.rule = true) : t.start < t.stop :=
  h.start_lt_stop consumes_body consuming

/-- The rules whose matches are names. -/
def isName : Rule → Bool
  | .identifier | .propertyIdentifier | .metaObject | .metaName => true
  | _ => false

lemma kind_of_isName {r : Rule} (name : isName r = true) : kind r = .atomic := by
  cases r
  all_goals first
    | rfl
    | cases name

/-- The rules that may be called within a token. -/
def isCalledWithin : Rule → Bool
  | .templateHolePart | .templateLiteral | .string => true
  | _ => false

/-- A token has no parts. -/
lemma children_of_atomic {source : List Char} {t : Peg.Tree Rule} (h : t.IsRead language source)
    (atomic : kind t.rule = .atomic) : t.children = [] := by
  have calls : ∀ r ∈ Rule.all, kind r = .atomic → (body r).callsOnly isCalledWithin = true := by
    decide +kernel
  have closed : ∀ r ∈ Rule.all, isCalledWithin r = true →
      (kind r = .atomic ∨ kind r = .silent) ∧ (body r).callsOnly isCalledWithin = true := by
    decide +kernel
  obtain ⟨_, _, m, q, _, reads, _, below⟩ := h
  rw [below]
  refine reads.trees_eq_nil_of_atomic (fun r => closed r r.mem_all) ?_ (.inr (calls _ (Rule.mem_all _) atomic))
  rw [show language.kind t.rule = .atomic from atomic]
  rfl

end ScriptTyping.Grammar

namespace ScriptTyping.Text

/-- What stands between two texts is the slice from the end of the one to the beginning of the
other. -/
lemma slice?_append (a b c : List Char) :
    slice? (a ++ (b ++ c)) (byteLength a) (byteLength a + byteLength b) = some b := by
  rw [slice?, if_pos (Nat.le_add_right _ _), splitBytes?_append]
  simp only [Nat.add_sub_cancel_left, splitBytes?_append, Option.map_some]

end ScriptTyping.Text

namespace ScriptTyping.Reading
open Peg Peg.Expr

section Quoted

variable {cs : List Char}

/-- A text between two characters of one byte has an inside. -/
lemma inner?_of_between {x y : Char} (hx : x.utf8Size = 1) (hy : y.utf8Size = 1)
    (body : List Char) : inner? (x :: (body ++ [y])) = some body := by
  have whole : Text.byteLength (x :: (body ++ [y])) - 1 =
      Text.byteLength [x] + Text.byteLength body := by
    simp [hx, hy, Nat.add_comm]
  have one : (1 : Nat) = Text.byteLength [x] := by simp [hx]
  rw [inner?, whole]
  conv => lhs; rw [one]
  exact Text.slice?_append [x] body [y]

/-- A string stands between two quotes. -/
lemma inner?_of_string (h : Spells Grammar.string cs) : ∃ body, inner? cs = some body := by
  rcases h with h | h
  all_goals
    simp only [Grammar.quoted, all, token, spells_seq, spells_text] at h
    obtain ⟨_, _, rfl, rfl, body, _, rfl, _, rfl⟩ := h
    exact ⟨body, inner?_of_between rfl rfl body⟩

/-- A template stands between two backticks. -/
lemma inner?_of_template (h : Spells Grammar.templateLiteral cs) :
    ∃ body, inner? cs = some body := by
  simp only [Grammar.templateLiteral, all, token, spells_seq, spells_text] at h
  obtain ⟨_, _, rfl, rfl, body, _, rfl, _, rfl⟩ := h
  exact ⟨body, inner?_of_between rfl rfl body⟩

end Quoted

section Regex

/-- The last slash is the one that no other follows. -/
lemma lastSlash_eq (before after : List Char) (h : ∀ x ∈ after, x ≠ '/') :
    lastSlash (before ++ '/' :: after) = Text.byteLength before := by
  have flags : (before ++ '/' :: after).reverse.takeWhile (· != '/') = after.reverse := by
    rw [List.reverse_append, List.reverse_cons, List.append_assoc, List.takeWhile_append_of_pos]
    · simp
    · intro x hx
      simpa using h x (List.mem_reverse.1 hx)
  rw [lastSlash, flags]
  have len : (before ++ '/' :: after).length - after.reverse.length - 1 = before.length := by
    simp only [List.length_append, List.length_cons, List.length_reverse]
    omega
  rw [len, List.take_left']
  rfl

/-- A regular expression has a pattern between its slashes and flags after them. -/
lemma regexValue?_of_regex {cs : List Char} (h : Spells Grammar.regex cs) :
    ∃ v, regexValue? cs = some v := by
  simp only [Grammar.regex, all, token, spells_seq, spells_text, plus] at h
  obtain ⟨_, _, rfl, rfl, _, _, rfl, rfl, pattern, _, rfl, -, _, flags, rfl, rfl, hflags⟩ := h
  have free : ∀ x ∈ flags, x ≠ '/' := by
    rintro x hx rfl
    have := forall_of_spells_star_char hflags '/' hx
    revert this
    decide
  have whole : "/".toList ++ ([] ++ (pattern ++ ("/".toList ++ flags))) =
      ('/' :: pattern) ++ '/' :: flags := rfl
  have last := lastSlash_eq ('/' :: pattern) flags free
  have slash : ('/' : Char).utf8Size = 1 := rfl
  have first : Text.slice? (('/' :: pattern) ++ '/' :: flags) 1
      (max (Text.byteLength ('/' :: pattern)) 1) = some pattern := by
    have := Text.slice?_append ['/'] pattern ('/' :: flags)
    simp only [Text.byteLength_cons, Text.byteLength_nil, slash] at this ⊢
    rwa [Nat.max_eq_left (Nat.le_add_right _ _)]
  have rest : Text.slice? (('/' :: pattern) ++ '/' :: flags)
      (Text.byteLength ('/' :: pattern) + 1)
      (Text.byteLength (('/' :: pattern) ++ '/' :: flags)) = some flags := by
    have := Text.slice?_append (('/' :: pattern) ++ ['/']) flags []
    simp only [Text.byteLength_append, Text.byteLength_cons, Text.byteLength_nil, slash,
      List.append_nil, List.append_assoc, List.singleton_append] at this ⊢
    rwa [Nat.add_assoc _ 1 (Text.byteLength flags)] at this
  rw [whole, regexValue?, last, first, Option.bind_some, rest]
  exact ⟨_, rfl⟩

end Regex

end ScriptTyping.Reading

namespace ScriptTyping.Literal
open Peg Peg.Expr

/-- Digits of a base denote something. -/
lemma digits?_of_forall {base : Nat} {cs : List Char} (ne : cs ≠ [])
    (h : ∀ c ∈ cs, isDigitOf base c = true) : digits? base cs = some (digitsValue base cs) :=
  if_pos ⟨ne, List.all_eq_true.2 h⟩

section Digits

variable {c : Char}

lemma isDigitOf_ten (h : c.isDigit = true) : isDigitOf 10 c = true := by
  have low : '0'.toNat ≤ c.toNat ∧ c.toNat ≤ '9'.toNat := by
    simpa [Char.isDigit, UInt32.le_iff_toNat_le] using h
  simp only [isDigitOf, digitValue, h, Bool.true_or, Bool.true_and, if_true, decide_eq_true_eq]
  have : '0'.toNat = 48 ∧ '9'.toNat = 57 := by decide
  omega

lemma isDigitOf_sixteen (h : Grammar.isHexDigit c = true) : isDigitOf 16 c = true := by
  have bound : digitValue c < 16 := by
    rw [digitValue]
    split
    · have := isDigitOf_ten ‹_›
      simp_all [isDigitOf, digitValue]
      omega
    · split
      · rename_i low
        have : c.toNat ≤ 'f'.toNat := low.2
        have : 'a'.toNat = 97 ∧ 'f'.toNat = 102 := by decide
        omega
      · split
        · rename_i high
          have : c.toNat ≤ 'F'.toNat := high.2
          have : 'A'.toNat = 65 ∧ 'F'.toNat = 70 := by decide
          omega
        · omega
  rw [isDigitOf, Bool.and_eq_true]
  exact ⟨h, decide_eq_true bound⟩

lemma isDigitOf_eight (h : Grammar.isOctDigit c = true) : isDigitOf 8 c = true := by
  have bounds : '0' ≤ c ∧ c ≤ '7' := by simpa [Grammar.isOctDigit] using h
  have low : '0'.toNat ≤ c.toNat := bounds.1
  have high : c.toNat ≤ '7'.toNat := bounds.2
  have digit : c.isDigit = true := by
    have : c ≤ '9' := Char.le_trans bounds.2 (by decide)
    simpa [Char.isDigit] using ⟨bounds.1, this⟩
  have : '0'.toNat = 48 ∧ '7'.toNat = 55 := by decide
  simp only [isDigitOf, digitValue, digit, Bool.true_or, Bool.true_and, if_true, decide_eq_true_eq]
  omega

lemma isDigitOf_two (h : Grammar.isBinDigit c = true) : isDigitOf 2 c = true := by
  obtain rfl | rfl : c = '0' ∨ c = '1' := by simpa [Grammar.isBinDigit] using h
  all_goals decide

end Digits

/-- The digits after the prefix of a number denote more than is told. -/
def Overflows (raw : List Char) : Prop :=
  ∃ base digits, basePrefix? (raw.filter (· != '_')) = some (base, digits) ∧
    2 ^ 64 ≤ digitsValue base digits

/-- The letters that announce a base. -/
def baseLetters : List Char :=
  ['x', 'X', 'o', 'O', 'b', 'B']

/-- A number with a prefix is a zero, a letter, and digits with underscores among them. -/
lemma number?_of_prefixed {letters raw : List Char} {p : Char → Bool} {base : Nat}
    (announces : ∀ x ∈ letters, ∀ cs, basePrefix? ('0' :: x :: cs) = some (base, cs))
    (plain : ∀ x ∈ letters, x ≠ '_') (digit : ∀ c, p c = true → isDigitOf base c = true)
    (bar : p '_' = false) (h : Spells (Grammar.prefixed letters p) raw) :
    ∃ digits, basePrefix? (raw.filter (· != '_')) = some (base, digits) ∧
      digits? base digits = some (digitsValue base digits) := by
  simp only [Grammar.prefixed, Grammar.charIn, all, token, spells_seq, spells_text, spells_char] at h
  obtain ⟨_, _, rfl, rfl, _, _, rfl, ⟨x, rfl, hx⟩, _, ds, rfl, ⟨d, rfl, hd⟩, hds⟩ := h
  have hx : x ∈ letters := by simpa using hx
  have each : ∀ c ∈ ds, p c = true ∨ c = '_' := by
    refine forall_of_spells_star (fun xs hxs => ?_) hds
    rcases hxs with ⟨y, rfl, hy⟩ | hy
    · exact ⟨y, rfl, .inl hy⟩
    · exact ⟨'_', hy, .inr rfl⟩
  have hd' : d ≠ '_' := by
    rintro rfl
    simp [bar] at hd
  refine ⟨d :: ds.filter (· != '_'), ?_, digits?_of_forall (by simp) ?_⟩
  · rw [← announces x hx]
    simp [plain x hx, hd']
  · intro c hc
    rcases List.mem_cons.1 hc with rfl | hc
    · exact digit c hd
    · obtain ⟨mem, ne⟩ := List.mem_filter.1 hc
      rcases each c mem with hp | rfl
      · exact digit c hp
      · simp at ne

/-- Only some letters announce a base. -/
lemma basePrefix?_eq_none {cs : List Char} (h : ∀ c ∈ cs, c ∉ baseLetters) :
    basePrefix? cs = none := by
  fun_cases basePrefix? cs
  all_goals simp_all [baseLetters]

/-- What may follow the whole part of a decimal number: nothing, or a point and digits. -/
def IsFraction (cs : List Char) : Prop :=
  cs = [] ∨ ∃ ds, cs = '.' :: ds ∧ ∀ c ∈ ds, c.isDigit = true

/-- What may end a decimal number: nothing, or a mark, perhaps a sign, and digits. -/
def IsExponent (cs : List Char) : Prop :=
  cs = [] ∨ ∃ mark sign ds, cs = mark :: (sign ++ ds) ∧ isExponentMark mark = true ∧
    sign ∈ [[], ['+'], ['-']] ∧ ds ≠ [] ∧ ∀ c ∈ ds, c.isDigit = true

section Decimal

variable {whole fraction exponent cs : List Char}

lemma not_isExponentMark {c : Char} (h : c.isDigit = true) : isExponentMark c = false := by
  refine Bool.eq_false_iff.2 fun mark => ?_
  obtain rfl | rfl : c = 'e' ∨ c = 'E' := by simpa [isExponentMark] using mark
  all_goals simp at h

lemma ne_of_isDigit {c d : Char} (h : c.isDigit = true) (hd : d.isDigit = false) : c ≠ d := by
  rintro rfl
  rw [h] at hd
  cases hd

lemma exponent?_of_isExponent (h : IsExponent cs) : ∃ i, exponent? cs = some i := by
  obtain rfl | ⟨mark, sign, ds, rfl, -, hsign, ne, hds⟩ := h
  · exact ⟨0, rfl⟩
  · have value := digits?_of_forall ne fun c hc => isDigitOf_ten (hds c hc)
    obtain ⟨d, ds, rfl⟩ := List.exists_cons_of_ne_nil ne
    have hd : d.isDigit = true := hds d (by simp)
    have minus : d ≠ '-' := ne_of_isDigit hd (by decide)
    have plus : d ≠ '+' := ne_of_isDigit hd (by decide)
    simp only [List.mem_cons, List.not_mem_nil, or_false] at hsign
    obtain rfl | rfl | rfl := hsign
    · rw [List.nil_append, exponent?.eq_4]
      · rw [value]
        exact ⟨_, rfl⟩
      · rintro _ e
        exact minus (List.cons.inj e).1
      · rintro _ e
        exact plus (List.cons.inj e).1
    · rw [List.singleton_append, exponent?, value]
      exact ⟨_, rfl⟩
    · rw [List.singleton_append, exponent?, value]
      exact ⟨_, rfl⟩

/-- A whole part, a fraction and an exponent, of which one of the first two has digits, make up a
decimal number. -/
lemma decimal?_of_parts (hwhole : ∀ c ∈ whole, c.isDigit = true) (hfraction : IsFraction fraction)
    (hexponent : IsExponent exponent) (ne : whole ++ fraction.drop 1 ≠ []) :
    ∃ m, decimal? (whole ++ (fraction ++ exponent)) = some m := by
  have plain : ∀ c ∈ whole ++ fraction, (!isExponentMark c) = true := by
    intro c hc
    rcases List.mem_append.1 hc with hc | hc
    · rw [not_isExponentMark (hwhole c hc)]; rfl
    · obtain rfl | ⟨ds, rfl, hds⟩ := hfraction
      · simp at hc
      · rcases List.mem_cons.1 hc with rfl | hc
        · rfl
        · rw [not_isExponentMark (hds c hc)]; rfl
  -- The text falls apart at the mark of the exponent, and what is in front of it at the point.
  have stops : exponent.takeWhile (!isExponentMark ·) = [] ∧
      exponent.dropWhile (!isExponentMark ·) = exponent := by
    obtain rfl | ⟨mark, sign, ds, rfl, hmark, -⟩ := hexponent
    · exact ⟨rfl, rfl⟩
    · simp [hmark]
  have points : fraction.takeWhile (· != '.') = [] ∧ fraction.dropWhile (· != '.') = fraction := by
    obtain rfl | ⟨ds, rfl, -⟩ := hfraction
    · exact ⟨rfl, rfl⟩
    · simp
  have pointless : ∀ c ∈ whole, (c != '.') = true := by
    intro c hc
    simpa using ne_of_isDigit (hwhole c hc) (by decide)
  have digits : ∀ c ∈ whole ++ fraction.drop 1, isDigitOf 10 c = true := by
    intro c hc
    rcases List.mem_append.1 hc with hc | hc
    · exact isDigitOf_ten (hwhole c hc)
    · obtain rfl | ⟨ds, rfl, hds⟩ := hfraction
      · simp at hc
      · exact isDigitOf_ten (hds c hc)
  obtain ⟨i, hi⟩ := exponent?_of_isExponent hexponent
  rw [← List.append_assoc, decimal?]
  simp only [List.takeWhile_append_of_pos plain, List.dropWhile_append_of_pos plain, stops,
    List.append_nil, List.takeWhile_append_of_pos pointless,
    List.dropWhile_append_of_pos pointless, points, hi, digits?_of_forall ne digits,
    Option.bind_some, Option.map_some]
  exact ⟨_, rfl⟩

/-- No base is announced by a decimal number. -/
lemma basePrefix?_of_parts (hwhole : ∀ c ∈ whole, c.isDigit = true)
    (hfraction : IsFraction fraction) (hexponent : IsExponent exponent) :
    basePrefix? (whole ++ (fraction ++ exponent)) = none := by
  have digit : ∀ c : Char, c.isDigit = true → c ∉ baseLetters := by
    intro c hc mem
    simp only [baseLetters, List.mem_cons, List.not_mem_nil, or_false] at mem
    obtain rfl | rfl | rfl | rfl | rfl | rfl := mem
    all_goals simp at hc
  refine basePrefix?_eq_none fun c hc => ?_
  rcases List.mem_append.1 hc with hc | hc
  · exact digit c (hwhole c hc)
  rcases List.mem_append.1 hc with hc | hc
  · obtain rfl | ⟨ds, rfl, hds⟩ := hfraction
    · simp at hc
    · rcases List.mem_cons.1 hc with rfl | hc
      · decide
      · exact digit c (hds c hc)
  · obtain rfl | ⟨mark, sign, ds, rfl, hmark, hsign, -, hds⟩ := hexponent
    · simp at hc
    · rcases List.mem_cons.1 hc with rfl | hc
      · obtain rfl | rfl : c = 'e' ∨ c = 'E' := by simpa [isExponentMark] using hmark
        all_goals decide
      rcases List.mem_append.1 hc with hc | hc
      · simp only [List.mem_cons, List.not_mem_nil, or_false] at hsign
        obtain rfl | rfl | rfl := hsign
        all_goals simp at hc
        all_goals subst hc; decide
      · exact digit c (hds c hc)

end Decimal

/-- Digits stay when underscores are left out. -/
lemma filter_of_digits {cs : List Char} (h : ∀ c ∈ cs, c.isDigit = true) :
    cs.filter (· != '_') = cs := by
  refine List.filter_eq_self.2 fun c hc => ?_
  simpa using ne_of_isDigit (h c hc) (by decide)

lemma isExponent_of_spells {raw : List Char} (h : Spells Grammar.exponent raw) :
    IsExponent (raw.filter (· != '_')) := by
  simp only [Grammar.exponent, all, plus, Grammar.charIn, Grammar.digit, spells_opt, spells_seq, spells_char] at h
  obtain rfl | ⟨_, _, rfl, ⟨mark, rfl, hmark⟩, sign, _, rfl, hsign, _, ds, rfl,
    ⟨d, rfl, hd⟩, hds⟩ := h
  · exact .inl rfl
  · have hds := forall_of_spells_star_char hds
    have digits : ∀ c ∈ [d] ++ ds, c.isDigit = true := by
      intro c hc
      rcases List.mem_cons.1 hc with rfl | hc
      · exact hd
      · exact hds c hc
    have hmark' : isExponentMark mark = true := by simpa [isExponentMark] using hmark
    obtain rfl | rfl : mark = 'e' ∨ mark = 'E' := by simpa using hmark
    all_goals
      refine .inr ⟨_, sign, [d] ++ ds, ?_, hmark', ?_, by simp, digits⟩
      · rcases hsign with rfl | ⟨x, rfl, hx⟩
        · simp [filter_of_digits hds, ne_of_isDigit hd]
        · obtain rfl | rfl : x = '+' ∨ x = '-' := by simpa using hx
          all_goals simp [filter_of_digits hds, ne_of_isDigit hd]
      · rcases hsign with rfl | ⟨x, rfl, hx⟩
        · simp
        · obtain rfl | rfl : x = '+' ∨ x = '-' := by simpa using hx
          all_goals simp

/-- A decimal number has a value, and announces no base. -/
lemma decimal?_of_spells {raw : List Char} (h : Spells Grammar.decimal raw) :
    basePrefix? (raw.filter (· != '_')) = none ∧
      ∃ m, decimal? (raw.filter (· != '_')) = some m := by
  obtain ⟨before, last, rfl, hbefore, hlast⟩ := h
  have hexponent := isExponent_of_spells hlast
  -- Without the underscores the mantissa is digits and a fraction.
  have parts : ∃ whole fraction, before.filter (· != '_') = whole ++ fraction ∧
      (∀ c ∈ whole, c.isDigit = true) ∧ IsFraction fraction ∧ whole ++ fraction.drop 1 ≠ [] := by
    simp only [all, plus, Grammar.digit, token, spells_choice, spells_opt, spells_seq, spells_text,
      spells_char] at hbefore
    rcases hbefore with ⟨_, _, rfl, ⟨d, rfl, hd⟩, ds, fraction, rfl, hds, hfraction⟩ |
      ⟨_, _, rfl, rfl, _, ds, rfl, ⟨d, rfl, hd⟩, hds⟩
    · have each : ∀ c ∈ ds, c.isDigit = true ∨ c = '_' := by
        refine forall_of_spells_star (fun xs hxs => ?_) hds
        rcases hxs with ⟨y, rfl, hy⟩ | hy
        · exact ⟨y, rfl, .inl hy⟩
        · exact ⟨'_', hy, .inr rfl⟩
      refine ⟨d :: ds.filter (· != '_'), fraction, ?_, ?_, ?_, by simp⟩
      · have kept : fraction.filter (· != '_') = fraction := by
          rcases hfraction with rfl | ⟨_, es, rfl, rfl, hes⟩
          · rfl
          · simp [filter_of_digits (forall_of_spells_star_char hes)]
        simp [kept, ne_of_isDigit hd]
      · intro c hc
        rcases List.mem_cons.1 hc with rfl | hc
        · exact hd
        · obtain ⟨mem, ne⟩ := List.mem_filter.1 hc
          rcases each c mem with digit | rfl
          · exact digit
          · simp at ne
      · rcases hfraction with rfl | ⟨_, es, rfl, rfl, hes⟩
        · exact .inl rfl
        · exact .inr ⟨es, rfl, forall_of_spells_star_char hes⟩
    · have hds := forall_of_spells_star_char hds
      refine ⟨[], '.' :: d :: ds, ?_, by simp, .inr ⟨d :: ds, rfl, ?_⟩, by simp⟩
      · simp [filter_of_digits hds, ne_of_isDigit hd]
      · intro c hc
        rcases List.mem_cons.1 hc with rfl | hc
        · exact hd
        · exact hds c hc
  obtain ⟨whole, fraction, e, hwhole, hfraction, ne⟩ := parts
  rw [List.filter_append, e, List.append_assoc]
  exact ⟨basePrefix?_of_parts hwhole hfraction hexponent,
    decimal?_of_parts hwhole hfraction hexponent ne⟩

/-- A number has no value exactly when the digits after its prefix denote too much. -/
lemma number?_eq_none_iff {raw : List Char} (h : Spells Grammar.number raw) :
    number? raw = none ↔ Overflows raw := by
  -- Only digits behind a prefix are kept in a word of the machine.
  have prefixed : (∃ base digits, basePrefix? (raw.filter (· != '_')) = some (base, digits) ∧
      digits? base digits = some (digitsValue base digits)) →
      (number? raw = none ↔ Overflows raw) := by
    rintro ⟨base, digits, announced, value⟩
    have overflows : Overflows raw ↔ 2 ^ 64 ≤ digitsValue base digits := by
      refine ⟨?_, fun le => ⟨base, digits, announced, le⟩⟩
      rintro ⟨_, _, e, le⟩
      rw [announced] at e
      cases e
      exact le
    rw [overflows, number?, announced]
    simp only [value, Option.bind_some, Nat.pow_eq]
    split
    · simp only [reduceCtorEq, false_iff]
      omega
    · simp only [true_iff]
      omega
  simp only [Grammar.number, spells_seq, spells_notAhead] at h
  obtain ⟨xs, _, rfl, spelled, rfl⟩ := h
  rw [List.append_nil] at prefixed ⊢
  obtain ⟨a, ha, spelled⟩ := spells_oneOf.1 spelled
  simp only [List.mem_cons, List.not_mem_nil, or_false] at ha
  obtain rfl | rfl | rfl | rfl := ha
  · refine prefixed ⟨16, ?_⟩
    exact number?_of_prefixed (by simp [basePrefix?]) (by simp) (fun _ => isDigitOf_sixteen)
      (by decide) spelled
  · refine prefixed ⟨8, ?_⟩
    exact number?_of_prefixed (by simp [basePrefix?]) (by simp) (fun _ => isDigitOf_eight)
      (by decide) spelled
  · refine prefixed ⟨2, ?_⟩
    exact number?_of_prefixed (by simp [basePrefix?]) (by simp) (fun _ => isDigitOf_two)
      (by decide) spelled
  · obtain ⟨announced, m, value⟩ := decimal?_of_spells spelled
    simp [number?, Overflows, announced, value]

end ScriptTyping.Literal
