import Mathlib.Data.List.DropRight
import ScriptTyping.Proofs.Grammar.Tokens
import ScriptTyping.Proofs.Reading.Clear
import ScriptTyping.Proofs.Reading.Whole

/-!
# Where matches end

The scan that takes blanks and comments off the end of a text reads it without regard to the grammar. As
long as it takes each token for what it is (`AllSeen`), what it leaves of a match are the tokens without the
gaps behind them (`trimTrailing_row`). Then each match ends with its last token, and the matches in it do not
end behind it (`ends_of_isSeen`).
-/

namespace ScriptTyping

namespace Peg.Token

variable {R : Type} {ts us own front back : List (Token R)} {t : Token R}

/-- Tokens without the gaps at their end. -/
def code (ts : List (Token R)) : List (Token R) :=
  ts.rdropWhile isGap

/-- There are gaps only, or a last token with nothing but gaps behind it. -/
lemma code_cases (ts : List (Token R)) : ((∀ t ∈ ts, t.isGap = true) ∧ code ts = []) ∨
    ∃ front t gaps, ts = front ++ t :: gaps ∧ t.isGap = false ∧ (∀ u ∈ gaps, u.isGap = true) ∧
      code ts = front ++ [t] := by
  by_cases none : code ts = []
  · exact .inl ⟨List.rdropWhile_eq_nil_iff.1 none, none⟩
  · have last := List.dropLast_append_getLast none
    have split : code ts ++ ts.rtakeWhile isGap = ts := List.rdropWhile_append_rtakeWhile ..
    refine .inr ⟨(code ts).dropLast, (code ts).getLast none, ts.rtakeWhile isGap, ?_, ?_, ?_, last.symm⟩
    · rw [← List.singleton_append, ← List.append_assoc, last, split]
    · exact Bool.eq_false_iff.2 (List.rdropWhile_last_not isGap ts none)
    · exact fun u hu => List.mem_rtakeWhile_imp hu

/-- What stands up to a token is left. -/
lemma prefix_code (solid : t.isGap = false) : ts ++ [t] <+: code (ts ++ t :: us) := by
  -- The tokens behind it are taken off from the end, and this stops at the token at the latest.
  induction us using List.reverseRecOn with
  | nil =>
    have left : code (ts ++ [t]) = ts ++ [t] := List.rdropWhile_concat_neg isGap ts t (by simp [solid])
    exact ⟨[], by rw [List.append_nil, left]⟩
  | append_singleton us u ih =>
    rw [← List.cons_append, ← List.append_assoc, code, List.rdropWhile_concat]
    split
    · exact ih
    · exact ⟨us ++ [u], by simp⟩

/-- What is left of a stretch that has a token is left of the whole. -/
lemma append_code_prefix (solid : ∃ t ∈ own, t.isGap = false) :
    front ++ code own <+: code (front ++ own ++ back) := by
  obtain ⟨none, -⟩ | ⟨before, t, gaps, rfl, here, -, left⟩ := code_cases own
  · obtain ⟨t, ht, here⟩ := solid
    rw [none t ht] at here
    cases here
  · rw [left]
    have kept : front ++ before ++ [t] <+: code (front ++ before ++ t :: (gaps ++ back)) := prefix_code here
    simpa using kept

end Peg.Token

namespace Reading
open Peg Grammar Scan

variable {c d : Cursor} {ts us : List (Token Rule)} {tok : Token Rule} {rest : List Char}
  {source : List Char} {t u : Peg.Tree Rule}

/-- Whether the scan for the end of a text takes a token for what it is, with the given text behind it. A
regular expression holds nothing that begins a comment or a quoted text for the scan, it closes a template
where this ends, and a gap is made of blanks and comments that it knows. -/
def Seen (rest : List Char) : Token Rule → Prop
  | .gap cs => Spacing rest cs
  | .word .regex cs => isStraight rest.head? cs = true
  | .word .templateLiteral cs => dropQuoted '\x60' (cs.tail ++ rest) = rest
  | _ => True

/-- The scan for the end of a text takes all of some tokens for what they are. -/
def AllSeen (rest : List Char) : List (Token Rule) → Prop
  | [] => True
  | t :: ts => Seen (Token.textOf ts ++ rest) t ∧ AllSeen rest ts

lemma allSeen_append : AllSeen rest (ts ++ us) ↔ AllSeen (Token.textOf us ++ rest) ts ∧ AllSeen rest us := by
  induction ts with
  | nil => simp [AllSeen]
  | cons t ts ih => simp [AllSeen, ih, and_assoc]

/-- A sign that is a bracket, or stands for itself. -/
def IsPlainSign (t : Token Rule) : Prop :=
  ∀ cs, t = .sign cs → (cs ≠ [] ∧ Lone cs) ∨ ∃ x ∈ openers ++ enders, cs = [x]

section Trimmed

/-- A word that is taken for what it is is code to its end. -/
lemma keeps_of_word {r : Rule} {cs : List Char} (stands : (Token.word r cs).Stands language c d)
    (seen : Seen d.rest (.word r cs)) : Scan.Keeps d.rest cs := by
  have shape := shape_of_word stands
  cases shape with
  | plain _ ne lone => exact keeps_of_isStraight (isStraight_of_lone lone.lone) ne lone.solid
  | quoted isQuote _ ends => exact keeps_quoted isQuote ends
  | template _ => exact keeps_quoted rfl seen
  | @pattern body flags parts _ _ _ =>
    refine keeps_of_isStraight seen (List.cons_ne_nil _ _) fun x hx => ?_
    have solid := (lone_of_ink fun x hx => isInk_of_isIdentPart (parts x hx)).solid
    rw [List.getLast?_cons, List.getLast?_append, List.getLast?_cons, Option.some_or, Option.getD_some] at hx
    obtain rfl := Option.some.inj hx
    cases last : flags.getLast? with
    | none => rfl
    | some y => exact solid y last
  | @slash _ cs _ _ lone noSlash noStar =>
    -- No comment begins with the operator, as neither a slash nor a star is next.
    refine keeps_of_isStraight ?_ (List.cons_ne_nil _ _) fun x hx => ?_
    · have next {y : Char} (no : (cs ++ d.rest).head? ≠ some y) : cs.head?.or d.rest.head? ≠ some y := by
        rwa [List.head?_append] at no
      rw [isStraight]
      · simp [isStraight_of_lone lone.lone, isQuote, next noSlash, next noStar]
      · simp
    · rw [List.getLast?_cons] at hx
      obtain rfl := Option.some.inj hx
      cases last : cs.getLast? with
      | none => rfl
      | some y => exact lone.solid y last

/-- A token that is taken for what it is is code to its end. -/
lemma keeps_of_seen (stands : tok.Stands language c d) (sign : IsPlainSign tok) (seen : Seen d.rest tok)
    (solid : tok.isGap = false) : Scan.Keeps d.rest tok.text := by
  cases tok with
  | word r cs => exact keeps_of_word stands seen
  | gap cs => cases solid
  | sign cs =>
    rcases sign cs rfl with ⟨ne, lone⟩ | ⟨x, bracket, rfl⟩
    · exact keeps_of_isStraight (isStraight_of_lone lone.lone) ne lone.solid
    · have each : ∀ x ∈ openers ++ enders, x ≠ '\\' ∧ isQuote x = false ∧ x ≠ '/' ∧
          Text.isAsciiBlank x = false := List.all_iff_forall_prop.mp (by decide)
      obtain ⟨escape, quote, slash, blank⟩ := each x bracket
      have straight : isStraight d.rest.head? [x] = true := by
        rw [isStraight]
        · simp [isStraight, quote, slash]
        · exact escape
      exact keeps_of_isStraight straight (List.cons_ne_nil _ _) (by simp [Token.text, blank])

/-- Gaps that are taken for what they are hold no code. -/
lemma afterCode_gaps (row : Row language ts c d) (seen : AllSeen d.rest ts)
    (gaps : ∀ t ∈ ts, t.isGap = true) (kept : List Char) : afterCode kept (Token.textOf ts) = kept := by
  induction row with
  | nil => rw [Token.textOf_nil, afterCode]
  | @cons t ts c d e stands rest ih =>
    cases t with
    | word | sign => cases gaps _ List.mem_cons_self
    | gap cs =>
      have drops : Drops (Token.textOf ts ++ e.rest) cs := Spacing.drops seen.1
      rw [Token.textOf_cons, Token.text, drops _ (.of_append _ _),
        ih seen.2 fun t ht => gaps t (List.mem_cons_of_mem _ ht)]

/-- Behind the last token no code is left. -/
lemma afterCode_row (row : Row language (ts ++ tok :: us) c d) (seen : AllSeen d.rest (ts ++ tok :: us))
    (signs : ∀ t ∈ ts ++ tok :: us, IsPlainSign t) (solid : tok.isGap = false)
    (gaps : ∀ t ∈ us, t.isGap = true) (kept : List Char) :
    afterCode kept (Token.textOf (ts ++ tok :: us)) = Token.textOf us := by
  -- The tokens in front are read one by one. A gap leaves what was kept as it is, and code replaces it; the
  -- last token replaces it once more, whatever it was.
  induction ts generalizing c kept with
  | nil =>
    cases row with
    | @cons _ _ _ e _ stands rest =>
      have leads := rest.leads.1
      have keeps : Scan.Keeps e.rest tok.text :=
        keeps_of_seen stands (signs tok List.mem_cons_self) (leads ▸ seen.1) solid
      rw [leads] at keeps
      rw [List.nil_append, Token.textOf_cons, keeps _ (.of_append _ _)]
      exact afterCode_gaps rest seen.2 gaps _
  | cons t ts ih =>
    cases row with
    | @cons _ _ _ e _ stands rest =>
      have rest : Row language (ts ++ tok :: us) e d := rest
      have leads := rest.leads.1
      have others (kept : List Char) := ih rest seen.2 (fun t ht => signs t (List.mem_cons_of_mem _ ht)) kept
      rw [List.cons_append, Token.textOf_cons]
      cases gap : t.isGap with
      | false =>
        have keeps : Scan.Keeps e.rest t.text :=
          keeps_of_seen stands (signs t List.mem_cons_self) (leads ▸ seen.1) gap
        rw [leads] at keeps
        rw [keeps _ (.of_append _ _), others]
      | true =>
        cases t with
        | word | sign => cases gap
        | gap cs =>
          have drops : Drops (Token.textOf (ts ++ tok :: us) ++ d.rest) cs := Spacing.drops seen.1
          rw [Token.text, drops _ (.of_append _ _), others]

/-- Trimming leaves the tokens without the gaps at their end. -/
lemma trimTrailing_row (row : Row language ts c d) (seen : AllSeen d.rest ts)
    (signs : ∀ t ∈ ts, IsPlainSign t) :
    trimTrailing (Token.textOf ts) = Token.textOf (Token.code ts) := by
  obtain ⟨gaps, none⟩ | ⟨front, t, gaps, rfl, solid, each, left⟩ := Token.code_cases ts
  · rw [none, trimTrailing, afterCode_gaps row seen gaps, Nat.sub_self, List.take_zero, Token.textOf_nil]
  · rw [left, trimTrailing, afterCode_row row seen signs solid each]
    have split : Token.textOf (front ++ t :: gaps) = Token.textOf (front ++ [t]) ++ Token.textOf gaps := by simp
    rw [split, List.length_append, Nat.add_sub_cancel, List.take_left]

/-- Every token is taken for what it is where nothing but blanks, strings and plain words and signs stand. -/
lemma allSeen_of_clear (row : Row language ts c d) (clear : ∀ x ∈ Token.textOf ts, isClear x = true) :
    AllSeen rest ts := by
  induction row with
  | nil => trivial
  | cons stands _ ih =>
    obtain ⟨here, others⟩ := List.forall_mem_append.1 clear
    refine ⟨?_, ih others⟩
    cases stands with
    | sign _ => trivial
    | gap reads => exact spacing_of_stands (.gap reads) here
    | @word r _ _ kind reads =>
      have shape := shape_of_word (.word kind reads)
      generalize Cursor.upTo _ _ = cs at here shape
      cases r with
      | regex =>
        cases shape with
        | plain _ _ lone => exact isStraight_of_lone lone.lone
        -- No slash is clear, and below no quote of a template.
        | pattern _ _ _ _ => cases here '/' (by simp [Token.text])
        | slash other _ _ _ _ => exact absurd rfl other
      | templateLiteral =>
        cases shape with
        | plain other _ _ => exact absurd rfl other
        | slash _ other _ _ _ => exact absurd rfl other
        | template _ => cases here '\x60' (by simp [Token.text])
      | _ => trivial

end Trimmed

section Trees

/-- The number of characters before the end of a match without the blanks and comments at its end. -/
def ending (t : Peg.Tree Rule) : Nat :=
  t.start + (trimTrailing t.text).length

/-- The blanks and comments that are taken off the end of a match are the gaps behind its last token. -/
def EndsWithToken (source : List Char) (t : Peg.Tree Rule) : Prop :=
  ∃ ts, t.Lexed language source ts ∧ trimTrailing t.text = Token.textOf (Token.code ts)

/-- A match is told in tokens that the scan for the end of a text takes for what they are. -/
def IsSeen (source : List Char) (t : Peg.Tree Rule) (ts : List (Token Rule)) : Prop :=
  t.Lexed language source ts ∧ ∃ d, Row language ts (t.place source) d ∧ AllSeen d.rest ts ∧
    ∀ t ∈ ts, IsPlainSign t

/-- The rules of items of which each may be missing. -/
def isItem (r : Rule) : Bool :=
  r matches .patternItem | .arrayItem

/-- A match that reads something. -/
def IsSolid (t : Peg.Tree Rule) : Prop :=
  isConsuming t.rule = true ∨ isItem t.rule = true ∧ t.children ≠ []

lemma IsSeen.endsWithToken (h : IsSeen source t ts) : EndsWithToken source t := by
  obtain ⟨lexed, d, row, seen, signs⟩ := h
  exact ⟨ts, lexed, lexed.1 ▸ trimTrailing_row row seen signs⟩

lemma IsSeen.ending_eq (h : IsSeen source t ts) :
    ending t = t.start + (Token.textOf (Token.code ts)).length := by
  obtain ⟨lexed, d, row, seen, signs⟩ := h
  rw [ending, lexed.1, trimTrailing_row row seen signs]

/-- The tokens of a match in another one are a stretch of its tokens. -/
lemma among_of_lexed (read : t.IsRead language source) (lexed : t.Lexed language source ts)
    (normal : language.kind t.rule = .normal) (hu : u ∈ t.children) :
    u.Among language source t.start ts := by
  obtain ⟨q, below, lexes⟩ := lexed.exists_lexes normal
  rw [below] at hu
  exact lexes.trees rfl ⟨rfl, read.1⟩ u hu

/-- A match that reads something has a token. -/
lemma exists_token_of_isSolid (read : t.IsRead language source) (lexed : t.Lexed language source ts)
    (solid : IsSolid t) : ∃ tok ∈ ts, tok.isGap = false := by
  have consuming {t : Peg.Tree Rule} {ts : List (Token Rule)} (lexed : t.Lexed language source ts)
      (consumes : isConsuming t.rule = true) : ∃ tok ∈ ts, tok.isGap = false := by
    obtain ⟨-, ⟨-, q, -, lexes⟩ | ⟨-, rfl⟩⟩ := lexed
    · obtain ⟨i, stop⟩ := lexes.reads.exists_stop consumes_body (consumes_body _ consumes)
      exact lexes.exists_token (by simp [stop])
    · exact ⟨_, List.mem_singleton_self _, rfl⟩
  rcases solid with consumes | ⟨item, ne⟩
  · exact consuming lexed consumes
  · -- What is there of an item is an argument or a parameter.
    obtain ⟨u, hu⟩ := List.exists_mem_of_ne_nil _ ne
    have normal : language.kind t.rule = .normal := by
      cases rule : t.rule <;> simp_all [isItem, language, ScriptTyping.Grammar.kind]
    have only : ∀ r ∈ Rule.all, isItem r = true →
        (body r).callsOnly (fun r => isConsuming r && r ≠ .templateHolePart) = true := by decide +kernel
    obtain ⟨r, ok, rule⟩ := (read.yields (.inl normal)).exists_rule
      (fun r ok => kind_ne_silent (of_decide_eq_true (Bool.and_eq_true_iff.1 ok).2))
      (only _ (Rule.mem_all _) item) u hu
    obtain ⟨front, own, back, rfl, -, lexedU⟩ := among_of_lexed read lexed normal hu
    obtain ⟨tok, mem, here⟩ := consuming lexedU (rule ▸ (Bool.and_eq_true_iff.1 ok).1)
    exact ⟨tok, by simp [mem], here⟩

/-- The tokens of a match in a match that is seen are seen, and it does not end behind this. -/
lemma IsSeen.child (h : IsSeen source t ts) (read : t.IsRead language source)
    (normal : language.kind t.rule = .normal) (hu : u ∈ t.children) :
    ∃ us, IsSeen source u us ∧ (IsSolid u → ending u ≤ ending t) := by
  have whole := h.ending_eq
  obtain ⟨lexed, d, row, seen, signs⟩ := h
  obtain ⟨front, own, back, rfl, start, lexedU⟩ := among_of_lexed read lexed normal hu
  obtain ⟨e, row, rowBack⟩ := row.split
  obtain ⟨c, rowFront, row⟩ := row.split
  have place : c = u.place source := by
    have within : c.Within source := Cursor.Within.leads ⟨rfl, read.1⟩ rowFront.leads
    have index : c.index = u.start := rowFront.leads.2.trans start.symm
    obtain ⟨i, r⟩ := c
    obtain rfl : i = u.start := index
    obtain rfl : r = source.drop u.start := within.1
    rfl
  rw [place] at row
  have rest := rowBack.leads.1
  obtain ⟨seen, -⟩ := allSeen_append.1 seen
  rw [← rest] at seen
  have seenU : IsSeen source u own :=
    ⟨lexedU, e, row, (allSeen_append.1 seen).2, fun t ht => signs t (by simp [ht])⟩
  refine ⟨own, seenU, fun solid => ?_⟩
  obtain ⟨more, longer⟩ : front ++ Token.code own <+: Token.code (front ++ own ++ back) :=
    Token.append_code_prefix (exists_token_of_isSolid (read.children u hu) lexedU solid)
  rw [whole, seenU.ending_eq, start, ← longer]
  simp only [Token.textOf_append, List.length_append]
  omega

/-- A label ends with its only token, and not behind the jump to it. -/
lemma ends_of_label (read : t.IsRead language source) (seen : IsSeen source t ts)
    (compound : language.kind t.rule = .compound) (hu : u ∈ t.children) :
    EndsWithToken source u ∧ ending u ≤ ending t ∧ u.children = [] := by
  have readU := read.children u hu
  have rule := identifier_of_compound read compound hu
  have atomic : language.kind u.rule = .atomic := by rw [rule]; rfl
  have whole : trimTrailing u.text = u.text := by
    obtain ⟨w, text⟩ := exists_word_of_isName readU (by rw [rule]; rfl)
    exact trimTrailing_of_word fun x hx => w.isIdentPart_of_mem (text ▸ hx)
  have own : u.Lexed language source [.word u.rule u.text] :=
    ⟨(List.append_nil _).symm, .inr ⟨.inl atomic, rfl⟩⟩
  refine ⟨⟨_, own, ?_⟩, ?_, children_of_atomic readU atomic⟩
  · rw [whole]
    exact own.1
  · obtain ⟨⟨text, ⟨normal, -⟩ | ⟨-, rfl⟩⟩, -⟩ := id seen
    · rw [compound] at normal
      cases normal
    · have jump : ending t = t.stop := by
        rw [seen.ending_eq]
        exact congrArg (t.start + List.length ·) text.symm
      rw [jump, ending, whole]
      exact read.spread.le_hi u hu

/-- If the scan for the end takes each token for what it is, each match ends with its last token, and no match
in it that reads something ends behind it. -/
theorem ends_of_isSeen (read : t.IsRead language source) : ∀ {ts}, IsSeen source t ts →
    ∀ v : Peg.Tree Rule, v.Under t →
      EndsWithToken source v ∧ ∀ u ∈ v.children, IsSolid u → ending u ≤ ending v := by
  refine Tree.IsRead.induction (P := fun t => ∀ {ts}, IsSeen source t ts → ∀ v : Peg.Tree Rule, v.Under t →
    EndsWithToken source v ∧ ∀ u ∈ v.children, IsSolid u → ending u ≤ ending v)
    (fun t read ih ts seen v below => ?_) t read
  cases kind : language.kind t.rule with
  | silent => exact absurd kind read.2.1
  | atomic =>
    have none := children_of_atomic read kind
    cases below with
    | self => exact ⟨seen.endsWithToken, by simp [none]⟩
    | inside hu => simp [none] at hu
  | compound =>
    -- A jump is one token, and its label lies in this.
    cases below with
    | self => exact ⟨seen.endsWithToken, fun u hu _ => (ends_of_label read seen kind hu).2.1⟩
    | inside hu below =>
      obtain ⟨ends, -, none⟩ := ends_of_label read seen kind hu
      cases below with
      | self => exact ⟨ends, by simp [none]⟩
      | inside hv => simp [none] at hv
  | normal =>
    cases below with
    | self =>
      refine ⟨seen.endsWithToken, fun u hu solid => ?_⟩
      obtain ⟨us, -, le⟩ := seen.child read kind hu
      exact le solid
    | inside hu below =>
      obtain ⟨us, seenU, -⟩ := seen.child read kind hu
      exact ih _ hu seenU _ below

end Trees

end Reading

end ScriptTyping
