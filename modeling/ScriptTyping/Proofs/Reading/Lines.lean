import ScriptTyping.Proofs.Reading.Boundaries
import ScriptTyping.Proofs.Reading.Terms

/-!
# Statements and line breaks

A statement that leaves what is around it stands on one line: between its keyword and its label are spaces
and tabs only, and where a line break follows the keyword, it ends (`text_of_jump`). What returns a value is
another matter. Between `return` and the value, and before an operator that stands after its operand, any
gap is passed over, and so are line breaks (`Script.lines_of_parse`).
-/

namespace ScriptTyping.Reading
open Peg Grammar Peg.Expr

/-- The characters that end a line. -/
def isLineBreak (x : Char) : Bool :=
  x == '\n' || x == '\r' || x == '\u2028' || x == '\u2029'

/-- The blanks within a line. -/
def isSpace (x : Char) : Bool :=
  x == ' ' || x == '\t'

/-- A text within a line that is empty or not only spaces. -/
structure Inline (cs : List Char) : Prop where
  unbroken : ∀ x ∈ cs, isLineBreak x = false
  solid : (∀ x ∈ cs, isSpace x = true) → cs = []

namespace Inline

variable {cs ds : List Char}

lemma nil : Inline [] :=
  ⟨by simp, fun _ => rfl⟩

lemma append (h : Inline cs) (h' : Inline ds) : Inline (cs ++ ds) where
  unbroken := List.forall_mem_append.2 ⟨h.unbroken, h'.unbroken⟩
  solid spaces := by
    obtain ⟨before, after⟩ := List.forall_mem_append.1 spaces
    rw [h.solid before, h'.solid after, List.nil_append]

/-- Spaces before a text that has no space and no line break. -/
lemma spaced (spaces : ∀ x ∈ cs, isSpace x = true) (ne : ds ≠ [])
    (solid : ∀ x ∈ ds, isSpace x = false ∧ isLineBreak x = false) : Inline (cs ++ ds) where
  unbroken := by
    refine List.forall_mem_append.2 ⟨fun x hx => ?_, fun x hx => (solid x hx).2⟩
    have space := spaces x hx
    simp only [isSpace, Bool.or_eq_true, beq_iff_eq] at space
    rcases space with rfl | rfl
    all_goals decide
  solid all := by
    obtain ⟨x, xs, rfl⟩ := List.exists_cons_of_ne_nil ne
    have space := all x (by simp)
    rw [(solid x List.mem_cons_self).1] at space
    cases space

/-- Where a line break stands after spaces, nothing of a text within a line does. -/
lemma eq_nil {spaces rest after : List Char} {x : Char} (h : Inline cs)
    (here : cs ++ rest = spaces ++ x :: after) (blank : ∀ y ∈ spaces, isSpace y = true)
    (broken : isLineBreak x = true) : cs = [] := by
  refine h.solid fun y hy => blank y ?_
  rcases List.append_eq_append_iff.1 here with ⟨as, longer, -⟩ | ⟨as, longer, next⟩
  · exact longer ▸ List.mem_append_left as hy
  · cases as with
    | nil => rwa [longer, List.append_nil] at hy
    | cons a as =>
      obtain ⟨rfl, -⟩ := List.cons.inj next
      have unbroken := h.unbroken x (by simp [longer])
      rw [broken] at unbroken
      cases unbroken

end Inline

/-- The statements that leave what is around them: the keyword, and the form with a label or none. -/
def jump? : Rule → Option (String × (Option Node → Form Node))
  | .breakStatement => some ("break", .breakStatement)
  | .continueStatement => some ("continue", .continueStatement)
  | _ => none

section Jumps

variable {file : String} {source cs : List Char} {c : Cursor} {m : Mode} {q : Match Rule}
  {t u : Peg.Tree Rule}

/-- The characters of a word are neither spaces nor line breaks. -/
lemma solid_of_isIdentPart {x : Char} (h : isIdentPart x = true) :
    isSpace x = false ∧ isLineBreak x = false := by
  have solid := isSolid_of_isIdentPart h
  simp only [isSolid, isBlank, Bool.and_eq_true, Bool.not_eq_true', Bool.or_eq_false_iff] at solid
  simp [isSpace, isLineBreak, solid]

lemma spaces_of_inlineSpace (h : Spells inlineSpace cs) : ∀ x ∈ cs, isSpace x = true := by
  have each : ∀ x ∈ [' ', '\t'], isSpace x = true := by simp [isSpace]
  obtain ⟨_, ys, rfl, ⟨x, rfl, first⟩, more⟩ := h
  refine List.forall_mem_append.2 ⟨?_, fun y hy => ?_⟩
  · exact List.forall_mem_singleton.2 (each x (of_decide_eq_true first))
  · exact each y (of_decide_eq_true (forall_of_spells_star_char more y hy))

/-- What is read as an identifier is a word. -/
lemma word_of_identifier (h : Reads language m (.once (.call .identifier)) c (some q)) :
    ∃ v : Word, c.Leads v.text q.place := by
  cases h with
  | silent kind _ => cases kind
  | call _ h =>
    have tight : (m.within (language.kind .identifier)).atomicity ≠ .normal := by
      simp [language, Grammar.kind, Mode.within]
    obtain ⟨ys, leads, _, zs, rfl, rfl, named⟩ := h.spells tight
    exact ⟨⟨zs, isWord_of_spells named⟩, leads⟩

/-- What stands between a keyword and the end of its statement stands on one line; if nothing does, the
statement has no label. -/
lemma jump_leads {w : String} (tight : m.atomicity ≠ .normal)
    (h : Reads language m (.once (jump w)) c (some q)) :
    ∃ cs, c.Leads (w.toList ++ cs) q.place ∧ Inline cs ∧ (cs = [] → q.trees = []) := by
  obtain ⟨d, label, last, word, -, labelled, ended, place, trees⟩ := jump_reads tight h
  obtain ⟨ls, l₁, inline, bare⟩ : ∃ ls, d.Leads ls label.place ∧ Inline ls ∧
      (ls = [] → label.trees = []) := by
    cases labelled with
    | optNone _ => exact ⟨[], .refl d, .nil, fun _ => rfl⟩
    | optSome h =>
      cases h with
      | seq space gap name =>
        obtain ⟨xs, l₁, spelled⟩ := space.spells tight
        cases gap with
        | gap normal _ => exact absurd normal tight
        -- The label follows the spaces at once, and a name holds no space.
        | tight _ =>
          obtain ⟨v, l₂⟩ := word_of_identifier name
          obtain ⟨x, xs', text, -⟩ := v.exists_cons
          have ne : v.text ≠ [] := by simp [text]
          have inline := Inline.spaced (spaces_of_inlineSpace spelled) ne fun y hy =>
            solid_of_isIdentPart (v.isIdentPart_of_mem hy)
          refine ⟨_, l₁.trans l₂, inline, fun none => ?_⟩
          exact absurd (List.append_eq_nil_iff.1 none).2 ne
  obtain ⟨es, l₂, spelled⟩ := ended.spells tight
  have inline' : Inline es := by
    have semicolon : ∀ x ∈ [';'], isSpace x = false ∧ isLineBreak x = false :=
      List.forall_mem_singleton.2 (by decide)
    rcases spelled with rfl | ⟨xs, _, rfl, rfl | spaces, rfl⟩
    · exact .nil
    · exact .spaced (by simp) (by simp) semicolon
    · exact .spaced (spaces_of_inlineSpace spaces) (by simp) semicolon
  refine ⟨ls ++ es, ?_, inline.append inline', fun none => ?_⟩
  · rw [place]
    exact word.trans (l₁.trans l₂)
  · rw [trees, bare (List.append_eq_nil_iff.1 none).1]

section Statements

variable {w : String} {form : Option Node → Form Node} {p : Phrase} (jumps : jump? t.rule = some (w, form))

include jumps

/-- A statement that leaves what is around it is its keyword, with a text within the line after it; it has
no label if there is no such text. -/
lemma text_of_jump (h : t.IsRead language source) :
    ∃ cs after, source.drop t.start = w.toList ++ cs ++ after ∧ t.text = w.toList ++ cs ∧ Inline cs ∧
      (cs = [] → t.children = []) := by
  obtain ⟨-, -, m, q, -, reads, text, below⟩ := h
  obtain ⟨kind, body⟩ : language.kind t.rule = .compound ∧ language.body t.rule = jump w := by
    cases rule : t.rule
    case breakStatement | continueStatement =>
      rw [rule] at jumps
      cases jumps
      exact ⟨rfl, rfl⟩
    all_goals simp [rule, jump?] at jumps
  rw [kind, body] at reads
  obtain ⟨cs, leads, inline, bare⟩ := jump_leads (m := m.within .compound) (by simp [Mode.within]) reads
  exact ⟨cs, q.place.rest, leads.1, by rw [text, leads.upTo], inline, fun none => below.trans (bare none)⟩

/-- Such a statement stands for a node with a label or none. -/
lemma exists_label_of_jump (made : assemble file source t = .ok p) :
    ∃ label, p = .node ((extent file source t).node (form label)) ∧ (t.children = [] → label = none) := by
  obtain ⟨value, -, found⟩ := phrase?_of_assemble made
  have found : withOptional (extent file source t) form (t.children.map value) = some p := by
    cases rule : t.rule
    case breakStatement | continueStatement =>
      rw [rule] at jumps found
      cases jumps
      exact found
    all_goals simp [rule, jump?] at jumps
  unfold withOptional at found
  split at found
  · cases found
    exact ⟨none, rfl, fun _ => rfl⟩
  · rename_i n parts
    cases found
    exact ⟨some n, rfl, fun none => by simp [none] at parts⟩
  · cases found

end Statements

/-- The matches inside a match that is read and stands for something are read and stand for something. -/
lemma made_of_under {p : Phrase} (below : u.Under t) (h : t.IsRead language source)
    (made : assemble file source t = .ok p) :
    u.IsRead language source ∧ ∃ q, assemble file source u = .ok q := by
  induction below generalizing p with
  | self => exact ⟨h, p, made⟩
  | inside hv _ ih =>
    obtain ⟨value, each, -⟩ := phrase?_of_assemble made
    exact ih (h.children _ hv) (each _ hv)

end Jumps

section Values

variable {file : String} {source : List Char} {c c₁ c₂ d : Cursor} {n : Node}

/-- A reserved word where it stands whole. -/
lemma denotes_word {w : String} (reserved : w ∈ reservedWords) (closed : Closed c)
    (leads : c.Leads w.toList d) (stops : d.Stops isIdentPart) :
    Denotes file source (.once (word w)) c d [] := by
  obtain ⟨q, keyword⟩ := reads_of_reserved (m := Mode.outset.wanting) reserved leads stops
  have ahead : Denotes file source (.once (.ahead (.call .keyword))) c c [] :=
    ⟨_, .ahead keyword, rfl, rfl⟩
  exact ahead.seq closed (.text leads)

/-- No statement that is tried before it stands where a value is returned. -/
lemma fails_at_return {x : Char} {z : List Char} (plain : Plain c.rest) (blank : isBlank x = true)
    (rest : c.rest = "return".toList ++ x :: z) : ∀ e ∈ leadingStatements.take 5, Fails e c := by
  have told : wordEnds.all (fun x => (leadingStatements.take 5).all fun e =>
      (standing ("return".toList ++ [x]) []).forecast language 200 false e
        ("return".toList ++ [x]) = Forecast.fails) = true := by decide +kernel
  have whole : c.rest = "return".toList ++ [x] ++ z := by simpa using rest
  exact fails_of_standing plain whole (List.forall_mem_nil _)
    (List.all_eq_true.1 told x (mem_wordEnds (.inl blank)))

/-- An operator after its operand. -/
lemma denotes_updateSuffix {op : UpdateOperator} (leads : c.Leads op.symbol.toList d) :
    ∃ span, Denotes file source (.once (.call .updateSuffix)) c d [.update op span] := by
  refine ⟨(between file source c d).span, ?_⟩
  have reads : ∃ q, Reads language { Mode.outset with atomicity := .atomic }
      (.once (body .updateSuffix)) c (some q) ∧ q.place = d := by
    obtain ⟨stop, text⟩ := Reads.text_of_leads (g := language)
      (m := { Mode.outset with atomicity := .atomic }) leads
    cases op with
    | increment => exact ⟨_, .choiceFirst text, rfl⟩
    | decrement => exact ⟨_, .choiceSecond (text_fails leads.1 (by decide)) text, rfl⟩
  obtain ⟨q, reads, rfl⟩ := reads
  refine .token rfl rfl reads ?_
  cases op with
  | increment => simp [phrase?, updateSuffix, suffixOperator, string_between leads]
  | decrement =>
    simp [phrase?, updateSuffix, suffixOperator, string_between leads, UpdateOperator.symbol]

/-- An object with an operator after it. -/
lemma denotes_update {op : UpdateOperator} (first : Denotes file source (.once object) c c₁ [.node n])
    (gap : GapTo c₁ c₂) (leads : c₂.Leads op.symbol.toList d) :
    ∃ site, Denotes file source (.once (.call .postfixExpression)) c d
      [.node (.mk (.updateExpression op false n) site)] := by
  have noAccess : Fails (.call .postfixOperation) c₂ := by
    have fits : Outlook.Fits ⟨op.symbol.toList, [], some fun _ => true⟩ language d.rest :=
      ⟨fun _ _ _ => rfl, by simp⟩
    refine fits.fails (n := 50) leads.1 ?_
    cases op <;> decide
  obtain ⟨span, suffix⟩ : ∃ span, Denotes file source (.once (.call .updateSuffix)) c₂ d
      [.update op span] := denotes_updateSuffix leads
  exact ⟨_, .call rfl (.seq first gap (.seq (.starNone noAccess) gap.closed (.optSome suffix))) rfl⟩

end Values

section Around

/-- The characters that may stand around a term and change nothing in the count of its brackets. -/
def isMere (x : Char) : Bool :=
  x != '/' && x != '=' && !Scan.isQuote x && !(Scan.openers ++ Scan.enders).contains x

lemma isMere_of_isBlank {x : Char} (h : isBlank x = true) : isMere x = true := by
  have told : ∀ x ∈ wordEnds, isMere x = true := List.all_iff_forall_prop.mp (by decide)
  exact told x (mem_wordEnds (.inl h))

variable {t : Term} {text front back : List Char} (printed : text = t.body ∨ text = t.part)
  (before : ∀ x ∈ front, isMere x = true) (after : ∀ x ∈ back, isMere x = true)

include printed before after

lemma plain_around : Plain (front ++ (text ++ back)) := by
  have mere {cs z : List Char} (free : ∀ x ∈ cs, isMere x = true) (plain : Plain z) : Plain (cs ++ z) := by
    have other {x : Char} (no : isMere x = false) : x ∉ cs := fun mem => by
      rw [free x mem] at no
      cases no
    exact plain.append (other (by decide)) (.inl (other (by decide)))
  have last : Plain back := by simpa using mere after .nil
  exact mere before (Term.prefixes_plain.printed printed last)

/-- The brackets of the term are the only ones that are counted. -/
lemma checkNesting_around {s : Script} (content : s.content.toList = front ++ (text ++ back))
    (shallow : Scan.peak 0 text ≤ maxNesting) : s.checkNesting = .ok () := by
  have mere {x : Char} (h : isMere x = true) :
      (x ≠ '/' ∧ Scan.isQuote x = false) ∧ x ∉ Scan.openers ∧ x ∉ Scan.enders := by
    simp only [isMere, Bool.and_eq_true, bne_iff_ne, Bool.not_eq_true', List.contains_eq_mem,
      decide_eq_false_iff_not, List.mem_append, not_or] at h
    exact ⟨⟨h.1.1.1, h.1.2⟩, h.2⟩
  have legible : ∀ last, Scan.isLegible last back = true := fun last => by
    rw [← List.append_nil back]
    exact Scan.isLegible_append (fun x hx => (mere (after x hx)).1) fun _ => rfl
  have whole : Scan.isLegible ';' (front ++ (text ++ back)) = true :=
    Scan.isLegible_append (fun x hx => (mere (before x hx)).1)
      (Term.prefixes_legible.printed printed fun last _ => legible last)
  rw [Script.checkNesting_eq_ok, content, Scan.excess?_eq_none_iff whole (Nat.zero_le _),
    Scan.peak_append_of_mere fun x hx => (mere (before x hx)).2,
    Scan.peak_append_of_free fun x hx => (mere (after x hx)).2.1]
  exact shallow

end Around

end ScriptTyping.Reading

namespace ScriptTyping.Script
open Peg Grammar Reading Peg.Expr

variable {s : Script} {t : Term} {blanks : List Char}

/-- A value is returned that stands after any gap. -/
lemma exists_parse_of_return (blank : ∀ x ∈ blanks, Grammar.isBlank x = true) (ne : blanks ≠ [])
    (shallow : Scan.peak 0 t.body ≤ maxNesting)
    (content : s.content.toList = "return".toList ++ (blanks ++ (t.body ++ [';']))) :
    ∃ n site site', s.parse = .ok (.mk (.program [.mk (.returnStatement (some n)) site]) site') ∧
      n.Alike t.node := by
  have before : ∀ x ∈ "return".toList ++ blanks, isMere x = true :=
    List.forall_mem_append.2 ⟨List.all_iff_forall_prop.mp (by decide), fun x hx => isMere_of_isBlank (blank x hx)⟩
  have after : ∀ x ∈ [';'], isMere x = true := List.all_iff_forall_prop.mp (by decide)
  have whole : s.content.toList = "return".toList ++ blanks ++ (t.body ++ [';']) := by
    rw [content, List.append_assoc]
  have plain : Plain s.content.toList := whole ▸ plain_around (.inl rfl) before after
  have shallow : s.checkNesting = .ok () := checkNesting_around (.inl rfl) before after whole shallow
  obtain ⟨d, leads, rest⟩ : ∃ d, Cursor.Leads ⟨0, s.content.toList⟩
      ("return".toList ++ (blanks ++ (t.body ++ [';']))) d ∧ d.rest = [] :=
    ⟨⟨_, []⟩, ⟨by rw [content, List.append_nil], rfl⟩, rfl⟩
  have start : Closed ⟨0, s.content.toList⟩ :=
    .of_shut (shut_of_solid (x := 'r') (by rw [content]; rfl) (by decide))
  -- The keyword, the blanks, the term and the semicolon, one behind the other.
  obtain ⟨c₁, word, leads⟩ := leads.split
  obtain ⟨c₂, gap, leads⟩ := leads.split
  obtain ⟨c₃, term, semicolon⟩ := leads.split
  obtain ⟨x, xs, first⟩ := List.exists_cons_of_ne_nil ne
  have next : c₁.rest = x :: (xs ++ c₂.rest) := by rw [gap.1, first, List.cons_append]
  have blank₁ : Grammar.isBlank x = true := blank x (by simp [first])
  obtain ⟨y, ys, begins, solid⟩ := t.exists_cons_body c₃.rest
  have plain₂ := (plain.leads word).leads gap
  have rest₃ : c₃.rest = [';'] := by rw [semicolon.1, rest, List.append_nil]
  have ends : AtCloser c₃ := ⟨';', [], rest₃, by decide⟩
  obtain ⟨n, value, alike⟩ := isRead s.name s.content.toList t c₂ c₃ plain₂ term ends
  have whole := value.uncommaed ends.closed (text_fails rest₃ (by decide))
  have keyword : Denotes s.name s.content.toList (.once (Grammar.word "return")) ⟨0, s.content.toList⟩ c₁ [] :=
    denotes_word (by decide) start word (Cursor.stops_of_cons next (isIdentPart_of_isBlank blank₁))
  have gap₁ : GapTo c₁ c₂ := gap_of_blanks rfl blank gap (shut_of_solid (term.1.trans begins) solid)
  have returned : Denotes s.name s.content.toList (.once (.call .returnStatement)) ⟨0, s.content.toList⟩ d
      [.node _] :=
    .call rfl (keyword.seq gap₁ (.seq (.optSome whole) ends.closed (.optSome (.text semicolon)))) rfl
  have fails := fails_at_return plain blank₁ (c := ⟨0, s.content.toList⟩) (word.1.trans (congrArg _ next))
  have statement : Denotes s.name s.content.toList (.once statement) ⟨0, s.content.toList⟩ d [.node _] :=
    .oneOf fails returned
  obtain ⟨site', parsed⟩ := parse_of_statement shallow start statement rest
  exact ⟨n, _, site', parsed, alike⟩

/-- An operator goes on with the operand before it, and any gap may stand between them. -/
lemma exists_parse_of_update {op : UpdateOperator} (blank : ∀ x ∈ blanks, Grammar.isBlank x = true)
    (shallow : Scan.peak 0 t.part ≤ maxNesting)
    (content : s.content.toList = t.part ++ (blanks ++ (op.symbol.toList ++ [';']))) :
    ∃ n update site site', s.parse = .ok (.mk (.program [.mk (.expressionStatement
      (.mk (.updateExpression op false n) update)) site]) site') ∧ n.Alike t.node := by
  have mere : ∀ x ∈ op.symbol.toList ++ [';'], isMere x = true := by
    cases op <;> exact List.all_iff_forall_prop.mp (by decide)
  have after : ∀ x ∈ blanks ++ (op.symbol.toList ++ [';']), isMere x = true :=
    List.forall_mem_append.2 ⟨fun x hx => isMere_of_isBlank (blank x hx), mere⟩
  have whole : s.content.toList = [] ++ (t.part ++ (blanks ++ (op.symbol.toList ++ [';']))) := content
  have plain : Plain s.content.toList :=
    whole ▸ plain_around (.inr rfl) (List.forall_mem_nil _) after
  have shallow : s.checkNesting = .ok () :=
    checkNesting_around (.inr rfl) (List.forall_mem_nil _) after whole shallow
  obtain ⟨d, leads, rest⟩ : ∃ d, Cursor.Leads ⟨0, s.content.toList⟩
      (t.part ++ (blanks ++ op.symbol.toList)) d ∧ d.rest = [';'] :=
    ⟨⟨_, [';']⟩, ⟨by rw [content, List.append_assoc, List.append_assoc], rfl⟩, rfl⟩
  obtain ⟨c₁, own, leads⟩ := leads.split
  obtain ⟨c₂, gap, symbol⟩ := leads.split
  obtain ⟨x, xs, sign, free, solid⟩ : ∃ x xs, c₂.rest = x :: xs ∧ isIdentPart x = false ∧
      isSolid x = true ∧ x ≠ ':' := by
    cases op <;> exact ⟨_, _, symbol.1, by decide⟩
  have gap₁ : GapTo c₁ c₂ := gap_of_blanks rfl blank gap (shut_of_solid sign solid.1)
  -- Behind the operand stands a blank or the operator, and neither goes on a word.
  have stops : c₁.Stops isIdentPart := by
    cases blanks with
    | nil =>
      obtain rfl := gap.unique (.refl c₁)
      exact Cursor.stops_of_cons sign free
    | cons y ys => exact Cursor.stops_of_cons gap.1 (isIdentPart_of_isBlank (blank y List.mem_cons_self))
  have ends : AtCloser d := ⟨';', [], rest, by decide⟩
  obtain ⟨n, part, alike⟩ := exists_part (isRead s.name s.content.toList t) plain own stops
  obtain ⟨update, updated⟩ := denotes_update part.denotes gap₁ symbol
  have operand : Operand s.name s.content.toList _ ⟨0, s.content.toList⟩ d :=
    ⟨.operand part.noSign updated, ends.closed⟩
  have whole := (operand.value plain ends).uncommaed ends.closed (text_fails rest (by decide))
  have others := statements_fail_at_part plain own stops gap₁
    (Cursor.stops_of_cons sign (by simpa using solid.2))
  obtain ⟨site, site', parsed⟩ := parse_of_expression shallow (.of_shut (shut_at_part own)) others whole
    ends.closed (.inl rest)
  exact ⟨n, update, site, site', parsed, alike⟩

/-- A statement that leaves what is around it stands on one line, and it ends where a line break follows its
keyword. A value that is returned, and an operator after its operand, may stand on another line. -/
theorem lines_of_parse (s : Script) :
    (∀ {n : Node}, s.parse = .ok n → ∃ t, s.match? = .ok t ∧
      ∀ (u : Peg.Tree Rule) {w form}, u.Under t → jump? u.rule = some (w, form) →
        ∃ label, assemble s.name s.content.toList u =
            .ok (.node ((extent s.name s.content.toList u).node (form label))) ∧
          (∀ x ∈ u.text, isLineBreak x = false) ∧
          ∀ spaces x after, s.content.toList.drop u.start = w.toList ++ (spaces ++ x :: after) →
            (∀ y ∈ spaces, isSpace y = true) → isLineBreak x = true →
            u.text = w.toList ∧ label = none) ∧
    ∀ {t : Term} {blanks : List Char}, (∀ x ∈ blanks, Grammar.isBlank x = true) →
      (blanks ≠ [] → Scan.peak 0 t.body ≤ maxNesting →
        s.content.toList = "return".toList ++ (blanks ++ (t.body ++ [';'])) →
        ∃ n site site', s.parse = .ok (.mk (.program [.mk (.returnStatement (some n)) site]) site') ∧
          n.Alike t.node) ∧
      ∀ {op : UpdateOperator}, Scan.peak 0 t.part ≤ maxNesting →
        s.content.toList = t.part ++ (blanks ++ (op.symbol.toList ++ [';'])) →
        ∃ n update site site', s.parse = .ok (.mk (.program [.mk (.expressionStatement
          (.mk (.updateExpression op false n) update)) site]) site') ∧ n.Alike t.node := by
  refine ⟨fun {n} h => ?_, fun blank => ⟨exists_parse_of_return blank, exists_parse_of_update blank⟩⟩
  obtain ⟨t, -, matched, made⟩ := match_of_parse h
  obtain ⟨-, -, read⟩ := isRead_of_match matched
  refine ⟨t, matched, fun u w form below jumps => ?_⟩
  obtain ⟨readU, p, madeU⟩ := made_of_under below read made
  obtain ⟨cs, rest, here, text, inline, bare⟩ := text_of_jump jumps readU
  obtain ⟨label, rfl, unlabelled⟩ := exists_label_of_jump jumps madeU
  have letters : w.toList.any isLineBreak = false := by
    cases rule : u.rule
    case breakStatement | continueStatement =>
      rw [rule] at jumps
      cases jumps
      decide
    all_goals simp [rule, jump?] at jumps
  refine ⟨label, madeU, ?_, fun spaces x after there blank broken => ?_⟩
  · rw [text]
    exact List.forall_mem_append.2 ⟨by simpa using letters, inline.unbroken⟩
  · rw [here, List.append_assoc] at there
    have none := inline.eq_nil (List.append_cancel_left there) blank broken
    exact ⟨by rw [text, none, List.append_nil], unlabelled (bare none)⟩

/-- Whether a match begins with a statement that leaves a loop. -/
def beginsWithBreak : Peg.Tree Rule → Bool
  | .node .program _ _ (u :: _) => u.rule = .breakStatement && u.start = 0
  | _ => false

/-- A line break ends one statement, and is passed over in two others. -/
theorem lines_of_parse_newline :
    (∃ n t u, (ofSource "a.js" "break\na").parse = .ok n ∧ (ofSource "a.js" "break\na").match? = .ok t ∧
      u.Under t ∧ u.text = "break".toList ∧ assemble "a.js" "break\na".toList u =
        .ok (.node ((extent "a.js" "break\na".toList u).node (.breakStatement none)))) ∧
    ∃ a : Name, a.text = ['a'] ∧
      (∃ n site site', (ofSource "a.js" "return\na;").parse =
        .ok (.mk (.program [.mk (.returnStatement (some n)) site]) site') ∧
          n.Alike (Term.name a).node) ∧
      ∃ n update site site', (ofSource "a.js" "a\n++;").parse = .ok (.mk (.program
        [.mk (.expressionStatement (.mk (.updateExpression .increment false n) update)) site]) site') ∧
          n.Alike (Term.name a).node := by
  have found : ((ofSource "a.js" "break\na").parse.toOption.isSome &&
      (ofSource "a.js" "break\na").match?.toOption.any beginsWithBreak) = true := by
    decide +kernel
  obtain ⟨accepted, found⟩ := Bool.and_eq_true_iff.1 found
  obtain ⟨n, parsed⟩ := Option.isSome_iff_exists.1 accepted
  have parsed := parse_of_toOption parsed
  obtain ⟨t, matched, jumps⟩ := (lines_of_parse _).1 parsed
  have same : (ofSource "a.js" "break\na").match?.toOption = some t := by rw [matched]; rfl
  rw [same, Option.any_some] at found
  unfold beginsWithBreak at found
  split at found
  · rename_i start text u us
    simp only [Bool.and_eq_true, decide_eq_true_eq] at found
    have below : u.Under (.node .program start text (u :: us)) := .inside List.mem_cons_self .self
    obtain ⟨label, made, -, ends⟩ := jumps u below (by rw [found.1]; rfl)
    obtain ⟨whole, rfl⟩ := ends [] '\n' ['a'] (by rw [found.2]; rfl) (by simp) rfl
    -- The line break is one of the blanks that the general statements allow.
    have plain : ∀ x ∈ ['\n'], Grammar.isBlank x = true := List.forall_mem_singleton.2 (by decide)
    let a : Name := ⟨⟨['a'], by decide⟩, by decide⟩
    have alone : (Term.name a).body = ['a'] := Term.body_name a
    refine ⟨⟨n, _, u, parsed, matched, below, whole, made⟩, a, rfl, ?_, ?_⟩
    · exact ((lines_of_parse _).2 (t := .name a) plain).1 (by simp) (by rw [alone]; decide) (by rw [alone]; rfl)
    · exact ((lines_of_parse _).2 (t := .name a) plain).2 (by decide) (by rfl)
  · cases found

end ScriptTyping.Script
