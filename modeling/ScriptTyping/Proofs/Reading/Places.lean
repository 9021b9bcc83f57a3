import ScriptTyping.Proofs.Grammar.Numbers
import ScriptTyping.Proofs.Reading.Chain

/-!
# What may stand at a place

Which expressions do not match at a place can mostly be told from the text that stands there. The lemmas
here tell it for the places where an operand begins (`fails_at_name` and its companions), where an
expression ends (`Closing`), and where a connective stands (`Joint.of_leads`).
-/

namespace ScriptTyping.Reading
open Peg Grammar Peg.Expr

/-- The statements that are tried before labels and expressions. -/
def leadingStatements : List (Peg.Expr Rule) :=
  [.call .importDeclaration, .call .exportDeclaration, .call .variableDeclaration,
    .call .functionDeclaration, .call .classDeclaration, .call .returnStatement, .call .ifStatement,
    .call .forStatement, .call .whileStatement, .call .doWhileStatement, .call .tryStatement,
    .call .switchStatement, .call .breakStatement, .call .continueStatement, .call .throwStatement,
    .call .block, .call .emptyStatement]

/-- All statements that are tried before expressions. -/
def otherStatements : List (Peg.Expr Rule) :=
  leadingStatements ++ [.call .labeledStatement]

/-- What an item of a list may be besides an expression, and what ends a list. -/
def noItems : List (Peg.Expr Rule) :=
  [.call .spreadElement, Expr.token "]", Expr.token ")"]

/-- The expressions that are no operations on others, in the order in which they are tried. -/
def primaries : List (Peg.Expr Rule) :=
  [.call .functionExpression, .call .classExpression, .call .metaProperty, .call .importCall,
    .call .thisExpression, .call .superExpression, .call .bigint, .call .number, .call .string,
    .call .templateLiteral, .call .boolean, .call .null, .call .regex, .call .arrayLiteral,
    .call .objectLiteral, .call .parenthesizedExpression, .call .privateIdentifier, .call .identifier]

/-- What is tried before the first `k` kinds of objects are passed over. -/
def beforeObject (k : Nat) : List (Peg.Expr Rule) :=
  .call .newExpression :: .call .unaryOperator :: primaries.take k

section Known

variable {c d : Cursor}

/-- What is known where a plain text begins with certain characters. -/
def standing (cs : List Char) (missed : List Rule) : Outlook Rule :=
  { known := cs, missed := .arrowFunction :: missed, next := some fun _ => true }

/-- What is forecast to fail at the beginning of a plain text does. -/
lemma fails_of_standing {cs z : List Char} {missed : List Rule} {es : List (Peg.Expr Rule)}
    (plain : Plain c.rest) (rest : c.rest = cs ++ z)
    (misses : ∀ r ∈ missed, ∀ m i, Reads language m (.once (.call r)) ⟨i, cs ++ z⟩ none)
    (told : es.all (fun e => (standing cs missed).forecast language 200 false e cs = .fails) = true) :
    ∀ e ∈ es, Fails e c := by
  have fits : (standing cs missed).Fits language z := by
    refine ⟨fun _ _ _ => rfl, fun r hr m i => ?_⟩
    rcases List.mem_cons.1 hr with rfl | hr
    · rw [rest] at plain
      exact plain.arrowFunction_fails
    · exact misses r hr m i
  intro e he
  exact fits.fails rest (of_decide_eq_true (List.all_eq_true.1 told e he))

/-- Whether a text is seen not to begin with a reserved word. -/
def startsUnreserved (cs : List Char) : Bool :=
  [true, false].all fun tight =>
    (standing cs []).forecast language 50 tight (.call .keyword) cs = Forecast.fails

lemma keyword_missed {cs z : List Char} (plain : Plain (cs ++ z)) (told : startsUnreserved cs = true)
    (m : Mode) (i : Nat) : Reads language m (.once (.call .keyword)) ⟨i, cs ++ z⟩ none := by
  have fits : (standing cs []).Fits language z := by
    refine ⟨fun _ _ _ => rfl, fun r hr m i => ?_⟩
    obtain rfl := List.mem_singleton.1 hr
    exact plain.arrowFunction_fails
  refine fits.fails (n := 50) rfl ?_
  have told := List.all_eq_true.1 told m.isTight (by cases m.isTight <;> simp)
  exact of_decide_eq_true told

/-- Where a name stands, nothing else does that an operand may begin with. -/
lemma fails_at_name {n : Name} (plain : Plain c.rest) (leads : c.Leads n.text d)
    (stops : d.Stops isIdentPart) :
    ∀ e ∈ beforeObject 17 ++ leadingStatements ++ noItems, Fails e c := by
  have told : (beforeObject 17 ++ leadingStatements ++ noItems).all
      (fun e => Name.outlook.forecast language 200 false e [] = Forecast.fails) = true := by
    decide
  rw [leads.1] at plain
  intro e he
  exact (n.fits plain stops).fails leads.1 (of_decide_eq_true (List.all_eq_true.1 told e he))

/-- Where a parenthesis opens, nothing else does that an operand may begin with. -/
lemma fails_at_parenthesis {z : List Char} (plain : Plain c.rest) (rest : c.rest = '(' :: z) :
    ∀ e ∈ beforeObject 15 ++ otherStatements ++ noItems, Fails e c := by
  have unreserved : ∀ r ∈ [Rule.keyword], ∀ m i, Reads language m (.once (.call r)) ⟨i, ['('] ++ z⟩ none :=
    List.forall_mem_singleton.2 (keyword_missed (by rwa [rest] at plain) (by decide))
  exact fails_of_standing plain rest unreserved (by decide)

/-- Where a list opens, no other statement does, and no object that is tried before lists. -/
lemma fails_at_bracket {z : List Char} (plain : Plain c.rest) (rest : c.rest = '[' :: z) :
    ∀ e ∈ beforeObject 13 ++ otherStatements, Fails e c := by
  have unreserved : ∀ r ∈ [Rule.keyword], ∀ m i, Reads language m (.once (.call r)) ⟨i, ['['] ++ z⟩ none :=
    List.forall_mem_singleton.2 (keyword_missed (by rwa [rest] at plain) (by decide))
  exact fails_of_standing plain rest unreserved (by decide)

/-- Where a number stands, no other statement does, and no object that is tried before numbers. -/
lemma fails_at_number {cs : List Char} (h : Spells number cs) (plain : Plain c.rest)
    (leads : c.Leads cs d) (stops : d.Stops goesOn) :
    ∀ e ∈ beforeObject 7 ++ otherStatements, Fails e c := by
  obtain ⟨x, xs, rfl, hx⟩ := exists_cons_of_spells_number h
  have unreserved : ∀ x ∈ numberStarts, startsUnreserved [x] = true :=
    List.all_iff_forall_prop.mp (by decide)
  have told : ∀ x ∈ numberStarts, (beforeObject 7 ++ otherStatements).all (fun e =>
      (standing [x] [.keyword, .bigint]).forecast language 200 false e [x] = Forecast.fails) = true :=
    List.all_iff_forall_prop.mp (by decide +kernel)
  have rest : c.rest = [x] ++ (xs ++ d.rest) := leads.1
  refine fails_of_standing plain rest ?_ (told x hx)
  rw [leads.1] at plain
  refine List.forall_mem_cons.2 ⟨keyword_missed plain (unreserved x hx), ?_⟩
  refine List.forall_mem_singleton.2 fun m i => ?_
  exact bigint_fails_of_number (d := ⟨i + (x :: xs).length, d.rest⟩) h ⟨rfl, rfl⟩ stops

/-- Where an operator with a blank after it stands, no statement does but an expression. -/
lemma fails_at_sign {op : UnaryOperator} {z : List Char} (plain : Plain c.rest)
    (rest : c.rest = op.symbol.toList ++ ' ' :: z) : ∀ e ∈ otherStatements, Fails e c := by
  have told : ∀ op ∈ UnaryOperator.all, otherStatements.all (fun e =>
      (standing (op.symbol.toList ++ [' ']) []).forecast language 200 false e
        (op.symbol.toList ++ [' ']) = Forecast.fails) = true := by decide +kernel
  have whole : c.rest = op.symbol.toList ++ [' '] ++ z := by simpa using rest
  exact fails_of_standing plain whole (List.forall_mem_nil _) (told op (by cases op <;> decide))

end Known

section Ends

variable {c d : Cursor}

/-- Whether a character is neither a blank nor the beginning of a comment. -/
def isSolid (x : Char) : Bool :=
  !isBlank x && x != '#' && x != '/'

lemma shut_of_solid {x : Char} {z : List Char} (rest : c.rest = x :: z) (hx : isSolid x = true) :
    Shut c := by
  simp only [isSolid, Bool.and_eq_true, Bool.not_eq_true', bne_iff_ne] at hx
  exact shut_of_cons rest hx.1.1 hx.1.2 fun e => absurd e hx.2

/-- What may go on an identifier is no blank. -/
lemma isSolid_of_isIdentPart {x : Char} (h : isIdentPart x = true) : isSolid x = true := by
  have free : ∀ y ∈ [' ', '\t', '\r', '\n', '\uFEFF', '\xA0', '\u2028', '\u2029', '#', '/'],
      isIdentPart y = false := List.all_iff_forall_prop.mp (by decide +kernel)
  cases solid : isSolid x with
  | true => rfl
  | false =>
    refine absurd h (Bool.eq_false_iff.1 (free x ?_))
    simp only [isSolid, isBlank, Bool.and_eq_false_iff, Bool.not_eq_false', Bool.or_eq_true,
      beq_iff_eq, bne_eq_false_iff_eq] at solid
    simp only [List.mem_cons, List.not_mem_nil, or_false]
    grind

/-- What may go on with an expression after an operand of it. -/
def continuations : List (Peg.Expr Rule) :=
  [.call .postfixOperation, .call .updateSuffix, Expr.token "?", .call .assignmentOperator] ++
    Precedence.all.map fun l => .call (.binaryOperator l)

/-- A place where an expression ends: no gap begins, and nothing goes on. -/
structure Closing (c : Cursor) : Prop where
  shut : Shut c
  ends : ∀ e ∈ continuations, Fails e c

/-- The characters that close what an expression stands in. -/
def closers : List Char :=
  [')', ']', ',', ':', ';']

lemma Closing.of_cons {x : Char} {z : List Char} (rest : c.rest = x :: z) (hx : x ∈ closers) :
    Closing c := by
  have told : ∀ x ∈ closers, continuations.all (fun e =>
      Outlook.forecast language ⟨[x], [], some fun _ => true⟩ 200 false e [x] = Forecast.fails) = true :=
    List.all_iff_forall_prop.mp (by decide)
  have solid : ∀ x ∈ closers, isSolid x = true := List.all_iff_forall_prop.mp (by decide)
  refine ⟨shut_of_solid rest (solid x hx), fun e he => ?_⟩
  have fits : Outlook.Fits ⟨[x], [], some fun _ => true⟩ language z := ⟨fun _ _ _ => rfl, by simp⟩
  exact fits.fails rest (of_decide_eq_true (List.all_eq_true.1 (told x hx) e he))

/-- What is known at the end of a text. -/
def atEnd : Outlook Rule where
  known := []
  missed := []
  next := none

lemma fits_atEnd : atEnd.Fits language [] :=
  ⟨by simp, by simp [atEnd]⟩

lemma Closing.of_nil (rest : c.rest = []) : Closing c := by
  have told : continuations.all (fun e => atEnd.forecast language 200 false e [] = Forecast.fails) = true := by
    decide
  refine ⟨shut_of_nil rest, fun e he => ?_⟩
  exact fits_atEnd.fails rest (of_decide_eq_true (List.all_eq_true.1 told e he))

/-- No statement stands at the end of a text. -/
lemma statement_fails_at_end (rest : c.rest = []) : Fails statement c :=
  fits_atEnd.fails (n := 200) rest (by decide)

lemma Closing.endsLevel (h : Closing c) (k : Nat) : EndsLevel k c :=
  fun l _ => h.ends _ (List.mem_append_right _ (List.mem_map_of_mem l.mem_all))

end Ends

section Tokens

variable {file : String} {source : List Char} {c d : Cursor} {z : List Char}

/-- A token that is forecast to be read is. -/
lemma denotes_token {r : Rule} {o : Outlook Rule} {cs w : List Char} (atomic : kind r = .atomic)
    (bare : (body r).isBare = true) (word : ∀ e, phrase? r e [] = some (.token e.string))
    (fits : o.Fits language z) (known : o.known = cs ++ w) (leads : c.Leads cs d)
    (rest : d.rest = w ++ z) (told : o.forecast language 200 true (body r) (cs ++ w) = .reads w) :
    Denotes file source (.once (.call r)) c d [.token (String.ofList cs)] := by
  have whole : c.rest = o.known ++ z := by rw [leads.1, rest, known, List.append_assoc]
  obtain ⟨q, reads, after⟩ := fits.reads (m := { Mode.outset with atomicity := .atomic }) whole
    (known ▸ told)
  obtain ⟨_, leads'⟩ := reads.leads
  have leads' : c.Leads cs q.place := leads'.of_rest (by rw [leads.1, rest, after])
  obtain rfl := leads'.unique leads
  refine .token atomic bare reads ?_
  rw [word, string_between leads]

/-- The characters that may go on with an operator. -/
def operatorChars : List Char :=
  "=|&<>+-*/?!^%".toList

/-- The characters that may end an operator that is a word. -/
def wordEnds : List Char :=
  ['.', ' ', '\t', '\r', '\n', '\uFEFF', '\xA0', '\u2028', '\u2029']

lemma mem_wordEnds {y : Char} (h : isBlank y = true ∨ y = '.') : y ∈ wordEnds := by
  simp only [isBlank, Bool.or_eq_true, beq_iff_eq] at h
  simp only [wordEnds, List.mem_cons, List.not_mem_nil, or_false]
  grind

/-- Whether a connective is a word. -/
def isWord (op : Connective) : Bool :=
  op = .binary .isIn ∨ op = .binary .instanceOf

/-- What stands after a connective does not go on with it. -/
def Follows (op : Connective) (z : List Char) : Prop :=
  ∃ y ys, z = y :: ys ∧ if isWord op then y ∈ wordEnds else y ∉ operatorChars

/-- What is known where a connective stands; after a word the character that ends it is known too. -/
def connectiveOutlook (op : Connective) (y : Char) : Outlook Rule :=
  if isWord op then ⟨op.symbol.toList ++ [y], [], some fun _ => true⟩
  else ⟨op.symbol.toList, [], some fun x => x ∉ operatorChars⟩

/-- What a connective is not. -/
def notConnective (op : Connective) : List (Peg.Expr Rule) :=
  [.call .postfixOperation, .call .updateSuffix] ++
    (Precedence.all.filter fun l => op.level.tightness < l.tightness).map fun l =>
      .call (.binaryOperator l)

lemma told_connective : ∀ op ∈ Connective.all, ∀ y ∈ (if isWord op then wordEnds else [' ']),
    (notConnective op).all (fun e => (connectiveOutlook op y).forecast language 200 false e
        (connectiveOutlook op y).known = Forecast.fails) = true ∧
      (connectiveOutlook op y).forecast language 200 true (body (.binaryOperator op.level))
        (connectiveOutlook op y).known = .reads (if isWord op then [y] else []) ∧
      (connectiveOutlook op y).forecast language 200 true blank (connectiveOutlook op y).known =
        .fails := by
  simp only [← List.all_iff_forall_prop]
  decide +kernel

variable {op : Connective}

/-- What is known where a connective stands. -/
lemma Follows.exists_outlook (h : Follows op z) : ∃ y w z', z = w ++ z' ∧
    y ∈ (if isWord op then wordEnds else [' ']) ∧ w = (if isWord op then [y] else []) ∧
    (connectiveOutlook op y).known = op.symbol.toList ++ w ∧
    (connectiveOutlook op y).Fits language z' := by
  obtain ⟨y, ys, rfl, hy⟩ := h
  unfold connectiveOutlook
  split at hy
  · rename_i word
    refine ⟨y, [y], ys, rfl, by simpa [word] using hy, by simp [word], by simp [word], ?_⟩
    simp only [word, if_true]
    exact ⟨fun _ _ _ => rfl, by simp⟩
  · rename_i symbol
    refine ⟨' ', [], y :: ys, rfl, by simp [symbol], by simp [symbol], by simp [symbol], ?_⟩
    simp only [symbol]
    refine ⟨fun x xs e => ?_, by simp⟩
    cases e
    exact decide_eq_true hy

/-- A connective before a plain text makes no arrow. -/
lemma Follows.plain (h : Follows op z) (plain : Plain z) : Plain (op.symbol.toList ++ z) := by
  have told : ∀ op ∈ Connective.all, '\x7b' ∉ op.symbol.toList ∧ op.symbol.toList ≠ [] ∧
      ('=' ∉ op.symbol.toList ∨ '>' ∉ op.symbol.toList.tail) := by decide
  obtain ⟨brace, ne, seam⟩ := told op op.mem_all
  obtain ⟨y, ys, rfl, hy⟩ := h
  refine plain.append brace (seam.imp_right fun free => ?_)
  have next : y ≠ '>' := by
    rintro rfl
    split at hy
    · exact absurd hy (by decide)
    · exact hy (by decide)
  rw [List.tail_append_of_ne_nil ne]
  simpa [next.symm] using free

/-- Where a connective stands, an operand has ended. -/
lemma fails_at_connective (leads : c.Leads op.symbol.toList d) (follows : Follows op d.rest) :
    ∀ e ∈ notConnective op, Fails e c := by
  obtain ⟨y, w, z', rest, hy, rfl, known, fits⟩ := follows.exists_outlook
  obtain ⟨fails, -⟩ := told_connective op op.mem_all y hy
  have whole : c.rest = (connectiveOutlook op y).known ++ z' := by
    rw [leads.1, rest, known, List.append_assoc]
  intro e he
  exact fits.fails whole (of_decide_eq_true (List.all_eq_true.1 fails e he))

/-- Where a connective stands, no colon does. -/
lemma noColon_at_connective (leads : c.Leads op.symbol.toList d) : c.Stops (· == ':') := by
  have told : ∀ op ∈ Connective.all, op.symbol.toList ≠ [] ∧ op.symbol.toList.head? ≠ some ':' := by
    decide
  obtain ⟨ne, told⟩ := told op op.mem_all
  obtain ⟨x, xs, text⟩ := List.exists_cons_of_ne_nil ne
  rw [text] at told
  exact Cursor.stops_of_cons (leads.1.trans (congrArg (· ++ d.rest) text)) (by simpa using told)

/-- A connective that what follows does not go on with is read. -/
lemma Joint.of_leads {e : Cursor} (leads : c.Leads op.symbol.toList d) (follows : Follows op d.rest)
    (gap : GapTo d e) : Joint file source op c e := by
  refine ⟨⟨d, ?_, gap⟩, fun l tighter => ?_⟩
  · obtain ⟨y, w, z', rest, hy, rfl, known, fits⟩ := follows.exists_outlook
    obtain ⟨-, told, -⟩ := told_connective op op.mem_all y hy
    rw [known] at told
    have bare : (body (.binaryOperator op.level)).isBare = true := by cases op.level <;> rfl
    have reads : Denotes file source (.once (.call (.binaryOperator op.level))) c d _ :=
      denotes_token rfl bare (fun e => rfl) fits known leads rest told
    rwa [String.ofList_toList] at reads
  · refine fails_at_connective leads follows _ (List.mem_append_right _ (List.mem_map_of_mem ?_))
    rw [List.mem_filter]
    exact ⟨l.mem_all, decide_eq_true tighter⟩

/-- No gap begins where a connective stands. -/
lemma shut_at_connective (leads : c.Leads op.symbol.toList d) (follows : Follows op d.rest) :
    Shut c := by
  obtain ⟨y, w, z', rest, hy, rfl, known, fits⟩ := follows.exists_outlook
  obtain ⟨-, -, told⟩ := told_connective op op.mem_all y hy
  have whole : c.rest = (connectiveOutlook op y).known ++ z' := by
    rw [leads.1, rest, known, List.append_assoc]
  refine fun m tight => fits.fails (n := 200) whole ?_
  rw [Mode.isTight_iff.2 tight]
  exact told

end Tokens

end ScriptTyping.Reading
