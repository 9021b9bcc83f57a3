import ScriptTyping.Proofs.Declaration.Routines
import ScriptTyping.Proofs.Reading.Sequence
import ScriptTyping.Proofs.Reading.Terms
import ScriptTyping.Proofs.Reading.Whole

/-!
# Names of declarations

The names of variables and of functions are words that are not reserved, since an identifier is read only
where no reserved word stands whole (`exists_name_of_identifier`). Conversely each such word is read as an
identifier, whatever it begins with, and it is declared where it stands after the word that declares
(`Script.names_of_parse`).
-/

namespace ScriptTyping.Reading
open Peg Grammar Peg.Expr

section Identifiers

variable {file : String} {source : List Char} {t u : Peg.Tree Rule} {c d : Cursor} {m : Mode}

/-- An identifier is a word that is not reserved. -/
lemma exists_name_of_identifier (h : t.IsRead language source) (rule : t.rule = .identifier) :
    ∃ n : Name, t.text = n.text := by
  obtain ⟨w, text⟩ := exists_word_of_isName h (by rw [rule]; rfl)
  refine ⟨⟨w, fun reserved => ?_⟩, text⟩
  obtain ⟨v, hv, same⟩ := List.mem_map.1 reserved
  obtain ⟨d, leads, stops⟩ := exists_stops h (by rw [rule]; rfl)
  obtain ⟨le, -, m, q, -, reads, -⟩ := h
  rw [rule] at reads
  cases reads with
  | seq first _ _ =>
    cases first with
    | notAhead fails =>
      obtain ⟨q, found⟩ := reads_of_reserved hv (same ▸ text ▸ leads) stops
      cases found.unique fails

/-- The name of an identifier that stands for a match is no reserved word. -/
lemma exists_name_of_name? {n : Node} {name : String} (h : t.IsRead language source)
    (rule : t.rule = .identifier) (made : assemble file source t = .ok (.node n))
    (named : n.name? = some name) : ∃ w : Name, name = String.ofList w.text := by
  obtain ⟨w, text⟩ := exists_name_of_identifier h rule
  have identifier := identifier_of_isName (by rw [rule]; rfl) made
  cases identifier
  cases named
  exact ⟨w, by rw [text]⟩

end Identifiers

/-- The rules that a function with its keyword is made of. -/
def isFunctionPart : Rule → Bool
  | .asyncModifier | .keyword | .generatorMarker | .identifier | .parameterList | .functionBody => true
  | _ => false

section Declarations

variable {file : String} {source : List Char} {u : Peg.Tree Rule}

/-- The name that a declarator declares is no reserved word. -/
lemma exists_name_of_declarator {d id : Node} {init : Option Node} {name : String}
    (h : u.IsRead language source) (rule : u.rule = .variableDeclarator)
    (made : assemble file source u = .ok (.node d)) (form : d.form = .variableDeclarator id init)
    (named : id.name? = some name) : ∃ w : Name, name = String.ofList w.text := by
  obtain ⟨value, each, found⟩ := phrase?_of_assemble made
  have left : Yields language (fun r u => u.rule = r) (Grammar.body u.rule) u.children :=
    h.yields (by rw [rule]; exact .inl rfl)
  rw [rule] at found left
  change variableDeclarator _ _ = _ at found
  obtain ⟨v, us, below, here⟩ : ∃ v us, u.children = v :: us ∧ value v = .node id := by
    unfold variableDeclarator at found
    split at found
    all_goals cases found
    all_goals
      rename_i parts
      cases form
      obtain ⟨v, us, below, here, -⟩ := List.map_eq_cons_iff.1 parts
      exact ⟨v, us, below, here⟩
  have hv : v ∈ u.children := below ▸ List.mem_cons_self
  have made : assemble file source v = .ok (.node id) := here ▸ each v hv
  -- A pattern has no name.
  have pattern (other : id.form.isIdentifier = false) : False := by
    unfold Node.name? at named
    split at named
    · rename_i form
      rw [form] at other
      cases other
    · cases named
  obtain ⟨value', -, found'⟩ := phrase?_of_assemble made
  rw [below] at left
  simp [Grammar.body, Grammar.bindingTarget, oneOf] at left
  rcases left with ⟨rule, -⟩ | ⟨rule, -⟩ | ⟨rule, -⟩
  · exact exists_name_of_name? (h.children v hv) rule made named
  · rw [rule] at found'
    obtain ⟨ns, -, e⟩ := Option.map_eq_some_iff.1 found'
    cases e
    exact (pattern rfl).elim
  · rw [rule] at found'
    obtain ⟨os, -, e⟩ := Option.map_eq_some_iff.1 found'
    cases e
    exact (pattern rfl).elim

/-- The name of a candidate is no reserved word. -/
lemma exists_name_of_candidate {n : Node} {lo hi : Nat} {c : Candidate}
    (h : Sited file source lo hi n.declarations) (hc : c ∈ n.candidates) :
    ∃ w : Name, c.name = String.ofList w.text := by
  obtain ⟨u, d, id, read, rule, made, form, named⟩ := exists_declarator_of_candidate h hc
  exact exists_name_of_declarator read rule made form named

/-- The name of a function is no reserved word. -/
lemma exists_name_of_function {d : Node} {f : Function Node} {n : Node} {name : String}
    (h : u.IsRead language source) (rule : u.rule = .functionDeclaration)
    (made : assemble file source u = .ok (.node d)) (form : d.form = .functionDeclaration f)
    (hn : f.id = some n) (named : n.name? = some name) : ∃ w : Name, name = String.ofList w.text := by
  obtain ⟨value, each, found⟩ := phrase?_of_assemble made
  have left : Yields language (fun r u => u.rule = r) (Grammar.body u.rule) u.children :=
    h.yields (by rw [rule]; exact .inl rfl)
  rw [rule] at found left
  obtain ⟨g, hg, e⟩ := Option.map_eq_some_iff.1 found
  cases e
  cases form
  obtain ⟨v, hv, here⟩ := List.mem_map.1 ((parts_of_function hg).1 n hn)
  have made := each v hv
  rw [here] at made
  have fits := fits_of_assemble (h.children v hv) made
  have loud : ∀ r, isFunctionPart r = true → language.kind r ≠ .silent :=
    fun r hr => kind_ne_silent (by rintro rfl; cases hr)
  obtain ⟨r, part, rfl⟩ := left.exists_rule loud (by decide) v hv
  cases rule : v.rule
  case identifier => exact exists_name_of_name? (h.children v hv) rule made named
  all_goals
    rw [rule] at part fits
    first
      | cases part; done
      | obtain ⟨_, ⟨⟩⟩ := fits

end Declarations

section Written

variable {file : String} {source : List Char} {c c₁ c₂ d : Cursor}

/-- What is known where a declaration begins. -/
lemma fits_let {z : List Char} (plain : Plain ("let ".toList ++ z)) :
    (standing "let ".toList []).Fits language z :=
  ⟨fun _ _ _ => rfl, fun r hr m i => by
    obtain rfl := List.mem_singleton.1 hr
    exact plain.arrowFunction_fails⟩

/-- The word that declares is read. -/
lemma denotes_let {z : List Char} (plain : Plain c.rest) (leads : c.Leads "let".toList d)
    (rest : d.rest = ' ' :: z) :
    Denotes file source (.once (.call .declarationKind)) c d [.token "let"] := by
  rw [leads.1, rest] at plain
  exact denotes_token rfl rfl (fun _ => rfl) (fits_let plain) (w := [' ']) rfl leads rest (by decide)

/-- No import and no export stands where a declaration does. -/
lemma fails_at_let {z : List Char} (plain : Plain c.rest) (rest : c.rest = "let ".toList ++ z) :
    ∀ e ∈ [Expr.call Rule.importDeclaration, .call .exportDeclaration], Fails e c := by
  rw [rest] at plain
  intro e he
  refine (fits_let plain).fails (n := 50) rest ?_
  have told : ∀ e ∈ [Expr.call Rule.importDeclaration, .call .exportDeclaration],
      (standing "let ".toList []).forecast language 50 false e "let ".toList = .fails := by
    decide
  exact told e he

end Written

end ScriptTyping.Reading

namespace ScriptTyping.Script
open Peg Grammar Reading Peg.Expr

section Written

variable {s : Script} (n : Name) (one : Numeral)

/-- How the declaration of a name with a whole number is written. -/
def letText : List Char :=
  "let".toList ++ ([' '] ++ (n.text ++ ([' '] ++ (['='] ++ ([' '] ++ (one.text ++ [';']))))))

lemma plain_letText : Plain (letText n one) := by
  have blank {z : List Char} (h : Plain z) : Plain ([' '] ++ z) :=
    h.append (by decide) (.inl (by decide))
  have value : Plain (one.text ++ [';']) :=
    (Plain.cons (by decide) (by decide) .nil).append (Term.notMem_numeral one (by decide))
      (.inl (Term.notMem_numeral one (by decide)))
  have sign : Plain (['='] ++ ([' '] ++ (one.text ++ [';']))) :=
    (blank value).cons (by decide) fun _ => by simp
  have name : Plain (n.text ++ ([' '] ++ (['='] ++ ([' '] ++ (one.text ++ [';']))))) :=
    (blank sign).append (n.notMem (by decide))
      (.inl (n.notMem (by decide)))
  exact (blank name).append (by decide) (.inl (by decide))

lemma notMem_letText {x : Char} (opens : x ∈ Scan.openers) : x ∉ letText n one := by
  have foreign : ∀ y ∈ Scan.openers, isIdentPart y = false ∧ y.isDigit = false ∧
      y ∉ "let".toList ++ [' ', '=', ';'] := by
    simp only [← List.all_iff_forall_prop]
    decide
  obtain ⟨part, digit, mark⟩ := foreign x opens
  have name := n.notMem part
  have value := Term.notMem_numeral one digit
  simp_all [letText]

end Written

variable {s : Script}

/-- A declaration of a name with a whole number has the tree of one. -/
lemma exists_parse_of_let (n : Name) (one : Numeral) (content : s.content.toList = letText n one) :
    ∃ id value declarator declaration program, s.parse = .ok (.mk (.program
      [.mk (.variableDeclaration .let [.mk (.variableDeclarator
        (.mk (.identifier (String.ofList n.text)) id)
        (some (.mk (.literal (.number one.value) (String.ofList one.text)) value))) declarator])
          declaration]) program) := by
  have plain : Plain s.content.toList := content ▸ plain_letText n one
  have shallow : s.checkNesting = .ok () := by
    rw [checkNesting_eq_ok, content]
    exact Scan.excess?_eq_none fun x hx opens => notMem_letText n one opens hx
  obtain ⟨d, leads, rest⟩ : ∃ d, Cursor.Leads ⟨0, s.content.toList⟩ (letText n one) d ∧ d.rest = [] :=
    ⟨⟨_, []⟩, ⟨by simp [content], rfl⟩, rfl⟩
  have start : Closed ⟨0, s.content.toList⟩ :=
    .of_shut (shut_of_solid (x := 'l') (by rw [content]; rfl) (by decide))
  rw [letText] at leads
  -- The pieces of the text, one behind the other.
  obtain ⟨c₁, word, leads⟩ := leads.split
  obtain ⟨c₂, blank, leads⟩ := leads.split
  obtain ⟨c₃, name, leads⟩ := leads.split
  obtain ⟨c₄, blank', leads⟩ := leads.split
  obtain ⟨c₅, sign, leads⟩ := leads.split
  obtain ⟨c₆, blank'', leads⟩ := leads.split
  obtain ⟨c₇, number, semicolon⟩ := leads.split
  have plain₂ := (plain.leads word).leads blank
  have plain₆ := (((plain₂.leads name).leads blank').leads sign).leads blank''
  obtain ⟨x, xs, first, letter, -⟩ := n.exists_cons
  obtain ⟨y, ys, figures, digit⟩ := (Term.numeral one).exists_cons_body c₇.rest
  have gap {d e : Cursor} {x : Char} {z : List Char} (blank : d.Leads [' '] e) (rest : e.rest = x :: z)
      (solid : isSolid x = true) : GapTo d e := gap_of_blank blank (shut_of_solid rest solid)
  have gap₁ : GapTo c₁ c₂ := gap blank (by rw [name.1, first, List.cons_append])
    (isSolid_of_isIdentPart (isIdentPart_of_isIdentStart letter))
  have gap₅ : GapTo c₅ c₆ := gap blank'' (by rw [number.1, ← figures, Term.body_numeral]) digit
  obtain ⟨id, identifier⟩ : ∃ id, Denotes s.name s.content.toList (.once (.call .identifier)) c₂ c₃
      [.node (.mk (.identifier (String.ofList n.text)) id)] :=
    denotes_identifier name (Cursor.stops_of_cons blank'.1 (by decide))
  have target : Denotes s.name s.content.toList (.once bindingTarget) c₂ c₃
      [.node (.mk (.identifier (String.ofList n.text)) id)] := identifier.choiceFirst
  have ends : AtCloser c₇ := ⟨';', _, semicolon.1, by decide⟩
  obtain ⟨value, operand⟩ : ∃ value, Operand s.name s.content.toList
      (.mk (.literal (.number one.value) (String.ofList one.text)) value) c₆ c₇ :=
    operand_of_numeral one plain₆ number ends
  have assigned := Denotes.seq target (gap blank' sign.1 (by decide)) (.optSome (.seq (.text sign)
    gap₅ (operand.value plain₆ ends)))
  have declarator : Denotes s.name s.content.toList (.once (.call .variableDeclarator)) c₂ c₇ [.node _] :=
    .call rfl assigned rfl
  have noMore : Fails (.text [',']) c₇ := text_fails semicolon.1 (by decide)
  have declarators := Denotes.seq (denotes_let plain word blank.1) gap₁
    (.seq declarator ends.closed (.starNone (noMore.seq (b := .call .variableDeclarator))))
  have declaration : Denotes s.name s.content.toList (.once (.call .variableDeclaration))
      ⟨0, s.content.toList⟩ d [.node _] :=
    .call rfl (.seq declarators ends.closed (.optSome (.text semicolon))) rfl
  have statement : Denotes s.name s.content.toList (.once statement) ⟨0, s.content.toList⟩ d [.node _] :=
    .oneOf (fails_at_let plain (by rw [content]; rfl)) declaration
  obtain ⟨program, parsed⟩ := parse_of_statement shallow start statement rest
  exact ⟨_, _, _, _, _, parsed⟩

/-- A script that is a name has the tree of one identifier. -/
lemma exists_parse_of_name (n : Name) (content : s.content.toList = n.text) :
    ∃ id statement program, s.parse = .ok (.mk (.program
      [.mk (.expressionStatement (.mk (.identifier (String.ofList n.text)) id)) statement]) program) := by
  let q : Sequence := ⟨.name n, []⟩
  have whole : s.content.toList = q.text ++ [] := by simp [q, Sequence.text, Atom.text, content]
  obtain ⟨t, statement, program, groups, parsed⟩ := exists_parse_of_sequence whole (.inr rfl)
  have alone : q.IsGroupedAs (.operand (.name n)) := ⟨rfl, rfl, trivial⟩
  have same := groups.unique alone
  cases t with
  | operand p =>
    obtain ⟨a, id⟩ := p
    cases same
    exact ⟨id, statement, program, parsed⟩
  | join => cases same

/-- What is named in a declaration is no reserved word. -/
lemma exists_name_of_mem_candidates {n : Node} (h : s.parse = .ok n) {c : Candidate}
    (hc : c ∈ n.candidates) : ∃ w : Name, c.name = String.ofList w.text := by
  obtain ⟨t, -, matched, made⟩ := match_of_parse h
  obtain ⟨-, -, read⟩ := isRead_of_match matched
  have sited := sited_of_isRead read made
  rw [declarations_node] at sited
  exact exists_name_of_candidate sited hc

/-- The name of a variable is no reserved word. -/
lemma exists_name_of_binding {n : Node} (h : s.parse = .ok n) {v : Variable}
    (hv : v ∈ (collect n s.content).bindings) : ∃ w : Name, v.name = String.ofList w.text := by
  rw [bindings_collect] at hv
  obtain ⟨c, hc, rfl⟩ := List.mem_map.1 hv
  exact exists_name_of_mem_candidates h (mem_of_mem_firsts hc)

/-- The name of a function, if it has one, is no reserved word. -/
lemma exists_name_of_routine {n : Node} (h : s.parse = .ok n) {r : Routine}
    (hr : r ∈ (collect n s.content).routines) :
    r.name = Routine.anonymous ∨ ∃ w : Name, r.name = String.ofList w.text := by
  obtain ⟨t, -, matched, made⟩ := match_of_parse h
  obtain ⟨-, -, read⟩ := isRead_of_match matched
  rw [routines_eq, ← declarations_node] at hr
  obtain ⟨d, hd, hr⟩ := List.mem_filterMap.1 hr
  obtain ⟨u, below, rule, madeU⟩ := (mem_functions_iff read made).1 hd
  obtain ⟨f, rfl⟩ := node_of_functionDeclaration rule madeU
  obtain ⟨q, readU, -⟩ := sublist_of_under below read _ made
  cases hr
  cases hn : f.id with
  | none => exact .inl (by simp [Node.routine, hn])
  | some id =>
    cases named : id.name? with
    | none => exact .inl (by simp [Node.routine, hn, named])
    | some name =>
      obtain ⟨w, rfl⟩ := exists_name_of_function readU rule madeU rfl hn named
      exact .inr ⟨w, by simp [Node.routine, hn, named]⟩

/-- A program of one declaration of one name has one candidate. -/
lemma exists_candidate_of_declaration {kind : DeclarationKind} {name : String} {init : Node}
    {id declarator declaration program : Site} (plain : init.declarations = []) :
    ∃ c, (Node.mk (.program [.mk (.variableDeclaration kind [.mk (.variableDeclarator
        (.mk (.identifier name) id) (some init)) declarator]) declaration]) program).candidates = [c] ∧
      c.kind = kind ∧ c.name = name ∧ c.init = some init := by
  have named : (Node.mk (.identifier name) id).name? = some name := rfl
  simp [Node.candidates_eq, Node.declarations_mk, Form.children, Form.declares, plain,
    Node.ownCandidates, Node.candidate?, Node.form, named]

/-- A declaration of a name with a whole number declares one variable, of this name. -/
lemma exists_binding_of_let (n : Name) (one : Numeral) (content : s.content.toList = letText n one) :
    ∃ p v, s.parse = .ok p ∧ (collect p s.content).bindings = [v] ∧
      v.name = String.ofList n.text ∧ v.kind = .let ∧ v.type = .number := by
  obtain ⟨id, value, declarator, declaration, program, parsed⟩ := exists_parse_of_let n one content
  have plain : (Node.mk (.literal (.number one.value) (String.ofList one.text)) value).declarations = [] :=
    Node.declarations_mk _ _
  obtain ⟨c, only, kind, name, init⟩ := exists_candidate_of_declaration plain
  refine ⟨_, c.recorded s.content, parsed, ?_, name, kind, ?_⟩
  · rw [bindings_collect, only]
    simp [firsts]
  · change Node.kindOf c.init = .number
    rw [init]
    exact Node.kind_mk _ _

/-- Every variable and every function that has a name has one that is a word and not reserved. Every such
word is a script of one identifier, and it names a variable where it is declared. -/
theorem names_of_parse :
    (∀ {s : Script} {n : Node}, s.parse = .ok n →
      (∀ v ∈ (collect n s.content).bindings, ∃ w : Name, v.name = String.ofList w.text) ∧
      ∀ r ∈ (collect n s.content).routines,
        r.name = Routine.anonymous ∨ ∃ w : Name, r.name = String.ofList w.text) ∧
    ∀ (w : Name) (name path : String),
      (∃ id statement program, Script.parse { name, path, content := String.ofList w.text } =
        .ok (.mk (.program [.mk (.expressionStatement (.mk (.identifier (String.ofList w.text)) id))
          statement]) program)) ∧
      ∃ n v, Script.parse { name, path, content := "let " ++ String.ofList w.text ++ " = 1;" } = .ok n ∧
        (collect n ("let " ++ String.ofList w.text ++ " = 1;")).bindings = [v] ∧
        v.name = String.ofList w.text ∧ v.kind = .let ∧ v.type = .number := by
  refine ⟨fun h => ⟨fun v hv => exists_name_of_binding h hv, fun r hr => exists_name_of_routine h hr⟩,
    fun w name path => ⟨?_, ?_⟩⟩
  · exact exists_parse_of_name w String.toList_ofList
  · exact exists_binding_of_let (s := { name, path, content := _ }) w ⟨['1'], by decide, by decide⟩
      (by simp [letText])

/-- A name that begins with a reserved word. -/
theorem names_of_parse_letter :
    ∃ n, (ofSource "a.js" "let letter = 1;").parse = .ok n ∧
      ∃ v ∈ (collect n "let letter = 1;").bindings, v.name = "letter" ∧
        ∃ w : Name, v.name = String.ofList w.text := by
  let letter : Name := ⟨⟨"letter".toList, by decide⟩, by decide⟩
  obtain ⟨n, v, parsed, only, name, -⟩ := (names_of_parse.2 letter "a.js" "a.js").2
  have hv : v ∈ (collect n "let letter = 1;").bindings := only ▸ List.mem_singleton_self v
  exact ⟨n, parsed, v, hv, name, (names_of_parse.1 parsed).1 v hv⟩

end ScriptTyping.Script
