import ScriptTyping.Proofs.Reading.Parsed
import ScriptTyping.Proofs.Reading.Boundaries
import ScriptTyping.Proofs.Reading.Origin
import ScriptTyping.Proofs.Syntax.Proper

/-!
# Names are whole words

An identifier in the syntax tree of a script covers its name, and no word goes on after it. Before it no
word stands either, unless it is the new name of something imported or exported: this may follow directly
after `as`, which then begins as a word (`words_of_parse`).
-/

namespace ScriptTyping

/-- The items of imports and exports that may give a new name. -/
def Form.renames {α : Type} : Form α → Bool
  | .importSpecifier .. | .importNamespaceSpecifier _ | .exportSpecifier ..
  | .exportAllDeclaration .. => true
  | _ => false

namespace Scan
open Grammar

/-- A word is no blank, no comment and no quoted text. -/
lemma afterCode_of_word {cs : List Char} (all : ∀ x ∈ cs, isIdentPart x = true) :
    afterCode cs cs = [] := by
  induction cs with
  | nil => simp [afterCode]
  | cons x xs ih =>
    have code : lexeme x xs = (true, xs) := by
      have part := all x List.mem_cons_self
      have other : ∀ y ∈ ['/', '"', '\'', '\x60', '\\', ' ', '\t', '\n', '\r', '\x0C'],
          isIdentPart y = false := List.all_iff_forall_prop.mp (by decide)
      have ne {y : Char} (hy : isIdentPart y = false) : x ≠ y := by
        rintro rfl
        rw [part] at hy
        cases hy
      simp only [List.forall_mem_cons] at other
      simp [lexeme, isQuote, Text.isAsciiBlank, ne, other]
    rw [afterCode, code]
    exact ih fun y hy => all y (List.mem_cons_of_mem x hy)

/-- Nothing is taken off a word. -/
lemma trimTrailing_of_word {cs : List Char} (all : ∀ x ∈ cs, isIdentPart x = true) :
    trimTrailing cs = cs := by
  rw [trimTrailing, afterCode_of_word all, List.length_nil, Nat.sub_zero, List.take_length]

end Scan

namespace Reading
open Peg Grammar Peg.Expr

/-- No word goes on across the end of a text. -/
def EndsApart (cs : List Char) : Prop :=
  ∀ x ∈ cs.getLast?, isIdentPart x = false

/-- A node is an identifier that stands directly after a text, and no word goes on after it. -/
def StandsAfter (file : String) (source before : List Char) (n : Node) : Prop :=
  ∃ name after, source = before ++ name ++ after ∧
    n = .mk (.identifier (String.ofList name))
      { location := some (Location.after file before)
        span := some ⟨Location.after file before, Location.after file (before ++ name)⟩ } ∧
    ∀ x ∈ after.head?, isIdentPart x = false

/-- A node is an identifier, and a word of its own. -/
def IsApart (file : String) (source : List Char) (n : Node) : Prop :=
  ∃ before, StandsAfter file source before n ∧ EndsApart before

/-- A node is an identifier directly after the word that gives a new name. -/
def IsRenamed (file : String) (source : List Char) (n : Node) : Prop :=
  ∃ front, StandsAfter file source (front ++ "as".toList) n ∧ EndsApart front

/-- The identifiers among the children of a node are words of their own, or perhaps new names. -/
def SpacedBelow (file : String) (source : List Char) (n : Node) : Prop :=
  ∀ k ∈ n.preorder, ∀ c ∈ k.children, c.form.isIdentifier = true →
    IsApart file source c ∨ k.form.renames = true ∧ IsRenamed file source c

/-- A node is a new name, or it is none and the identifiers below it are spaced. -/
structure SpacedOrNew (file : String) (source : List Char) (n : Node) : Prop where
  top : n.form.isIdentifier = true → IsApart file source n ∨ IsRenamed file source n
  below : SpacedBelow file source n

/-- The identifiers of a syntax tree are words of their own, but for new names below its top. -/
structure Spaced (file : String) (source : List Char) (n : Node) : Prop where
  top : n.form.isIdentifier = true → IsApart file source n
  below : SpacedBelow file source n

section Nodes

variable {file : String} {source : List Char} {f : Form Node} {s : Site}

lemma spacedBelow_mk (own : ∀ c ∈ f.children, c.form.isIdentifier = true →
      IsApart file source c ∨ f.renames = true ∧ IsRenamed file source c)
    (children : ∀ c ∈ f.children, SpacedBelow file source c) : SpacedBelow file source (.mk f s) := by
  intro k hk
  rw [Node.preorder_eq] at hk
  rcases List.mem_cons.1 hk with rfl | hk
  · exact own
  · obtain ⟨c, hc, hk⟩ := List.mem_flatMap.1 hk
    exact children c hc k hk

lemma inherited_spaced : Inherited (Spaced file source) where
  node plain children :=
    ⟨fun identifier => absurd identifier (by simp [Node.form, plain]),
      spacedBelow_mk (fun c hc identifier => .inl ((children c hc).top identifier))
        fun c hc => (children c hc).below⟩
  target {left right s} h := by
    have child : left ∈ (Node.mk (.assignmentPattern left right) s).children := List.mem_cons_self
    refine ⟨fun identifier => ?_, fun k hk => ?_⟩
    · refine (h.below _ (Node.self_mem_preorder _) left child identifier).resolve_right ?_
      rintro ⟨renames, -⟩
      cases renames
    · exact h.below k (Node.mem_preorder_of_mem_children child hk)

lemma Spaced.orNew {n : Node} (h : Spaced file source n) : SpacedOrNew file source n :=
  ⟨fun identifier => .inl (h.top identifier), h.below⟩

/-- New names may stand directly below what gives them. -/
lemma spaced_of_renames (renames : f.renames = true)
    (children : ∀ c ∈ f.children, SpacedOrNew file source c) : Spaced file source (.mk f s) := by
  refine ⟨fun identifier => ?_, spacedBelow_mk (fun c hc identifier => ?_) fun c hc => (children c hc).below⟩
  · cases f
    all_goals first
      | cases renames; done
      | cases identifier
  · exact ((children c hc).top identifier).imp_right fun renamed => ⟨renames, renamed⟩

variable {e : Extent} {r : Rule} {parts : List Phrase} {p : Phrase}

/-- What gives new names is spaced. -/
lemma each_of_renames (renames : Grammar.renames r = true)
    (each : EachOf (SpacedOrNew file source) parts) (h : phrase? r e parts = some p) :
    Each (Spaced file source) p := by
  cases r
  case namespaceImport =>
    change withOne e .importNamespaceSpecifier parts = _ at h
    unfold withOne at h
    split at h
    all_goals cases h
    exact each_node.2 (spaced_of_renames rfl (by simpa [Form.children] using each))
  case importSpecifier =>
    change importSpecifier e parts = _ at h
    unfold importSpecifier at h
    split at h
    all_goals cases h
    all_goals exact each_node.2 (spaced_of_renames rfl (by simpa [Form.children] using each))
  case exportSpecifier =>
    change exportSpecifier e parts = _ at h
    unfold exportSpecifier at h
    split at h
    all_goals cases h
    all_goals exact each_node.2 (spaced_of_renames rfl (by simpa [Form.children] using each))
  case exportAll =>
    change exportAll parts = _ at h
    unfold exportAll at h
    split at h
    all_goals cases h
    all_goals exact fun _ => spaced_of_renames rfl (by simpa [Form.children] using each)
  all_goals cases renames

end Nodes

section Names

variable {file : String} {source : List Char} {t u : Peg.Tree Rule}

/-- The text of a name is a word. -/
lemma exists_word_of_isName (h : t.IsRead language source) (name : isName t.rule = true) :
    ∃ w : Word, t.text = w.text := by
  have spelled := h.spells (kind_of_isName name)
  rw [show language.body t.rule = body t.rule from rfl] at spelled
  have words {w : String} {ws : List String} (h : Spells (wholeWord (w :: ws)) t.text)
      (each : ∀ v ∈ w :: ws, Grammar.isWord v.toList = true) : Grammar.isWord t.text = true := by
    obtain ⟨v, hv, text⟩ := spells_wholeWord.1 h
    rw [text]
    exact each v hv
  have isWord : Grammar.isWord t.text = true := by
    cases rule : t.rule
    case identifier =>
      rw [rule] at spelled
      obtain ⟨_, cs, text, rfl, spelled⟩ := spelled
      rw [text]
      exact isWord_of_spells spelled
    case propertyIdentifier =>
      rw [rule] at spelled
      exact isWord_of_spells spelled
    case metaObject =>
      rw [rule] at spelled
      exact words spelled (by decide)
    case metaName =>
      rw [rule] at spelled
      exact words spelled (by decide)
    all_goals simp [rule, isName] at name
  exact ⟨⟨t.text, isWord⟩, rfl⟩

/-- No word goes on across a parted place where another one begins. -/
lemma endsApart_of_parted {c d : Cursor} {w : Word} (parted : Parted source c)
    (leads : c.Leads w.text d) : EndsApart (source.take c.index) := by
  obtain ⟨x, xs, text, start, -⟩ := w.exists_cons
  have first : c.rest = x :: (xs ++ d.rest) := by rw [leads.1, text, List.cons_append]
  intro y hy
  cases part : isIdentPart y with
  | false => rfl
  | true =>
    have other := parted y hy part x _ first
    rw [isIdentPart_of_isIdentStart start] at other
    cases other

/-- A name is followed by no character that goes on with it. -/
lemma exists_stops (h : t.IsRead language source) (name : isName t.rule = true) :
    ∃ d, (t.place source).Leads t.text d ∧ d.Stops isIdentPart := by
  obtain ⟨w, text⟩ := exists_word_of_isName h name
  obtain ⟨le, -, m, q, -, reads, covers, -⟩ := h
  have atomic := kind_of_isName name
  rw [show language.kind t.rule = .atomic from atomic] at reads
  have within : (t.place source).Within source := ⟨rfl, le⟩
  obtain ⟨cs, leads⟩ := reads.leads
  obtain rfl : t.text = cs := by rw [covers, leads.upTo]
  have leads : (t.place source).Leads t.text q.place := leads
  refine ⟨q.place, leads, ?_⟩
  obtain ⟨y, hy⟩ : ∃ y, t.text.getLast? = some y := by
    obtain ⟨z, zs, word, -⟩ := w.exists_cons
    exact ⟨_, List.getLast?_eq_some_getLast (by simp [text, word])⟩
  have parted := (seals_body atomic).parted (m := m.within .atomic) (by simp [Mode.within]) within reads
  refine parted y ?_ (w.isIdentPart_of_mem (text ▸ List.mem_of_getLast? hy))
  rw [within.take_leads leads, List.getLast?_append, hy]
  rfl

/-- A name stands for an identifier. -/
lemma identifier_of_isName {p : Phrase} (name : isName t.rule = true)
    (made : assemble file source t = .ok p) :
    p = .node ((extent file source t).node (.identifier (String.ofList t.text))) := by
  obtain ⟨value, -, found⟩ := phrase?_of_assemble made
  cases rule : t.rule
  case identifier | propertyIdentifier | metaObject | metaName =>
    rw [rule] at found
    exact (Option.some.inj found).symm
  all_goals simp [rule, isName] at name

/-- A name stands for an identifier at its place. -/
lemma exists_standsAfter {p : Phrase} (h : t.IsRead language source) (name : isName t.rule = true)
    (made : assemble file source t = .ok p) :
    ∃ n, p = .node n ∧ n.children = [] ∧ StandsAfter file source (source.take t.start) n ∧
      ∃ w : Word, ∃ d, (t.place source).Leads w.text d := by
  obtain ⟨w, text⟩ := exists_word_of_isName h name
  have parts : ∀ x ∈ t.text, isIdentPart x = true := fun x hx => w.isIdentPart_of_mem (text ▸ hx)
  obtain ⟨d, leads, stops⟩ := exists_stops h name
  have within : (t.place source).Within source := ⟨rfl, h.1⟩
  have ends : source.take d.index = source.take t.start ++ t.text := within.take_leads leads
  have whole : source = source.take t.start ++ t.text ++ d.rest := by
    rw [← ends, (within.leads leads).1, List.take_append_drop]
  refine ⟨_, identifier_of_isName name made, rfl, ⟨t.text, d.rest, whole, ?_, ?_⟩, w, d, text ▸ leads⟩
  · rw [← ends, show d.index = t.start + t.text.length from leads.2]
    simp only [Extent.node, Extent.site, Extent.span, Extent.place, extent,
      Scan.trimTrailing_of_word parts]
  · intro x hx
    obtain ⟨xs, rest⟩ := List.head?_eq_some_iff.1 hx
    exact stops x xs rest

end Names

section Trees

variable {file : String} {source : List Char} {t u : Peg.Tree Rule} {p : Phrase}

/-- A name that begins at a parted place is a word of its own. -/
lemma each_of_name (h : t.IsRead language source) (name : isName t.rule = true)
    (here : Parted source (t.place source)) (made : assemble file source t = .ok p) :
    Each (Spaced file source) p := by
  obtain ⟨n, rfl, bare, stands, w, d, leads⟩ := exists_standsAfter h name made
  refine each_node.2 ⟨fun _ => ⟨_, stands, endsApart_of_parted here leads⟩, fun k hk c hc => ?_⟩
  rw [Node.preorder_eq, bare] at hk
  obtain rfl := List.mem_singleton.1 hk
  rw [bare] at hc
  cases hc

/-- A new name is a word of its own, or it stands after the word that gives it. -/
lemma named_of_behind (h : t.IsRead language source) (name : isName t.rule = true)
    (behind : Behind source "as".toList (t.place source)) (made : assemble file source t = .ok p) :
    ∃ n, p = .node n ∧ n.children = [] ∧ IsRenamed file source n := by
  obtain ⟨n, rfl, bare, stands, -⟩ := exists_standsAfter h name made
  obtain ⟨d, within, parted, leads⟩ := behind
  have before : source.take t.start = source.take d.index ++ "as".toList := within.take_leads leads
  rw [before] at stands
  have word : Grammar.isWord "as".toList = true := by decide
  exact ⟨n, rfl, bare, _, stands, endsApart_of_parted (w := ⟨_, word⟩) parted leads⟩

/-- What stands for a part of a match is spaced, or it is a new name and the match may give one. -/
lemma each_of_placed (h : u.IsRead language source) (placed : Placed source (renames t.rule) u)
    (ih : Parted source (u.place source) → Each (Spaced file source) p)
    (made : assemble file source u = .ok p) :
    Each (Spaced file source) p ∨ renames t.rule = true ∧ Each (SpacedOrNew file source) p := by
  rcases placed with parted | string | ⟨new, name, behind⟩
  · exact .inl (ih parted)
  · obtain ⟨value, -, found⟩ := phrase?_of_assemble made
    rw [string] at found
    exact .inl (inherited_spaced.leaf rfl rfl found)
  · obtain ⟨n, rfl, bare, renamed⟩ := named_of_behind h name behind made
    refine .inr ⟨new, each_node.2 ⟨fun _ => .inr renamed, fun k hk c hc => ?_⟩⟩
    rw [Node.preorder_eq, bare] at hk
    obtain rfl := List.mem_singleton.1 hk
    rw [bare] at hc
    cases hc

/-- The identifiers in what a match stands for are words of their own, but for new names. -/
theorem each_of_isRead (h : t.IsRead language source) : ∀ {p}, Parted source (t.place source) →
    assemble file source t = .ok p → Each (Spaced file source) p := by
  refine Tree.IsRead.induction (P := fun t => ∀ {p}, Parted source (t.place source) →
    assemble file source t = .ok p → Each (Spaced file source) p) (fun t h ih p here made => ?_) t h
  cases name : isName t.rule with
  | true => exact each_of_name h name here made
  | false =>
    obtain ⟨value, each, sound, found⟩ := exists_parts h made
    have part (u : Peg.Tree Rule) (hu : u ∈ t.children) := each_of_placed (h.children u hu)
      (placed_of_child h here hu) (fun parted => ih u hu parted (each u hu)) (each u hu)
    cases new : renames t.rule with
    | false =>
      refine each_of_phrase? inherited_spaced (List.forall_mem_map.2 fun u hu => ?_) sound.placed
        (fun f hf => ?_) name found
      · exact (part u hu).resolve_right fun gives => by simp [new] at gives
      · obtain ⟨u, hu, same⟩ := List.mem_map.1 hf
        exact rule_of_exported h hu (same ▸ each u hu)
    | true =>
      refine each_of_renames new (List.forall_mem_map.2 fun u hu => ?_) found
      exact (part u hu).elim (Each.mono fun n => Spaced.orNew) And.right

end Trees

end Reading

namespace Script
open Grammar Reading

/-- The identifiers of a script are whole words: each covers its name, no word goes on after it, and
none ends directly before it, but for the word that gives a new name to something imported or exported. -/
theorem words_of_parse {s : Script} {n : Node} (h : s.parse = .ok n) {k c : Node} (hk : k ∈ n.preorder)
    (hc : c ∈ k.children) {name : String} (named : c.name? = some name) :
    ∃ before after, s.content.toList = before ++ name.toList ++ after ∧
      c.span? = some ⟨Location.after s.name before, Location.after s.name (before ++ name.toList)⟩ ∧
      (∀ x ∈ after.head?, isIdentPart x = false) ∧
      ((∀ x ∈ before.getLast?, isIdentPart x = false) ∨ k.form.renames = true ∧
        ∃ front, before = front ++ "as".toList ∧ ∀ x ∈ front.getLast?, isIdentPart x = false) := by
  obtain ⟨t, -, matched, made⟩ := match_of_parse h
  obtain ⟨-, start, read⟩ := isRead_of_match matched
  have here : Parted s.content.toList (t.place s.content.toList) := by
    rw [Peg.Tree.place, start]
    exact parted_start _
  have spaced := each_node.1 (each_of_isRead read here made)
  have stands {before : List Char} (h : StandsAfter s.name s.content.toList before c) :
      ∃ after, s.content.toList = before ++ name.toList ++ after ∧
        c.span? = some ⟨Location.after s.name before, Location.after s.name (before ++ name.toList)⟩ ∧
        ∀ x ∈ after.head?, isIdentPart x = false := by
    obtain ⟨cs, after, whole, rfl, stops⟩ := h
    obtain rfl := Option.some.inj named
    rw [String.toList_ofList]
    exact ⟨after, whole, rfl, stops⟩
  have identifier : c.form.isIdentifier = true := by
    unfold Node.name? at named
    split at named
    · rename_i form
      rw [form]
      rfl
    · cases named
  rcases spaced.below k hk c hc identifier with ⟨before, h, ends⟩ | ⟨renames, front, h, ends⟩
  · obtain ⟨after, whole, span, stops⟩ := stands h
    exact ⟨before, after, whole, span, stops, .inl ends⟩
  · obtain ⟨after, whole, span, stops⟩ := stands h
    exact ⟨_, after, whole, span, stops, .inr ⟨renames, front, rfl, ends⟩⟩

/-- Whether a program is the import of all there is under one name, and nothing else. -/
def isNamespaceImport (name : String) : Node → Bool
  | .mk (.program [.mk (.importDeclaration [.mk (.importNamespaceSpecifier
      (.mk (.identifier bound) _)) _] _) _]) _ => bound = name
  | _ => false

/-- A new name directly after the word that gives it. -/
theorem words_of_parse_import : ∃ n, (ofSource "a.js" "import*asb from''").parse = .ok n ∧
    ∃ k ∈ n.preorder, ∃ c ∈ k.children, c.name? = some "b" ∧
      ∃ before after, "import*asb from''".toList = before ++ "b".toList ++ after ∧
        c.span? = some ⟨Location.after "a.js" before, Location.after "a.js" (before ++ "b".toList)⟩ ∧
        (∀ x ∈ after.head?, isIdentPart x = false) ∧
        ((∀ x ∈ before.getLast?, isIdentPart x = false) ∨ k.form.renames = true ∧
          ∃ front, before = front ++ "as".toList ∧ ∀ x ∈ front.getLast?, isIdentPart x = false) := by
  have found : (ofSource "a.js" "import*asb from''").parse.toOption.any (isNamespaceImport "b") = true := by
    decide +kernel
  obtain ⟨n, parsed, found⟩ := (Option.any_eq_true _ _).1 found
  unfold isNamespaceImport at found
  split at found
  · rename_i name bound specifier source declaration program
    obtain rfl := of_decide_eq_true found
    have parsed := parse_of_toOption parsed
    refine ⟨_, parsed, .mk (.importNamespaceSpecifier (.mk (.identifier "b") bound)) specifier, ?_,
      .mk (.identifier "b") bound, List.mem_singleton_self _, rfl, ?_⟩
    · exact Node.mem_preorder_of_mem_children (List.mem_singleton_self _)
        (Node.mem_preorder_of_mem_children List.mem_cons_self (Node.self_mem_preorder _))
    · refine words_of_parse parsed ?_ (List.mem_singleton_self _) rfl
      exact Node.mem_preorder_of_mem_children (List.mem_singleton_self _)
        (Node.mem_preorder_of_mem_children List.mem_cons_self (Node.self_mem_preorder _))
  · cases found

end Script

end ScriptTyping
