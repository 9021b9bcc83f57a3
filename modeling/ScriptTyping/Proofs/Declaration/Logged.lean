import ScriptTyping.Proofs.Declaration.Findings
import ScriptTyping.Proofs.Declaration.Names
import ScriptTyping.Proofs.Kind.Text
import ScriptTyping.Proofs.Run.Log
import ScriptTyping.Run.Options

/-!
# What is logged of declarations

While the declarations of a script are collected, names that are declared again, findings and their count
are logged, and nothing else (`exists_of_mem_collectionLog`). A name is one line and so is the text of a
kind, so only the text of a pattern can be one of several lines: where the script has no title of a report
behind a line break, the log has none (`Script.isPlain_log`).
-/

namespace ScriptTyping

/-! ### What is logged -/

section Walk

variable {source : String} {t t' t'' : Table} {names names' : List String} {log log' : List LogRecord}

/-- A table has come to hold what another one does, and what has been logged are findings that it holds now
and names that are declared again. -/
structure Logs (t t' : Table) (names : List String) (log : List LogRecord) : Prop where
  grows : t.findings ⊆ t'.findings
  records : ∀ r ∈ log, (∃ name ∈ names, r = redeclared name) ∨ ∃ p ∈ t'.findings, r = p.logged

lemma Logs.nil : Logs t t names [] :=
  ⟨List.Subset.refl _, fun r hr => by cases hr⟩

lemma Logs.append (h₁ : Logs t t' names log) (h₂ : Logs t' t'' names' log') :
    Logs t t'' (names ++ names') (log ++ log') := by
  refine ⟨List.Subset.trans h₁.grows h₂.grows, List.forall_mem_append.2 ⟨fun r hr => ?_, fun r hr => ?_⟩⟩
  · obtain ⟨name, mem, rfl⟩ | ⟨p, mem, rfl⟩ := h₁.records r hr
    · exact .inl ⟨name, List.mem_append_left _ mem, rfl⟩
    · exact .inr ⟨p, h₂.grows mem, rfl⟩
  · obtain ⟨name, mem, rfl⟩ | found := h₂.records r hr
    · exact .inl ⟨name, List.mem_append_right _ mem, rfl⟩
    · exact .inr found

/-- What is new in a table is logged. -/
lemma Logs.news (grows : t.findings ⊆ t'.findings) : Logs t t' names (t.news t') := by
  refine ⟨grows, fun r hr => .inr ?_⟩
  obtain ⟨p, hp, rfl⟩ := List.mem_map.1 hr
  exact ⟨p, List.mem_of_mem_drop hp, rfl⟩

/-- What each step logs is logged in turn. -/
lemma Logs.foldl {f : Table → Node → Table} {record : Table → Node → List LogRecord}
    {own : Node → List String} (step : ∀ t x, Logs t (f t x) (own x) (record t x)) (xs : List Node)
    (t : Table) (log : List LogRecord) :
    ∃ log', xs.foldl (Table.logging f record) (t, log) = (xs.foldl f t, log ++ log') ∧
      Logs t (xs.foldl f t) (xs.flatMap own) log' := by
  induction xs generalizing t log with
  | nil => exact ⟨[], by rw [List.append_nil, List.foldl_nil, List.foldl_nil], .nil⟩
  | cons x xs ih =>
    obtain ⟨log', logged, logs⟩ := ih (f t x) (log ++ record t x)
    refine ⟨record t x ++ log', ?_, (step t x).append logs⟩
    rw [List.foldl_cons, ← List.append_assoc]
    exact logged

lemma Reports.subset {cs : List Candidate} {ps : List Problem} (h : Reports source t t' cs ps) :
    t.findings ⊆ t'.findings :=
  fun _ hp => h.findings.mem_iff.2 (List.mem_append_left _ hp)

/-- A declarator that has a variable has a candidate of its name. -/
lemma exists_candidate_of_known? {t : Table} {d : Node} {name : String} (h : t.known? d = some name)
    (n : Node) (kind : DeclarationKind) : ∃ c, n.candidate? kind d = some c ∧ c.name = name := by
  unfold Table.known? at h
  split at h
  · rename_i id init form
    obtain ⟨named, -⟩ := Option.filter_eq_some_iff.1 h
    refine ⟨{ declaration := n, kind, declarator := d, name, init }, ?_, rfl⟩
    simp only [Node.candidate?, form, named, Option.map_some]
  · cases h

lemma logs_logVariable (source : String) (n : Node) (kind : DeclarationKind) (t : Table) (d : Node) :
    Logs t (t.recordVariable source kind d) ((n.candidate? kind d).toList.map Candidate.name)
      (t.logVariable source kind d) := by
  have grows : t.findings ⊆ (t.recordVariable source kind d).findings :=
    (reports_recordVariable n kind t d).subset
  unfold Table.logVariable
  split
  · rename_i name known
    obtain ⟨c, found, rfl⟩ := exists_candidate_of_known? known n kind
    refine ⟨grows, List.forall_mem_singleton.2 (.inl ⟨c.name, ?_, rfl⟩)⟩
    rw [found]
    exact List.mem_singleton_self _
  · exact .news grows

lemma logs_logNode (source : String) (t : Table) (n : Node) :
    Logs t (t.record source n) (n.ownCandidates.map Candidate.name) (t.logNode source n) := by
  unfold Table.logNode
  split
  · rename_i kind ds form
    obtain ⟨log', logged, logs⟩ := Logs.foldl (logs_logVariable source n kind) ds t []
    have record : t.record source n = ds.foldl (Table.recordVariable source kind) t := by
      rw [Table.record, form]
    have own : n.ownCandidates.map Candidate.name =
        ds.flatMap fun d => (n.candidate? kind d).toList.map Candidate.name := by
      rw [Node.ownCandidates, form]
      exact List.map_flatMap
    rw [logged, record, own]
    exact logs
  · exact .news (reports_record t n).subset

/-- What is logged are names that are declared again, findings, and a count. -/
lemma exists_of_mem_collectionLog {program : Node} {name : String} {r : LogRecord}
    (h : r ∈ collectionLog program source name) :
    r = (collect program source).counted name ∨
      (∃ c ∈ program.candidates, r = redeclared c.name) ∨
      ∃ p ∈ (collect program source).findings, r = p.logged := by
  obtain ⟨log, logged, logs⟩ := Logs.foldl (logs_logNode source) program.preorder Table.empty []
  have whole : collectionLog program source name = log ++ [(collect program source).counted name] := by
    rw [collectionLog, logged]
    rfl
  rw [whole] at h
  rcases List.mem_append.1 h with h | h
  · obtain ⟨name, mem, rfl⟩ | found := logs.records r h
    · obtain ⟨m, hm, mem⟩ := List.mem_flatMap.1 mem
      obtain ⟨c, hc, rfl⟩ := List.mem_map.1 mem
      exact .inr (.inl ⟨c, List.mem_flatMap.2 ⟨m, hm, hc⟩, rfl⟩)
    · exact .inr (.inr found)
  · exact .inl (List.mem_singleton.1 h)

end Walk

/-! ### Texts of one line -/

lemma Grammar.Name.oneLine (w : Name) : OneLine (String.ofList w.text) :=
  OneLine.ofList_iff.2 (w.notMem (by decide))

lemma Text.oneLine_quoted (cs : List Char) : '\n' ∉ quoted cs := by
  have digit : ∀ n < 16, '\n' ≠ hexDigit n := by decide
  have one (c : Char) : '\n' ∉ quoteChar c := by
    unfold quoteChar
    split
    case h_8 _ _ _ _ _ other _ _ =>
      split
      · rename_i control
        have high := digit (c.toNat / 16) (by omega)
        have low := digit (c.toNat % 16) (by omega)
        simp [high, low]
      · exact fun mem => other (List.mem_singleton.1 mem).symm
    all_goals decide
  simp [quoted, one]

namespace Kind

lemma notMem_keyText (key : String) : '\n' ∉ keyText key := by
  unfold keyText
  split
  · rename_i bare
    intro mem
    exact absurd (isKeyChar_of_mem bare _ mem) (by decide)
  · exact Text.oneLine_quoted _

mutual

/-- A kind is told in one line. -/
lemma notMem_chars : ∀ a : Kind, '\n' ∉ a.chars
  | number | string | boolean | null | any | void | object [] => by decide
  | array a => by
    rw [chars_array, List.mem_append, not_or]
    exact ⟨notMem_chars a, by decide⟩
  | object (e :: es) => by
    rw [chars_object, List.mem_append, List.mem_append, not_or, not_or]
    exact ⟨by decide, notMem_entryChars (e :: es), by decide⟩

lemma notMem_entryChars : ∀ es : List (String × Kind), '\n' ∉ entryChars es
  | [] => by decide
  | [(key, a)] => by
    have last : entryChars [(key, a)] = keyText key ++ ": ".toList ++ a.chars := rfl
    rw [last, List.mem_append, List.mem_append, not_or, not_or]
    exact ⟨⟨notMem_keyText key, by decide⟩, notMem_chars a⟩
  | (key, a) :: e :: es => by
    have more : entryChars ((key, a) :: e :: es) =
        keyText key ++ ": ".toList ++ a.chars ++ "; ".toList ++ entryChars (e :: es) := rfl
    rw [more, List.mem_append, List.mem_append, List.mem_append, List.mem_append]
    simp only [not_or]
    exact ⟨⟨⟨⟨notMem_keyText key, by decide⟩, notMem_chars a⟩, by decide⟩, notMem_entryChars (e :: es)⟩

end

end Kind

namespace Finding

/-- What is told of a declaration is one line if its name is. -/
lemma IsAbout.oneLine {f : Finding} {name : String} (h : f.IsAbout name) (one : OneLine name) :
    OneLine f.message := by
  obtain ⟨type, rfl⟩ | rfl | rfl | rfl := h
  · have kind : OneLine type.text := OneLine.ofList_iff.2 type.notMem_chars
    exact ((OneLine.framed (by decide) one (by decide)).append kind).append (.literal (by decide))
  all_goals exact OneLine.framed (by decide) one (by decide)

end Finding

/-! ### Texts of a script -/

lemma Text.isInfix_of_slice? {cs part : List Char} {start stop : Nat}
    (h : slice? cs start stop = some part) : part <:+: cs := by
  unfold slice? at h
  split at h
  · split at h
    · rename_i first
      obtain ⟨⟨front, back⟩, second, rfl⟩ := Option.map_eq_some_iff.1 h
      have whole := append_of_splitBytes? first
      rw [← append_of_splitBytes? second] at whole
      exact ⟨_, back, by rw [List.append_assoc, whole]⟩
    · cases h
  · cases h

/-- The text of a node is a part of its script. -/
lemma Node.isInfix_of_sourceText? {n : Node} {source text : String} (h : n.sourceText? source = some text) :
    text.toList <:+: source.toList := by
  obtain ⟨span, -, h⟩ := Option.bind_eq_some_iff.1 h
  obtain ⟨part, sliced, rfl⟩ := Option.map_eq_some_iff.1 h
  rw [String.toList_ofList]
  exact Text.isInfix_of_slice? sliced

/-- What is told of a pattern has no title of a report if the script has none. -/
lemma untitled_destructured {n : Node} {source : String} (h : Untitled source) :
    Untitled (Finding.destructured ((n.sourceText? source).getD "pattern")).message := by
  have pattern : Untitled ((n.sourceText? source).getD "pattern") := by
    cases text : n.sourceText? source with
    | none => exact (by decide : Untitled "pattern")
    | some text' => exact h.of_infix (Node.isInfix_of_sourceText? text)
  have front : OneLine "Skipping destructured declaration '" := .literal (by decide)
  have quote : ∀ c ∈ "'.".toList.head?, c ∉ reportTitle := by
    intro c hc
    obtain rfl := Option.some.inj hc
    decide
  exact (Untitled.behind front pattern).before (.literal (by decide)) quote

namespace Script
open Reading

variable {s : Script} {n : Node}

lemma oneLine_of_routine (h : s.parse = .ok n) {r : Routine} (hr : r ∈ (collect n s.content).routines) :
    OneLine r.name := by
  obtain anonymous | ⟨w, name⟩ := exists_name_of_routine h hr
  · rw [anonymous]
    decide
  · exact name ▸ w.oneLine

/-- What is found in a script is told without the title of a report if the script has none behind a line
break. -/
lemma untitled_of_findings (h : s.parse = .ok n) (untitled : Untitled s.content) {p : Problem}
    (hp : p ∈ (collect n s.content).findings) : Untitled p.message := by
  rcases List.mem_append.1 ((findings_collect_perm n s.content).mem_iff.1 hp) with named | apart
  · obtain ⟨c, hc, told⟩ := List.mem_flatMap.1 named
    obtain ⟨w, name⟩ := exists_name_of_mem_candidates h (mem_of_mem_firsts hc)
    obtain ⟨f, m, about, -, rfl⟩ := Candidate.exists_of_mem_findings told
    exact .of_oneLine (about.oneLine (name ▸ w.oneLine))
  · obtain ⟨m, hm, told⟩ := List.mem_flatMap.1 apart
    obtain ⟨d, -, id, rfl⟩ | ⟨r, routine, rfl⟩ := Node.exists_of_mem_apartFindings told
    · exact untitled_destructured untitled
    · have recorded : r ∈ (collect n s.content).routines := by
        rw [routines_collect]
        exact List.mem_filterMap.2 ⟨m, hm, routine⟩
      have about : (Finding.emptyBody r.name).IsAbout r.name := .inr (.inr (.inr rfl))
      exact .of_oneLine (about.oneLine (oneLine_of_routine h recorded))

/-- What is logged of a script has no title of a report if the script has none behind a line break. -/
lemma isPlain_log (name : OneLine s.name) (untitled : Untitled s.content) : ∀ r ∈ s.log, r.IsPlain := by
  have target : OneLine "typeify_core::analyzers::declarations::collector" := .literal (by decide)
  intro r hr
  unfold log at hr
  split at hr
  · rename_i n parsed
    obtain rfl | ⟨c, hc, rfl⟩ | ⟨p, hp, rfl⟩ := exists_of_mem_collectionLog hr
    · refine ⟨target, .of_oneLine ?_⟩
      exact (((OneLine.framed (by decide) (.toString_nat _) (by decide)).append (.toString_nat _)).append
        (.literal (by decide))).append name
    · obtain ⟨w, called⟩ := exists_name_of_mem_candidates parsed hc
      have one : OneLine c.name := called ▸ w.oneLine
      refine ⟨target, .of_oneLine ?_⟩
      exact OneLine.framed (by decide) one (by decide)
    · exact ⟨target, untitled_of_findings parsed untitled hp⟩
  · cases hr

end Script

end ScriptTyping
