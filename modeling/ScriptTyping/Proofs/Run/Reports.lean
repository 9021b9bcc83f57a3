import ScriptTyping.Invocation.Usage
import ScriptTyping.Proofs.Declaration.Logged
import ScriptTyping.Proofs.Grammar.Numbers
import ScriptTyping.Proofs.Invocation.Arguments
import ScriptTyping.Proofs.Reading.Termination
import ScriptTyping.Proofs.Run.Outcome

/-!
# What is told of a run

Whatever keeps a run from its end, the report of it is one line, if the paths and the formatter are
named in one line and the world tells its obstacles so (`World.oneLine_report`): the name of a script
is a part of a path, the grammar complains in names of rules, a number holds no line feed, and of what
a program complains only the first line is told. The log of a run has no title of a report behind a line
break, if its script has none (`World.isPlain_log`).
-/

namespace ScriptTyping

/-! ### Scripts and their faults -/

/-- The name of the file that a path leads to is a part of the path. -/
lemma Script.oneLine_fileName {path : String} (h : OneLine path) : OneLine (fileName path) := by
  rw [fileName]
  split
  case h_1 | h_3 => exact .literal (by decide)
  case h_2 part _ last =>
    refine OneLine.ofList_iff.2 fun mem => h ?_
    have piece := (List.mem_filter.1 (List.mem_of_getLast? last)).1
    exact (mem_of_mem_splitOn piece mem).1

namespace Rule

lemma oneLine_name (r : Rule) : OneLine r.name := by
  have level (level : Precedence) : OneLine level.name := by
    cases level
    all_goals exact .literal (by decide)
  cases r with
  | binaryExpression l => exact (level l).append (.literal (by decide))
  | binaryOperator l => exact (level l).append (.literal (by decide))
  | _ => exact .literal (by decide)

end Rule

namespace Peg

lemma oneLine_enumerate {names : List String} (h : ∀ name ∈ names, OneLine name) :
    OneLine (enumerate names) := by
  have sep : OneLine ", " := .literal (by decide)
  have last : OneLine ", or " := .literal (by decide)
  have or : OneLine " or " := .literal (by decide)
  rw [enumerate.eq_def]
  split
  case h_1 => exact .literal (by decide)
  case h_2 a => exact h a (.head _)
  case h_3 a b => exact ((h a (.head _)).append or).append (h b (.tail _ (.head _)))
  case h_4 =>
    have front := OneLine.intercalate sep fun name mem => h name (List.mem_of_mem_dropLast mem)
    refine (front.append last).append ?_
    cases ended : names.getLast? with
    | none => exact .literal (by decide)
    | some name => exact h name (List.mem_of_getLast? ended)

lemma oneLine_complaint {expected unexpected : List String} (h : ∀ name ∈ expected, OneLine name)
    (h' : ∀ name ∈ unexpected, OneLine name) : OneLine (complaint expected unexpected) := by
  have names := oneLine_enumerate h
  have names' := oneLine_enumerate h'
  rw [complaint.eq_def]
  split
  case h_1 => exact .literal (by decide)
  case h_2 => exact OneLine.append (.literal (by decide)) names
  case h_3 => exact OneLine.append (.literal (by decide)) names'
  case h_4 => exact (OneLine.framed (by decide) names' (by decide)).append names

lemma oneLine_message (a : Attempts Rule) : OneLine (a.message Rule.all Rule.name) := by
  have names (rules : List Rule) : ∀ name ∈ rules.map Rule.name, OneLine name := by
    intro name mem
    obtain ⟨r, -, rfl⟩ := List.mem_map.1 mem
    exact r.oneLine_name
  exact oneLine_complaint (names _) (names _)

end Peg

lemma Location.oneLine_text {l : Location} (h : OneLine l.file) : OneLine l.text := by
  have colon : OneLine ":" := .literal (by decide)
  exact (((h.append colon).append (.toString_nat _)).append colon).append (.toString_nat _)

/-- A number is written in one line. -/
lemma Reading.oneLine_of_excessive {s : Script} {t u : Peg.Tree Rule} (matched : s.match? = .ok t)
    (excessive : Excessive t u) : OneLine (String.ofList u.text) := by
  obtain ⟨under, number, -⟩ := excessive
  obtain ⟨-, -, whole⟩ := Script.isRead_of_match matched
  have read := whole.under under
  have spelled := read.spells (by rw [number]; rfl)
  rw [number] at spelled
  exact OneLine.ofList_iff.2 (Grammar.not_mem_of_spells_number spelled (by decide))

namespace Problem

variable {p : Problem}

/-- A problem is reported in one line if its message and its place are told in one. -/
lemma oneLine_report (message : OneLine p.message) (place : ∀ l ∈ p.location, OneLine l.file) :
    OneLine p.report := by
  have bar : OneLine " | " := .literal (by decide)
  have level : OneLine p.level.name := by cases p.level <;> exact .literal (by decide)
  have title : OneLine "TYPEIFY | " := .literal (by decide)
  obtain ⟨told, oneLine, report⟩ : ∃ told, OneLine told ∧
      p.report = "TYPEIFY | " ++ p.level.name ++ " | " ++ told ++ " | " ++ p.message := by
    unfold report
    cases located : p.location with
    | none => exact ⟨"unknown location", .literal (by decide), rfl⟩
    | some l => exact ⟨l.text, l.oneLine_text (place l located), rfl⟩
  rw [report]
  exact ((((title.append level).append bar).append oneLine).append bar).append message

end Problem

namespace Fault

variable {f : Fault}

lemma oneLine_problem (message : OneLine f.message)
    (place : ∀ l ∈ f.site.location, OneLine l.file) : OneLine f.problem.report :=
  Problem.oneLine_report message place

/-- Why a script is not read is reported in one line. -/
lemma oneLine_report {s : Script} (name : OneLine s.name) (fails : s.parse = .error f) :
    OneLine f.problem.report := by
  obtain ⟨m, n, rfl⟩ | ⟨a, rfl⟩ | ⟨t, u, matched, excessive, rfl⟩ := Script.fault_cases fails
  · have place : OneLine (s.place m).file := name
    refine oneLine_problem ?_ fun _ told => ?_
    · have start := Location.oneLine_text place
      have levels := OneLine.toString_nat maxNesting
      exact ((OneLine.framed (by decide) start (by decide)).append levels).append (.literal (by decide))
    · cases told
      exact place
  · refine oneLine_problem ?_ fun _ told => ?_
    · exact (OneLine.framed (by decide) name (by decide)).append (Peg.oneLine_message a)
    · cases told
      exact name
  · refine oneLine_problem ?_ fun _ told => ?_
    · have text := Reading.oneLine_of_excessive matched excessive
      exact OneLine.framed (by decide) text (by decide)
    · cases told
      exact name

end Fault

/-! ### Formatters -/

/-- A text is trimmed of characters of its own. -/
lemma Text.mem_of_mem_trim {s : String} {x : Char} (h : x ∈ (trim s).toList) : x ∈ s.toList := by
  simp only [trim, String.toList_ofList, List.mem_reverse] at h
  have front := List.mem_reverse.1 ((List.dropWhile_suffix _).subset h)
  exact (List.dropWhile_suffix _).subset front

/-- Why a program gives no text is told in one line, whatever it complains of. -/
lemma Completion.oneLine_of_result {c : Completion} {reason : String} (h : c.result = .error reason) :
    OneLine reason := by
  rw [result] at h
  split at h
  · cases decoded : Text.decode c.output with
    | ok text =>
      rw [decoded] at h
      cases h
    | error f =>
      rw [decoded] at h
      cases h
      obtain ⟨index, size | size⟩ := f
      · exact OneLine.append (.literal (by decide)) (.toString_nat index)
      · exact (OneLine.framed (by decide) (.toString_nat size) (by decide)).append (.toString_nat index)
  · cases h
    have complaint : OneLine c.complaint := by
      intro mem
      have first := List.mem_takeWhile_imp (String.toList_ofList ▸ Text.mem_of_mem_trim mem)
      simp at first
    exact (OneLine.framed (by decide) (.toString_nat c.status) (by decide)).append complaint

/-- A problem of a formatter is reported in one line if its program and the reason are told in one. -/
lemma FormatterFault.oneLine_problem {f : FormatterFault} (message : OneLine f.message) :
    OneLine f.problem.report :=
  Problem.oneLine_report message fun _ located => nomatch located

/-- What keeps a formatter from giving a text is reported in one line. -/
lemma FormatterChoice.oneLine_report {f : FormatterChoice} {p : Program} {text : String}
    {e : FormatterFault} (name : OneLine f.program) (fails : f.formatter p text = .error e) :
    OneLine e.problem.report := by
  rw [formatter] at fails
  cases ended : (p f.arguments (Text.encode text)).result with
  | ok text =>
    rw [ended] at fails
    cases fails
  | error reason =>
    rw [ended] at fails
    cases fails
    have reason := Completion.oneLine_of_result ended
    refine FormatterFault.oneLine_problem ?_
    exact (OneLine.framed (by decide) name (by decide)).append reason

/-! ### Runs -/

namespace World

variable {σ ι : Type} {W : World σ ι} {o : Options} {w : σ} {c : Cause}

/-- A world that tells in one line what keeps a file from being read or written, where a program is, and
what time it is. -/
structure TellsInOneLine (W : World σ ι) : Prop where
  read : ∀ {w path o}, W.read w path = .error o → OneLine o.reason
  write : ∀ {w path bytes o}, (W.write w path bytes).1 = .error o → OneLine o.reason
  path : ∀ {w name}, OneLine name → OneLine (W.pathOf w name)
  time : ∀ w n, IsTime (W.clock w n)

lemma oneLine_unreadable (told : W.TellsInOneLine) (plain : o.IsPlain) (h : W.unreadable? o w = some c) :
    OneLine c.problem.report := by
  have report {reason : String} (one : OneLine reason) :
      OneLine (Cause.unreadable o.input reason).problem.report := by
    refine Problem.oneLine_report ?_ fun _ located => nomatch located
    exact (OneLine.framed (by decide) plain.input (by decide)).append one
  rw [unreadable?, script, Host.script.eq_def] at h
  cases found : W.read w o.input with
  | error obstacle =>
    rw [found] at h
    cases h
    exact report (told.read found)
  | ok bytes =>
    rw [found] at h
    cases decoded : Text.decode bytes with
    | ok content =>
      simp only [decoded] at h
      cases h
    | error flaw =>
      simp only [decoded] at h
      cases h
      exact report (.literal (by decide))

lemma oneLine_unavailable (plain : o.IsPlain) (h : W.unavailable? o w = some c) :
    OneLine c.problem.report := by
  rw [unavailable?] at h
  split at h
  case h_1 f _ chosen =>
    split at h
    · cases h
      have name := plain.formatter f chosen
      refine FormatterFault.oneLine_problem ?_
      exact (OneLine.framed (by decide) name (by decide)).append (.literal (by decide))
    · cases h
  case h_2 => cases h

/-- The script of a run is named by its input. -/
lemma name_of_script {s : Script} (h : W.script o w = .ok s) :
    s.name = Script.fileName o.input ∧ s.path = o.input := by
  rw [script, Host.script.eq_def] at h
  split at h
  · cases h
  · split at h
    · cases h
      exact ⟨rfl, rfl⟩
    · cases h

/-- The script of a run has the name of one line if the input has. -/
lemma oneLine_name_of_script (plain : o.IsPlain) {s : Script} (h : W.script o w = .ok s) :
    OneLine s.name :=
  (name_of_script h).1 ▸ Script.oneLine_fileName plain.input

lemma oneLine_fault (plain : o.IsPlain) (h : W.fault? o w = some c) : OneLine c.problem.report := by
  obtain ⟨s, read, h⟩ := Option.bind_eq_some_iff.1 h
  have found : W.script o w = .ok s := by
    cases e : W.script o w with
    | error c =>
      rw [e] at read
      cases read
    | ok s' =>
      rw [e] at read
      cases read
      rfl
  split at h
  next f fails =>
    cases h
    exact Fault.oneLine_report (oneLine_name_of_script plain found) fails
  · cases h

lemma oneLine_failed (plain : o.IsPlain) (h : W.failed? o w = some c) : OneLine c.problem.report := by
  obtain ⟨made, formatted, h⟩ := Option.bind_eq_some_iff.1 h
  split at h
  next e =>
    cases h
    rw [formatted?] at formatted
    split at formatted
    case h_1 f _ chosen =>
      obtain ⟨s, -, formatted⟩ := Option.bind_eq_some_iff.1 formatted
      obtain ⟨text, -, formatted⟩ := Option.bind_eq_some_iff.1 formatted
      obtain ⟨p, -, formatted⟩ := Option.bind_eq_some_iff.1 formatted
      exact FormatterChoice.oneLine_report (plain.formatter f chosen) (Option.some.inj formatted)
    case h_2 => cases formatted
  · cases h

lemma oneLine_unwritable (told : W.TellsInOneLine) (plain : o.IsPlain) (h : W.unwritable? o w = some c) :
    OneLine c.problem.report := by
  obtain ⟨text, -, h⟩ := Option.bind_eq_some_iff.1 h
  split at h
  next obstacle refused =>
    cases h
    refine Problem.oneLine_report ?_ fun _ located => nomatch located
    exact (OneLine.framed (by decide) plain.output (by decide)).append (told.write refused)
  · cases h

/-- Whatever keeps a run from its end is reported in one line. -/
lemma oneLine_report (told : W.TellsInOneLine) (plain : o.IsPlain) (h : W.cause? o w = some c) :
    OneLine c.problem.report := by
  obtain early | ⟨-, late⟩ := Option.or_eq_some_iff.1 h
  · obtain ⟨found, mem, e⟩ := List.exists_of_findSome?_eq_some early
    obtain rfl : found = some c := e
    simp only [List.mem_cons, List.not_mem_nil, or_false] at mem
    obtain h | h | h | h := mem
    · exact oneLine_unreadable told plain h.symm
    · exact oneLine_unavailable plain h.symm
    · exact oneLine_fault plain h.symm
    · exact oneLine_failed plain h.symm
  · exact oneLine_unwritable told plain late

/-! ### Logs -/

lemma isPlain_opening (plain : o.IsPlain) {s : Script} (h : W.script o w = .ok s) :
    ∀ r ∈ o.opening s, r.IsPlain := by
  have target : OneLine "typeify_core::driver" := .literal (by decide)
  have name := oneLine_name_of_script plain h
  have path : OneLine s.path := (name_of_script h).2 ▸ plain.input
  have start : OneLine ("typeify " ++ s.path ++ " -> " ++ o.output) :=
    (OneLine.framed (by decide) path (by decide)).append plain.output
  have blank : OneLine (s.name ++ " contains no code") := name.append (.literal (by decide))
  refine List.forall_mem_cons.2 ⟨⟨target, .of_oneLine start⟩, fun r hr => ?_⟩
  split at hr
  · obtain rfl := List.mem_singleton.1 hr
    exact ⟨target, .of_oneLine blank⟩
  · cases hr

lemma isPlain_closing (plain : o.IsPlain) (text : String) : ∀ r ∈ W.closing o w text, r.IsPlain := by
  intro r hr
  unfold closing at hr
  split at hr
  · cases hr
  · obtain rfl := List.mem_singleton.1 hr
    refine ⟨.literal (by decide), .of_oneLine ?_⟩
    exact (OneLine.framed (by decide) (.toString_nat _) (by decide)).append plain.output

/-- The log of a run has no title of a report behind a line break if its script has none. -/
lemma isPlain_log (told : W.TellsInOneLine) (plain : o.IsPlain)
    (untitled : ∀ s, W.script o w = .ok s → Untitled s.content) : ∀ r ∈ W.log o w, r.IsPlain := by
  unfold log
  split
  · rename_i s formatter script found
    have name := oneLine_name_of_script plain script
    refine List.forall_mem_append.2 ⟨List.forall_mem_append.2 ⟨List.forall_mem_append.2 ⟨?_, ?_⟩, ?_⟩, ?_⟩
    · intro r hr
      obtain ⟨f, chosen, rfl⟩ := List.mem_map.1 hr
      have program : OneLine f.program := by
        have choice := Option.mem_toList.1 chosen
        unfold Options.choice? at choice
        split at choice
        · exact plain.formatter f choice
        · cases choice
      refine ⟨.literal (by decide), .of_oneLine ?_⟩
      exact (OneLine.framed (by decide) program (by decide)).append (told.path program)
    · exact isPlain_opening plain script
    · exact s.isPlain_log name (untitled s script)
    · split
      · intro r hr
        cases hr
      · exact isPlain_closing plain _
  · intro r hr
    cases hr

end World

namespace Disk

variable {d : Disk} {o : Obstacle}

/-- An obstacle that a disk knows of is told in one line. -/
lemma oneLine_reason (known : ∀ reason, o ≠ .other reason) : OneLine o.reason := by
  cases o with
  | other reason => exact absurd rfl (known reason)
  | _ => exact .literal (by decide)

lemma known_of_follow {here : Place} {parts : List String} (h : d.follow here parts = .error o)
    (reason : String) : o ≠ .other reason := by
  rintro rfl
  induction parts generalizing here with
  | nil => cases h
  | cons part parts ih =>
    rw [follow] at h
    cases folder : d.requireFolder here with
    | error o =>
      rw [folder] at h
      cases h
      rw [requireFolder] at folder
      split at folder
      all_goals cases folder
    | ok =>
      rw [folder] at h
      cases stepped : step here part with
      | error o =>
        simp only [bind, Except.bind, stepped] at h
        cases h
        rw [step] at stepped
        repeat' split at stepped
        all_goals cases stepped
      | ok place =>
        simp only [bind, Except.bind, stepped] at h
        exact ih h

lemma known_of_locate {path : String} (h : d.locate path = .error o) (reason : String) :
    o ≠ .other reason := by
  rw [locate] at h
  split at h
  · cases h
    rintro ⟨⟩
  · split at h
    · cases h
      rintro ⟨⟩
    · exact known_of_follow h reason

/-- A disk tells its obstacles in one line. -/
lemma tellsInOneLine (programs : String → Option Program) : (world programs).TellsInOneLine where
  read {d path o} h := by
    refine oneLine_reason fun reason => ?_
    have h : d.read path = .error o := h
    rw [Disk.read] at h
    cases located : d.locate path with
    | error o' =>
      rw [located] at h
      cases h
      exact known_of_locate located reason
    | ok place =>
      simp only [located, bind, Except.bind] at h
      repeat' split at h
      all_goals
        cases h
        try rintro ⟨⟩
  write {d path bytes o} h := by
    refine oneLine_reason fun reason => ?_
    cases written : d.write path bytes with
    | ok d' =>
      simp only [world, written] at h
      cases h
    | error o' =>
      simp only [world, written] at h
      cases h
      rw [write] at written
      cases located : d.locate path with
      | error o' =>
        rw [located] at written
        cases written
        exact known_of_locate located reason
      | ok place =>
        simp only [located, bind, Except.bind] at written
        split at written
        all_goals cases written
        rintro ⟨⟩
  path {_ name} one := OneLine.append (.literal (by decide)) one
  time _ _ := (by decide : IsTime "1970-01-01T00:00:00.000Z")

end Disk

end ScriptTyping
