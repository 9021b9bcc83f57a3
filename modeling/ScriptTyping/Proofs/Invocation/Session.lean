import ScriptTyping.Invocation.Session
import ScriptTyping.Proofs.Listing.Grid
import ScriptTyping.Proofs.Run.Reports

/-!
# How a session ends

A session ends with status zero or one. One stands for a failure: no file has changed, there is no
output, and one line of complaint. Zero stands for help, the version, or a run that has come to its end:
its output file is written, and its output ends with the name of that file and the numbers of variables
and functions, behind a list with a block for each of them if one is asked for (`World.session_spec`).
-/

namespace ScriptTyping
open Listing

/-- The lines of complaint that a session ends with, among what else it complains of. -/
def Outcome.reports (o : Outcome) : List Line :=
  reportLines o.complaints

/-- Lines that list a table: under a title and a header, a block for each variable and then for each
function, in their order. The line between two blocks is in none of them, so the blocks can be told
apart. The findings, if there are any, are listed behind. -/
def Table.Lists (t : Table) (ls : List Line) : Prop :=
  ∃ header between bottom blocks findings,
    ls = "Declarations".toList :: header ++ [between].intercalate blocks ++ bottom :: findings ∧
    blocks = (t.bindings.map Variable.row ++ t.routines.map Routine.row).map t.declarationGrid.block ∧
    ∀ block ∈ blocks, block ≠ [] ∧ between ∉ block

namespace Outcome

/-- A report that is one line is the one line of complaint of a failure. -/
lemma reports_failed {report : String} (one : OneLine report)
    (titled : reportTitle.isPrefixOf report.toList = true) :
    (failed report).reports = [report.toList] := by
  have ends : linesOf (report ++ "\n") = [report.toList, []] := by
    simpa using linesOf_append (t := "") one
  rw [reports, failed, reportLines, ends, List.filter_cons_of_pos titled]
  rfl

lemma reports_done (output : String) : (done output).reports = [] := rfl

/-- A log of plain records before the complaints adds none. -/
lemma reports_behind {log : List LogRecord} (plain : ∀ r ∈ log, r.IsPlain) {clock : Nat → String}
    (told : ∀ n, IsTime (clock n)) (isVerbose : Bool) (o : Outcome) :
    (o.behind (logText isVerbose clock log)).reports = o.reports :=
  reportLines_logText_append plain told isVerbose o.complaints

end Outcome

/-- A text that begins with the name of the program begins as a report does. -/
lemma titled_append (s : String) : reportTitle.isPrefixOf ("TYPEIFY |" ++ s).toList = true := by
  rw [List.isPrefixOf_iff_prefix, String.toList_append]
  exact List.prefix_append _ _

/-- The report of wrong use is one line. -/
lemma Misuse.reports_failed (m : Misuse) : ∃ l, (Outcome.failed m.report).reports = [l] := by
  have one : OneLine m.report := by
    have message : OneLine m.message := by
      cases m
      all_goals exact .literal (by decide)
    exact OneLine.framed (by decide) message (by decide)
  have told : m.report = "TYPEIFY | ERROR | usage | " ++ m.message ++
      "; usage: typeify <INPUT> <OUTPUT> [--no-format]" := rfl
  have title : "TYPEIFY | ERROR | usage | " = "TYPEIFY |" ++ " ERROR | usage | " := rfl
  refine ⟨_, Outcome.reports_failed one ?_⟩
  rewrite [told, title, String.append_assoc, String.append_assoc]
  exact titled_append _

lemma Problem.titled_report (p : Problem) : reportTitle.isPrefixOf p.report.toList = true := by
  have title : "TYPEIFY | " = "TYPEIFY |" ++ " " := rfl
  unfold report
  rewrite [title]
  simp only [String.append_assoc]
  exact titled_append _

namespace Table

variable (t : Table)

/-- The lines of the lists of declarations and findings. -/
def listingLines : List Line :=
  "Declarations".toList :: t.declarationGrid.lines ++
    if t.findings.isEmpty then [] else "Diagnostics".toList :: t.findingGrid.lines

lemma linesOf_listing_append (s : String) : linesOf (t.listing ++ s) = t.listingLines ++ linesOf s := by
  have title : OneLine "Declarations" := .literal (by decide)
  have title' : OneLine "Diagnostics" := .literal (by decide)
  have first (u : String) : "Declarations\n" ++ t.declarationList ++ "\n" ++ u =
      "Declarations" ++ "\n" ++ (t.declarationGrid.text ++ "\n" ++ u) := by
    simp [← String.toList_inj, declarationList]
  have second : "Diagnostics\n" ++ t.findingGrid.text ++ "\n" ++ s =
      "Diagnostics" ++ "\n" ++ (t.findingGrid.text ++ "\n" ++ s) := by
    simp [← String.toList_inj]
  unfold listing findingList? listingLines
  by_cases none : t.findings.isEmpty = true
  · rw [if_pos none, if_pos none, String.append_assoc, String.empty_append, first, linesOf_append title,
      Grid.linesOf_text_append]
    simp
  · rw [if_neg none, if_neg none, String.append_assoc, second, first, linesOf_append title,
      Grid.linesOf_text_append, linesOf_append title', Grid.linesOf_text_append]
    simp

/-- Each variable and each function is listed in a block of its own. -/
lemma lists_listingLines : t.Lists t.listingLines := by
  let g := t.declarationGrid
  refine ⟨[Border.top.draw g.widths] ++ g.block g.header ++ [Border.underHeader.draw g.widths],
    Border.between.draw g.widths, Border.bottom.draw g.widths, _,
    if t.findings.isEmpty then [] else "Diagnostics".toList :: t.findingGrid.lines, ?_, rfl,
    fun block mem => ?_⟩
  · rw [listingLines, Grid.lines_eq]
    simp only [List.append_assoc, List.cons_append, List.nil_append]
    rfl
  · obtain ⟨row, rows, rfl⟩ := List.mem_map.1 mem
    refine g.block_spec fun empty => ?_
    obtain mem | mem := List.mem_append.1 rows
    all_goals
      obtain ⟨x, -, rfl⟩ := List.mem_map.1 mem
      cases empty

end Table

/-- The lines that tell what a run has done. -/
lemma Summary.linesOf_report {s : Summary} (one : OneLine s.output) : linesOf s.report =
    [("Output written to " ++ s.output).toList,
      ("Discovered " ++ toString s.table.bindings.length ++ " variables and " ++
        toString s.table.routines.length ++ " functions.").toList, []] := by
  have output : OneLine ("Output written to " ++ s.output) := OneLine.append (.literal (by decide)) one
  have counts : OneLine ("Discovered " ++ toString s.table.bindings.length ++ " variables and " ++
      toString s.table.routines.length ++ " functions.") :=
    ((OneLine.framed (by decide) (.toString_nat _) (by decide)).append (.toString_nat _)).append
      (.literal (by decide))
  have shape (n m : String) : "Output written to " ++ s.output ++ "\n" ++ "Discovered " ++ n ++
      " variables and " ++ m ++ " functions.\n" = "Output written to " ++ s.output ++ "\n" ++
        ("Discovered " ++ n ++ " variables and " ++ m ++ " functions." ++ "\n" ++ "") := by
    have ends : " functions.\n" = " functions." ++ "\n" := rfl
    rw [ends, String.append_empty]
    simp only [String.append_assoc]
  have told : s.report = _ := shape _ _
  rw [told, linesOf_append output, linesOf_append counts, linesOf_empty]

/-- The table that is shown with the output of a script is collected from its syntax tree. -/
lemma Script.table_of_output {s : Script} {formatter : Option Formatter} {mode : Mode} {text : String}
    {table : Table} (h : s.output formatter mode = .ok (text, table)) :
    ∃ n, s.parse = .ok n ∧ table = collect n s.content := by
  cases mode with
  | syntaxTree =>
    rw [output_syntaxTree] at h
    cases parsed : s.parse with
    | error f =>
      rw [parsed] at h
      cases h
    | ok n =>
      rw [parsed] at h
      cases h
      exact ⟨n, rfl, rfl⟩
  | typedSource =>
    rw [output_typedSource] at h
    have plain {text : String} {table : Table} (h : s.typed none = .ok (text, table)) :
        ∃ n, s.parse = .ok n ∧ table = collect n s.content := by
      rw [typed_none] at h
      cases parsed : s.parse with
      | error f =>
        rw [parsed] at h
        cases h
      | ok n =>
        rw [parsed] at h
        cases h
        exact ⟨n, rfl, rfl⟩
    cases formatter with
    | none => exact plain h
    | some format =>
      rw [typed_some] at h
      cases typed : s.typed none with
      | error c =>
        rw [typed] at h
        cases h
      | ok made =>
        obtain ⟨text', table'⟩ := made
        rw [typed] at h
        dsimp only at h
        split at h
        · cases h
        · cases h
          exact plain typed

namespace World

variable {σ ι : Type} {W : World σ ι} {w w' : σ}

/-- A run that comes to its end tells of its output and of the declarations in its script. -/
lemma summary_of_outcome {o : Options} {summary : Summary} (h : W.outcome o w = (.ok summary, w')) :
    ∃ s n, W.script o w = .ok s ∧ s.parse = .ok n ∧
      summary = { output := o.output, mode := o.mode, table := collect n s.content } := by
  rw [outcome_eq] at h
  cases script : W.script o w with
  | error c =>
    rw [script] at h
    cases h
  | ok s =>
    cases found : W.formatter? o w with
    | error c =>
      rw [script, found] at h
      cases h
    | ok formatter =>
      rw [script, found] at h
      change W.finish o w (s.output formatter o.mode) = _ at h
      rcases made : s.output formatter o.mode with c | ⟨text, table⟩
      all_goals rw [made] at h
      · cases h
      · obtain ⟨n, parsed, rfl⟩ := Script.table_of_output made
        rw [finish] at h
        split at h
        · cases h
        · cases h
          exact ⟨s, n, rfl, parsed, rfl⟩

/-- A session ends as its run does, with the log of it. -/
lemma run_session (W : World σ ι) (w : σ) (arguments : List String) :
    (session W.host arguments).run w = match Invocation.ofArguments arguments with
      | .ok i =>
        ((Outcome.ofRun i.showsList (W.outcome i.options w).1).behind
          (logText i.isVerbose (W.clock (W.outcome i.options w).2) (W.log i.options w)),
          (W.outcome i.options w).2)
      | .error halt => (.ofHalt halt, w) := by
  rw [session]
  cases Invocation.ofArguments arguments with
  | error halt => rfl
  | ok i =>
    change (match step (i.options.perform W.host) [] w with
      | ((result, log), w') => ((Outcome.ofRun i.showsList result).behind
          (logText i.isVerbose (W.clock w') log), w')) = _
    rw [step_perform_eq]

/-- **How a session ends**, in a world that tells its obstacles in one line, for arguments that are single
lines and a script without the title of a report behind a line break, of which a log may quote a part. It
ends with status one or zero. With one, no file has changed, there is no output, and
there is one line of complaint. With zero, there is none, and either help or the version was asked for,
or a run has come to its end: its output file holds the text that was to be written, and its output ends
with the name of that file and the numbers of variables and functions, behind the lists if they were
asked for. -/
theorem session_spec (told : W.TellsInOneLine) (w : σ) (arguments : List String)
    (plain : ∀ a ∈ arguments, OneLine a)
    (untitled : ∀ i s, Invocation.ofArguments arguments = .ok i → W.script i.options w = .ok s →
      Untitled s.content) :
    ∃ outcome w', (session W.host arguments).run w = (outcome, w') ∧
      ((outcome.status = 1 ∧ W.file? w' = W.file? w ∧ outcome.output = "" ∧
          ∃ l, outcome.reports = [l]) ∨
        (outcome.status = 0 ∧ outcome.reports = [] ∧
          ((Invocation.ofArguments arguments = .error .help ∧ outcome.output = helpText ∧
              W.file? w' = W.file? w) ∨
            (Invocation.ofArguments arguments = .error .version ∧ outcome.output = versionText ∧
              W.file? w' = W.file? w) ∨
            ∃ i s n text place list, Invocation.ofArguments arguments = .ok i ∧
              W.script i.options w = .ok s ∧ s.parse = .ok n ∧ W.text? i.options w = some text ∧
              W.place? w i.options.output = some place ∧
              W.file? w' place = some (Text.encode text) ∧
              (∀ j ≠ place, W.file? w' j = W.file? w j) ∧
              linesOf outcome.output = list ++
                [("Output written to " ++ i.options.output).toList,
                  ("Discovered " ++ toString (collect n s.content).bindings.length ++
                    " variables and " ++ toString (collect n s.content).routines.length ++
                    " functions.").toList, []] ∧
              if i.showsList then (collect n s.content).Lists list else list = []))) := by
  rw [run_session]
  cases asked : Invocation.ofArguments arguments with
  | error halt =>
    refine ⟨_, _, rfl, ?_⟩
    cases halt with
    | help => exact .inr ⟨rfl, Outcome.reports_done _, .inl ⟨rfl, rfl, rfl⟩⟩
    | version => exact .inr ⟨rfl, Outcome.reports_done _, .inr (.inl ⟨rfl, rfl, rfl⟩)⟩
    | misuse m => exact .inl ⟨rfl, rfl, rfl, m.reports_failed⟩
  | ok i =>
    refine ⟨_, _, rfl, ?_⟩
    have named := Invocation.isPlain_of_arguments plain asked
    -- What is logged stands behind the outcome, and none of its lines is taken for a report.
    have logged := isPlain_log told named fun s script => untitled i s asked script
    have behind := Outcome.reports_behind logged (told.time (W.outcome i.options w).2) i.isVerbose
    have spec := W.finish_spec i.options w (W.made_spec i.options w)
    rw [← outcome_eq] at spec
    rcases ended : W.outcome i.options w with ⟨c | summary, w'⟩
    all_goals rw [ended] at spec behind
    · have one := oneLine_report told named spec.1
      exact .inl ⟨rfl, spec.2, rfl, _, (behind _).trans (Outcome.reports_failed one c.problem.titled_report)⟩
    · obtain ⟨-, text, place, made, leads, written, others⟩ := spec
      obtain ⟨s, n, script, parsed, rfl⟩ := summary_of_outcome ended
      have report := Summary.linesOf_report (s := { output := i.options.output
                                                    mode := i.options.mode
                                                    table := collect n s.content }) named.output
      refine .inr ⟨rfl, (behind _).trans (Outcome.reports_done _), .inr (.inr ?_)⟩
      cases shown : i.showsList with
      | false =>
        refine ⟨i, s, n, text, place, [], rfl, script, parsed, made, leads, written, others, ?_, ?_⟩
        · exact report
        · rw [shown]
          rfl
      | true =>
        refine ⟨i, s, n, text, place, (collect n s.content).listingLines, rfl, script, parsed, made,
          leads, written, others, ?_, ?_⟩
        · exact (Table.linesOf_listing_append _ _).trans (congrArg _ report)
        · rw [shown]
          exact Table.lists_listingLines _

/-- A script is typed and its declarations are listed. -/
theorem session_spec_listed :
    ∃ d : Disk, ∃ outcome d' list,
      d = { entries := [(["a.js"], .file (Text.encode "let x = 1;"))], home := [] } ∧
      (session (Disk.host fun _ => none) ["-l", "a.js", "--no-format", "b.ts"]).run d =
        (outcome, d') ∧ outcome.status = 0 ∧ outcome.reports = [] ∧
      linesOf outcome.output = list ++ ["Output written to b.ts".toList,
        "Discovered 1 variables and 0 functions.".toList, []] ∧ list ≠ [] := by
  let d : Disk := { entries := [(["a.js"], .file (Text.encode "let x = 1;"))], home := [] }
  let W : World Disk Place := Disk.world fun _ => none
  let i : Invocation := { options := { input := "a.js", output := "b.ts", mode := .typedSource
                                       formatter := none }
                          showsList := true, isVerbose := false }
  let s : Script := { name := "a.js", path := "a.js", content := "let x = 1;" }
  have asked : Invocation.ofArguments ["-l", "a.js", "--no-format", "b.ts"] = .ok i := by cbv
  have script : W.script i.options d = .ok s := by cbv
  have counts : s.parse.toOption.map (fun n => ((collect n s.content).bindings.length,
      (collect n s.content).routines.length)) = some (1, 0) := by decide +kernel
  have ends : ((session W.host ["-l", "a.js", "--no-format", "b.ts"]).run d).1.status = 0 := by
    decide +kernel
  obtain ⟨outcome, d', ran, spec⟩ := session_spec (W := W) (Disk.tellsInOneLine _) d
    ["-l", "a.js", "--no-format", "b.ts"] (by decide) fun i' s' asked' script' => by
      obtain rfl := Except.ok.inj (asked.symm.trans asked')
      obtain rfl := Except.ok.inj (script.symm.trans script')
      decide
  rw [ran] at ends
  rw [Disk.host_world] at ran
  -- The session ends well and asks for neither help nor version, so the file is written.
  obtain ⟨failed, -⟩ | ⟨status, reports, help | version | run⟩ := spec
  · rw [ends] at failed
    cases failed
  · rw [asked] at help
    cases help.1
  · rw [asked] at version
    cases version.1
  · obtain ⟨i', s', n, text, place, list, asked', script', parsed, -, -, -, -, lines, lists⟩ := run
    obtain rfl := Except.ok.inj (asked.symm.trans asked')
    obtain rfl := Except.ok.inj (script.symm.trans script')
    rw [parsed] at counts
    obtain ⟨bindings, routines⟩ := Prod.mk.inj (Option.some.inj counts)
    rw [bindings, routines] at lines
    refine ⟨d, outcome, d', list, rfl, ran, status, reports, lines, fun empty => ?_⟩
    rw [empty] at lists
    obtain ⟨_, _, _, _, _, e, -⟩ := (lists : Table.Lists _ [])
    cases e

end World

end ScriptTyping
