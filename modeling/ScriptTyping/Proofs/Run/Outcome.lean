import Mathlib
import ScriptTyping.Run.Options

/-!
# What a run leaves behind

A `World` is a host of which the files are seen: reading and finding programs change nothing, a
write that fails leaves every file as it is, and one that succeeds changes the one file that its
path leads to. `World.cause?` is the first of five causes that keeps a run from its end, each told
from the world as it is before the run, and `World.text?` the text that is to be written. A run
fails exactly with the first cause, and then no file has changed; otherwise its output holds the
text, and no other file has changed (`World.outcome_spec`).
-/

namespace ScriptTyping

/-- A world of states with files: what reading and writing do, which programs there are and where, and
what the clock says. -/
structure World (σ ι : Type) where
  read : σ → String → Except Obstacle (List UInt8)
  write : σ → String → List UInt8 → Except Obstacle Unit × σ
  program? : σ → String → Option Program
  pathOf : σ → String → String
  clock : σ → Nat → String
  /-- The bytes of a file, if it is there. -/
  file? : σ → ι → Option (List UInt8)
  /-- The file that a path leads to. -/
  place? : σ → String → Option ι
  file?_of_error : ∀ {w w' path bytes o}, write w path bytes = (.error o, w') → file? w' = file? w
  file?_of_ok : ∀ {w w' path bytes}, write w path bytes = (.ok (), w') →
    ∃ i, place? w path = some i ∧ file? w' i = some bytes ∧ ∀ j ≠ i, file? w' j = file? w j

namespace World

variable {σ ι : Type} (W : World σ ι) (o : Options) (w : σ)

/-- The host of a world. -/
def host : Host (StateM σ) where
  read path := return W.read (← get) path
  write path bytes := fun w => W.write w path bytes
  program? name := return W.program? (← get) name
  pathOf name := return W.pathOf (← get) name
  clock := return W.clock (← get)

/-- How a run ends, and the state it leaves. -/
def outcome : Except Cause Summary × σ :=
  (o.run W.host).run w

/-- The same world with other programs. -/
def withPrograms (programs : σ → String → Option Program) : World σ ι :=
  { W with program? := programs }

/-! ### What a run is to do -/

/-- The script in the input. -/
def script : Except Cause Script :=
  Host.script o.input (W.read w o.input)

/-- The input holds no script. -/
def unreadable? : Option Cause :=
  match W.script o w with
  | .error c => some c
  | .ok _ => none

/-- The program of the formatter is not found. Only typed source needs it. -/
def unavailable? : Option Cause :=
  match o.mode, o.formatter with
  | .typedSource, some f =>
    match W.program? w f.program with
    | none => some (.formatter (.unavailable f.program FormatterChoice.missingReason))
    | some _ => none
  | _, _ => none

/-- The script has no syntax tree. -/
def fault? : Option Cause :=
  (W.script o w).toOption.bind fun s =>
    match s.parse with
    | .error f => some (.fault f)
    | .ok _ => none

/-- What the formatter makes of the typed source. -/
def formatted? : Option (Except FormatterFault String) :=
  match o.mode, o.formatter with
  | .typedSource, some f => do
    let s ← (W.script o w).toOption
    let (text, _) ← (s.typed none).toOption
    let p ← W.program? w f.program
    return f.formatter p text
  | _, _ => none

/-- The formatter fails on the typed source. -/
def failed? : Option Cause :=
  (W.formatted? o w).bind fun
    | .error f => some (.formatter f)
    | .ok _ => none

/-- The text to be written: the syntax tree, or the typed source as the formatter leaves it. -/
def text? : Option String :=
  match o.mode, o.formatter with
  | .syntaxTree, _ => (W.script o w).toOption.bind fun s => s.treeText.toOption
  | .typedSource, none =>
    (W.script o w).toOption.bind fun s => (s.typed none).toOption.map (·.1)
  | .typedSource, some _ => (W.formatted? o w).bind Except.toOption

/-- The text cannot be written. -/
def unwritable? : Option Cause :=
  (W.text? o w).bind fun text =>
    match (W.write w o.output (Text.encode text)).1 with
    | .error obstacle => some (.unwritable o.output obstacle.reason)
    | .ok () => none

/-- The first cause that keeps a run from having a text. -/
def earlyCause? : Option Cause :=
  [W.unreadable? o w, W.unavailable? o w, W.fault? o w, W.failed? o w].findSome? id

/-- The first cause that keeps a run from its end. -/
def cause? : Option Cause :=
  (W.earlyCause? o w).or (W.unwritable? o w)

end World

namespace Script

variable (s : Script)

lemma typed_none : s.typed none = match s.parse with
    | .error f => .error (.fault f)
    | .ok n => .ok ((collect n s.content).typedSource s, collect n s.content) := by
  rw [typed]
  cases s.parse
  all_goals rfl

/-- The formatter comes after all else. -/
lemma typed_some (format : Formatter) : s.typed (some format) = match s.typed none with
    | .error c => .error c
    | .ok (text, table) => match format text with
      | .error f => .error (.formatter f)
      | .ok text => .ok (text, table) := by
  rw [typed_none, typed]
  cases s.parse with
  | error f => rfl
  | ok n =>
    change (do
      let text ← (format ((collect n s.content).typedSource s)).mapError Cause.formatter
      return (text, collect n s.content)) = _
    dsimp only
    cases format ((collect n s.content).typedSource s)
    all_goals rfl

lemma treeText_eq : s.treeText = match s.parse with
    | .error f => .error f
    | .ok n => .ok n.json.prettyText := by
  rw [treeText]
  cases s.parse
  all_goals rfl

lemma output_syntaxTree (formatter : Option Formatter) :
    s.output formatter .syntaxTree = match s.parse with
      | .error f => .error (.fault f)
      | .ok n => .ok (n.json.prettyText, collect n s.content) := by
  rw [output]
  cases s.parse
  all_goals rfl

lemma output_typedSource (formatter : Option Formatter) :
    s.output formatter .typedSource = s.typed formatter :=
  rfl

end Script

namespace World

variable {σ ι : Type} (W : World σ ι) (o : Options) (w : σ)

/-! ### What a run does -/

/-- What is left of a run when its text is made. -/
def finish : Except Cause (String × Table) → Except Cause Summary × σ
  | .error c => (.error c, w)
  | .ok (text, table) =>
    match W.write w o.output (Text.encode text) with
    | (.error obstacle, w') => (.error (.unwritable o.output obstacle.reason), w')
    | (.ok (), w') => (.ok { output := o.output, mode := o.mode, table }, w')

/-- The formatter of a run. -/
def formatter? : Except Cause (Option Formatter) :=
  o.choice?.mapM fun f => (f.formatterOf? (W.program? w f.program)).mapError .formatter

/-- The record of the text if it is written. -/
def closing (text : String) : List LogRecord :=
  match (W.write w o.output (Text.encode text)).1 with
  | .error _ => []
  | .ok () => [o.closing text]

/-- The log of a run: it begins when the script is read and the formatter found, and goes on until the
run ends. -/
def log : List LogRecord :=
  match W.script o w, W.formatter? o w with
  | .ok s, .ok formatter =>
    o.choice?.toList.map (fun f => Options.foundRecord f (W.pathOf w f.program)) ++ o.opening s ++
      s.log ++ match s.output formatter o.mode with
        | .error _ => []
        | .ok (text, _) => W.closing o w text
  | _, _ => []

section Steps

variable {α β : Type}

/-- A step of a run: how it ends, the log behind it, and the state it leaves. -/
def step (x : Logged (StateM σ) α) (log : List LogRecord) (w : σ) :
    (Except Cause α × List LogRecord) × σ :=
  (x.run.run log).run w

variable (log : List LogRecord) (w : σ)

/-- A step that fails ends what it is part of. -/
lemma step_bind (x : Logged (StateM σ) α) (f : α → Logged (StateM σ) β) :
    step (x >>= f) log w = match step x log w with
      | ((.error c, log'), w') => ((.error c, log'), w')
      | ((.ok a, log'), w') => step (f a) log' w' := by
  change (match step x log w with
    | ((result, log'), w') => ((ExceptT.bindCont f result).run log').run w') = _
  rcases step x log w with ⟨⟨_ | a, log'⟩, w'⟩
  all_goals rfl

lemma step_quietly (x : ExceptT Cause (StateM σ) α) :
    step (Logged.quietly x) log w = (((x.run w).1, log), (x.run w).2) := rfl

lemma step_note (records : List LogRecord) :
    step (Logged.note records : Logged (StateM σ) Unit) log w = ((.ok (), log ++ records), w) := rfl

lemma step_pure (a : α) : step (pure a : Logged (StateM σ) α) log w = ((.ok a, log), w) := rfl

end Steps

lemma step_choice (log : List LogRecord) :
    step (o.choice?.mapM (Options.find W.host)) log w =
      match W.formatter? o w with
      | .error c => ((.error c, log), w)
      | .ok formatter => ((.ok formatter, log ++
          o.choice?.toList.map fun f => Options.foundRecord f (W.pathOf w f.program)), w) := by
  rw [formatter?]
  cases o.choice? with
  | none =>
    rw [Option.toList_none, List.map_nil, List.append_nil]
    exact step_pure log w none
  | some f =>
    have found : (W.host.formatter f).run w =
        ((f.formatterOf? (W.program? w f.program)).mapError .formatter, w) := rfl
    rw [Option.mapM_some, Option.mapM_some, map_eq_pure_bind, step_bind, Options.find, step_bind,
      step_quietly, found]
    cases (f.formatterOf? (W.program? w f.program)).mapError Cause.formatter
    all_goals rfl

/-- What a run does when it has its text: it writes it. -/
lemma step_save (log : List LogRecord) (text : String) (table : Table) :
    step (do
      Logged.quietly (W.host.save o.output text)
      Logged.note [o.closing text]
      return { output := o.output, mode := o.mode, table }) log w =
      (((W.finish o w (.ok (text, table))).1, log ++ W.closing o w text),
        (W.finish o w (.ok (text, table))).2) := by
  have saved : (W.host.save o.output text).run w =
      ((W.write w o.output (Text.encode text)).1.mapError fun obstacle =>
        .unwritable o.output obstacle.reason, (W.write w o.output (Text.encode text)).2) := rfl
  rw [step_bind, step_quietly, saved, finish, closing]
  rcases W.write w o.output (Text.encode text) with ⟨_ | _, w'⟩
  · simp [Except.mapError]
  · rfl

/-- A run makes its text in the state it begins in, and its log with it. -/
lemma step_perform : step (o.perform W.host) [] w =
    (((W.finish o w (do (← W.script o w).output (← W.formatter? o w) o.mode)).1, W.log o w),
      (W.finish o w (do (← W.script o w).output (← W.formatter? o w) o.mode)).2) := by
  have load : (W.host.load o.input).run w = (W.script o w, w) := rfl
  rw [Options.perform, step_bind, step_quietly, load, log]
  cases W.script o w with
  | error c => rfl
  | ok s =>
    dsimp only
    rw [step_bind, step_choice]
    cases W.formatter? o w with
    | error c => rfl
    | ok formatter =>
      have made : (ExceptT.mk (pure (s.output formatter o.mode)) :
          ExceptT Cause (StateM σ) (String × Table)).run w = (s.output formatter o.mode, w) := rfl
      dsimp only
      rw [step_bind, step_note]
      dsimp only
      rw [step_bind, step_note]
      dsimp only
      rw [step_bind, step_quietly, made]
      change _ = (((W.finish o w (s.output formatter o.mode)).1, _),
        (W.finish o w (s.output formatter o.mode)).2)
      cases s.output formatter o.mode with
      | error c => simp [finish]
      | ok made => exact W.step_save o w _ made.1 made.2

/-- A run makes its text in the state it begins in. -/
lemma outcome_eq : W.outcome o w =
    W.finish o w (do (← W.script o w).output (← W.formatter? o w) o.mode) := by
  have ended : W.outcome o w = ((step (o.perform W.host) [] w).1.1, (step (o.perform W.host) [] w).2) :=
    rfl
  rw [ended, step_perform]

/-- A run ends with its outcome and its log. -/
lemma step_perform_eq :
    step (o.perform W.host) [] w = (((W.outcome o w).1, W.log o w), (W.outcome o w).2) := by
  rw [outcome_eq, step_perform]

/-- The text of a run, or the first cause for which it has none. -/
lemma made_spec :
    match (do (← W.script o w).output (← W.formatter? o w) o.mode : Except Cause (String × Table))
    with
    | .error c => W.earlyCause? o w = some c
    | .ok (text, _) => W.earlyCause? o w = none ∧ W.text? o w = some text := by
  simp only [earlyCause?, unreadable?, unavailable?, fault?, failed?, formatted?, text?, formatter?,
    Options.choice?]
  cases script : W.script o w with
  | error c => simp [bind, Except.bind]
  | ok s =>
    cases o.mode with
    | syntaxTree =>
      cases parsed : s.parse
      all_goals simp [s.output_syntaxTree, s.treeText_eq, parsed, bind, Except.bind, pure,
        Except.pure, Except.toOption]
    | typedSource =>
      cases o.formatter with
      | none =>
        cases parsed : s.parse
        all_goals simp [s.output_typedSource, s.typed_none, parsed, bind, Except.bind, pure,
          Except.pure, Except.toOption]
      | some f =>
        cases found : W.program? w f.program with
        | none =>
          simp [found, bind, Except.bind, FormatterChoice.formatterOf?, Except.mapError,
            Functor.map, Except.map]
        | some p =>
          cases parsed : s.parse with
          | error fault =>
            simp [s.output_typedSource, s.typed_some, s.typed_none, found, parsed, bind, Except.bind,
              FormatterChoice.formatterOf?, Except.mapError, Functor.map, Except.map,
              Except.toOption]
          | ok n =>
            cases formatted : f.formatter p ((collect n s.content).typedSource s)
            all_goals simp [s.output_typedSource, s.typed_some, s.typed_none, found, parsed,
              formatted, bind, Except.bind, FormatterChoice.formatterOf?, Except.mapError,
              Functor.map, Except.map, Except.toOption]

/-- How a run ends, told from the state it begins in. -/
lemma finish_spec {made : Except Cause (String × Table)}
    (spec : match made with
      | .error c => W.earlyCause? o w = some c
      | .ok (text, _) => W.earlyCause? o w = none ∧ W.text? o w = some text) :
    match W.finish o w made with
    | (.error c, w') => W.cause? o w = some c ∧ W.file? w' = W.file? w
    | (.ok _, w') => W.cause? o w = none ∧ ∃ text i, W.text? o w = some text ∧
        W.place? w o.output = some i ∧ W.file? w' i = some (Text.encode text) ∧
        ∀ j ≠ i, W.file? w' j = W.file? w j := by
  rcases made with c | ⟨text, table⟩
  · exact ⟨by rw [cause?, spec, Option.some_or], rfl⟩
  · obtain ⟨early, text'⟩ := spec
    rw [finish, cause?, early, Option.none_or, unwritable?, text', Option.bind_some]
    rcases written : W.write w o.output (Text.encode text) with ⟨obstacle | _, w'⟩
    · exact ⟨rfl, W.file?_of_error written⟩
    · obtain ⟨i, place, here, elsewhere⟩ := W.file?_of_ok written
      exact ⟨rfl, text, i, rfl, place, here, elsewhere⟩

/-- A run that fails does so with the first cause and leaves every file as it was. A run that does
not fail had no cause to, and leaves the text in its output and all other files as they were. Where
no formatter is to run, it does not matter which programs there are. -/
theorem outcome_spec :
    (match W.outcome o w with
      | (.error c, w') => W.cause? o w = some c ∧ W.file? w' = W.file? w
      | (.ok _, w') => W.cause? o w = none ∧ ∃ text i, W.text? o w = some text ∧
          W.place? w o.output = some i ∧ W.file? w' i = some (Text.encode text) ∧
          ∀ j ≠ i, W.file? w' j = W.file? w j) ∧
    (o.mode = .syntaxTree ∨ o.formatter = none → ∀ programs,
      (W.withPrograms programs).outcome o w = W.outcome o w) ∧
    (o.mode = .syntaxTree → ∀ choice,
      W.outcome { o with formatter := choice } w = W.outcome o w) := by
  refine ⟨?_, fun unformatted programs => ?_, fun tree choice => ?_⟩
  · rw [outcome_eq]
    exact W.finish_spec o w (W.made_spec o w)
  · have none : o.choice? = none := by
      rw [Options.choice?]
      rcases unformatted with h | h
      all_goals
        rw [h]
        try cases o.mode
        all_goals rfl
    rw [outcome_eq, outcome_eq, formatter?, formatter?, none]
    rfl
  · obtain ⟨input, output, mode, formatter⟩ := o
    obtain rfl : mode = .syntaxTree := tree
    rw [outcome_eq, outcome_eq]
    rfl

end World

namespace Disk

/-- A disk and some programs as a world. -/
def world (programs : String → Option Program) : World Disk Place where
  read := read
  write d path bytes :=
    match d.write path bytes with
    | .ok d' => (.ok (), d')
    | .error o => (.error o, d)
  program? _ := programs
  pathOf _ name := "/bin/" ++ name
  clock _ _ := "1970-01-01T00:00:00.000Z"
  file? d p :=
    match d.get? p with
    | some (.file bytes) => some bytes
    | _ => none
  place? d path := (d.locate path).toOption
  file?_of_error {w w' path bytes o} h := by
    split at h
    · cases h
    · cases h
      rfl
  file?_of_ok {w w' path bytes} h := by
    split at h
    case h_1 d written =>
      cases h
      obtain ⟨p, located, get⟩ := get?_write written
      refine ⟨p, by rw [located]; rfl, ?_, fun q other => ?_⟩
      · rw [get, if_pos rfl]
      · rw [get, if_neg other]
    case h_2 => cases h

/-- The host of a disk is that of its world. -/
lemma host_world (programs : String → Option Program) : (world programs).host = host programs := by
  have write : (world programs).host.write = (host programs).write := by
    funext path bytes d
    change (match d.write path bytes with
      | .ok d' => (.ok (), d')
      | .error o => (.error o, d)) = (match d.write path bytes with
      | .ok d => do set d; return .ok ()
      | .error o => return .error o : StateM Disk (Except Obstacle Unit)) d
    cases d.write path bytes
    all_goals rfl
  rw [World.host, host, Host.mk.injEq]
  exact ⟨rfl, write, rfl, rfl, rfl⟩

end Disk

namespace World

/-- A run may write over its own input, and it needs no program for that. -/
theorem outcome_spec_overwritten :
    ∃ o d, o = ({ input := "a", output := "a", mode := .typedSource, formatter := none } : Options) ∧
      d = ({ entries := [(["a"], .file (Text.encode "let x = 1;"))], home := [] } : Disk) ∧
      (∃ summary d', (o.run (Disk.host fun _ => none)).run d = (.ok summary, d') ∧
        (Disk.world fun _ => none).file? d' ["a"] =
          some (Text.encode "// Generated by typeify from a\nlet x: number = 1;\n")) ∧
      ∀ programs, (Disk.world programs).outcome o d = (Disk.world fun _ => none).outcome o d := by
  let o : Options := { input := "a", output := "a", mode := .typedSource, formatter := none }
  let d : Disk := { entries := [(["a"], .file (Text.encode "let x = 1;"))], home := [] }
  refine ⟨o, d, rfl, rfl, ?_⟩
  obtain ⟨spec, programs, -⟩ := outcome_spec (Disk.world fun _ => none) o d
  refine ⟨?_, fun found => programs (.inr rfl) fun _ => found⟩
  generalize es : ({ name := "a", path := "a", content := "let x = 1;" } : Script) = s
  have typed : (s.typed none).toOption.map (·.1) =
      some "// Generated by typeify from a\nlet x: number = 1;\n" := by
    subst es
    decide +kernel
  have script : (Disk.world fun _ => none).script o d = .ok s := by
    subst es
    cbv
  have place : (Disk.world fun _ => none).place? d o.output = some ["a"] := by cbv
  have made : (Disk.world fun _ => none).text? o d =
      some "// Generated by typeify from a\nlet x: number = 1;\n" := by
    rw [text?, script]
    exact typed
  have free (bytes : List UInt8) : ((Disk.world fun _ => none).write d o.output bytes).1 = .ok () := by
    cbv
  have parsed : (Disk.world fun _ => none).fault? o d = none := by
    rw [s.typed_none] at typed
    rw [fault?, script]
    change (match s.parse with | .error f => some (Cause.fault f) | .ok _ => none) = none
    cases parsed : s.parse with
    | error f =>
      rw [parsed] at typed
      cases typed
    | ok n => rfl
  have cause : (Disk.world fun _ => none).cause? o d = none := by
    rw [cause?, earlyCause?, unreadable?, script, parsed, unwritable?, made, Option.bind_some]
    dsimp only
    rw [free]
    rfl
  rw [← Disk.host_world]
  change ∃ summary d', (Disk.world fun _ => none).outcome o d = (.ok summary, d') ∧ _
  rcases ended : (Disk.world fun _ => none).outcome o d with ⟨c | summary, d'⟩
  all_goals rw [ended] at spec
  · rw [cause] at spec
    cases spec.1
  · obtain ⟨-, text', p, made', led, written, -⟩ := spec
    obtain rfl := Option.some.inj (made.symm.trans made')
    obtain rfl := Option.some.inj (place.symm.trans led)
    exact ⟨summary, d', rfl, written⟩

end World

end ScriptTyping
