import ScriptTyping.Invocation.Arguments
import ScriptTyping.Proofs.Text.OneLine

/-!
# Arguments of one line

What arguments say is put together of the arguments themselves: where each of them is one line, so are
the paths and the name of the formatter that they lead to (`Invocation.isPlain_of_arguments`).
-/

namespace ScriptTyping

/-- Options that name nothing but single lines. -/
structure Options.IsPlain (o : Options) : Prop where
  input : OneLine o.input
  output : OneLine o.output
  formatter : ∀ f ∈ o.formatter, OneLine f.program

namespace Gathered

/-- Nothing but single lines has been gathered. -/
structure IsPlain (g : Gathered) : Prop where
  paths : ∀ p ∈ g.paths, OneLine p
  formatter : ∀ f ∈ g.formatter, OneLine f
  pending : ∀ value, g.pending = .given value → OneLine value

/-- A step of the reading gathers nothing but single lines. -/
def KeepsPlain (step : Gathered → Except Halt Gathered) : Prop :=
  ∀ ⦃g g'⦄, step g = .ok g' → g.IsPlain → g'.IsPlain

lemma isPlain_start : start.IsPlain :=
  ⟨by simp [start], by simp [start], by simp [start]⟩

section Steps

variable {step next : Gathered → Except Halt Gathered}

lemma KeepsPlain.bind (first : KeepsPlain step) (second : KeepsPlain next) :
    KeepsPlain fun g => (step g).bind next := by
  intro g g' h plain
  dsimp only at h
  cases made : step g with
  | error halt =>
    rw [made] at h
    cases h
  | ok k =>
    rw [made] at h
    exact second h (first made plain)

/-- Steps made one after the other gather nothing but single lines if each of them does. -/
lemma keepsPlain_foldlM {α : Type} {step : Gathered → α → Except Halt Gathered} {xs : List α}
    (each : ∀ x ∈ xs, KeepsPlain (step · x)) : KeepsPlain (xs.foldlM step) := by
  induction xs with
  | nil =>
    intro g g' h plain
    cases h
    exact plain
  | cons x xs ih =>
    have rest := ih fun x mem => each x (.tail _ mem)
    exact (each x (.head _)).bind rest

end Steps

lemma keepsPlain_settle : KeepsPlain settle := by
  intro g g' h plain
  rw [settle] at h
  split at h
  case h_1 =>
    cases h
    exact plain
  case h_2 => cases h
  case h_3 value pending =>
    split at h
    · cases h
    · cases h
      exact ⟨plain.paths, by simpa using plain.pending value pending, by simp⟩

lemma keepsPlain_path {a : String} (one : OneLine a) : KeepsPlain (path · a) := by
  have add : KeepsPlain fun g => .ok { g with paths := g.paths ++ [a] } := by
    intro g g' h plain
    cases h
    refine ⟨fun p mem => ?_, plain.formatter, plain.pending⟩
    obtain mem | mem := List.mem_append.1 mem
    · exact plain.paths p mem
    · rwa [List.mem_singleton.1 mem]
  intro g g' h plain
  simp only [path] at h
  split at h
  · cases h
  · rw [show g.settle.map _ = g.settle.bind _ by cases g.settle <;> rfl] at h
    exact keepsPlain_settle.bind add h plain

lemma keepsPlain_switch (s : Switch) : KeepsPlain (switch · s) := by
  refine keepsPlain_settle.bind fun g g' h plain => ?_
  cases s with
  | flag f =>
    dsimp only at h
    split at h
    · cases h
    · cases h
      exact ⟨plain.paths, plain.formatter, plain.pending⟩
  | formatter =>
    cases h
    exact ⟨plain.paths, plain.formatter, by simp⟩
  | help | version => cases h

lemma keepsPlain_switchWith (s : Switch) {value : String} (one : OneLine value) :
    KeepsPlain (switchWith · s value) := by
  cases s with
  | formatter =>
    refine keepsPlain_settle.bind fun g g' h plain => ?_
    refine keepsPlain_settle h ⟨plain.paths, plain.formatter, fun other given => ?_⟩
    cases given
    exact one
  | flag | help | version =>
    intro g g' h
    cases h

lemma keepsPlain_word {w : List Char} (one : '\n' ∉ w) : KeepsPlain (word · w) := by
  intro g g' h plain
  simp only [word] at h
  split at h
  case h_1 => cases h
  case h_2 s _ _ => exact keepsPlain_switch s h plain
  case h_3 s c value _ behind =>
    refine keepsPlain_switchWith s (OneLine.ofList_iff.2 fun mem => one ?_) h plain
    have inside : '\n' ∈ w.dropWhile (· != '=') := behind ▸ List.mem_cons_of_mem c mem
    exact (List.dropWhile_suffix _).subset inside

lemma keepsPlain_letter (c : Char) : KeepsPlain (letter · c) := by
  intro g g' h plain
  simp only [letter] at h
  split at h
  · exact keepsPlain_switch _ h plain
  · cases h

lemma keepsPlain_plain {a : String} (one : OneLine a) : KeepsPlain (Gathered.plain · a) := by
  intro g g' h plain
  simp only [Gathered.plain] at h
  split at h
  · cases h
    refine ⟨plain.paths, plain.formatter, fun value given => ?_⟩
    cases given
    exact one
  · exact keepsPlain_path one h plain

/-- All arguments together gather nothing but single lines, by induction on the arguments. -/
lemma keepsPlain_read {arguments : List String} (plain : ∀ a ∈ arguments, OneLine a) :
    KeepsPlain (read · arguments) := by
  induction arguments with
  | nil =>
    intro g g' h kept
    cases h
    exact kept
  | cons a rest ih =>
    have one : OneLine a := plain a (.head _)
    have rest' := ih fun a mem => plain a (.tail _ mem)
    intro g g' h kept
    simp only [read] at h
    split at h
    case h_1 =>
      exact keepsPlain_foldlM (fun p mem => keepsPlain_path (plain p (.tail _ mem))) h kept
    case h_2 w _ chars =>
      refine (keepsPlain_word fun mem => one ?_).bind rest' h kept
      rw [chars]
      exact List.mem_cons_of_mem _ (List.mem_cons_of_mem _ mem)
    case h_3 c cs _ _ _ =>
      exact (keepsPlain_foldlM fun c _ => keepsPlain_letter c).bind rest' h kept
    case h_4 => exact (keepsPlain_plain one).bind rest' h kept

end Gathered

namespace Invocation

/-- Arguments that are single lines ask for options that name nothing but single lines. -/
lemma isPlain_of_arguments {arguments : List String} {i : Invocation}
    (plain : ∀ a ∈ arguments, OneLine a) (h : ofArguments arguments = .ok i) : i.options.IsPlain := by
  rw [ofArguments] at h
  cases gathered : Gathered.start.read arguments with
  | error halt =>
    rw [gathered] at h
    cases h
  | ok k =>
    rw [gathered] at h
    simp only [bind, Except.bind] at h
    split at h
    · cases h
    next g settled =>
      have kept : g.IsPlain := Gathered.keepsPlain_settle settled
        (Gathered.keepsPlain_read plain gathered Gathered.isPlain_start)
      split at h
      case h_2 => cases h
      case h_1 input output two =>
        cases h
        refine ⟨kept.paths input (by simp [two]), kept.paths output (by simp [two]), fun f mem => ?_⟩
        simp only [ofGathered] at mem
        split at mem
        · cases mem
        cases mem
        cases named : g.formatter with
        | none => exact (by decide : OneLine FormatterChoice.defaultProgram)
        | some program => exact kept.formatter program named

end Invocation

end ScriptTyping
