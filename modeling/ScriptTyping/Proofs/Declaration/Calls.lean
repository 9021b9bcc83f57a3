import Mathlib.Data.List.Basic
import Mathlib.Tactic.Lemma
import ScriptTyping.Declaration.Table

/-!
# Tables after any calls

A table is filled by calls that record a variable, a function or a finding. What one call does is told
for any table, and from it by induction what a list of calls leaves of the table it began with
(`Table.performAll`). Begun with the empty table, `performAll_empty` tells it in terms of the calls alone.
-/

namespace ScriptTyping

/-- Something to record in a table. -/
inductive Call where
  | insert (v : Variable)
  | addRoutine (r : Routine)
  | addFinding (p : Problem)
  deriving DecidableEq

namespace Call

/-- The variable of a call that has one. -/
def binding? : Call → Option Variable
  | insert v => some v
  | _ => none

/-- The function of a call that has one. -/
def routine? : Call → Option Routine
  | addRoutine r => some r
  | _ => none

/-- The finding of a call that has one. -/
def finding? : Call → Option Problem
  | addFinding p => some p
  | _ => none

/-- The variable of a call that was answered with yes. -/
def accepted? : Call × Option Bool → Option Variable
  | (c, some true) => c.binding?
  | _ => none

end Call

namespace Table

/-- Answers a call. Only a call to record a variable has an answer. -/
def perform (t : Table) : Call → Option Bool × Table
  | .insert v => (some (t.tryInsert v).1, (t.tryInsert v).2)
  | .addRoutine r => (none, t.addRoutine r)
  | .addFinding p => (none, t.addFinding p)

/-- Answers calls one after the other. -/
def performAll (t : Table) : List Call → List (Option Bool) × Table
  | [] => ([], t)
  | c :: cs => ((t.perform c).1 :: ((t.perform c).2.performAll cs).1, ((t.perform c).2.performAll cs).2)

section Step

variable (t : Table) (c : Call)

/-- A variable is put after the others when the answer is yes. -/
lemma bindings_perform :
    (t.perform c).2.bindings = t.bindings ++ (Call.accepted? (c, (t.perform c).1)).toList := by
  cases c with
  | insert v =>
    have stored : (t.perform (.insert v)).2.bindings = (t.insert v).bindings := rfl
    rw [stored, bindings_insert, perform, tryInsert_fst]
    cases t.contains v.name
    all_goals rfl
  | addRoutine r => exact (List.append_nil _).symm
  | addFinding p => exact (List.append_nil _).symm

lemma routines_perform : (t.perform c).2.routines = t.routines ++ c.routine?.toList := by
  cases c with
  | insert v => exact (routines_insert t v).trans (List.append_nil _).symm
  | addRoutine r => rfl
  | addFinding p => exact (List.append_nil _).symm

lemma findings_perform : (t.perform c).2.findings = t.findings ++ c.finding?.toList := by
  cases c with
  | insert v => exact (findings_insert t v).trans (List.append_nil _).symm
  | addRoutine r => exact (List.append_nil _).symm
  | addFinding p => rfl

/-- What a name stood for it stands for after the call. -/
lemma find?_perform (name : String) :
    (t.perform c).2.find? name = (t.find? name).or (c.binding?.filter (·.name == name)) := by
  cases c with
  | insert v =>
    refine (find?_insert t v name).trans ?_
    simp [Call.binding?, Option.filter_some]
  | addRoutine r => exact (Option.or_none ..).symm
  | addFinding p => exact (Option.or_none ..).symm

end Step

section Run

variable (t : Table) (cs : List Call)

lemma length_performAll : (t.performAll cs).1.length = cs.length := by
  induction cs generalizing t with
  | nil => rfl
  | cons c cs ih => exact congrArg (· + 1) (ih _)

/-- Each call is answered by the table that the calls before it leave. -/
lemma getElem?_performAll (i : Nat) :
    (t.performAll cs).1[i]? =
      cs[i]?.map fun c => ((t.performAll (cs.take i)).2.perform c).1 := by
  induction cs generalizing t i with
  | nil => rfl
  | cons c cs ih =>
    cases i with
    | zero => rfl
    | succ i => exact ih _ i

lemma bindings_performAll :
    (t.performAll cs).2.bindings =
      t.bindings ++ (cs.zip (t.performAll cs).1).filterMap Call.accepted? := by
  induction cs generalizing t with
  | nil => exact (List.append_nil _).symm
  | cons c cs ih =>
    rw [performAll, ih, bindings_perform, List.append_assoc, List.zip_cons_cons, List.filterMap_cons]
    cases Call.accepted? (c, (t.perform c).1)
    all_goals rfl

lemma routines_performAll :
    (t.performAll cs).2.routines = t.routines ++ cs.filterMap Call.routine? := by
  induction cs generalizing t with
  | nil => exact (List.append_nil _).symm
  | cons c cs ih =>
    rw [performAll, ih, routines_perform, List.append_assoc, List.filterMap_cons]
    cases c.routine?
    all_goals rfl

lemma findings_performAll :
    (t.performAll cs).2.findings = t.findings ++ cs.filterMap Call.finding? := by
  induction cs generalizing t with
  | nil => exact (List.append_nil _).symm
  | cons c cs ih =>
    rw [performAll, ih, findings_perform, List.append_assoc, List.filterMap_cons]
    cases c.finding?
    all_goals rfl

/-- A name stands for what it stood for before, or else for what is first recorded under it. -/
lemma find?_performAll (name : String) :
    (t.performAll cs).2.find? name =
      (t.find? name).or ((cs.filterMap Call.binding?).find? (·.name == name)) := by
  induction cs generalizing t with
  | nil => exact (Option.or_none ..).symm
  | cons c cs ih =>
    rw [performAll, ih, find?_perform, List.filterMap_cons, Option.or_assoc]
    cases c.binding? with
    | none => rfl
    | some v =>
      rw [List.find?_cons, Option.filter_some]
      cases v.name == name
      all_goals rfl

end Run

lemma contains_performAll_empty (cs : List Call) (name : String) :
    (Table.empty.performAll cs).2.contains name = true ↔ ∃ v, .insert v ∈ cs ∧ v.name = name := by
  have nothing : Table.empty.find? name = none := rfl
  rw [contains_eq_isSome_find?, find?_performAll, nothing, Option.none_or, List.find?_isSome]
  constructor
  · rintro ⟨v, mem, same⟩
    obtain ⟨c, mem, told⟩ := List.mem_filterMap.1 mem
    cases c
    all_goals cases told
    exact ⟨v, mem, eq_of_beq same⟩
  · rintro ⟨v, mem, same⟩
    exact ⟨v, List.mem_filterMap.2 ⟨.insert v, mem, rfl⟩, beq_of_eq same⟩

/-- What calls leave of the empty table. No name is recorded twice, and the index leads from exactly the
recorded names to their variables. A call to record a variable is answered with yes exactly if none
before it has the name. A name stands for the variable that is first to be recorded under it. The
variables are those of the calls that were answered with yes, in the order of the calls, and the
functions and findings are those of all their calls. -/
theorem performAll_empty (cs : List Call) :
    ∃ answers t, Table.empty.performAll cs = (answers, t) ∧ answers.length = cs.length ∧
      t.names.Nodup ∧
      (∀ name i, t.index.lookup name = some i ↔ ∃ v ∈ t.bindings[i]?, v.name = name) ∧
      (∀ i v, cs[i]? = some (.insert v) → ∃ answer, answers[i]? = some (some answer) ∧
        (answer = true ↔ ∀ w, .insert w ∈ cs.take i → w.name ≠ v.name)) ∧
      (∀ name, t.find? name = (cs.filterMap Call.binding?).find? (·.name == name)) ∧
      (∀ name, t.contains name = (t.find? name).isSome) ∧
      t.bindings = (cs.zip answers).filterMap Call.accepted? ∧
      t.routines = cs.filterMap Call.routine? ∧
      t.findings = cs.filterMap Call.finding? := by
  refine ⟨_, _, rfl, length_performAll .., nodup_names _, indexed _, fun i v here => ?_,
    fun name => find?_performAll .., contains_eq_isSome_find? _, bindings_performAll ..,
    routines_performAll .., findings_performAll ..⟩
  have answer := getElem?_performAll Table.empty cs i
  rw [here, Option.map_some, perform, tryInsert_fst] at answer
  refine ⟨_, answer, ?_⟩
  rw [Bool.not_eq_true', ← Bool.not_eq_true, contains_performAll_empty]
  exact ⟨fun free w hw same => free ⟨w, hw, same⟩, fun free ⟨w, hw, same⟩ => free w hw same⟩

end Table

end ScriptTyping
