import ScriptTyping.Declaration.Basic

/-!
# Tables of declarations

A table holds variables, functions and findings, each in the order in which they were recorded, and an
index of the variables by name. A name has at most one variable: the first that was recorded under it.
Whatever is recorded, the index has the names of the variables and their places (`Indexed`), so that a
name is recorded once only (`nodup_names`) and a look-up finds its variable (`find?_eq_some_iff`).
-/

namespace ScriptTyping

/-- An index has exactly the names of some variables, each with the place of its variable. -/
def Indexed (index : List (String × Nat)) (bindings : List Variable) : Prop :=
  ∀ name i, index.lookup name = some i ↔ ∃ v ∈ bindings[i]?, v.name = name

namespace Indexed

theorem nil : Indexed [] [] := by
  intro name i
  simp

/-- The last place of a list that something is put after is its own. -/
theorem mem_push_iff {bindings : List Variable} {v w : Variable} {i : Nat} :
    w ∈ (bindings ++ [v])[i]? ↔ w ∈ bindings[i]? ∨ i = bindings.length ∧ w = v := by
  rcases Nat.lt_trichotomy i bindings.length with lt | rfl | gt
  · rw [List.getElem?_append_left lt]
    simp [Nat.ne_of_lt lt]
  · simp [eq_comm]
  · have past : (bindings ++ [v])[i]? = none := List.getElem?_eq_none (by simp; omega)
    have past' : bindings[i]? = none := List.getElem?_eq_none (by omega)
    simp [past, past', Nat.ne_of_gt gt]

/-- A variable of a new name is put after the others. -/
theorem push {index : List (String × Nat)} {bindings : List Variable} (h : Indexed index bindings)
    {v : Variable} (free : ¬ (index.lookup v.name).isSome) :
    Indexed ((v.name, bindings.length) :: index) (bindings ++ [v]) := by
  intro name i
  simp only [mem_push_iff, or_and_right, exists_or, ← h name i]
  by_cases same : name = v.name
  · subst same
    have missing : index.lookup v.name = none := Option.not_isSome_iff_eq_none.1 free
    have last : (∃ w, (i = bindings.length ∧ w = v) ∧ w.name = v.name) ↔ i = bindings.length :=
      ⟨fun ⟨_, ⟨here, _⟩, _⟩ => here, fun here => ⟨v, ⟨here, rfl⟩, rfl⟩⟩
    rw [last, List.lookup_cons_self, missing, Option.some.injEq, eq_comm]
    simp
  · have other : (name == v.name) = false := by simpa using same
    have last : ¬ ∃ w, (i = bindings.length ∧ w = v) ∧ w.name = name := by
      rintro ⟨w, ⟨-, rfl⟩, rfl⟩
      exact same rfl
    rw [List.lookup_cons, other, or_iff_left last]

end Indexed

/-- Variables, functions and findings in the order of recording. -/
structure Table where
  bindings : List Variable
  index : List (String × Nat)
  routines : List Routine
  findings : List Problem
  indexed : Indexed index bindings
  deriving DecidableEq

namespace Table

/-- A table without entries. -/
def empty : Table :=
  { bindings := [], index := [], routines := [], findings := [], indexed := .nil }

/-- The names of the variables in order. -/
def names (t : Table) : List String :=
  t.bindings.map (·.name)

/-- The variable at the place that the index has for a name. -/
def find? (t : Table) (name : String) : Option Variable :=
  (t.index.lookup name).bind (t.bindings[·]?)

/-- Whether a name has a variable. -/
def contains (t : Table) (name : String) : Bool :=
  (t.index.lookup name).isSome

/-- Records a variable unless its name has one, and tells whether it did. -/
def tryInsert (t : Table) (v : Variable) : Bool × Table :=
  if free : t.contains v.name then (false, t)
  else
    (true, { t with
      bindings := t.bindings ++ [v]
      index := (v.name, t.bindings.length) :: t.index
      indexed := t.indexed.push free })

/-- Records a variable unless its name has one. -/
def insert (t : Table) (v : Variable) : Table :=
  (t.tryInsert v).2

/-- Records a function. -/
def addRoutine (t : Table) (r : Routine) : Table :=
  { t with routines := t.routines ++ [r] }

/-- Records a finding. -/
def addFinding (t : Table) (p : Problem) : Table :=
  { t with findings := t.findings ++ [p] }

variable {t : Table} {name : String} {v : Variable}

/-- A look-up finds the variable of a name. -/
theorem find?_eq_some_iff : t.find? name = some v ↔ v ∈ t.bindings ∧ v.name = name := by
  rw [find?, Option.bind_eq_some_iff]
  constructor
  · rintro ⟨i, place, found⟩
    obtain ⟨w, hw, same⟩ := (t.indexed name i).1 place
    obtain rfl := Option.some.inj (hw.symm.trans found)
    exact ⟨List.mem_of_getElem? found, same⟩
  · rintro ⟨mem, same⟩
    obtain ⟨i, found⟩ := List.getElem?_of_mem mem
    exact ⟨i, (t.indexed name i).2 ⟨v, found, same⟩, found⟩

/-- The index never leads past the variables. -/
theorem contains_eq_isSome_find? (t : Table) (name : String) :
    t.contains name = (t.find? name).isSome := by
  rw [contains, find?]
  cases place : t.index.lookup name with
  | none => rfl
  | some i =>
    obtain ⟨v, found, -⟩ := (t.indexed name i).1 place
    rw [Option.bind_some, found]
    rfl

theorem contains_iff (t : Table) (name : String) : t.contains name = true ↔ name ∈ t.names := by
  rw [contains_eq_isSome_find?, Option.isSome_iff_exists, names, List.mem_map]
  exact exists_congr fun v => find?_eq_some_iff

/-- No name is recorded twice. -/
theorem nodup_names (t : Table) : t.names.Nodup := by
  have place {k : Nat} (hk : k < t.bindings.length) :
      t.index.lookup t.bindings[k].name = some k :=
    (t.indexed _ k).2 ⟨t.bindings[k], List.getElem?_eq_getElem hk, rfl⟩
  refine List.pairwise_map.2 (List.pairwise_iff_getElem.2 fun i j hi hj lt same => ?_)
  have both := place hi
  rw [same, place hj] at both
  exact Nat.ne_of_gt lt (Option.some.inj both)

@[simp] theorem tryInsert_of_contains (taken : t.contains v.name = true) :
    t.tryInsert v = (false, t) :=
  dif_pos taken

theorem tryInsert_fst (t : Table) (v : Variable) : (t.tryInsert v).1 = ! t.contains v.name := by
  unfold tryInsert
  split
  all_goals simp_all

/-- A variable is put after the others if its name is new. -/
theorem bindings_insert (t : Table) (v : Variable) :
    (t.insert v).bindings = t.bindings ++ if t.contains v.name then [] else [v] := by
  unfold insert tryInsert
  split
  · simp [*]
  · simp [*]

/-- A variable is found under its name unless one was there before. -/
theorem find?_insert (t : Table) (v : Variable) (name : String) :
    (t.insert v).find? name = (t.find? name).or (if v.name = name then some v else none) := by
  by_cases taken : t.contains v.name = true
  · rw [insert, tryInsert_of_contains taken]
    split
    · rename_i same
      obtain ⟨w, found⟩ := Option.isSome_iff_exists.1 (contains_eq_isSome_find? t _ ▸ taken)
      rw [← same, found, Option.some_or]
    · rw [Option.or_none]
  · have unfound : v.name = name → t.find? name = none := by
      rintro rfl
      simpa [contains_eq_isSome_find?] using taken
    ext w
    rw [find?_eq_some_iff, bindings_insert, if_neg taken, Option.or_eq_some_iff, find?_eq_some_iff]
    constructor
    · rintro ⟨mem, rfl⟩
      rcases List.mem_append.1 mem with mem | mem
      · exact .inl ⟨mem, rfl⟩
      · obtain rfl := List.mem_singleton.1 mem
        exact .inr ⟨unfound rfl, if_pos rfl⟩
    · rintro (⟨mem, same⟩ | ⟨-, here⟩)
      · exact ⟨List.mem_append_left _ mem, same⟩
      · split at here
        · rename_i same
          cases here
          exact ⟨List.mem_append_right _ List.mem_cons_self, same⟩
        · cases here

@[simp] theorem routines_insert (t : Table) (v : Variable) : (t.insert v).routines = t.routines := by
  unfold insert tryInsert
  split
  all_goals rfl

@[simp] theorem findings_insert (t : Table) (v : Variable) : (t.insert v).findings = t.findings := by
  unfold insert tryInsert
  split
  all_goals rfl

@[simp] theorem find?_addRoutine (t : Table) (r : Routine) (name : String) :
    (t.addRoutine r).find? name = t.find? name := rfl

@[simp] theorem find?_addFinding (t : Table) (p : Problem) (name : String) :
    (t.addFinding p).find? name = t.find? name := rfl

end Table

end ScriptTyping
