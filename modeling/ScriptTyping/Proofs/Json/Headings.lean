import ScriptTyping.Proofs.Json.RoundTrip

/-!
# Objects with a type

`Value.headings` lists the objects of a value that have a type, each before those inside it, with the
place that each gives for itself. `Value.DistinctKeys` says that no object repeats a key.
-/

namespace ScriptTyping.Json

/-- What an object says of itself: its type and its place. -/
structure Heading where
  type : Value
  start : Option Value
  stop : Option Value
  loc : Option Value

namespace Value

/-- What the members of an object say of it, if they give it a type. -/
def heading? (members : List (String × Value)) : Option Heading :=
  (members.lookup "type").map fun type =>
    { type
      start := members.lookup "start"
      stop := members.lookup "end"
      loc := members.lookup "loc" }

mutual

/-- The objects with a type, each before those inside it, in the order of members and items. -/
def headings : Value → List Heading
  | array items => headingsOfItems items
  | object members => (heading? members).toList ++ headingsOfMembers members
  | _ => []

/-- The objects with a type in items. -/
def headingsOfItems : List Value → List Heading
  | [] => []
  | v :: vs => headings v ++ headingsOfItems vs

/-- The objects with a type in members. -/
def headingsOfMembers : List (String × Value) → List Heading
  | [] => []
  | (_, v) :: ms => headings v ++ headingsOfMembers ms

end

@[simp] lemma headingsOfItems_eq (items : List Value) :
    headingsOfItems items = items.flatMap headings := by
  induction items with
  | nil => rfl
  | cons v vs ih => rw [headingsOfItems, ih, List.flatMap_cons]

@[simp] lemma headingsOfMembers_eq (members : List (String × Value)) :
    headingsOfMembers members = members.flatMap fun m => m.2.headings := by
  induction members with
  | nil => rfl
  | cons m ms ih => rw [headingsOfMembers, ih, List.flatMap_cons]

/-- No object repeats a key. -/
inductive DistinctKeys : Value → Prop where
  | null : DistinctKeys null
  | bool (b : Bool) : DistinctKeys (bool b)
  | number (q : ℚ) : DistinctKeys (number q)
  | string (s : String) : DistinctKeys (string s)
  | array {items : List Value} :
    (∀ v ∈ items, DistinctKeys v) →
    DistinctKeys (array items)
  | object {members : List (String × Value)} :
    (members.map Prod.fst).Nodup →
    (∀ m ∈ members, DistinctKeys m.2) →
    DistinctKeys (object members)

end Value

lemma headings_array (items : List Json) :
    (array items).value.headings = items.flatMap fun j => j.value.headings := by
  rw [value, values_eq, Value.headings, Value.headingsOfItems_eq, List.flatMap_map]

lemma distinctKeys_array {items : List Json} (h : ∀ j ∈ items, j.value.DistinctKeys) :
    (array items).value.DistinctKeys := by
  rw [value, values_eq]
  refine .array fun v hv => ?_
  obtain ⟨j, hj, rfl⟩ := List.mem_map.1 hv
  exact h j hj

end ScriptTyping.Json
