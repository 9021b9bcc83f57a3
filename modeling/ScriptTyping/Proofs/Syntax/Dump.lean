import ScriptTyping.Emission.Typed
import ScriptTyping.Proofs.Json.Headings
import ScriptTyping.Proofs.Reading.Parsed

/-!
# The tree in its JSON

A walk through a tree meets its nodes, each before its children, and the block of a function after
its parameters and before its statements. The objects with a type in the JSON of a tree are those
that its walk meets (`Node.headings_value_json`), and no object of it repeats a key
(`Node.distinctKeys_value_json`). Both follow from one fact about forms: the values of the members
of a form hold what stands between its children, `Form.flatMap_stops_members`.
-/

namespace ScriptTyping

/-- What a walk meets. -/
inductive Stop (α : Type) where
  | node (a : α)
  | block (b : Block α)

namespace Stop

variable {α : Type}

/-- The node that is met, if it is one. -/
def node? : Stop α → Option α
  | node a => some a
  | block _ => none

end Stop

namespace Form

variable {α : Type}

/-- The children of a form, and the block of a function with a keyword between its parameters and
its statements. -/
def stops : Form α → List (Stop α)
  | functionDeclaration f | functionExpression f =>
    (f.id.toList ++ f.params).map .node ++ .block f.body :: f.body.statements.map .node
  | f => f.children.map .node

/-- The nodes among the stops are the children. -/
lemma filterMap_node?_stops (f : Form α) : f.stops.filterMap Stop.node? = f.children := by
  have nodes (as : List α) : (as.map Stop.node).filterMap Stop.node? = as := by
    rw [List.filterMap_map]
    exact List.filterMap_some
  have function (g : Function α) : ((g.id.toList ++ g.params).map Stop.node ++
      Stop.block g.body :: g.body.statements.map Stop.node).filterMap Stop.node? =
        g.id.toList ++ g.params ++ g.body.statements := by
    rw [List.filterMap_append, List.filterMap_cons_none rfl, nodes, nodes]
  cases f
  case functionDeclaration g => exact function g
  case functionExpression g => exact function g
  all_goals exact nodes _

end Form

namespace Member

variable {α : Type}

/-- What a walk meets in the value of a member. -/
def stops : Member α → List (Stop α)
  | block b => .block b :: b.statements.map .node
  | m => m.nodes.map .node

end Member

namespace Form

variable {α : Type}

/-- The members of a form hold its stops. -/
lemma flatMap_stops_members (f : Form α) : (f.members.flatMap fun m => m.2.stops) = f.stops := by
  cases f
  case functionDeclaration g => simp [members, stops, functionMembers, Member.stops, Member.nodes]
  case functionExpression g => simp [members, stops, functionMembers, Member.stops, Member.nodes]
  case literal value raw =>
    cases value
    all_goals rfl
  all_goals
    -- no other form has a block among its members
    change _ = (children _).map Stop.node
    rw [← flatMap_nodes_members, List.map_flatMap]
    simp [members, classMembers, Member.stops, members.word, members.flag]

end Form

namespace Node

lemma mem_children_of_stop {n c : Node} (h : .node c ∈ n.form.stops) : c ∈ n.children := by
  rw [children, ← Form.filterMap_node?_stops]
  exact List.mem_filterMap.2 ⟨.node c, h, rfl⟩

/-- What a walk through a node meets: the node, and then what it meets in its children. -/
def walk (n : Node) : List (Stop Node) :=
  .node n :: n.form.stops.attach.flatMap fun
    | ⟨.node c, _⟩ => walk c
    | ⟨.block b, _⟩ => [.block b]
  termination_by sizeOf n
  decreasing_by exact sizeOf_lt_of_mem_children (mem_children_of_stop ‹_›)

/-- What follows from a stop on the way. -/
def walkStop : Stop Node → List (Stop Node)
  | .node c => c.walk
  | .block b => [.block b]

lemma walk_eq (n : Node) : n.walk = .node n :: n.form.stops.flatMap walkStop := by
  rw [walk]
  congr 1
  rw [List.flatMap_subtype (g := walkStop), List.unattach_attach]
  rintro (c | b) h
  all_goals rfl

/-- A property of a node that follows from the same of its children holds of all nodes. -/
lemma induction {P : Node → Prop} (step : ∀ n : Node, (∀ c ∈ n.children, P c) → P n) (n : Node) :
    P n :=
  step n fun c _ => induction step c
  termination_by sizeOf n
  decreasing_by exact sizeOf_lt_of_mem_children ‹_›

/-- The nodes that a walk meets are those of the pre-order. -/
lemma filterMap_node?_walk (n : Node) : n.walk.filterMap Stop.node? = n.preorder := by
  induction n using Node.induction with
  | step n ih =>
    have stop (a : Stop Node) (h : a ∈ n.form.stops) :
        (walkStop a).filterMap Stop.node? = (Stop.node? a).toList.flatMap preorder := by
      cases a with
      | node c => simpa [walkStop, Stop.node?] using ih c (mem_children_of_stop h)
      | block b => rfl
    have rest : (n.form.stops.flatMap walkStop).filterMap Stop.node? =
        n.children.flatMap preorder := by
      rw [List.filterMap_flatMap, List.flatMap_congr stop, children, ← Form.filterMap_node?_stops,
        List.filterMap_eq_flatMap_toList, List.flatMap_assoc]
    rw [walk_eq, preorder_eq, ← rest]
    rfl

/-- A node as JSON, without the proofs that its children are smaller. -/
lemma json_eq (n : Node) :
    n.json = .object (("type", .string n.label) ::
      ((n.form.members.map fun m => (m.1, m.2.json fun c _ => c.json)) ++
        Span.members? n.span?)) := by
  rw [json]
  congr 3
  rw [List.map_subtype (g := fun m => (m.1, m.2.json fun c _ => c.json)), List.unattach_attach]
  rintro ⟨k, m⟩ h
  rfl

end Node

/-- What an object of a type says that covers a span, if it covers one. -/
def Json.Heading.spanning (type : String) (s : Option Span) : Json.Heading :=
  { type := .string type
    start := s.map fun s => .number s.start.offset
    stop := s.map fun s => .number s.stop.offset
    loc := s.map fun s => .object [("start", place s.start), ("end", place s.stop)] }
where
  place (l : Location) : Json.Value :=
    .object [("line", .number l.line), ("column", .number (l.column - 1 : Nat))]

/-- The name of what is met. -/
def Stop.label : Stop Node → String
  | node n => n.label
  | block _ => "BlockStatement"

/-- The stretch of what is met, if it is known. -/
def Stop.span : Stop Node → Option Span
  | node n => n.span?
  | block b => b.span

/-- What the object of a stop says. -/
def Stop.heading (a : Stop Node) : Json.Heading :=
  .spanning a.label a.span

namespace Json

/-- Data that has no type in it and repeats no key. -/
def Plain (j : Json) : Prop :=
  j.value.headings = [] ∧ j.value.DistinctKeys

namespace Plain

@[simp] lemma null : Plain .null := ⟨rfl, .null⟩

@[simp] lemma bool (b : Bool) : Plain (.bool b) := ⟨rfl, .bool b⟩

@[simp] lemma nat (n : Nat) : Plain (.nat n) := ⟨rfl, .number n⟩

@[simp] lemma string (s : String) : Plain (.string s) := ⟨rfl, .string s⟩

@[simp] lemma magnitude (m : Magnitude) : Plain (.magnitude m) := by
  cases m with
  | infinite => exact ⟨rfl, .null⟩
  | finite m e =>
    rw [Plain, value, Magnitude.value]
    split
    all_goals exact ⟨rfl, .number _⟩

/-- An object without a type. -/
@[simp] lemma object {members : List (String × Json)} (h : ∀ m ∈ members, Plain m.2)
    (distinct : ("type" :: members.map Prod.fst).Nodup) : Plain (.object members) := by
  obtain ⟨noType, distinct⟩ := List.nodup_cons.1 distinct
  rw [Plain, value, valuesOfMembers_eq]
  constructor
  · have none : (members.map fun m => (m.1, m.2.value)).lookup "type" = none := by
      rw [List.lookup_eq_none_iff]
      intro v hv
      obtain ⟨m, hm, rfl⟩ := List.mem_map.1 hv
      have other : "type" ≠ m.1 := fun e => noType (e ▸ List.mem_map_of_mem hm)
      exact bne_iff_ne.2 other
    rw [Value.headings, Value.heading?, none, Value.headingsOfMembers_eq, List.flatMap_map]
    exact List.flatMap_eq_nil_iff.2 fun m hm => (h m hm).1
  · refine .object ?_ fun v hv => ?_
    · rwa [← valuesOfMembers_eq, map_fst_valuesOfMembers]
    · obtain ⟨m, hm, rfl⟩ := List.mem_map.1 hv
      exact (h m hm).2

end Plain
end Json

namespace Form

variable {α : Type}

/-- No form has a member twice, nor one that says what the form is or where it stands. -/
lemma nodup_keys (f : Form α) :
    ("type" :: (f.members.map Prod.fst ++ ["start", "end", "loc"])).Nodup := by
  cases f
  case literal value raw =>
    cases value
    all_goals simp [members, LiteralValue.members]
  all_goals simp [members, functionMembers, classMembers]

/-- The data of a form is plain. -/
lemma plain_of_mem_members (f : Form α) : ∀ m ∈ f.members, ∀ j, m.2 = .data j → j.Plain := by
  cases f
  case literal value raw =>
    cases value
    all_goals simp [members, LiteralValue.members, members.word]
  all_goals simp [members, functionMembers, classMembers, members.word, members.flag]

end Form

lemma Location.plain_json (l : Location) : l.json.Plain :=
  .object (by simp) (by simp)

lemma Span.plain_of_mem_members {s : Option Span} : ∀ m ∈ members? s, m.2.Plain := by
  cases s with
  | none => nofun
  | some s =>
    have loc : (Json.object [("start", s.start.json), ("end", s.stop.json)]).Plain :=
      .object (by simp [Location.plain_json]) (by simp)
    simp [members?, members, loc]

namespace Json

/-- An object of a type with some members that covers a span, if it covers one. -/
def placed (label : String) (members : List (String × Json)) (s : Option Span) : Json :=
  .object (("type", .string label) :: (members ++ Span.members? s))

variable {label : String} {members : List (String × Json)} {s : Option Span}

/-- Where an object stands is told under names of its own. -/
lemma nodup_keys_placed
    (distinct : ("type" :: (members.map Prod.fst ++ ["start", "end", "loc"])).Nodup) :
    ((valuesOfMembers (("type", .string label) :: (members ++ Span.members? s))).map
      Prod.fst).Nodup := by
  have few : ((Span.members? s).map Prod.fst).Sublist ["start", "end", "loc"] := by
    cases s with
    | none => exact List.nil_sublist _
    | some s => exact .refl _
  rw [map_fst_valuesOfMembers, List.map_cons, List.map_append]
  exact distinct.sublist ((few.append_left _).cons_cons _)

/-- What is told of where an object stands is told by the last members. -/
lemma lookup_placed
    (distinct : ("type" :: (members.map Prod.fst ++ ["start", "end", "loc"])).Nodup) {k : String}
    (hk : k ∈ ["start", "end", "loc"]) :
    (valuesOfMembers (("type", .string label) :: (members ++ Span.members? s))).lookup k =
      (valuesOfMembers (Span.members? s)).lookup k := by
  have before : (valuesOfMembers (("type", .string label) :: members)).lookup k = none := by
    rw [List.lookup_eq_none_iff, valuesOfMembers_eq]
    intro v hv
    obtain ⟨m, hm, rfl⟩ := List.mem_map.1 hv
    refine bne_iff_ne.2 ?_
    rintro rfl
    rw [← List.cons_append, List.nodup_append] at distinct
    exact distinct.2.2 _ (List.mem_map_of_mem (f := Prod.fst) hm) _ hk rfl
  rw [valuesOfMembers_eq] at before ⊢
  rw [← List.cons_append, List.map_append, List.lookup_append, before, Option.none_or,
    valuesOfMembers_eq]

lemma headings_placed
    (distinct : ("type" :: (members.map Prod.fst ++ ["start", "end", "loc"])).Nodup) :
    (placed label members s).value.headings =
      .spanning label s :: members.flatMap fun m => m.2.value.headings := by
  have rest : ((Span.members? s).flatMap fun m => m.2.value.headings) = [] :=
    List.flatMap_eq_nil_iff.2 fun m hm => (Span.plain_of_mem_members m hm).1
  have own : Value.heading? (valuesOfMembers (("type", .string label) ::
      (members ++ Span.members? s))) = some (.spanning label s) := by
    rw [Value.heading?, lookup_placed distinct (k := "start") (by simp),
      lookup_placed distinct (k := "end") (by simp), lookup_placed distinct (k := "loc") (by simp)]
    cases s
    all_goals rfl
  rw [placed, value, Value.headings, own]
  simp [List.flatMap_map, rest, Value.headings, value]

lemma distinctKeys_placed
    (distinct : ("type" :: (members.map Prod.fst ++ ["start", "end", "loc"])).Nodup)
    (h : ∀ m ∈ members, m.2.value.DistinctKeys) : (placed label members s).value.DistinctKeys := by
  refine .object (nodup_keys_placed distinct) fun v hv => ?_
  rw [valuesOfMembers_eq] at hv
  obtain ⟨m, hm, rfl⟩ := List.mem_map.1 hv
  simp only [List.mem_cons, List.mem_append] at hm
  rcases hm with rfl | hm | hm
  · exact .string label
  · exact h m hm
  · exact (Span.plain_of_mem_members m hm).2

end Json

namespace Member

variable {α : Type} {m : Member α} {f : α → Json}

lemma json_many (as : List α) : (many as).json (fun a _ => f a) = .array (as.map f) := by
  rw [json, List.map_subtype (g := f) (fun _ _ => rfl), List.unattach_attach]

lemma json_slots (as : List (Option α)) :
    (slots as).json (fun a _ => f a) = .array (as.map fun a => (a.map f).getD .null) := by
  rw [json, List.map_subtype (g := fun a => (a.map f).getD .null), List.unattach_attach]
  rintro (_ | a) h
  all_goals rfl

lemma json_block (b : Block α) :
    (block b).json (fun a _ => f a) =
      Json.placed "BlockStatement" [("body", .array (b.statements.map f))] b.span := by
  rw [json, List.map_subtype (g := f) (fun _ _ => rfl), List.unattach_attach]
  rfl

/-- The objects with a type in the JSON of a member are those of what a walk meets in it. -/
lemma headings_value_json (plain : ∀ j, m = .data j → j.Plain) :
    (m.json fun a _ => f a).value.headings = m.stops.flatMap fun
      | .node a => (f a).value.headings
      | .block b => [.spanning "BlockStatement" b.span] := by
  cases m with
  | data j => exact (plain j rfl).1
  | one a => simp [json, stops, nodes]
  | «maybe» a =>
    cases a with
    | none => rfl
    | some a => simp [json, stops, nodes]
  | many as =>
    rw [json_many, Json.headings_array, stops, nodes, List.flatMap_map, List.flatMap_map]
    nofun
  | slots as =>
    have slot (a : Option α) : ((a.map f).getD .null).value.headings =
        a.toList.flatMap fun a => (f a).value.headings := by
      cases a with
      | none => rfl
      | some a => simp
    rw [json_slots, Json.headings_array, stops, nodes, List.flatMap_map, List.flatMap_map,
      List.filterMap_eq_flatMap_toList, List.flatMap_assoc]
    · exact List.flatMap_congr fun a _ => slot a
    · nofun
  | block b =>
    rw [json_block, Json.headings_placed (by simp), stops, List.flatMap_singleton,
      Json.headings_array, List.flatMap_cons, List.flatMap_map, List.flatMap_map]
    rfl

lemma distinctKeys_value_json (plain : ∀ j, m = .data j → j.Plain)
    (h : ∀ a ∈ m.nodes, (f a).value.DistinctKeys) :
    (m.json fun a _ => f a).value.DistinctKeys := by
  cases m with
  | data j => exact (plain j rfl).2
  | one a => exact h a (by simp [nodes])
  | «maybe» a =>
    cases a with
    | none => exact .null
    | some a => exact h a (by simp [nodes])
  | many as =>
    rw [json_many]
    refine Json.distinctKeys_array fun j hj => ?_
    obtain ⟨a, ha, rfl⟩ := List.mem_map.1 hj
    exact h a ha
  | slots as =>
    rw [json_slots]
    refine Json.distinctKeys_array fun j hj => ?_
    obtain ⟨a, ha, rfl⟩ := List.mem_map.1 hj
    cases a with
    | none => exact .null
    | some a => exact h a (List.mem_filterMap.2 ⟨some a, ha, rfl⟩)
  | block b =>
    rw [json_block]
    refine Json.distinctKeys_placed (by simp) fun m hm => ?_
    obtain rfl := List.mem_singleton.1 hm
    refine Json.distinctKeys_array fun j hj => ?_
    obtain ⟨a, ha, rfl⟩ := List.mem_map.1 hj
    exact h a ha

end Member

namespace Node

lemma json_eq_placed (n : Node) : n.json =
    Json.placed n.label (n.form.members.map fun m => (m.1, m.2.json fun c _ => c.json)) n.span? :=
  n.json_eq

lemma nodup_keys (n : Node) :
    ("type" :: ((n.form.members.map fun m => (m.1, m.2.json fun c _ => c.json)).map Prod.fst ++
      ["start", "end", "loc"])).Nodup := by
  rw [List.map_map]
  exact n.form.nodup_keys

/-- The objects with a type in the JSON of a node are those that a walk through it meets. -/
theorem headings_value_json (n : Node) : n.json.value.headings = n.walk.map Stop.heading := by
  induction n using Node.induction with
  | step n ih =>
    have member (m : String × Member Node) (hm : m ∈ n.form.members) :
        (m.2.json fun c _ => c.json).value.headings =
          m.2.stops.flatMap fun a => (walkStop a).map Stop.heading := by
      rw [Member.headings_value_json (n.form.plain_of_mem_members m hm)]
      refine List.flatMap_congr fun a ha => ?_
      cases a with
      | node c =>
        have child : .node c ∈ n.form.stops := by
          rw [← Form.flatMap_stops_members]
          exact List.mem_flatMap.2 ⟨m, hm, ha⟩
        exact ih c (mem_children_of_stop child)
      | block b => rfl
    rw [json_eq_placed, Json.headings_placed n.nodup_keys, walk_eq, List.map_cons, List.flatMap_map,
      List.flatMap_congr member, List.map_flatMap, ← Form.flatMap_stops_members, List.flatMap_assoc]
    rfl

/-- No object in the JSON of a node repeats a key. -/
theorem distinctKeys_value_json (n : Node) : n.json.value.DistinctKeys := by
  induction n using Node.induction with
  | step n ih =>
    rw [json_eq_placed]
    refine Json.distinctKeys_placed n.nodup_keys fun j hj => ?_
    obtain ⟨m, hm, rfl⟩ := List.mem_map.1 hj
    refine Member.distinctKeys_value_json (n.form.plain_of_mem_members m hm) fun c hc => ih c ?_
    rw [children, ← Form.flatMap_nodes_members]
    exact List.mem_flatMap.2 ⟨m, hm, hc⟩

end Node

/-- The text of an accepted script is JSON without repeated keys. Its objects with a type are, in the
order of its members, those of a walk through the tree: the nodes in pre-order, and the block of a
function after its parameters and before its statements. -/
theorem Script.treeText_of_parse {s : Script} {n : Node} (h : s.parse = .ok n) :
    ∃ text v, s.treeText = .ok text ∧ Json.decode? text = some v ∧ v.DistinctKeys ∧
      v.headings = n.walk.map Stop.heading ∧ n.walk.filterMap Stop.node? = n.preorder := by
  refine ⟨n.json.prettyText, n.json.value, ?_, Json.decode?_prettyText n.json,
    n.distinctKeys_value_json, n.headings_value_json, n.filterMap_node?_walk⟩
  rw [Script.treeText, h]
  rfl

/-- The block of a function stands between its parameter and its statement. -/
theorem Script.treeText_of_parse_function :
    ∃ text v, (ofSource "a.js" "function f(a) \x7b return a; \x7d").treeText = .ok text ∧
      Json.decode? text = some v ∧ v.DistinctKeys ∧
      v.headings.map (·.type) = ["Program", "FunctionDeclaration", "Identifier", "Identifier",
        "BlockStatement", "ReturnStatement", "Identifier"].map .string := by
  generalize e : ofSource "a.js" "function f(a) \x7b return a; \x7d" = s
  have parsed : (s.parse.toOption.map fun n => n.walk.map Stop.label) =
      some ["Program", "FunctionDeclaration", "Identifier", "Identifier",
        "BlockStatement", "ReturnStatement", "Identifier"] := by
    subst e
    decide +kernel
  obtain ⟨n, parsed, labels⟩ := Option.map_eq_some_iff.1 parsed
  have parsed := parse_of_toOption parsed
  obtain ⟨text, v, written, read, distinct, headings, -⟩ := treeText_of_parse parsed
  refine ⟨text, v, written, read, distinct, ?_⟩
  rw [headings, ← labels, List.map_map, List.map_map]
  rfl

end ScriptTyping
