import Mathlib.Data.List.Induction
import Mathlib.Tactic.Lemma
import ScriptTyping.Proofs.Syntax.Alike

/-!
# What the kind of an expression says

`Node.HasKind` reads off an expression what its kind is. An object has an entry for each name that is
spelled out as a key, in the order in which the names first occur, and each entry has the kind of the
value that its name is given last. An array has the kind of its first element.

The kind that is computed is the one that is read off, its keys are distinct, and nothing in it is void.
What it does not depend on may be replaced (`Node.Replaced`): all elements of an array but the first, the
members of an object that spell out no name, and the values of names that are given again
(`Node.kind_spec`).
-/

namespace ScriptTyping

namespace Kind

/-- A kind of a value: the keys of each object in it are distinct, and nothing in it is void. -/
inductive IsTidy : Kind → Prop
  | number : IsTidy .number
  | string : IsTidy .string
  | boolean : IsTidy .boolean
  | null : IsTidy .null
  | any : IsTidy .any
  | array {item : Kind} : IsTidy item → IsTidy (.array item)
  | object {entries : List (String × Kind)} :
    (entries.map Prod.fst).Nodup → (∀ e ∈ entries, IsTidy e.2) → IsTidy (.object entries)

lemma isTidy_literal (v : LiteralValue) : v.kind.IsTidy := by
  cases v
  all_goals constructor

section Entries

variable {entries : List (String × Kind)} {name : String} {k : Kind}

lemma names_withEntry : (withEntry entries (name, k)).map Prod.fst =
    if name ∈ entries.map Prod.fst then entries.map Prod.fst else entries.map Prod.fst ++ [name] := by
  have here : (entries.any fun e => e.1 == name) = true ↔ name ∈ entries.map Prod.fst := by
    simp only [List.any_eq_true, beq_iff_eq, List.mem_map]
  unfold withEntry
  by_cases mem : name ∈ entries.map Prod.fst
  · rw [if_pos (here.2 mem), if_pos mem, List.map_map]
    refine List.map_congr_left fun e _ => ?_
    simp only [Function.comp_apply, beq_iff_eq]
    split
    · rename_i same
      exact same.symm
    · rfl
  · rw [if_neg (mt here.1 mem), if_neg mem, List.map_append]
    rfl

/-- An entry that is there was there before under another name, or is the one that was added. -/
lemma mem_withEntry {e : String × Kind} (he : e ∈ withEntry entries (name, k)) :
    e = (name, k) ∨ e ∈ entries ∧ e.1 ≠ name := by
  unfold withEntry at he
  split at he
  · obtain ⟨d, hd, rfl⟩ := List.mem_map.1 he
    split
    · exact .inl rfl
    · rename_i other
      exact .inr ⟨hd, by simpa using other⟩
  · rename_i free
    rcases List.mem_append.1 he with here | new
    · refine .inr ⟨here, fun same => free (List.any_eq_true.2 ⟨e, here, ?_⟩)⟩
      rw [same, beq_self_eq_true]
    · exact .inl (List.mem_singleton.1 new)

end Entries

end Kind

section Names

variable {names : List String} {name : String}

lemma eraseDups_concat : (names ++ [name]).eraseDups =
    if name ∈ names then names.eraseDups else names.eraseDups ++ [name] := by
  rw [List.eraseDups_append]
  split
  · simp [List.removeAll, *]
  · simp [List.removeAll, List.eraseDups_cons, *]

lemma nodup_eraseDups : ∀ names : List String, names.eraseDups.Nodup
  | [] => List.nodup_nil
  | name :: names => by
    rw [List.eraseDups_cons, List.nodup_cons, List.mem_eraseDups]
    exact ⟨by simp, nodup_eraseDups _⟩
  termination_by names => names.length
  decreasing_by
    have := List.length_filter_le (fun other => !other == name) names
    simp only [List.length_cons]
    omega

end Names

namespace Node

/-- The names that are spelled out as keys, each with the value it is given there. -/
def namedValues (properties : List Node) : List (String × Node) :=
  properties.filterMap namedValue?

/-- The names that are spelled out as keys. -/
def keyNames (properties : List Node) : List String :=
  (namedValues properties).map Prod.fst

/-- The value that a name is given last. -/
def lastValue? (properties : List Node) (name : String) : Option Node :=
  (namedValues properties).reverse.lookup name

/-- Whether the kind of an expression is known from its form. -/
def tellsKind : Form Node → Bool
  | .literal .. | .arrayExpression _ | .objectExpression _ => true
  | .binaryExpression operator _ _ => operator.isArithmetic
  | _ => false

/-- The kind of an expression as it is read off its shape. -/
inductive HasKind : Node → Kind → Prop
  | literal {n : Node} {value : LiteralValue} {raw : String} :
    n.form = .literal value raw → HasKind n value.kind
  | noFirst {n : Node} {elements : List (Option Node)} :
    n.form = .arrayExpression elements → elements.head?.join = none → HasKind n (.array .any)
  | array {n first : Node} {elements : List (Option Node)} {item : Kind} :
    n.form = .arrayExpression elements → elements.head?.join = some first → HasKind first item →
    HasKind n (.array item)
  | object {n : Node} {properties : List Node} {entries : List (String × Kind)} :
    n.form = .objectExpression properties →
    entries.map Prod.fst = (keyNames properties).eraseDups →
    (∀ e ∈ entries, ∀ value, lastValue? properties e.1 = some value → HasKind value e.2) →
    HasKind n (.object entries)
  | arithmetic {n left right : Node} {operator : BinaryOperator} :
    n.form = .binaryExpression operator left right → operator.isArithmetic = true →
    HasKind n .number
  | unknown {n : Node} :
    tellsKind n.form = false → HasKind n .any

/-- One expression with another in its place, where something that its kind does not depend on is
replaced. -/
inductive Replaced : Node → Node → Prop
  | element {m n : Node} {first x y : Option Node} {before after : List (Option Node)} :
    m.form = .arrayExpression (first :: before ++ x :: after) →
    n.form = .arrayExpression (first :: before ++ y :: after) → Replaced m n
  | unnamed {m n p q : Node} {before after : List Node} :
    m.form = .objectExpression (before ++ p :: after) →
    n.form = .objectExpression (before ++ q :: after) →
    p.namedValue? = none → q.namedValue? = none → Replaced m n
  | givenAgain {m n p q v w : Node} {name : String} {before after : List Node} :
    m.form = .objectExpression (before ++ p :: after) →
    n.form = .objectExpression (before ++ q :: after) →
    p.namedValue? = some (name, v) → q.namedValue? = some (name, w) → name ∈ keyNames after →
    Replaced m n
  | inFirst {m n x y : Node} {rest : List (Option Node)} :
    m.form = .arrayExpression (some x :: rest) → n.form = .arrayExpression (some y :: rest) →
    Replaced x y → Replaced m n
  | inValue {m n p q v w : Node} {name : String} {before after : List Node} :
    m.form = .objectExpression (before ++ p :: after) →
    n.form = .objectExpression (before ++ q :: after) →
    p.namedValue? = some (name, v) → q.namedValue? = some (name, w) → Replaced v w → Replaced m n

section Properties

variable {ps qs : List Node} {p v : Node} {name : String}

lemma namedValues_append : namedValues (ps ++ qs) = namedValues ps ++ namedValues qs :=
  List.filterMap_append

lemma namedValues_cons_none (unnamed : p.namedValue? = none) : namedValues (p :: ps) = namedValues ps :=
  List.filterMap_cons_none unnamed

lemma namedValues_cons_some (named : p.namedValue? = some (name, v)) :
    namedValues (p :: ps) = (name, v) :: namedValues ps :=
  List.filterMap_cons_some named

lemma keyNames_append : keyNames (ps ++ qs) = keyNames ps ++ keyNames qs := by
  rw [keyNames, namedValues_append, List.map_append]
  rfl

lemma lastValue?_append : lastValue? (ps ++ qs) name = (lastValue? qs name).or (lastValue? ps name) := by
  rw [lastValue?, namedValues_append, List.reverse_append, List.lookup_append]
  rfl

/-- A member that spells out another name, or none, gives no value to a name. -/
lemma lastValue?_singleton (other : ∀ v, p.namedValue? ≠ some (name, v)) : lastValue? [p] name = none := by
  cases named : p.namedValue? with
  | none => rw [lastValue?, namedValues_cons_none named]; rfl
  | some entry =>
    obtain ⟨name', w⟩ := entry
    have ne : (name == name') = false := by
      refine beq_eq_false_iff_ne.2 ?_
      rintro rfl
      exact other w named
    rw [lastValue?, namedValues_cons_some named]
    simp [namedValues, List.lookup_cons, ne]

lemma lastValue?_singleton_self (named : p.namedValue? = some (name, v)) : lastValue? [p] name = some v := by
  rw [lastValue?, namedValues_cons_some named]
  simp [namedValues]

lemma exists_lastValue? (mem : name ∈ keyNames ps) : ∃ v, lastValue? ps name = some v := by
  refine Option.ne_none_iff_exists'.1 fun none => ?_
  obtain ⟨e, he, rfl⟩ := List.mem_map.1 mem
  have other := List.lookup_eq_none_iff.1 none e (List.mem_reverse.2 he)
  simp at other

lemma keyNames_replace {before after : List Node} {w : Node} (named : p.namedValue? = some (name, v))
    (other : q.namedValue? = some (name, w)) :
    keyNames (before ++ p :: after) = keyNames (before ++ q :: after) := by
  simp only [keyNames, namedValues_append, namedValues_cons_some named, namedValues_cons_some other,
    List.map_append, List.map_cons]

/-- The value of a name that is given again is not the one that it is given last. -/
lemma lastValue?_of_mem {before after : List Node} {w : Node} {k : String}
    (named : p.namedValue? = some (name, v)) (other : q.namedValue? = some (name, w))
    (again : name ∈ keyNames after) :
    lastValue? (before ++ p :: after) k = lastValue? (before ++ q :: after) k := by
  have split (r : Node) : before ++ r :: after = before ++ ([r] ++ after) := rfl
  rw [split, split, lastValue?_append, lastValue?_append, lastValue?_append, lastValue?_append]
  by_cases same : name = k
  · subst same
    obtain ⟨u, last⟩ := exists_lastValue? again
    rw [last]
    rfl
  · rw [lastValue?_singleton (p := p), lastValue?_singleton (p := q)]
    all_goals
      intro u found
      simp_all

/-- The entries of an object: a key for each name in the order of first occurrence, with the kind of the
value that the name is given last. -/
lemma entries_spec (ps : List Node) :
    (ps.foldl entriesWith []).map Prod.fst = (keyNames ps).eraseDups ∧
      ∀ e ∈ ps.foldl entriesWith [], ∃ v, lastValue? ps e.1 = some v ∧ e.2 = v.kind := by
  induction ps using List.reverseRecOn with
  | nil => exact ⟨rfl, List.forall_mem_nil _⟩
  | append_singleton ps p ih =>
    obtain ⟨names, last⟩ := ih
    rw [List.foldl_append, List.foldl_cons, List.foldl_nil, keyNames_append]
    simp only [lastValue?_append]
    generalize ps.foldl entriesWith [] = entries at names last ⊢
    cases named : p.namedValue? with
    | none =>
      have nothing : namedValues [p] = [] := namedValues_cons_none named
      simp only [entriesWith, named, keyNames, lastValue?, nothing, List.map_nil, List.append_nil]
      exact ⟨names, last⟩
    | some entry =>
      obtain ⟨name, v⟩ := entry
      have one : namedValues [p] = [(name, v)] := namedValues_cons_some named
      have step : entriesWith entries p = Kind.withEntry entries (name, v.kind) := by
        rw [entriesWith, named]
      have keys : keyNames [p] = [name] := by rw [keyNames, one]; rfl
      rw [step, keys, Kind.names_withEntry, eraseDups_concat, names]
      simp only [List.mem_eraseDups, true_and]
      intro e he
      rcases Kind.mem_withEntry he with rfl | ⟨old, ne⟩
      · exact ⟨v, by rw [lastValue?_singleton_self named, Option.some_or], rfl⟩
      · obtain ⟨w, last, kind⟩ := last e old
        refine ⟨w, ?_, kind⟩
        rw [lastValue?_singleton, Option.none_or, last]
        intro u found
        simp_all

/-- A value that a name is given is given it by a member. -/
lemma mem_of_lastValue? (last : lastValue? ps name = some v) :
    ∃ p ∈ ps, p.namedValue? = some (name, v) := by
  obtain ⟨before, after, all, -⟩ := List.lookup_eq_some_iff.1 last
  have mem : (name, v) ∈ namedValues ps := by
    rw [← List.mem_reverse, all]
    simp
  exact List.mem_filterMap.1 mem

/-- The entries of an object, each a name with the kind of the value that it is given last. -/
lemma entries_eq (ps : List Node) : ps.foldl entriesWith [] =
    (keyNames ps).eraseDups.map fun name => (name, kindOf (lastValue? ps name)) := by
  obtain ⟨names, last⟩ := entries_spec ps
  rw [← names, List.map_map]
  refine (List.map_id _).symm.trans (List.map_congr_left fun e he => ?_)
  obtain ⟨v, found, kind⟩ := last e he
  rw [Function.comp_apply, found, kindOf, ← kind]
  rfl

end Properties

section Kinds

variable {m n : Node} {k : Kind}

lemma kind_of_array {elements : List (Option Node)} (form : n.form = .arrayExpression elements) :
    n.kind = .array (kindOf elements.head?.join) := by
  obtain ⟨f, s⟩ := n
  cases form
  rw [kind_mk]
  match elements with
  | [] | none :: _ | some _ :: _ => rfl

lemma kind_of_object {ps : List Node} (form : n.form = .objectExpression ps) :
    n.kind = .object ((keyNames ps).eraseDups.map fun name => (name, kindOf (lastValue? ps name))) := by
  obtain ⟨f, s⟩ := n
  cases form
  rw [kind_mk, ← entries_eq]

namespace HasKind

/-- The names of an object's entries are given values. -/
lemma exists_last {ps : List Node} {entries : List (String × Kind)}
    (names : entries.map Prod.fst = (keyNames ps).eraseDups) {e : String × Kind} (he : e ∈ entries) :
    ∃ v, lastValue? ps e.1 = some v := by
  refine exists_lastValue? (List.mem_eraseDups.1 ?_)
  rw [← names]
  exact List.mem_map_of_mem he

/-- The kind that is read off is the one that is computed. -/
lemma kind_eq (h : HasKind n k) : n.kind = k := by
  induction h with
  | @literal n value raw form =>
    obtain ⟨f, s⟩ := n
    cases form
    exact kind_mk _ _
  | noFirst form none => rw [kind_of_array form, none, kindOf]
  | array form first _ ih => rw [kind_of_array form, first, kindOf, ih]
  | @object n ps entries form names _ ih =>
    rw [kind_of_object form, ← names, List.map_map]
    refine congrArg Kind.object ((List.map_congr_left fun e he => ?_).trans (List.map_id _))
    obtain ⟨v, last⟩ := exists_last names he
    rw [Function.comp_apply, last, kindOf, ih e he v last]
    rfl
  | @arithmetic n left right operator form arithmetic =>
    obtain ⟨f, s⟩ := n
    cases form
    rw [kind_mk]
    exact if_pos arithmetic
  | @unknown n untold =>
    obtain ⟨f, s⟩ := n
    rw [kind_mk]
    cases f
    case literal | arrayExpression | objectExpression => cases untold
    case binaryExpression => exact if_neg (Bool.eq_false_iff.1 untold)
    all_goals rfl

/-- Each expression has the kind that is computed. -/
lemma of_kind (n : Node) : HasKind n n.kind := by
  generalize size : sizeOf n = l
  -- On the size: an element, or the value behind a key, is smaller than the node.
  induction l using Nat.strongRecOn generalizing n with
  | ind l ih =>
    obtain ⟨f, s⟩ := n
    cases f
    case literal value raw =>
      rw [kind_mk]
      exact .literal rfl
    case arrayExpression elements =>
      rw [kind_of_array rfl]
      cases first : elements.head?.join with
      | none => exact .noFirst rfl first
      | some x =>
        have mem : x ∈ (Node.mk (.arrayExpression elements) s).children :=
          List.mem_filterMap.2 ⟨some x, List.mem_of_head? (Option.join_eq_some_iff.1 first), rfl⟩
        exact .array rfl first (ih _ (size ▸ sizeOf_lt_of_mem_children mem) x rfl)
    case objectExpression ps =>
      rw [kind_of_object rfl]
      refine .object rfl (by simp [List.map_map, Function.comp_def]) fun e he v last => ?_
      obtain ⟨name, -, rfl⟩ := List.mem_map.1 he
      dsimp only at last ⊢
      obtain ⟨p, hp, named⟩ := mem_of_lastValue? last
      have member : sizeOf p < sizeOf (Node.mk (.objectExpression ps) s) := sizeOf_lt_of_mem_children hp
      have value := sizeOf_lt_of_namedValue? named
      rw [last]
      exact ih _ (by omega) v rfl
    case binaryExpression operator left right =>
      rw [kind_mk]
      dsimp only
      split
      · rename_i arithmetic
        exact .arithmetic rfl arithmetic
      · rename_i other
        exact .unknown (Bool.eq_false_iff.2 other)
    all_goals
      rw [kind_mk]
      exact .unknown rfl

/-- A kind that is read off is tidy. -/
lemma isTidy (h : HasKind n k) : k.IsTidy := by
  induction h with
  | literal _ => exact Kind.isTidy_literal _
  | noFirst _ _ => exact .array .any
  | array _ _ _ ih => exact .array ih
  | object _ names _ ih =>
    refine .object (names ▸ nodup_eraseDups _) fun e he => ?_
    obtain ⟨v, last⟩ := exists_last names he
    exact ih e he v last
  | arithmetic _ _ => exact .number
  | unknown _ => exact .any

end HasKind

/-- The kind of an expression does not depend on what may be replaced. -/
lemma Replaced.kind_eq (h : Replaced m n) : m.kind = n.kind := by
  induction h with
  | element form form' => rw [kind_of_array form, kind_of_array form']; rfl
  | @unnamed m n p q before after form form' unnamed unnamed' =>
    have same : namedValues (before ++ p :: after) = namedValues (before ++ q :: after) := by
      rw [namedValues_append, namedValues_append, namedValues_cons_none unnamed,
        namedValues_cons_none unnamed']
    rw [kind_of_object form, kind_of_object form']
    simp only [keyNames, lastValue?, same]
  | givenAgain form form' named named' again =>
    rw [kind_of_object form, kind_of_object form', keyNames_replace named named']
    simp only [lastValue?_of_mem named named' again]
  | inFirst form form' _ ih =>
    rw [kind_of_array form, kind_of_array form']
    exact congrArg Kind.array ih
  | @inValue m n p q v w name before after form form' named named' _ ih =>
    rw [kind_of_object form, kind_of_object form', keyNames_replace named named']
    refine congrArg Kind.object (List.map_congr_left fun k _ => congrArg (Prod.mk k) ?_)
    have split (r : Node) : before ++ r :: after = before ++ ([r] ++ after) := rfl
    rw [split, split, lastValue?_append, lastValue?_append, lastValue?_append, lastValue?_append]
    cases lastValue? after k with
    | some u => rfl
    | none =>
      by_cases same : name = k
      · subst same
        rw [lastValue?_singleton_self named, lastValue?_singleton_self named']
        exact ih
      · rw [lastValue?_singleton (p := p), lastValue?_singleton (p := q)]
        all_goals
          intro u found
          simp_all

/-- An expression has one kind, the one that is computed. It is tidy, and it stays the same when
something that it does not depend on is replaced. -/
theorem kind_spec (n : Node) :
    (∀ k, n.HasKind k ↔ n.kind = k) ∧ n.kind.IsTidy ∧ ∀ m, n.Replaced m → m.kind = n.kind :=
  ⟨fun _ => ⟨HasKind.kind_eq, fun same => same ▸ .of_kind n⟩, (HasKind.of_kind n).isTidy,
    fun _ replaced => replaced.kind_eq.symm⟩

/-- A property of a plain name with a literal as its value. -/
def literalProperty (name : String) (value : LiteralValue) : Node :=
  .mk (.property (.mk (.identifier name) default) (.mk (.literal value "") default) .init false false false)
    default

/-- The first value of a name that is given again may be any. -/
theorem kind_spec_givenAgain :
    ∃ m n : Node,
      m.form = .objectExpression [literalProperty "a" (.boolean true), literalProperty "a" .null] ∧
      n.form = .objectExpression [literalProperty "a" (.string "b"), literalProperty "a" .null] ∧
      m.Replaced n ∧ n.kind = m.kind ∧ m.kind = .object [("a", .null)] := by
  have named (value : LiteralValue) : (literalProperty "a" value).namedValue? =
      some ("a", .mk (.literal value "") default) := rfl
  have replaced : Replaced
      (.mk (.objectExpression ([] ++ literalProperty "a" (.boolean true) :: [literalProperty "a" .null])) default)
      (.mk (.objectExpression ([] ++ literalProperty "a" (.string "b") :: [literalProperty "a" .null])) default) :=
    .givenAgain rfl rfl (named _) (named _) (by rw [keyNames, namedValues_cons_some (named _)]; simp)
  obtain ⟨reading, -, replace⟩ := kind_spec
    (.mk (.objectExpression ([] ++ literalProperty "a" (.boolean true) :: [literalProperty "a" .null])) default)
  refine ⟨_, _, rfl, rfl, replaced, replace _ replaced, (reading _).1 (.object rfl rfl ?_)⟩
  intro e he value last
  obtain rfl := List.mem_singleton.1 he
  obtain rfl : Node.mk (.literal .null "") default = value := Option.some.inj last
  have null : HasKind (.mk (.literal .null "") default) LiteralValue.null.kind := .literal rfl
  exact null

end Kinds

end Node

end ScriptTyping
