import ScriptTyping.Proofs.Peg.Shift
import ScriptTyping.Proofs.Reading.Assembly
import ScriptTyping.Proofs.Syntax.Relocate

/-!
# Phrases at other places

What the parts of a rule make up does not depend on where they stand: when each place in the parts is
changed, and the extent of the match with them, the phrase is changed in the same way
(`moves_of_phrase?`). So the trees of a text that stands after another one are assembled as they are
without it, at other places (`assemble_shift`).
-/

namespace ScriptTyping

/-- A match that covers the same text as another one whose span has its places changed. -/
structure Extent.Moved (g : Location → Location) (e e' : Extent) : Prop where
  span : e'.span = e.span.relocate g
  text : e'.text = e.text

variable {g : Location → Location} {e e' : Extent} {parts : List Phrase} {p : Phrase}

namespace Extent.Moved

lemma string (h : e.Moved g e') : e'.string = e.string :=
  congrArg String.ofList h.text

lemma site (h : e.Moved g e') : e'.site = e.site.relocate g := by
  have start : e'.place e'.start = g (e.place e.start) := congrArg Span.start h.span
  rw [Extent.site, start, h.span]
  rfl

lemma node (h : e.Moved g e') (f : Form Node) :
    (e.node f).relocate g = e'.node (f.relocate g) := by
  rw [Extent.node, Extent.node, h.site, Node.relocate_mk]

end Extent.Moved

namespace Phrase

@[simp] lemma nodes?_relocate (parts : List Phrase) :
    nodes? (parts.map (relocate g)) = (nodes? parts).map (List.map (Node.relocate g)) := by
  induction parts with
  | nil => rfl
  | cons p parts ih =>
    cases made : nodes? parts
    all_goals
      rw [made] at ih
      simp only [nodes?] at made ih ⊢
      simp only [List.map_cons, List.mapM_cons, ih, made]
      cases p
      all_goals rfl

@[simp] lemma slots?_relocate (parts : List Phrase) :
    slots? (parts.map (relocate g)) =
      (slots? parts).map (List.map (Option.map (Node.relocate g))) := by
  induction parts with
  | nil => rfl
  | cons p parts ih =>
    cases made : slots? parts
    all_goals
      rw [made] at ih
      simp only [slots?] at made ih ⊢
      simp only [List.map_cons, List.mapM_cons, ih, made]
      cases p
      all_goals rfl

lemma withoutLastHole_relocate (os : List (Option Node)) :
    Reading.withoutLastHole (os.map (Option.map (Node.relocate g))) =
      (Reading.withoutLastHole os).map (Option.map (Node.relocate g)) := by
  simp only [Reading.withoutLastHole, List.getLast?_map, List.length_map]
  rcases os.getLast? with _ | _ | n
  · rfl
  · simp only [Option.map_some, Option.map_none]
    split
    · rw [List.map_dropLast]
    · rfl
  · rfl

lemma takeToken_relocate (w : String) (parts : List Phrase) :
    takeToken w (parts.map (relocate g)) =
      ((takeToken w parts).1, (takeToken w parts).2.map (relocate g)) := by
  rcases parts with _ | ⟨p, parts⟩
  · rfl
  · cases p
    case token t =>
      simp only [List.map_cons, relocate, takeToken]
      split
      all_goals rfl
    all_goals rfl

lemma takeNode_relocate (parts : List Phrase) :
    takeNode (parts.map (relocate g)) =
      ((takeNode parts).1.map (Node.relocate g), (takeNode parts).2.map (relocate g)) := by
  rcases parts with _ | ⟨p, parts⟩
  · rfl
  · cases p
    all_goals rfl

lemma takeNodes_relocate (parts : List Phrase) :
    takeNodes (parts.map (relocate g)) =
      ((takeNodes parts).1.map (Node.relocate g), (takeNodes parts).2.map (relocate g)) := by
  rcases parts with _ | ⟨p, parts⟩
  · rfl
  · cases p
    all_goals rfl

end Phrase

namespace Reading

section Statements

/-- The form of a program depends on its parts only, and moves with them. -/
lemma program_relocate (h : program e parts = some p) :
    ∃ f, p = .node (e.node f) ∧ ∀ e', program e' (parts.map (Phrase.relocate g)) =
      some (.node (e'.node (f.relocate g))) := by
  unfold program at h
  split at h
  · rename_i last
    obtain ⟨front, rfl⟩ := List.getLast?_eq_some_iff.1 last
    obtain ⟨ns, hns, made⟩ := Option.bind_eq_some_iff.1 h
    cases made
    rw [List.dropLast_concat] at hns
    refine ⟨_, rfl, fun e' => ?_⟩
    simp [program, Phrase.relocate, hns, Form.relocate]
  · cases h

lemma moves_program (moved : e.Moved g e') (h : program e parts = some p) :
    program e' (parts.map (Phrase.relocate g)) = some (p.relocate g) := by
  obtain ⟨f, rfl, made⟩ := program_relocate (g := g) h
  rw [made, Phrase.relocate_node, moved.node]

lemma moves_variableDeclaration (moved : e.Moved g e') (h : variableDeclaration e parts = some p) :
    variableDeclaration e' (parts.map (Phrase.relocate g)) = some (p.relocate g) := by
  unfold variableDeclaration at h
  split at h
  · obtain ⟨kind, hkind, h⟩ := Option.bind_eq_some_iff.1 h
    obtain ⟨ns, hns, made⟩ := Option.bind_eq_some_iff.1 h
    cases made
    simp [variableDeclaration, Phrase.relocate, hkind, hns, moved.node, Form.relocate]
  · cases h

attribute [local simp] Form.relocate Phrase.relocate in
lemma moves_variableDeclarator (moved : e.Moved g e') (h : variableDeclarator e parts = some p) :
    variableDeclarator e' (parts.map (Phrase.relocate g)) = some (p.relocate g) := by
  unfold variableDeclarator at h
  split at h
  all_goals cases h
  all_goals simp [variableDeclarator, moved.node]

lemma moves_withOptional {form : Option Node → Form Node}
    (forms : ∀ o, (form o).relocate g = form (o.map (Node.relocate g))) (moved : e.Moved g e')
    (h : withOptional e form parts = some p) :
    withOptional e' form (parts.map (Phrase.relocate g)) = some (p.relocate g) := by
  unfold withOptional at h
  split at h
  all_goals cases h
  all_goals simp [withOptional, Phrase.relocate, moved.node, forms]

lemma moves_withOne {form : Node → Form Node}
    (forms : ∀ n, (form n).relocate g = form (n.relocate g)) (moved : e.Moved g e')
    (h : withOne e form parts = some p) :
    withOne e' form (parts.map (Phrase.relocate g)) = some (p.relocate g) := by
  unfold withOne at h
  split at h
  all_goals cases h
  all_goals simp [withOne, Phrase.relocate, moved.node, forms]

lemma moves_withTwo {form : Node → Node → Form Node}
    (forms : ∀ m n, (form m n).relocate g = form (m.relocate g) (n.relocate g))
    (moved : e.Moved g e') (h : withTwo e form parts = some p) :
    withTwo e' form (parts.map (Phrase.relocate g)) = some (p.relocate g) := by
  unfold withTwo at h
  split at h
  all_goals cases h
  all_goals simp [withTwo, Phrase.relocate, moved.node, forms]

/-- A form of any number of nodes. -/
lemma moves_nodes {form : List Node → Form Node}
    (forms : ∀ ns, (form ns).relocate g = form (ns.map (Node.relocate g))) (moved : e.Moved g e')
    (h : ((Phrase.nodes? parts).map fun ns => Phrase.node (e.node (form ns))) = some p) :
    ((Phrase.nodes? (parts.map (Phrase.relocate g))).map fun ns =>
      Phrase.node (e'.node (form ns))) = some (p.relocate g) := by
  obtain ⟨ns, hns, rfl⟩ := Option.map_eq_some_iff.1 h
  simp [Phrase.relocate, hns, moved.node, forms]

lemma moves_ifStatement (moved : e.Moved g e') (h : ifStatement e parts = some p) :
    ifStatement e' (parts.map (Phrase.relocate g)) = some (p.relocate g) := by
  unfold ifStatement at h
  split at h
  all_goals cases h
  all_goals simp [ifStatement, Phrase.relocate, moved.node, Form.relocate]

lemma moves_forClassicHead (h : forClassicHead parts = some p) :
    forClassicHead (parts.map (Phrase.relocate g)) = some (p.relocate g) := by
  revert h
  fun_cases forClassicHead parts
  case case3 =>
    intro h
    cases h
  case' case1 => rename_i inits _ tests
  case' case2 => rename_i inits _ _ tests
  all_goals
    intro h
    cases h
    split at inits
    all_goals
      cases inits
      split at tests
      all_goals
        cases tests
        simp_all [forClassicHead, Phrase.relocate]

lemma moves_forEachHead (h : forEachHead parts = some p) :
    forEachHead (parts.map (Phrase.relocate g)) = some (p.relocate g) := by
  unfold forEachHead at h
  split at h
  all_goals cases h
  all_goals simp [forEachHead, Phrase.relocate]

lemma moves_forStatement (moved : e.Moved g e') (h : forStatement e parts = some p) :
    forStatement e' (parts.map (Phrase.relocate g)) = some (p.relocate g) := by
  rcases markers : Phrase.takeToken "await" parts with ⟨isAwait, rest⟩
  unfold forStatement at h ⊢
  rw [Phrase.takeToken_relocate]
  rw [markers] at h ⊢
  dsimp only at h ⊢
  split at h
  · split at h
    all_goals
      rename_i kind
      cases h
      simp [Phrase.relocate, moved.node, Form.relocate, kind]
  · cases h
    simp [Phrase.relocate, moved.node, Form.relocate]
  · cases h

lemma moves_catchClause (moved : e.Moved g e') (h : catchClause e parts = some p) :
    catchClause e' (parts.map (Phrase.relocate g)) = some (p.relocate g) := by
  unfold catchClause at h
  split at h
  all_goals cases h
  all_goals simp [catchClause, Phrase.relocate, moved.node, Form.relocate]

lemma moves_finallyClause (h : finallyClause parts = some p) :
    finallyClause (parts.map (Phrase.relocate g)) = some (p.relocate g) := by
  unfold finallyClause at h
  split at h
  all_goals cases h
  all_goals simp [finallyClause, Phrase.relocate]

lemma moves_tryStatement (moved : e.Moved g e') (h : tryStatement e parts = some p) :
    tryStatement e' (parts.map (Phrase.relocate g)) = some (p.relocate g) := by
  unfold tryStatement at h
  split at h
  all_goals cases h
  all_goals simp [tryStatement, Phrase.relocate, moved.node, Form.relocate]

lemma moves_switchStatement (moved : e.Moved g e') (h : switchStatement e parts = some p) :
    switchStatement e' (parts.map (Phrase.relocate g)) = some (p.relocate g) := by
  unfold switchStatement at h
  split at h
  · obtain ⟨ns, hns, rfl⟩ := Option.map_eq_some_iff.1 h
    simp [switchStatement, Phrase.relocate, hns, moved.node, Form.relocate]
  · cases h

lemma moves_switchCase (moved : e.Moved g e') (h : switchCase e parts = some p) :
    switchCase e' (parts.map (Phrase.relocate g)) = some (p.relocate g) := by
  obtain ⟨ns, hns, h⟩ := Option.bind_eq_some_iff.1 h
  rw [switchCase, Phrase.nodes?_relocate, hns, moved.text]
  simp only [Option.map_some, Option.bind_eq_bind, Option.bind_some]
  split at h
  · rename_i word
    cases h
    rw [if_pos word]
    simp [Phrase.relocate, moved.node, Form.relocate]
  · rename_i word
    rw [if_neg word]
    split at h
    all_goals cases h
    simp [Phrase.relocate, moved.node, Form.relocate]

end Statements

section Modules

lemma moves_importClause (h : importClause parts = some p) :
    importClause (parts.map (Phrase.relocate g)) = some (p.relocate g) := by
  induction parts generalizing p with
  | nil =>
    cases h
    rfl
  | cons q parts ih =>
    cases q
    case node n =>
      obtain ⟨r, hr, h⟩ := Option.bind_eq_some_iff.1 h
      have rest := ih hr
      split at h
      all_goals cases h
      rw [List.map_cons, Phrase.relocate, importClause, rest]
      -- Whether the name stands for the default depends on its form, which is not changed.
      obtain ⟨f, s⟩ := n
      cases f
      all_goals rfl
    case nodes ms =>
      obtain ⟨r, hr, h⟩ := Option.bind_eq_some_iff.1 h
      have rest := ih hr
      split at h
      all_goals cases h
      rw [List.map_cons, Phrase.relocate, importClause, rest]
      simp [Phrase.relocate]
    all_goals cases h

lemma moves_importDeclaration (moved : e.Moved g e') (h : importDeclaration e parts = some p) :
    importDeclaration e' (parts.map (Phrase.relocate g)) = some (p.relocate g) := by
  unfold importDeclaration at h
  split at h
  all_goals cases h
  all_goals simp [importDeclaration, Phrase.relocate, moved.node, Form.relocate]

lemma moves_importSpecifier (moved : e.Moved g e') (h : importSpecifier e parts = some p) :
    importSpecifier e' (parts.map (Phrase.relocate g)) = some (p.relocate g) := by
  unfold importSpecifier at h
  split at h
  all_goals cases h
  all_goals simp [importSpecifier, Phrase.relocate, moved.node, Form.relocate]

lemma moves_exportSpecifier (moved : e.Moved g e') (h : exportSpecifier e parts = some p) :
    exportSpecifier e' (parts.map (Phrase.relocate g)) = some (p.relocate g) := by
  unfold exportSpecifier at h
  split at h
  all_goals cases h
  all_goals simp [exportSpecifier, Phrase.relocate, moved.node, Form.relocate]

lemma moves_exportDefault (h : exportDefault parts = some p) :
    exportDefault (parts.map (Phrase.relocate g)) = some (p.relocate g) := by
  unfold exportDefault at h
  split at h
  all_goals cases h
  all_goals simp [exportDefault, Phrase.relocate, Form.relocate]

lemma moves_exportList (h : exportList parts = some p) :
    exportList (parts.map (Phrase.relocate g)) = some (p.relocate g) := by
  obtain ⟨ns, hns, h⟩ := Option.bind_eq_some_iff.1 h
  rw [exportList, Phrase.nodes?_relocate, hns]
  simp only [Option.map_some, Option.bind_eq_bind, Option.bind_some, List.getLast?_map]
  cases last : ns.getLast? with
  | none =>
    rw [last] at h
    cases h
    simp [Phrase.relocate, Form.relocate]
  | some n =>
    simp only [last] at h
    simp only [Option.map_some, ← List.map_dropLast]
    -- Whether the last part names a module depends on its form, which is not changed.
    obtain ⟨f, s⟩ := n
    cases f
    all_goals
      cases h
      simp only [Phrase.relocate, Form.relocate, relocateAll_eq, relocateMaybe_eq]
      rfl

lemma moves_exportAll (h : exportAll parts = some p) :
    exportAll (parts.map (Phrase.relocate g)) = some (p.relocate g) := by
  unfold exportAll at h
  split at h
  all_goals cases h
  all_goals simp [exportAll, Phrase.relocate, Form.relocate]

lemma moves_exportDeclaration (moved : e.Moved g e') (h : exportDeclaration e parts = some p) :
    exportDeclaration e' (parts.map (Phrase.relocate g)) = some (p.relocate g) := by
  unfold exportDeclaration at h
  split at h
  all_goals cases h
  all_goals simp [exportDeclaration, Phrase.relocate, moved.node, Form.relocate]

end Modules

section Bindings

lemma moves_bindingElement (moved : e.Moved g e') (h : bindingElement e parts = some p) :
    bindingElement e' (parts.map (Phrase.relocate g)) = some (p.relocate g) := by
  unfold bindingElement at h
  split at h
  all_goals cases h
  all_goals simp [bindingElement, Phrase.relocate, moved.node, Form.relocate]

lemma moves_restElement (moved : e.Moved g e') (h : restElement e parts = some p) :
    restElement e' (parts.map (Phrase.relocate g)) = some (p.relocate g) := by
  unfold restElement at h
  split at h
  all_goals cases h
  all_goals simp [restElement, Phrase.relocate, moved.node, Form.relocate]

lemma shorthandKey_relocate (binding : Node) :
    shorthandKey (binding.relocate g) = (shorthandKey binding).relocate g := by
  obtain ⟨f, s⟩ := binding
  cases f
  all_goals rfl

lemma moves_patternProperty (moved : e.Moved g e') (h : patternProperty e parts = some p) :
    patternProperty e' (parts.map (Phrase.relocate g)) = some (p.relocate g) := by
  unfold patternProperty at h
  split at h
  · cases h
    simp [patternProperty, Phrase.relocate, moved.node, Form.relocate]
  · rename_i binding
    have key := shorthandKey_relocate (g := g) binding
    obtain ⟨f, s⟩ := binding
    cases f
    case restElement =>
      cases h
      rfl
    all_goals
      cases h
      simp only [List.map_cons, List.map_nil, Phrase.relocate, moved.node]
      simp only [Form.relocate, ← key]
      rfl
  · cases h

/-- A list with holes. -/
lemma moves_slots {form : List (Option Node) → Form Node}
    (forms : ∀ os, (form os).relocate g = form (os.map (Option.map (Node.relocate g))))
    (moved : e.Moved g e')
    (h : ((Phrase.slots? parts).map fun os =>
      Phrase.node (e.node (form (withoutLastHole os)))) = some p) :
    ((Phrase.slots? (parts.map (Phrase.relocate g))).map fun os =>
      Phrase.node (e'.node (form (withoutLastHole os)))) = some (p.relocate g) := by
  obtain ⟨os, hos, rfl⟩ := Option.map_eq_some_iff.1 h
  simp [Phrase.relocate, hos, moved.node, forms, Phrase.withoutLastHole_relocate]

lemma moves_list (h : list parts = some p) :
    list (parts.map (Phrase.relocate g)) = some (p.relocate g) := by
  obtain ⟨ns, hns, rfl⟩ := Option.map_eq_some_iff.1 h
  simp [list, hns, Phrase.relocate]

lemma moves_item (h : item parts = some p) :
    item (parts.map (Phrase.relocate g)) = some (p.relocate g) := by
  unfold item at h
  split at h
  all_goals cases h
  all_goals simp [item, Phrase.relocate]

end Bindings

section Functions

lemma moves_functionBody (moved : e.Moved g e') (h : functionBody e parts = some p) :
    functionBody e' (parts.map (Phrase.relocate g)) = some (p.relocate g) := by
  obtain ⟨ns, hns, rfl⟩ := Option.map_eq_some_iff.1 h
  simp [functionBody, hns, Phrase.relocate, moved.span]

lemma moves_function {f : Function Node} (h : function parts = some f) :
    function (parts.map (Phrase.relocate g)) = some (relocateFunction g f) := by
  rcases markers : Phrase.takeToken "async" parts with ⟨isAsync, starred⟩
  rcases stars : Phrase.takeToken "*" starred with ⟨isGenerator, named⟩
  rcases names : Phrase.takeNode named with ⟨id, listed⟩
  rcases params : Phrase.takeNodes listed with ⟨ns, rest⟩
  simp only [function, markers, stars, names, params] at h
  simp only [function, Phrase.takeToken_relocate, Phrase.takeNode_relocate,
    Phrase.takeNodes_relocate, markers, stars, names, params]
  split at h
  · cases h
    simp [Phrase.relocate, relocateFunction]
  · cases h

lemma moves_arrowParameters (h : arrowParameters parts = some p) :
    arrowParameters (parts.map (Phrase.relocate g)) = some (p.relocate g) := by
  unfold arrowParameters at h
  split at h
  all_goals cases h
  all_goals simp [arrowParameters, Phrase.relocate]

/-- The body of an arrow function begins where its block does. -/
lemma start_relocate (s : Option Span) :
    (s.map (Span.relocate g)).map (·.start) = (s.map (·.start)).map g := by
  cases s
  all_goals rfl

lemma moves_arrowFunction (moved : e.Moved g e') (h : arrowFunction e parts = some p) :
    arrowFunction e' (parts.map (Phrase.relocate g)) = some (p.relocate g) := by
  rcases markers : Phrase.takeToken "async" parts with ⟨isAsync, rest⟩
  simp only [arrowFunction, markers] at h
  simp only [arrowFunction, Phrase.takeToken_relocate, markers]
  split at h
  all_goals cases h
  all_goals simp [blockNode, Phrase.relocate, moved.node, Form.relocate, Site.relocate, start_relocate,
    -Option.map_map]

lemma memberKey_relocate {first : Phrase} {key : Node} {computed : Bool}
    (h : memberKey first = some (key, computed)) :
    memberKey (first.relocate g) = some (key.relocate g, computed) := by
  unfold memberKey at h
  split at h
  all_goals cases h
  all_goals rfl

lemma accessorKind_relocate (parts : List Phrase) :
    accessorKind (parts.map (Phrase.relocate g)) =
      ((accessorKind parts).1, (accessorKind parts).2.map (Phrase.relocate g)) := by
  rcases parts with _ | ⟨p, parts⟩
  · rfl
  · cases p
    case token t =>
      simp only [List.map_cons, Phrase.relocate, accessorKind]
      split
      all_goals rfl
    all_goals rfl

lemma methodSite_relocate (moved : e.Moved g e') (key : Node) (body : Block Node) :
    methodSite e' (key.relocate g)
        { statements := body.statements.map (Node.relocate g)
          span := body.span.map (Span.relocate g) } = (methodSite e key body).relocate g := by
  simp only [methodSite, Node.span?_relocate, Span.join?_relocate, moved.site, Site.relocate,
    start_relocate, Option.map_or]

lemma moves_method (moved : e.Moved g e') (h : method e parts = some p) :
    method e' (parts.map (Phrase.relocate g)) = some (p.relocate g) := by
  rcases accessor : accessorKind parts with ⟨kind, marked⟩
  rcases markers : Phrase.takeToken "async" marked with ⟨isAsync, starred⟩
  rcases stars : Phrase.takeToken "*" starred with ⟨isGenerator, keyed⟩
  simp only [method, accessor, markers, stars] at h
  simp only [method, accessorKind_relocate, Phrase.takeToken_relocate, accessor, markers, stars]
  cases keyed with
  | nil => cases h
  | cons first listed =>
    obtain ⟨⟨key, computed⟩, hkey, h⟩ := Option.bind_eq_some_iff.1 h
    rcases params : Phrase.takeNodes listed with ⟨ns, rest⟩
    simp only [params] at h
    simp only [List.map_cons, memberKey_relocate hkey, Option.bind_eq_bind, Option.bind_some,
      Phrase.takeNodes_relocate, params]
    split at h
    · cases h
      simp [Phrase.relocate, Method.relocate, Form.relocate, relocateFunction,
        methodSite_relocate moved]
    · cases h

lemma methodKind_relocate (m : Method) (isStatic : Bool) :
    methodKind (m.relocate g) isStatic = methodKind m isStatic := by
  have name : (m.key.relocate g).name? = m.key.name? := by
    obtain ⟨f, s⟩ := m.key
    cases f
    all_goals rfl
  simp only [methodKind, Method.relocate, name]

lemma moves_classField (h : classField parts = some p) :
    classField (parts.map (Phrase.relocate g)) = some (p.relocate g) := by
  unfold classField at h
  split at h
  · obtain ⟨⟨key, computed⟩, hkey, h⟩ := Option.bind_eq_some_iff.1 h
    cases h
    simp only [List.map_cons, List.map_nil, classField, memberKey_relocate hkey]
    rfl
  · obtain ⟨⟨key, computed⟩, hkey, h⟩ := Option.bind_eq_some_iff.1 h
    cases h
    simp only [List.map_cons, List.map_nil, Phrase.relocate_node, classField,
      memberKey_relocate hkey]
    rfl
  · cases h

lemma moves_classMember (moved : e.Moved g e') (h : classMember e parts = some p) :
    classMember e' (parts.map (Phrase.relocate g)) = some (p.relocate g) := by
  unfold classMember at h ⊢
  rw [Phrase.takeToken_relocate]
  rcases markers : Phrase.takeToken "static" parts with ⟨isStatic, rest⟩
  simp only [markers] at h ⊢
  split at h
  · cases h
    simp only [List.map_cons, List.map_nil, Phrase.relocate, moved.node, methodKind_relocate]
    simp [Form.relocate, Method.relocate]
  · cases h
    simp [Phrase.relocate, moved.node, Form.relocate]
  · cases h

lemma moves_classHeritage (h : classHeritage parts = some p) :
    classHeritage (parts.map (Phrase.relocate g)) = some (p.relocate g) := by
  unfold classHeritage at h
  split at h
  all_goals cases h
  all_goals simp [classHeritage, Phrase.relocate]

lemma moves_classDefinition {c : Class Node} (h : classDefinition parts = some c) :
    classDefinition (parts.map (Phrase.relocate g)) = some (relocateClass g c) := by
  unfold classDefinition at h
  split at h
  all_goals cases h
  all_goals simp [classDefinition, Phrase.relocate, relocateClass]

end Functions

section Expressions

lemma moves_sequence (moved : e.Moved g e') (h : sequence e parts = some p) :
    sequence e' (parts.map (Phrase.relocate g)) = some (p.relocate g) := by
  obtain ⟨ns, hns, h⟩ := Option.bind_eq_some_iff.1 h
  rw [sequence, Phrase.nodes?_relocate, hns]
  rcases ns with _ | ⟨n, _ | ⟨m, ns⟩⟩
  · cases h
  · cases h
    rfl
  · cases h
    simp [Phrase.relocate, moved.node, Form.relocate]

lemma moves_assignment (moved : e.Moved g e') (h : assignment e parts = some p) :
    assignment e' (parts.map (Phrase.relocate g)) = some (p.relocate g) := by
  unfold assignment at h
  split at h
  all_goals cases h
  all_goals simp [assignment, Phrase.relocate, moved.node, Form.relocate]

lemma moves_conditional (moved : e.Moved g e') (h : conditional e parts = some p) :
    conditional e' (parts.map (Phrase.relocate g)) = some (p.relocate g) := by
  unfold conditional at h
  split at h
  all_goals cases h
  all_goals simp [conditional, Phrase.relocate, moved.node, Form.relocate]

lemma combine_relocate {w : String} {left right n : Node} (h : combine w left right = some n) :
    combine w (left.relocate g) (right.relocate g) = some (n.relocate g) := by
  unfold combine at h ⊢
  split at h
  · rename_i found
    cases h
    simp [Form.relocate]
  · rename_i found
    obtain ⟨op, hop, rfl⟩ := Option.map_eq_some_iff.1 h
    simp [hop, Form.relocate]

lemma chain_relocate {left n : Node} (h : chain left parts = some n) :
    chain (left.relocate g) (parts.map (Phrase.relocate g)) = some (n.relocate g) := by
  fun_induction chain left parts with
  | case1 left =>
    cases h
    rfl
  | case2 left operator right rest ih =>
    obtain ⟨joined, hjoined, h⟩ := Option.bind_eq_some_iff.1 h
    simp only [List.map_cons, Phrase.relocate, chain, combine_relocate hjoined, Option.bind_some]
    exact ih joined h
  | case3 => cases h

lemma moves_binary (h : binary parts = some p) :
    binary (parts.map (Phrase.relocate g)) = some (p.relocate g) := by
  unfold binary at h
  split at h
  · obtain ⟨n, hn, rfl⟩ := Option.map_eq_some_iff.1 h
    simp [binary, chain_relocate hn, Phrase.relocate]
  · cases h

lemma unaryForm_relocate {w : String} {argument : Node} {f : Form Node}
    (h : unaryForm w argument = some f) :
    unaryForm w (argument.relocate g) = some (f.relocate g) := by
  unfold unaryForm at h ⊢
  repeat' split at h
  case isFalse =>
    obtain ⟨op, hop, rfl⟩ := Option.map_eq_some_iff.1 h
    simp_all [Form.relocate]
  all_goals
    cases h
    simp_all [Form.relocate]

lemma moves_unary (moved : e.Moved g e') (h : unary e parts = some p) :
    unary e' (parts.map (Phrase.relocate g)) = some (p.relocate g) := by
  unfold unary at h
  split at h
  · cases h
    rfl
  · obtain ⟨f, hf, rfl⟩ := Option.map_eq_some_iff.1 h
    simp [unary, unaryForm_relocate hf, Phrase.relocate, moved.node]
  · cases h

/-- What stands behind an operand moves with it. -/
lemma siteTo_relocate (operand : Node) (last : Span) :
    (operand.relocate g).siteTo (some (last.relocate g)) =
      (operand.siteTo (some last)).relocate g :=
  Node.siteTo_relocate operand (some last)

lemma apply_relocate (a : Access) (object : Node) :
    (a.relocate g).apply (object.relocate g) = (a.apply object).relocate g := by
  obtain ⟨kind, optional, span⟩ := a
  cases kind
  all_goals simp [Access.apply, Access.relocate, Form.relocate, siteTo_relocate]

lemma accesses_relocate {object n : Node} (h : accesses object parts = some n) :
    accesses (object.relocate g) (parts.map (Phrase.relocate g)) = some (n.relocate g) := by
  fun_induction accesses object parts with
  | case1 object =>
    cases h
    rfl
  | case2 object a rest ih =>
    simp only [List.map_cons, Phrase.relocate, accesses, apply_relocate]
    exact ih h
  | case3 object operator span rest ih =>
    simpa [Phrase.relocate, accesses, Form.relocate, siteTo_relocate] using ih h
  | case4 => cases h

lemma moves_accessed (h : accessed parts = some p) :
    accessed (parts.map (Phrase.relocate g)) = some (p.relocate g) := by
  unfold accessed at h
  split at h
  · obtain ⟨n, hn, rfl⟩ := Option.map_eq_some_iff.1 h
    simp [accessed, accesses_relocate hn, Phrase.relocate]
  · cases h

lemma moves_callArguments (moved : e.Moved g e') (h : callArguments e parts = some p) :
    callArguments e' (parts.map (Phrase.relocate g)) = some (p.relocate g) := by
  obtain ⟨ns, hns, rfl⟩ := Option.map_eq_some_iff.1 h
  simp [callArguments, hns, access, isOptional, Phrase.relocate, Access.relocate, moved.span,
    moved.text]

lemma moves_memberAccess (moved : e.Moved g e') (h : memberAccess e parts = some p) :
    memberAccess e' (parts.map (Phrase.relocate g)) = some (p.relocate g) := by
  unfold memberAccess at h
  split at h
  all_goals cases h
  simp [memberAccess, access, isOptional, Phrase.relocate, Access.relocate, moved.span, moved.text]

lemma moves_computedAccess (moved : e.Moved g e') (h : computedAccess e parts = some p) :
    computedAccess e' (parts.map (Phrase.relocate g)) = some (p.relocate g) := by
  unfold computedAccess at h
  split at h
  all_goals cases h
  simp [computedAccess, access, isOptional, Phrase.relocate, Access.relocate, moved.span,
    moved.text]

lemma moves_newObject (moved : e.Moved g e') (h : newObject e parts = some p) :
    newObject e' (parts.map (Phrase.relocate g)) = some (p.relocate g) := by
  unfold newObject at h
  split at h
  all_goals cases h
  all_goals simp [newObject, Phrase.relocate, Access.relocate, moved.node, Form.relocate]

lemma moves_property (moved : e.Moved g e') (h : property e parts = some p) :
    property e' (parts.map (Phrase.relocate g)) = some (p.relocate g) := by
  unfold property at h
  split at h
  all_goals cases h
  all_goals simp [property, Phrase.relocate, Method.relocate, moved.node, Form.relocate]

lemma moves_importCall (moved : e.Moved g e') (h : importCall e parts = some p) :
    importCall e' (parts.map (Phrase.relocate g)) = some (p.relocate g) := by
  unfold importCall at h
  split at h
  all_goals cases h
  all_goals simp [importCall, Phrase.relocate, moved.node, Form.relocate]

lemma moves_metaProperty (moved : e.Moved g e') (h : metaProperty e parts = some p) :
    metaProperty e' (parts.map (Phrase.relocate g)) = some (p.relocate g) := by
  unfold metaProperty at h
  split at h
  all_goals cases h
  all_goals simp [metaProperty, Phrase.relocate, moved.node, Form.relocate]

end Expressions

section Rules

lemma moves_only (h : phrase?.only parts = some p) :
    phrase?.only (parts.map (Phrase.relocate g)) = some (p.relocate g) := by
  unfold phrase?.only at h
  split at h
  all_goals cases h
  rfl

lemma moves_oneNode {f : Node → Phrase} (phrases : ∀ n, (f n).relocate g = f (n.relocate g))
    (h : phrase?.oneNode f parts = some p) :
    phrase?.oneNode f (parts.map (Phrase.relocate g)) = some (p.relocate g) := by
  unfold phrase?.oneNode at h
  split at h
  all_goals cases h
  simp [phrase?.oneNode, phrases]

lemma moves_functionNode {form : Function Node → Form Node}
    (forms : ∀ f, (form f).relocate g = form (relocateFunction g f)) (moved : e.Moved g e')
    (h : ((function parts).map fun f => Phrase.node (e.node (form f))) = some p) :
    ((function (parts.map (Phrase.relocate g))).map fun f =>
      Phrase.node (e'.node (form f))) = some (p.relocate g) := by
  obtain ⟨f, hf, rfl⟩ := Option.map_eq_some_iff.1 h
  simp [moves_function hf, moved.node, forms]

lemma moves_classNode {form : Class Node → Form Node}
    (forms : ∀ c, (form c).relocate g = form (relocateClass g c)) (moved : e.Moved g e')
    (h : ((classDefinition parts).map fun c => Phrase.node (e.node (form c))) = some p) :
    ((classDefinition (parts.map (Phrase.relocate g))).map fun c =>
      Phrase.node (e'.node (form c))) = some (p.relocate g) := by
  obtain ⟨c, hc, rfl⟩ := Option.map_eq_some_iff.1 h
  simp [moves_classDefinition hc, moved.node, forms]

/-- A leaf is told from the text and the span of its match. -/
lemma moves_leaf {r : Rule} (leaf : isLeaf r = true) (moved : e.Moved g e')
    (h : phrase? r e parts = some p) :
    phrase? r e' (parts.map (Phrase.relocate g)) = some (p.relocate g) := by
  cases r
  case number | string | templateLiteral | regex =>
    obtain ⟨_, value, rfl⟩ := Option.map_eq_some_iff.1 h
    simp [phrase?, value, literal, templateLiteral, moved.text, moved.string, moved.node,
      Form.relocate]
  all_goals first
    | cases leaf; done
    | cases h
  all_goals simp [phrase?, identifier, privateIdentifier, literal, updateSuffix, suffixOperator,
    Phrase.relocate, moved.text, moved.string, moved.span, moved.node, Form.relocate]

/-- The phrase of a rule moves with its parts and its match. -/
theorem moves_of_phrase? {r : Rule} (moved : e.Moved g e') (h : phrase? r e parts = some p) :
    phrase? r e' (parts.map (Phrase.relocate g)) = some (p.relocate g) := by
  by_cases leaf : isLeaf r = true
  · exact moves_leaf leaf moved h
  -- One lemma for each builder: it asks for the forms of its parts and never for their places.
  cases r
  case program => exact moves_program moved h
  case variableDeclaration | forDeclaration => exact moves_variableDeclaration moved h
  case variableDeclarator => exact moves_variableDeclarator moved h
  case functionDeclaration => exact moves_functionNode (fun _ => rfl) moved h
  case functionBody => exact moves_functionBody moved h
  case classDeclaration => exact moves_classNode (fun _ => rfl) moved h
  case classHeritage => exact moves_classHeritage h
  case classBody => exact moves_nodes (fun _ => by simp [Form.relocate]) moved h
  case classMember => exact moves_classMember moved h
  case classField => exact moves_classField h
  case importDeclaration => exact moves_importDeclaration moved h
  case importClause => exact moves_importClause h
  case namespaceImport => exact moves_withOne (fun _ => rfl) moved h
  case namedImports => exact moves_list h
  case importSpecifier => exact moves_importSpecifier moved h
  case exportDeclaration => exact moves_exportDeclaration moved h
  case exportDefault => exact moves_exportDefault h
  case exportList => exact moves_exportList h
  case exportSpecifier => exact moves_exportSpecifier moved h
  case exportAll => exact moves_exportAll h
  case returnStatement => exact moves_withOptional (fun _ => by simp [Form.relocate]) moved h
  case ifStatement => exact moves_ifStatement moved h
  case whileStatement | doWhileStatement => exact moves_withTwo (fun _ _ => rfl) moved h
  case forStatement => exact moves_forStatement moved h
  case forEachHead => exact moves_forEachHead h
  case forClassicHead => exact moves_forClassicHead h
  case forInit | forTest | forUpdate => exact moves_oneNode (fun _ => rfl) h
  case tryStatement => exact moves_tryStatement moved h
  case catchClause => exact moves_catchClause moved h
  case finallyClause => exact moves_finallyClause h
  case switchStatement => exact moves_switchStatement moved h
  case switchCase => exact moves_switchCase moved h
  case breakStatement | continueStatement =>
    exact moves_withOptional (fun _ => by simp [Form.relocate]) moved h
  case labeledStatement => exact moves_withTwo (fun _ _ => rfl) moved h
  case throwStatement => exact moves_withOne (fun _ => rfl) moved h
  case block => exact moves_nodes (fun _ => by simp [Form.relocate]) moved h
  case expressionStatement => exact moves_withOne (fun _ => rfl) moved h
  case bindingElement => exact moves_bindingElement moved h
  case restElement => exact moves_restElement moved h
  case objectPattern => exact moves_nodes (fun _ => by simp [Form.relocate]) moved h
  case patternProperty => exact moves_patternProperty moved h
  case arrayPattern => exact moves_slots (fun _ => by simp [Form.relocate]) moved h
  case patternItem | arrayItem => exact moves_item h
  case parameterList => exact moves_list h
  case expression => exact moves_sequence moved h
  case assignmentExpression => exact moves_assignment moved h
  case arrowFunction => exact moves_arrowFunction moved h
  case arrowParameters => exact moves_arrowParameters h
  case conditionalExpression => exact moves_conditional moved h
  case binaryExpression => exact moves_binary h
  case unaryExpression => exact moves_unary moved h
  case postfixExpression | newTarget => exact moves_accessed h
  case postfixOperation | parenthesizedExpression => exact moves_only h
  case callArguments => exact moves_callArguments moved h
  case memberAccess => exact moves_memberAccess moved h
  case computedAccess => exact moves_computedAccess moved h
  case newExpression => exact moves_newObject moved h
  case importCall => exact moves_importCall moved h
  case metaProperty => exact moves_metaProperty moved h
  case functionExpression => exact moves_functionNode (fun _ => rfl) moved h
  case classExpression => exact moves_classNode (fun _ => rfl) moved h
  case arrayLiteral => exact moves_slots (fun _ => by simp [Form.relocate]) moved h
  case spreadElement => exact moves_withOne (fun _ => rfl) moved h
  case objectLiteral => exact moves_nodes (fun _ => by simp [Form.relocate]) moved h
  case property => exact moves_property moved h
  case methodProperty => exact moves_method moved h
  case shorthandProperty | propertyKey | computedKey => exact moves_oneNode (fun _ => rfl) h
  case templateHolePart => cases h
  all_goals exact absurd rfl leaf

end Rules

end Reading

end ScriptTyping
