import ScriptTyping.Proofs.Reading.Moved
import ScriptTyping.Proofs.Reading.Termination
import ScriptTyping.Proofs.Syntax.Dump

/-!
# Trees stand at places of their text

A tree changes with the places that it is read at. So a change that leaves the places of a text alone leaves
the tree that is read from it alone (`relocate_of_assemble`), and since there is such a change that leaves no
other place alone, there is no other place in the tree (`isPlace_of_parse`). Where a script has no tree, the
place that is told is one of its text too (`isPlace_of_fault`).
-/

namespace ScriptTyping

/-- A place in a script: one that some of its text leads up to. -/
def Script.IsPlace (s : Script) (l : Location) : Prop :=
  ∃ n, l = s.place n

/-- The places where a span begins and ends. -/
def Span.ends (s : Span) : List Location :=
  [s.start, s.stop]

/-- The places that are known of a site. -/
def Site.places (s : Site) : List Location :=
  s.location.toList ++ s.span.toList.flatMap Span.ends

/-- A change of all places but those with a property. -/
def Location.nudge (P : Location → Prop) [DecidablePred P] (l : Location) : Location :=
  if P l then l else { l with offset := l.offset + 1 }

lemma Location.nudge_of (P : Location → Prop) [DecidablePred P] {l : Location} (h : P l) :
    l.nudge P = l :=
  if_pos h

lemma Location.of_nudge_eq {P : Location → Prop} [DecidablePred P] {l : Location} (same : l.nudge P = l) :
    P l := by
  unfold nudge at same
  split at same
  · assumption
  · exact absurd (congrArg Location.offset same) (Nat.succ_ne_self l.offset)

/-- If a change leaves a site alone, it leaves its places alone. -/
lemma Site.of_nudge_eq {P : Location → Prop} [DecidablePred P] {s : Site}
    (same : s.relocate (Location.nudge P) = s) : ∀ l ∈ s.places, P l := by
  have location := congrArg Site.location same
  have span := congrArg Site.span same
  refine List.forall_mem_append.2 ⟨fun l hl => ?_, fun l hl => ?_⟩
  · have known := Option.mem_toList.1 hl
    rw [relocate, known] at location
    exact Location.of_nudge_eq (Option.some.inj location)
  · obtain ⟨t, ht, hl⟩ := List.mem_flatMap.1 hl
    have known := Option.mem_toList.1 ht
    rw [relocate, known] at span
    have stays := Option.some.inj span
    simp only [Span.ends, List.mem_cons, List.not_mem_nil, or_false] at hl
    obtain rfl | rfl := hl
    · exact Location.of_nudge_eq (congrArg Span.start stays)
    · exact Location.of_nudge_eq (congrArg Span.stop stays)

/-- Where what is met stands. A block has no place but its span. -/
def Stop.site : Stop Node → Site
  | node n => n.site
  | block b => { location := none, span := b.span }

section Walk

variable {g : Location → Location}

/-- What is met on a walk, with all places changed. -/
def Stop.relocate (g : Location → Location) : Stop Node → Stop Node
  | node n => node (n.relocate g)
  | block b => block (relocateBlock g b)

@[simp] lemma Stop.site_relocate (a : Stop Node) : (a.relocate g).site = a.site.relocate g := by
  cases a with
  | node n => exact Node.site_relocate n
  | block b => rw [Stop.relocate, relocateBlock_eq]; rfl

lemma Form.stops_relocate (f : Form Node) : (f.relocate g).stops = f.stops.map (Stop.relocate g) := by
  have nodes (ns : List Node) :
      (ns.map (Node.relocate g)).map Stop.node = (ns.map Stop.node).map (Stop.relocate g) := by
    simp [Function.comp_def, Stop.relocate]
  cases f
  case functionDeclaration f | functionExpression f =>
    obtain ⟨id, params, ⟨statements, span⟩, isGenerator, isAsync⟩ := f
    simp [relocate, relocateFunction, stops, Stop.relocate, Option.toList_map, Function.comp_def]
  all_goals
    refine Eq.trans ?_ (nodes _)
    rw [← children_relocate]
    rfl

/-- A walk meets the same at other places. -/
lemma Node.walk_relocate (n : Node) : (n.relocate g).walk = n.walk.map (Stop.relocate g) := by
  induction n using Node.induction with
  | step n ih =>
    rw [walk_eq, walk_eq, form_relocate, Form.stops_relocate, List.map_cons, List.flatMap_map,
      List.map_flatMap]
    congr 1
    refine List.flatMap_congr fun a ha => ?_
    cases a with
    | node c => exact ih c (mem_children_of_stop ha)
    | block b => rfl

end Walk

namespace Reading
open Peg

variable {file : String} {source : List Char} {g : Location → Location}

/-- What is read from a text stays as it is when the places of the text do. -/
lemma relocate_of_assemble
    (fixed : ∀ n, g (Location.after file (source.take n)) = Location.after file (source.take n))
    {t : Peg.Tree Rule} (read : t.IsRead language source) {p : Phrase}
    (made : assemble file source t = .ok p) : p.relocate g = p := by
  refine Tree.IsRead.induction (P := fun t => ∀ p, assemble file source t = .ok p → p.relocate g = p)
    (fun t read ih p made => ?_) t read p made
  obtain ⟨value, each, whole⟩ := phrase?_of_assemble made
  have parts : (t.children.map value).map (Phrase.relocate g) = t.children.map value := by
    rw [List.map_map]
    exact List.map_congr_left fun u hu => ih u hu _ (each u hu)
  have stays : (extent file source t).Moved g (extent file source t) := by
    refine ⟨?_, rfl⟩
    rw [Span.relocate, Extent.span, Extent.place, Extent.place]
    exact congrArg₂ Span.mk (fixed _).symm (fixed _).symm
  have same := moves_of_phrase? stays whole
  rw [parts, whole] at same
  exact (Option.some.inj same).symm

end Reading

namespace Script
open Reading

variable {s : Script}

/-- The nodes of a script and the blocks of its functions begin and end at places in it. -/
lemma isPlace_of_parse {n : Node} (h : s.parse = .ok n) :
    ∀ a ∈ n.walk, ∀ l ∈ a.site.places, s.IsPlace l := by
  classical
  obtain ⟨t, -, matched, made⟩ := match_of_parse h
  obtain ⟨-, -, read⟩ := isRead_of_match matched
  -- The change moves every place that is not in the script, and yet moves nothing in the tree.
  have same : n.relocate (Location.nudge s.IsPlace) = n :=
    Phrase.node.inj (relocate_of_assemble (fun k => Location.nudge_of _ ⟨k, rfl⟩) read made)
  have walk : n.walk.map (Stop.relocate (Location.nudge s.IsPlace)) = n.walk.map id := by
    rw [← Node.walk_relocate, same, List.map_id]
  intro a ha
  refine Site.of_nudge_eq ?_
  rw [← Stop.site_relocate, List.map_inj_left.1 walk a ha, id]

/-- Why a script has no tree is told with places in it. -/
lemma isPlace_of_fault {f : Fault} (h : s.parse = .error f) : ∀ l ∈ f.site.places, s.IsPlace l := by
  have all (k m n : Nat) :
      ∀ l ∈ Site.places { location := some (s.place k), span := some ⟨s.place m, s.place n⟩ },
        s.IsPlace l :=
    List.forall_mem_cons.2 ⟨⟨k, rfl⟩, List.forall_mem_cons.2 ⟨⟨m, rfl⟩, List.forall_mem_singleton.2 ⟨n, rfl⟩⟩⟩
  obtain ⟨m, n, rfl⟩ | ⟨a, rfl⟩ | ⟨t, u, -, -, rfl⟩ := fault_cases h
  all_goals exact all _ _ _

end Script

end ScriptTyping
