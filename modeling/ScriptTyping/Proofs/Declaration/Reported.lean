import ScriptTyping.Proofs.Declaration.Findings
import ScriptTyping.Proofs.Location
import ScriptTyping.Proofs.Reading.Located

/-!
# The places that are told of a script

The places of what is declared in a script, and of what is worth telling about it, are places of nodes of its
syntax tree (`Node.exists_mem_places`). So all places that are told of a script lie in it, and each of them
is found again from its line and its column (`Script.lineColumn_spec`).
-/

namespace ScriptTyping

/-- The places that a problem is told with. -/
def Problem.places (p : Problem) : List Location :=
  Site.places { location := p.location, span := p.span }

/-- The places that a table has of variables, functions and findings. -/
def Table.places (t : Table) : List Location :=
  t.bindings.filterMap Variable.location ++ t.routines.filterMap Routine.location ++
    t.findings.flatMap Problem.places

/-- What is found of a node is told with its places. -/
lemma Finding.places_problem (f : Finding) (n : Node) : (f.problem n).places = n.site.places := rfl

namespace Node

variable {program : Node} {source : String} {l : Location}

/-- A walk meets the declarator of a candidate and its first value. -/
lemma mem_preorder_of_candidate {c : Candidate} (h : c ∈ program.candidates) :
    c.declarator ∈ program.preorder ∧ ∀ init ∈ c.init, init ∈ program.preorder := by
  obtain ⟨m, hm, own⟩ := List.mem_flatMap.1 h
  unfold ownCandidates at own
  split at own
  · rename_i kind ds form
    obtain ⟨d, hd, own⟩ := List.mem_flatMap.1 own
    have found := Option.mem_toList.1 own
    obtain ⟨-, rfl⟩ := declarator_of_candidate? found
    obtain ⟨id, shape, -⟩ := form_of_candidate? found
    have met : c.declarator ∈ program.preorder :=
      mem_preorder_of_child hm (by rw [children, form]; exact hd)
    refine ⟨met, fun init value => mem_preorder_of_child met ?_⟩
    rw [children, shape, Option.mem_def.1 value]
    exact List.mem_cons_of_mem id List.mem_cons_self
  · cases own

/-- Each finding is about a node that a walk meets. -/
lemma exists_about {p : Problem} (h : p ∈ (collect program source).findings) :
    ∃ f, ∃ m ∈ program.preorder, p = Finding.problem f m := by
  rcases List.mem_append.1 ((findings_collect_perm program source).mem_iff.1 h) with named | apart
  · obtain ⟨c, hc, told⟩ := List.mem_flatMap.1 named
    obtain ⟨declarator, value⟩ := mem_preorder_of_candidate (mem_of_mem_firsts hc)
    obtain ⟨f, m, -, rfl | init, rfl⟩ := Candidate.exists_of_mem_findings told
    · exact ⟨f, _, declarator, rfl⟩
    · exact ⟨f, m, value m init, rfl⟩
  · obtain ⟨n, hn, told⟩ := List.mem_flatMap.1 apart
    obtain ⟨d, hd, id, rfl⟩ | ⟨r, -, rfl⟩ := exists_of_mem_apartFindings told
    · exact ⟨_, d, mem_preorder_of_child hn (mem_children_of_declarators hd), rfl⟩
    · exact ⟨_, n, hn, rfl⟩

lemma mem_places_of_location {n : Node} (h : n.location? = some l) : l ∈ n.site.places :=
  List.mem_append_left _ (Option.mem_toList.2 h)

/-- The places in the table of a program are places of its nodes. -/
lemma exists_mem_places (h : l ∈ (collect program source).places) :
    ∃ m ∈ program.preorder, l ∈ m.site.places := by
  simp only [Table.places, List.mem_append] at h
  obtain (binding | routine) | finding := h
  · obtain ⟨v, hv, place⟩ := List.mem_filterMap.1 binding
    rw [bindings_collect] at hv
    obtain ⟨c, hc, rfl⟩ := List.mem_map.1 hv
    exact ⟨_, (mem_preorder_of_candidate (mem_of_mem_firsts hc)).1, mem_places_of_location place⟩
  · obtain ⟨r, hr, place⟩ := List.mem_filterMap.1 routine
    rw [routines_collect] at hr
    obtain ⟨n, hn, made⟩ := List.mem_filterMap.1 hr
    unfold routine? at made
    split at made
    all_goals cases made
    have here : n.location? = some l := place
    exact ⟨n, hn, mem_places_of_location here⟩
  · obtain ⟨p, hp, place⟩ := List.mem_flatMap.1 finding
    obtain ⟨f, m, hm, rfl⟩ := exists_about hp
    exact ⟨m, hm, Finding.places_problem f m ▸ place⟩

end Node

namespace Script

/-- The places that are told of a script: those of its nodes, of the blocks of its functions, of its
declarations and of what is worth telling about these; and where it has no syntax tree, those of the problem
that it is reported as. -/
def places (s : Script) : List Location :=
  match s.parse with
  | .ok n => (n.walk.flatMap fun a => a.site.places) ++ (collect n s.content).places
  | .error f => f.problem.places

/-- The offset that a walk through a script leads to, down to a line and along it to a column. Both count
from one. -/
def offset? (s : Script) : Nat → Nat → Option Nat
  | line + 1, column + 1 => Location.passed? line column s.content.toList
  | _, _ => none

variable {s : Script} {l : Location}

/-- All places that are told of a script lie in it. -/
lemma isPlace_of_mem_places (h : l ∈ s.places) : s.IsPlace l := by
  unfold places at h
  split at h
  · rename_i n parsed
    rcases List.mem_append.1 h with node | declared
    · obtain ⟨a, ha, hl⟩ := List.mem_flatMap.1 node
      exact isPlace_of_parse parsed a ha l hl
    · obtain ⟨m, hm, hl⟩ := Node.exists_mem_places declared
      rw [← Node.filterMap_node?_walk] at hm
      obtain ⟨a, ha, met⟩ := List.mem_filterMap.1 hm
      cases a
      all_goals cases met
      exact isPlace_of_parse parsed _ ha l hl
  · rename_i f fails
    exact isPlace_of_fault fails l h

/-- A walk to the line and the column of a place leads to its offset. -/
lemma offset?_of_isPlace (h : s.IsPlace l) : s.offset? l.line l.column = some l.offset := by
  obtain ⟨n, rfl⟩ := h
  let before := s.content.toList.take n
  have walk := Location.passed?_advance before (s.content.toList.drop n)
  rw [List.take_append_drop] at walk
  obtain ⟨hl, hc⟩ := Location.advance_pos (Nat.le_refl 1) (Nat.le_refl 1) before
  obtain ⟨line, hline⟩ := Nat.exists_eq_add_of_le' hl
  obtain ⟨column, hcolumn⟩ := Nat.exists_eq_add_of_le' hc
  rw [hline, hcolumn] at walk
  change s.offset? (Location.advance 1 1 before).1 (Location.advance 1 1 before).2 = _
  rw [hline, hcolumn]
  exact walk

/-- No two places have the same line and column. -/
lemma IsPlace.eq {m : Location} (hl : s.IsPlace l) (hm : s.IsPlace m) (same : l.lineColumn = m.lineColumn) :
    l = m := by
  obtain ⟨line, column⟩ := Prod.mk.inj (toLex.injective same)
  have found := offset?_of_isPlace hl
  rw [line, column, offset?_of_isPlace hm] at found
  have offset := Option.some.inj found
  obtain ⟨j, rfl⟩ := hl
  obtain ⟨k, rfl⟩ := hm
  simp only [place, Location.after] at line column offset ⊢
  rw [line, column, offset]

/-- **Line and column tell a place.** Of two offsets between characters the later one has the later line and
column, lines compared first. All places that are told of a script have the line and the column of their
offset, from which a walk finds the offset again; so no two of them have the same line and column. -/
theorem lineColumn_spec (s : Script) :
    (∀ {a b : Nat} {before after before' after' : List Char},
      Text.splitBytes? s.content.toList a = some (before, after) →
      Text.splitBytes? s.content.toList b = some (before', after') → a < b →
      (Location.after s.name before).lineColumn < (Location.after s.name before').lineColumn) ∧
    (∀ l ∈ s.places, s.IsPlace l ∧ s.offset? l.line l.column = some l.offset) ∧
    ∀ l ∈ s.places, ∀ m ∈ s.places, l.lineColumn = m.lineColumn → l = m := by
  refine ⟨Location.lineColumn_lt_of_splitBytes? s.name, fun l hl => ?_, fun l hl m hm same => ?_⟩
  · have place := isPlace_of_mem_places hl
    exact ⟨place, offset?_of_isPlace place⟩
  · exact (isPlace_of_mem_places hl).eq (isPlace_of_mem_places hm) same

/-- A line break that is cut between its two characters, and a name on the line after it. -/
theorem lineColumn_spec_break :
    (Location.after "a.js" "'é';\r".toList).lineColumn <
      (Location.after "a.js" "'é';\r\n".toList).lineColumn ∧
    { file := "a.js", line := 2, column := 1, offset := 7 } ∈ (ofSource "a.js" "'é';\r\nb").places ∧
    (ofSource "a.js" "'é';\r\nb").offset? 2 1 = some 7 := by
  obtain ⟨ascending, told, -⟩ := lineColumn_spec (ofSource "a.js" "'é';\r\nb")
  have first : Text.splitBytes? "'é';\r\nb".toList 6 = some ("'é';\r".toList, "\nb".toList) := by decide
  have second : Text.splitBytes? "'é';\r\nb".toList 7 = some ("'é';\r\n".toList, "b".toList) := by decide
  have met : { file := "a.js", line := 2, column := 1, offset := 7 } ∈
      (ofSource "a.js" "'é';\r\nb").places := by decide +kernel
  exact ⟨ascending first second (by decide), met, (told _ met).2⟩

end Script

end ScriptTyping
