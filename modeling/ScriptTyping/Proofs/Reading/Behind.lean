import ScriptTyping.Proofs.Grammar.Preamble
import ScriptTyping.Proofs.Grammar.Ranking
import ScriptTyping.Proofs.Location
import ScriptTyping.Proofs.Reading.Moved
import ScriptTyping.Proofs.Reading.Parsed

/-!
# Scripts behind a preamble

`Script.behind p s` is the script `s` with the text `p` before it, and `Location.behind p` takes a place
in `s` to the place of the same character in it. Behind a preamble a script has a syntax tree if it has
one without (`Script.parse_behind_iff`), and below the program it is the same tree at the places so
changed (`Script.parse_behind_of_parse`).
-/

namespace ScriptTyping

/-- The place that a place has when `p` stands before its text: further down by the lines of `p`, on the
first line further to the right by the last line of `p`, and later by the bytes of `p`. -/
def Location.behind (p : List Char) (l : Location) : Location :=
  let (line, column) := advance 1 1 p
  { file := l.file
    line := l.line + (line - 1)
    column := if l.line = 1 then l.column + (column - 1) else l.column
    offset := l.offset + Text.byteLength p }

/-- The script with a text before it. -/
def Script.behind (p : List Char) (s : Script) : Script :=
  { s with content := String.ofList p ++ s.content }

namespace Location

variable {p : List Char}

/-- Only the first line begins further to the right. -/
lemma advance_shift {line column : Nat} (l c : Nat) (pos : 1 ≤ line) (cs : List Char) :
    advance (line + l) (if line = 1 then column + c else column) cs =
      ((advance line column cs).1 + l,
        if (advance line column cs).1 = 1 then (advance line column cs).2 + c
          else (advance line column cs).2) := by
  have later : ¬ line + 1 = 1 := by omega
  fun_induction advance line column cs with
  | case1 => rfl
  | case2 line column cs ih | case3 line column cs ih =>
    have step := ih (by omega) (by omega)
    rw [if_neg later] at step
    rw [advance, Nat.add_right_comm]
    exact step
  | case4 line column x xs pair feed ih =>
    have step := ih pos later
    rw [advance.eq_4 _ _ _ _ pair feed, ← step]
    congr 1
    split
    · exact Nat.add_right_comm _ _ _
    · rfl

/-- The place after a text that stands behind another one. -/
lemma after_append (file : String) (p cs : List Char) :
    after file (p ++ cs) = (after file cs).behind p := by
  have pos := advance_pos (Nat.le_refl 1) (Nat.le_refl 1) p
  have shifted := @advance_shift 1 1 ((advance 1 1 p).1 - 1) ((advance 1 1 p).2 - 1) (Nat.le_refl 1) cs
  rw [if_pos rfl, show 1 + ((advance 1 1 p).1 - 1) = (advance 1 1 p).1 by omega,
    show 1 + ((advance 1 1 p).2 - 1) = (advance 1 1 p).2 by omega] at shifted
  simp only [after, behind, advance_append, shifted, Text.byteLength_append,
    Nat.add_comm (Text.byteLength p)]
  rfl

@[simp] lemma behind_offset (l : Location) :
    (l.behind p).offset = l.offset + Text.byteLength p := rfl

end Location

namespace Reading
open Peg

variable {p source : List Char} {file : String}

lemma extent_shift (p : List Char) (t : Peg.Tree Rule) :
    (extent file source t).Moved (Location.behind p) (extent file (p ++ source) (t.shift p.length)) := by
  have place (n : Nat) : Location.after file ((p ++ source).take (n + p.length)) =
      (Location.after file (source.take n)).behind p := by
    rw [Nat.add_comm, List.take_length_add_append, Location.after_append]
  refine ⟨?_, ?_⟩
  · simp only [extent, Extent.span, Extent.place, Tree.start_shift, Tree.text_shift, place,
      Nat.add_right_comm _ p.length, Span.relocate]
  · simp only [extent, Tree.text_shift]

/-- A tree of a text is assembled as it was when the text stands behind another one. -/
theorem assemble_shift (p : List Char) {t : Peg.Tree Rule}
    (read : t.IsRead language source) {q : Phrase} (made : assemble file source t = .ok q) :
    assemble file (p ++ source) (t.shift p.length) = .ok (q.relocate (Location.behind p)) := by
  refine Tree.IsRead.induction (P := fun t => ∀ q, assemble file source t = .ok q →
    assemble file (p ++ source) (t.shift p.length) = .ok (q.relocate (Location.behind p)))
    (fun t read ih q made => ?_) t read q made
  obtain ⟨value, each, whole⟩ := phrase?_of_assemble made
  have parts : (t.shift p.length).children.map (assemble file (p ++ source)) =
      ((t.children.map value).map (Phrase.relocate (Location.behind p))).map .ok := by
    rw [Tree.children_shift, List.map_map, List.map_map, List.map_map]
    exact List.map_congr_left fun u hu => ih u hu _ (each u hu)
  refine assemble_of_phrase? parts ?_
  rw [Tree.rule_shift]
  exact moves_of_phrase? (extent_shift p t) whole

end Reading

namespace Script
open Peg Reading Grammar

variable {p : List Char} {s : Script}

@[simp] lemma behind_name : (s.behind p).name = s.name := rfl

@[simp] lemma toList_behind : (s.behind p).content.toList = p ++ s.content.toList := by
  rw [behind, String.toList_append, String.toList_ofList]

lemma checkNesting_behind (h : IsPreamble p) :
    (s.behind p).checkNesting = .ok () ↔ s.checkNesting = .ok () := by
  rw [checkNesting_eq_ok, checkNesting_eq_ok, toList_behind, h.excess?]

/-- The match of a script is the node of a program around what its statements leave. -/
lemma match?_eq_program {t : Peg.Tree Rule} : s.match? = .ok t ↔
    ∃ q, Reads language .outset (.once (body .program)) ⟨0, s.content.toList⟩ (some q) ∧
      t = .node .program 0 ((⟨0, s.content.toList⟩ : Cursor).upTo q.place) q.trees := by
  rw [match?_eq_ok]
  constructor
  · rintro ⟨_, reads, trees⟩
    cases reads with
    | silent silent _ => cases silent
    | call _ reads =>
      cases trees
      exact ⟨_, reads, rfl⟩
  · rintro ⟨q, reads, rfl⟩
    exact ⟨_, .call (by decide) reads, rfl⟩

/-- Behind a preamble a script is matched if it is without, by the same statements. -/
lemma match?_behind (h : IsPreamble p) :
    (∀ t, s.match? = .ok t → ∃ t', (s.behind p).match? = .ok t' ∧ t'.rule = t.rule ∧
      t'.children = t.children.map (Tree.shift p.length)) ∧
      ((∃ t', (s.behind p).match? = .ok t') → ∃ t, s.match? = .ok t) := by
  have programs := @reads_program_iff _ s.content.toList h
  refine ⟨fun t matched => ?_, ?_⟩
  · obtain ⟨q, reads, rfl⟩ := match?_eq_program.1 matched
    obtain ⟨q', reads', trees⟩ := programs.1 q reads
    rw [← toList_behind] at reads'
    exact ⟨_, match?_eq_program.2 ⟨q', reads', rfl⟩, rfl, trees⟩
  · rintro ⟨t', matched⟩
    obtain ⟨q', reads', -⟩ := match?_eq_program.1 matched
    rw [toList_behind] at reads'
    obtain ⟨o, reads⟩ := ranking.exists_reads (m := .outset) (e := .call .program)
      (c := ⟨0, s.content.toList⟩) rfl
    cases reads with
    | silent silent _ => cases silent
    | call _ reads => exact ⟨_, match?_eq_program.2 ⟨_, reads, rfl⟩⟩
    | callFail _ fails => cases reads'.unique (programs.2 fails)

/-- Below the program the tree of a script is the same behind a preamble, at other places. -/
lemma parse_behind_of_parse (h : IsPreamble p) {n : Node} (parsed : s.parse = .ok n) :
    ∃ n', (s.behind p).parse = .ok n' ∧ n'.form = n.form.relocate (Location.behind p) := by
  obtain ⟨t, shallow, matched, made⟩ := match_of_parse parsed
  obtain ⟨rule, -, read⟩ := isRead_of_match matched
  obtain ⟨t', matched', rule', children'⟩ := (match?_behind h).1 t matched
  obtain ⟨value, each, whole⟩ := phrase?_of_assemble made
  rw [rule] at whole rule'
  obtain ⟨f, e, moved⟩ := program_relocate (g := Location.behind p) whole
  cases e
  have parts : t'.children.map (assemble s.name (p ++ s.content.toList)) =
      ((t.children.map value).map (Phrase.relocate (Location.behind p))).map .ok := by
    rw [children', List.map_map, List.map_map, List.map_map]
    exact List.map_congr_left fun u hu =>
      assemble_shift p (read.children u hu) (each u hu)
  let e' := extent s.name (p ++ s.content.toList) t'
  have whole' : phrase? t'.rule e'
      ((t.children.map value).map (Phrase.relocate (Location.behind p))) =
      some (.node (e'.node (f.relocate (Location.behind p)))) := by
    rw [rule']
    exact moved e'
  have made' := assemble_of_phrase? parts whole'
  rw [← toList_behind, ← behind_name (p := p)] at made'
  exact ⟨_, parse_of_assemble ((checkNesting_behind h).2 shallow) matched' made', rfl⟩

/-- Numbers that denote too much stay such behind a preamble. -/
lemma excessive_behind {t t' u : Peg.Tree Rule} (rule : t.rule = .program)
    (children : t'.children = t.children.map (Tree.shift p.length)) (excessive : Excessive t u) :
    Excessive t' (u.shift p.length) := by
  rcases excessive_cases excessive with ⟨number, -⟩ | ⟨v, hv, under, number⟩
  · rw [rule] at number
    cases number
  · refine ⟨.inside (children ▸ List.mem_map_of_mem hv) under.shift, ?_⟩
    rwa [Tree.rule_shift, Tree.text_shift]

/-- Behind a preamble a script has a syntax tree exactly if it has one without. -/
lemma parse_behind_iff (h : IsPreamble p) :
    (∃ n, (s.behind p).parse = .ok n) ↔ ∃ n, s.parse = .ok n := by
  constructor
  · rintro ⟨n', parsed'⟩
    obtain ⟨t', shallow', matched', made'⟩ := match_of_parse parsed'
    have shallow := (checkNesting_behind h).1 shallow'
    obtain ⟨t, matched⟩ := (match?_behind h).2 ⟨t', matched'⟩
    obtain ⟨u, matchedU, -, children⟩ := (match?_behind h).1 t matched
    cases matched'.symm.trans matchedU
    -- A number that keeps the script from having a tree would do so behind the preamble too.
    obtain ⟨rule, -, read⟩ := isRead_of_match matched
    obtain ⟨-, -, read'⟩ := isRead_of_match matched'
    have modest : ∀ v, ¬ Excessive t v := fun v excessive => by
      obtain ⟨w, -, fails⟩ := (assemble_of_isRead read').2 ⟨_, excessive_behind rule children excessive⟩
      rw [fails] at made'
      cases made'
    obtain ⟨p, made, fits⟩ := (assemble_of_isRead read).1 modest
    rw [rule] at fits
    obtain ⟨n, rfl⟩ := fits
    exact ⟨n, parse_of_assemble shallow matched made⟩
  · rintro ⟨n, parsed⟩
    obtain ⟨n', parsed', -⟩ := parse_behind_of_parse h parsed
    exact ⟨n', parsed'⟩

end Script

end ScriptTyping
