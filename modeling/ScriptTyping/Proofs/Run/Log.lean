import ScriptTyping.Proofs.Text.OneLine
import ScriptTyping.Run.Log

/-!
# The lines of a log

A log whose records are told without the title of a report behind a line break, and whose clock tells
times, has no line that begins as a report does, so the reports of a text are those of the text behind
the log (`reportLines_logText_append`).
-/

namespace ScriptTyping
open Listing

/-- What the line of a report begins with. -/
def reportTitle : Line := "TYPEIFY |".toList

/-- The lines of a text that begin as a report does. -/
def reportLines (s : String) : List Line :=
  (linesOf s).filter (reportTitle.isPrefixOf ·)

/-- A text of which no line but the first begins as a report does. -/
def Untitled (s : String) : Prop :=
  ¬ '\n' :: reportTitle <:+: s.toList

instance (s : String) : Decidable (Untitled s) :=
  inferInstanceAs (Decidable ¬ '\n' :: reportTitle <:+: s.toList)

section Infix

variable {α : Type*} {x : α} {xs ys u : List α}

/-- What begins with an item that a list does not hold begins behind the list. -/
lemma infix_of_infix_append_left (free : x ∉ xs) (h : x :: u <:+: xs ++ ys) : x :: u <:+: ys := by
  obtain ⟨front, back, whole⟩ := h
  rw [List.append_assoc, eq_comm, List.append_eq_append_iff] at whole
  obtain ⟨k, rfl, rest⟩ | ⟨k, rfl, rest⟩ := whole
  · exact ⟨k, back, by rw [rest, List.append_assoc]⟩
  · cases k with
    | nil => exact ⟨[], back, by simpa using rest⟩
    | cons y k =>
      obtain rfl : x = y := (List.cons.inj rest).1
      exact absurd (List.mem_append_right front List.mem_cons_self) free

/-- What begins with an item that a list does not hold, and goes on without the first item of the list,
ends before the list. -/
lemma infix_of_infix_append_right (free : x ∉ ys) (foreign : ∀ y ∈ ys.head?, y ∉ u)
    (h : x :: u <:+: xs ++ ys) : x :: u <:+: xs := by
  obtain ⟨front, back, whole⟩ := h
  rw [List.append_assoc, List.append_eq_append_iff] at whole
  obtain ⟨k, rfl, rest⟩ | ⟨k, rfl, rest⟩ := whole
  · rw [List.append_eq_append_iff] at rest
    obtain ⟨l, rfl, -⟩ | ⟨l, ends, behind⟩ := rest
    · exact ⟨front, l, List.append_assoc ..⟩
    · cases k with
      | nil =>
        obtain rfl : x :: u = l := ends
        exact absurd (behind ▸ List.mem_append_left back List.mem_cons_self) free
      | cons y k =>
        obtain ⟨rfl, rfl⟩ := List.cons.inj ends
        cases l with
        | nil => exact ⟨front, [], by simp⟩
        | cons y l =>
          have first : y ∈ ys.head? := by simp [behind]
          exact absurd (List.mem_append_right k List.mem_cons_self) (foreign y first)
  · have mem : x ∈ ys := by
      rw [rest]
      exact List.mem_append_right k (List.mem_append_left back List.mem_cons_self)
    exact absurd mem free

end Infix

namespace Untitled

variable {s t a b : String}

lemma of_oneLine (h : OneLine s) : Untitled s :=
  fun mem => h (mem.subset List.mem_cons_self)

lemma of_infix (h : Untitled t) (part : s.toList <:+: t.toList) : Untitled s :=
  fun titled => h (titled.trans part)

/-- A text without a title has none behind a line. -/
lemma behind (ha : OneLine a) (hs : Untitled s) : Untitled (a ++ s) := by
  intro titled
  rw [String.toList_append] at titled
  exact hs (infix_of_infix_append_left ha titled)

/-- A text without a title has none before a line that begins with none of its characters. -/
lemma before (hs : Untitled s) (hb : OneLine b) (foreign : ∀ c ∈ b.toList.head?, c ∉ reportTitle) :
    Untitled (s ++ b) := by
  intro titled
  rw [String.toList_append] at titled
  exact hs (infix_of_infix_append_right hb foreign titled)

end Untitled

/-- A text that begins with a digit, as a time does, has no line that begins as a report does. -/
lemma reportLines_eq_nil {s : String} {c : Char} (first : s.toList.head? = some c)
    (digit : c.isDigit = true) (h : Untitled s) : reportLines s = [] := by
  obtain ⟨l, ls, lines⟩ := List.exists_cons_of_ne_nil (List.splitOn_ne_nil '\n' s.toList)
  obtain ⟨front, others⟩ := splitOn_spec lines
  rw [reportLines, linesOf, lines, List.filter_eq_nil_iff]
  refine List.forall_mem_cons.2 ⟨fun titled => ?_, fun k hk titled => ?_⟩
  · have begins := (List.isPrefixOf_iff_prefix.1 titled).trans front
    obtain ⟨rest, whole⟩ := begins
    rw [← whole] at first
    obtain rfl := Option.some.inj first
    exact absurd digit (by decide)
  · have begins : '\n' :: reportTitle <+: '\n' :: k :=
      (List.prefix_cons_inj _).2 (List.isPrefixOf_iff_prefix.1 titled)
    exact h (begins.isInfix.trans (others k hk))

/-- A text as a time is written: one line that begins with a digit. -/
structure IsTime (s : String) : Prop where
  oneLine : OneLine s
  digit : s.toList.head?.any Char.isDigit = true

instance (s : String) : Decidable (IsTime s) :=
  decidable_of_iff (OneLine s ∧ s.toList.head?.any Char.isDigit = true)
    ⟨fun h => ⟨h.1, h.2⟩, fun h => ⟨h.oneLine, h.digit⟩⟩

/-- A record that is told without the title of a report behind a line break. -/
structure LogRecord.IsPlain (r : LogRecord) : Prop where
  target : OneLine r.target
  message : Untitled r.message

/-- A record adds no reports. -/
lemma LogRecord.IsPlain.reportLines_text_append {r : LogRecord} (plain : r.IsPlain) {time : String}
    (told : IsTime time) (s : String) : reportLines (r.text time ++ s) = reportLines s := by
  obtain ⟨c, first, digit⟩ := (Option.any_eq_true _ _).1 told.digit
  have weight : OneLine r.weight.name := by
    cases r.weight
    all_goals exact .literal (by decide)
  have front : OneLine (time ++ " " ++ r.weight.name ++ " [" ++ r.target ++ "] ") :=
    ((((told.oneLine.append (.literal (by decide))).append weight).append (.literal (by decide))).append
      plain.target).append (.literal (by decide))
  have line := Untitled.behind front plain.message
  have start : (time ++ " " ++ r.weight.name ++ " [" ++ r.target ++ "] " ++ r.message).toList.head? =
      some c := by
    simp [first]
  have none := reportLines_eq_nil start digit line
  rw [reportLines] at none
  rw [LogRecord.text, reportLines, linesOf_append_break, List.filter_append, none]
  rfl

/-- Texts that add no reports add none together. -/
lemma reportLines_join_append {texts : List String}
    (each : ∀ text ∈ texts, ∀ s, reportLines (text ++ s) = reportLines s) (s : String) :
    reportLines (String.join texts ++ s) = reportLines s := by
  induction texts with
  | nil => rw [String.join_nil, String.empty_append]
  | cons text texts ih =>
    rw [String.join_cons, String.append_assoc, each text List.mem_cons_self]
    exact ih fun t ht => each t (List.mem_cons_of_mem text ht)

/-- A log of plain records adds no reports. -/
lemma reportLines_logText_append {log : List LogRecord} (plain : ∀ r ∈ log, r.IsPlain)
    {clock : Nat → String} (told : ∀ n, IsTime (clock n)) (isVerbose : Bool) (s : String) :
    reportLines (logText isVerbose clock log ++ s) = reportLines s := by
  refine reportLines_join_append (fun text mem s => ?_) s
  obtain ⟨⟨r, n⟩, hr, rfl⟩ := List.mem_map.1 mem
  have met := (List.mem_filter.1 (List.fst_mem_of_mem_zipIdx hr)).1
  exact (plain r met).reportLines_text_append (told n) s

end ScriptTyping
