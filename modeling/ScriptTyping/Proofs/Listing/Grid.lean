import ScriptTyping.Listing.Declarations
import ScriptTyping.Proofs.Text.OneLine

/-!
# The lines of a grid

A grid is drawn as a line at its top, the block of its header, a line under that, the blocks of its
rows with a line between any two, and a line at its bottom (`Grid.lines_eq`). The block of a row has a
line and does not hold the line between two blocks, so that the rows can be told apart; and no line
holds a line feed, so that the lines of the text of a grid are the lines of the grid
(`Grid.linesOf_text_append`).
-/

namespace ScriptTyping.Listing

section Rows

variable {widths : List Nat} {row : List (List Line)} {l : Line}

/-- A line of a row begins with its left side. -/
lemma head?_of_mem_drawRow (h : l ∈ drawRow widths row) : l.head? = some '│' := by
  obtain ⟨i, -, rfl⟩ := List.mem_map.1 h
  rfl

lemma le_foldl_max (ns : List Nat) (m : Nat) : m ≤ ns.foldl max m ∧ ∀ n ∈ ns, n ≤ ns.foldl max m := by
  induction ns generalizing m with
  | nil => simp
  | cons k ns ih =>
    obtain ⟨start, rest⟩ := ih (max m k)
    refine ⟨(Nat.le_max_left m k).trans start, fun n mem => ?_⟩
    obtain rfl | mem := List.mem_cons.1 mem
    · exact (Nat.le_max_right m n).trans start
    · exact rest n mem

/-- A row with a line in a cell has a line. -/
lemma drawRow_ne_nil {cell : List Line} (mem : cell ∈ row) (ne : cell ≠ []) : drawRow widths row ≠ [] := by
  have height := (le_foldl_max (row.map List.length) 0).2 _ (List.mem_map_of_mem mem)
  have := List.length_pos_iff.2 ne
  intro none
  have length := congrArg List.length none
  rw [drawRow, List.length_map, List.length_range, List.length_nil] at length
  omega

end Rows

section Free

variable {x : Char} {ls : List Line} {widths : List Nat}

/-- What stands in lines joined with a character in between is that character or stands in a line. -/
lemma notMem_intercalate {c : Char} (other : x ≠ c) (h : ∀ l ∈ ls, x ∉ l) : x ∉ [c].intercalate ls := by
  induction ls with
  | nil => simp
  | cons l ls ih =>
    cases ls with
    | nil => simpa using h l
    | cons k ls =>
      have rest := ih fun l mem => h l (.tail _ mem)
      have first := h l (.head _)
      simp [List.intercalate_cons_cons, first, other, rest]

lemma free_padded {width : Nat} {l : Line} (h : '\n' ∉ l) : '\n' ∉ padded width l := by
  simp [padded, h]

lemma free_drawLine (h : ∀ l ∈ ls, '\n' ∉ l) : '\n' ∉ drawLine widths ls := by
  have cells : ∀ l ∈ List.zipWith padded widths ls, '\n' ∉ l := by
    intro l mem
    rw [← List.map_uncurry_zip_eq_zipWith] at mem
    obtain ⟨⟨width, cell⟩, pair, rfl⟩ := List.mem_map.1 mem
    exact free_padded (h cell (List.of_mem_zip pair).2)
  have inside := notMem_intercalate (c := '┆') (by decide) cells
  simp [drawLine, inside]

lemma free_drawRow {row : List (List Line)} {l : Line} (h : ∀ cell ∈ row, ∀ l ∈ cell, '\n' ∉ l)
    (mem : l ∈ drawRow widths row) : '\n' ∉ l := by
  obtain ⟨i, -, rfl⟩ := List.mem_map.1 mem
  refine free_drawLine fun l mem => ?_
  obtain ⟨cell, inRow, rfl⟩ := List.mem_map.1 mem
  by_cases inside : i < cell.length
  · rw [List.getD_eq_getElem cell [] inside]
    exact h cell inRow _ (List.getElem_mem inside)
  · rw [List.getD_eq_default cell [] (Nat.le_of_not_lt inside)]
    exact List.not_mem_nil

lemma Border.free_draw (r : Border) (left : r.left ≠ '\n') (fill : r.fill ≠ '\n')
    (joint : r.joint ≠ '\n') (right : r.right ≠ '\n') : '\n' ∉ r.draw widths := by
  have fills : ∀ l ∈ widths.map fun w => List.replicate (w + 2) r.fill, '\n' ∉ l := by
    intro l mem
    obtain ⟨w, -, rfl⟩ := List.mem_map.1 mem
    simp [fill.symm]
  have inside := notMem_intercalate joint.symm fills
  simp [draw, left.symm, right.symm, inside]

end Free

namespace Grid

variable (g : Grid)

/-- The widths of the columns of a grid. -/
def widths : List Nat :=
  columnWidths (g.header.map linesOf).length
    (g.header.map linesOf :: g.rows.map (List.map linesOf))

/-- The lines that a row of a grid is drawn as. -/
def block (row : List String) : List Line :=
  drawRow g.widths (row.map linesOf)

lemma lines_eq : g.lines =
    [Border.top.draw g.widths] ++ g.block g.header ++ [Border.underHeader.draw g.widths] ++
      [Border.between.draw g.widths].intercalate (g.rows.map g.block) ++
      [Border.bottom.draw g.widths] := by
  rw [lines, List.map_map]
  rfl

/-- The block of a row is not empty, and none of its lines is the one between two blocks. -/
lemma block_spec {row : List String} (ne : row ≠ []) :
    g.block row ≠ [] ∧ Border.between.draw g.widths ∉ g.block row := by
  obtain ⟨cell, cells, rfl⟩ := List.exists_cons_of_ne_nil ne
  refine ⟨drawRow_ne_nil (.head _) (List.splitOn_ne_nil _ _), fun mem => ?_⟩
  have left := head?_of_mem_drawRow mem
  cases left

lemma free_of_mem_block {row : List String} {l : Line} (mem : l ∈ g.block row) : '\n' ∉ l := by
  refine free_drawRow (fun cell mem => ?_) mem
  obtain ⟨c, -, rfl⟩ := List.mem_map.1 mem
  exact fun l => free_of_mem_linesOf

/-- No line of a grid holds a line feed. -/
lemma free_of_mem_lines {l : Line} (mem : l ∈ g.lines) : '\n' ∉ l := by
  have between : '\n' ∉ Border.between.draw g.widths :=
    Border.free_draw _ (by decide) (by decide) (by decide) (by decide)
  have blocks : ∀ l ∈ [Border.between.draw g.widths].intercalate (g.rows.map g.block), '\n' ∉ l := by
    generalize g.rows = rows
    induction rows with
    | nil => simp
    | cons row rows ih =>
      cases rows with
      | nil => simpa using fun l => g.free_of_mem_block
      | cons row' rows =>
        intro l mem
        rw [List.map_cons, List.map_cons, List.intercalate_cons_cons, List.mem_append,
          List.mem_append, List.mem_singleton] at mem
        obtain (mem | rfl) | mem := mem
        · exact g.free_of_mem_block mem
        · exact between
        · exact ih l mem
  simp only [lines_eq, List.mem_append, List.mem_singleton] at mem
  obtain (((rfl | mem) | rfl) | mem) | rfl := mem
  · exact Border.free_draw _ (by decide) (by decide) (by decide) (by decide)
  · exact g.free_of_mem_block mem
  · exact Border.free_draw _ (by decide) (by decide) (by decide) (by decide)
  · exact blocks l mem
  · exact Border.free_draw _ (by decide) (by decide) (by decide) (by decide)

/-- The lines of the text of a grid are the lines of the grid. -/
lemma linesOf_text_append (t : String) : linesOf (g.text ++ "\n" ++ t) = g.lines ++ linesOf t :=
  linesOf_intercalate_append (by simp [lines_eq]) fun _ => g.free_of_mem_lines

end Grid

end ScriptTyping.Listing
