import Mathlib

-- A table of cells kept as a list of rows. none is an index out of bounds.
namespace Grid

variable {α : Type}

def read (grid : List (List α)) (row column : Nat) : Option α := (grid[row]?).bind (·[column]?)

def write (grid : List (List α)) (row column : Nat) (value : α) : Option (List (List α)) :=
  (grid[row]?).bind fun cells =>
    if column < cells.length then some (grid.set row (cells.set column value)) else none

structure Shape (rows columns : Nat) (grid : List (List α)) : Prop where
  rows : grid.length = rows
  columns : ∀ cells ∈ grid, cells.length = columns

variable {grid : List (List α)} {rows columns row column : Nat} {old : α}

theorem shape_replicate (rows columns : Nat) (value : α) :
    Shape rows columns (List.replicate rows (List.replicate columns value)) :=
  ⟨List.length_replicate, fun _ member => (List.eq_of_mem_replicate member) ▸ List.length_replicate⟩

theorem read_inside (shape : Shape rows columns grid) (inRows : row < rows) (inColumns : column < columns) :
    ∃ value, read grid row column = some value := by
  have inGrid : row < grid.length := shape.rows ▸ inRows
  have inCells : column < grid[row].length := (shape.columns _ (List.getElem_mem inGrid)) ▸ inColumns
  refine ⟨grid[row][column], ?_⟩
  rw [read, List.getElem?_eq_getElem inGrid, Option.bind_some, List.getElem?_eq_getElem inCells]

theorem read_of_mem (shape : Shape rows columns grid) {value : α} (member : value ∈ grid.flatten) :
    ∃ row column, row < rows ∧ column < columns ∧ read grid row column = some value := by
  obtain ⟨cells, inGrid, inCells⟩ := List.mem_flatten.mp member
  obtain ⟨row, isRow⟩ := List.mem_iff_getElem?.mp inGrid
  obtain ⟨column, isColumn⟩ := List.mem_iff_getElem?.mp inCells
  refine ⟨row, column, ?_, ?_, ?_⟩
  · exact shape.rows ▸ (List.getElem?_eq_some_iff.mp isRow).1
  · exact shape.columns cells inGrid ▸ (List.getElem?_eq_some_iff.mp isColumn).1
  · rw [read, isRow, Option.bind_some, isColumn]

theorem mem_of_read (found : read grid row column = some old) : old ∈ grid.flatten := by
  obtain ⟨cells, isRow, isColumn⟩ := Option.bind_eq_some_iff.mp found
  exact List.mem_flatten.mpr ⟨cells, List.mem_of_getElem? isRow, List.mem_of_getElem? isColumn⟩

structure Written (rows columns : Nat) (grid after : List (List α)) (row column : Nat) (old new : α) : Prop where
  shape : Shape rows columns after
  cells : ∃ front back, grid.flatten = front ++ old :: back ∧ after.flatten = front ++ new :: back
  here : read after row column = some new
  others : ∀ otherRow otherColumn, (otherRow, otherColumn) ≠ (row, column) →
    read after otherRow otherColumn = read grid otherRow otherColumn

theorem write_inside (shape : Shape rows columns grid) (found : read grid row column = some old) (new : α) :
    ∃ after, write grid row column new = some after ∧ Written rows columns grid after row column old new := by
  obtain ⟨cells, isRow, isColumn⟩ := Option.bind_eq_some_iff.mp found
  obtain ⟨inGrid, rfl⟩ := List.getElem?_eq_some_iff.mp isRow
  obtain ⟨inCells, rfl⟩ := List.getElem?_eq_some_iff.mp isColumn
  refine ⟨grid.set row (grid[row].set column new), ?_, ⟨?_, ?_⟩, ?_, ?_, ?_⟩
  · rw [write, isRow, Option.bind_some, if_pos inCells]
  · rw [List.length_set, shape.rows]
  · intro other member
    rcases List.mem_or_eq_of_mem_set member with kept | rfl
    · exact shape.columns other kept
    · rw [List.length_set, shape.columns _ (List.getElem_mem inGrid)]
  · refine ⟨(grid.take row).flatten ++ grid[row].take column, grid[row].drop (column + 1) ++ (grid.drop (row + 1)).flatten, ?_, ?_⟩
    · conv => lhs; rw [← List.take_append_drop row grid, List.drop_eq_getElem_cons inGrid]
      rw [List.flatten_append, List.flatten_cons]
      conv => lhs; rw [← List.take_append_drop column grid[row], List.drop_eq_getElem_cons inCells]
      simp only [List.append_assoc, List.cons_append]
    · rw [List.set_eq_take_append_cons_drop, if_pos inGrid, List.flatten_append, List.flatten_cons,
        List.set_eq_take_append_cons_drop, if_pos inCells]
      simp only [List.append_assoc, List.cons_append]
  · rw [read, List.getElem?_set_self inGrid, Option.bind_some, List.getElem?_set_self inCells]
  · intro otherRow otherColumn different
    rw [read, read]
    by_cases sameRow : row = otherRow
    · subst sameRow
      have sameColumn : column ≠ otherColumn := fun same => different (same ▸ rfl)
      rw [List.getElem?_set_self inGrid, isRow, Option.bind_some, Option.bind_some, List.getElem?_set_ne sameColumn]
    · rw [List.getElem?_set_ne sameRow]

end Grid
