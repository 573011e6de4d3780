import Mathlib.Data.List.Basic
import Mathlib.Tactic.Common

/-!
# Rows of named cells

Comma-separated files the way Python's `csv.DictReader` and `csv.DictWriter` see them.  A
row maps the columns of the header to its cells; a row shorter than the header has `None`
in the columns it lacks, and of two columns with one name the last counts.  Writing a row
leaves a cell empty where it has no value.
-/

namespace Csv

/-- A file with a header; the cells of each line are already taken apart. -/
structure File where
  header : List String
  lines : List (List String)
deriving DecidableEq

/-- A row as a dictionary: `none` where it has no such key. -/
abbrev Row := String → Option (Option String)

/-- `DictReader` on one line. -/
def readRow : List String → List String → Row
  | [], _ => fun _ => none
  | column :: header, cells => fun key =>
      (readRow header cells.tail key).or (if key = column then some cells.head? else none)

/-- `DictReader`, which passes over blank lines. -/
def readRows (file : File) : List Row :=
  (file.lines.filter (· ≠ [])).map (readRow file.header)

/-- `row.get(column)`. -/
def Row.get (row : Row) (column : String) : Option String := (row column).join

/-- `row[column] = value`. -/
def Row.set (row : Row) (column value : String) : Row :=
  Function.update row column (some (some value))

/-- `DictWriter.writerow`. -/
def writeRow (header : List String) (row : Row) : List String :=
  header.map fun column => (row.get column).getD ""

/-- A row under a header, with a value in every column. -/
def Row.Full (header : List String) (row : Row) : Prop :=
  ∀ column, if column ∈ header then ∃ value, row column = some (some value) else row column = none

/-- What is read back of a row that was written. -/
def Row.written (header : List String) (row : Row) : Row := readRow header (writeRow header row)

variable {header cells : List String} {row : Row} {column : String}

theorem readRow_eq_none : readRow header cells column = none ↔ column ∉ header := by
  induction header generalizing cells with
  | nil => simp [readRow]
  | cons first header ih =>
      by_cases hfirst : column = first <;> simp [readRow, ih, hfirst]

theorem readRow_map (f : String → String) :
    readRow header (header.map f) column =
      if column ∈ header then some (some (f column)) else none := by
  induction header with
  | nil => rfl
  | cons first header ih =>
      simp only [readRow, List.map_cons, List.tail_cons, List.head?_cons, ih, List.mem_cons]
      by_cases hrest : column ∈ header
      · simp [hrest]
      · rw [if_neg hrest, Option.none_or]
        by_cases hfirst : column = first
        · simp [hfirst]
        · simp [hrest, hfirst]

theorem written_apply : row.written header column =
    if column ∈ header then some (some ((row.get column).getD "")) else none :=
  readRow_map fun column => (row.get column).getD ""

theorem get_written (hcolumn : column ∈ header) :
    (row.written header).get column = some ((row.get column).getD "") := by
  rw [Row.get, written_apply, if_pos hcolumn, Option.join_some]

/-- A row that was read back is written as before. -/
theorem writeRow_written : writeRow header (row.written header) = writeRow header row :=
  List.map_congr_left fun _ hcolumn => by rw [get_written hcolumn, Option.getD_some]

/-- A full row is read back as it was. -/
theorem Row.Full.written_eq (h : row.Full header) : row.written header = row := by
  funext column
  have hcolumn := h column
  rw [written_apply]
  split
  · rename_i hmem
    rw [if_pos hmem] at hcolumn
    obtain ⟨value, hvalue⟩ := hcolumn
    simp [Row.get, hvalue]
  · rename_i hmem
    rw [if_neg hmem] at hcolumn
    exact hcolumn.symm

/-- A line with a cell for every column is a full row. -/
theorem full_readRow (hcells : header.length ≤ cells.length) :
    (readRow header cells).Full header := by
  intro column
  split
  · rename_i hmem
    induction header generalizing cells with
    | nil => cases hmem
    | cons first header ih =>
        obtain ⟨cell, cells, rfl⟩ : ∃ cell rest, cells = cell :: rest :=
          List.exists_cons_of_length_pos (Nat.lt_of_lt_of_le (Nat.succ_pos _) hcells)
        simp only [readRow, List.tail_cons, List.head?_cons]
        by_cases hrest : column ∈ header
        · obtain ⟨value, hvalue⟩ := ih (by simpa using hcells) hrest
          exact ⟨value, by rw [hvalue, Option.some_or]⟩
        · have hfirst : column = first := (List.mem_cons.mp hmem).resolve_right hrest
          exact ⟨cell, by rw [readRow_eq_none.mpr hrest, Option.none_or, if_pos hfirst]⟩
  · exact readRow_eq_none.mpr ‹_›

/-- Under its header a written row has the value a row had, if it had one. -/
theorem get_written_eq_some (hcolumn : column ∉ header → row column = none) {value : String}
    (hvalue : value ≠ "") :
    (row.written header).get column = some value ↔ row.get column = some value := by
  by_cases hmem : column ∈ header
  · rw [Row.get, written_apply, if_pos hmem, Option.join_some]
    cases hget : row.get column with
    | none => simp [Ne.symm hvalue]
    | some found => simp
  · simp [Row.get, written_apply, if_neg hmem, hcolumn hmem]

@[simp] theorem get_set_self {value : String} :
    (row.set column value).get column = some value := by
  rw [Row.get, Row.set, Function.update_self, Option.join_some]

end Csv
