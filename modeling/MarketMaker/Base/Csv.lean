import Mathlib.Data.List.Basic

/-!
# Line-oriented text

`str::lines` of the Rust standard library, and files of rows whose fields are separated by commas.

* `lines_file` — a file written row by row is read back as these rows.
* `fields_row` — a row is read back as its fields.
-/

set_option autoImplicit false

namespace Csv

/-- A carriage return before the newline belongs to the line end. -/
def stripCarriage (l : List Char) : List Char := if l.getLast? = some '\r' then l.dropLast else l

/-- `str::lines`: what stands after the last newline is a line unless it is empty. -/
def lines (s : List Char) : List (List Char) :=
  let parts := s.splitOn '\n'
  let last := parts.getLastD []
  parts.dropLast.map stripCarriage ++ if last = [] then [] else [last]

/-- `line.split(',')`. -/
def fields (l : List Char) : List (List Char) := l.splitOn ','

/-- Fields as one row, without the newline. -/
def row (fs : List (List Char)) : List Char := [','].intercalate fs

/-- Rows as a file. -/
def file (rows : List (List Char)) : List Char := (rows.map fun r => r ++ ['\n']).flatten

/-- A text that is one line of a file. -/
structure IsLine (l : List Char) : Prop where
  newline : '\n' ∉ l
  carriage : l.getLast? ≠ some '\r'

@[simp] theorem file_nil : file [] = [] := rfl

theorem file_append (rows rows' : List (List Char)) : file (rows ++ rows') = file rows ++ file rows' := by
  rw [file, file, file, List.map_append, List.flatten_append]

theorem file_cons (r : List Char) (rows : List (List Char)) : file (r :: rows) = r ++ '\n' :: file rows := by
  rw [file, List.map_cons, List.flatten_cons, List.append_assoc]
  rfl

theorem lines_nil : lines [] = [] := rfl

theorem lines_cons {r rest : List Char} (hr : IsLine r) : lines (r ++ '\n' :: rest) = r :: lines rest := by
  have hsplit : (r ++ '\n' :: rest).splitOn '\n' = r :: rest.splitOn '\n' :=
    List.splitOn_append_cons_self_of_not_mem hr.newline _
  have hrest : rest.splitOn '\n' ≠ [] := List.splitOn_ne_nil _ _
  have hlast : (r :: rest.splitOn '\n').getLastD [] = (rest.splitOn '\n').getLastD [] := by
    rw [List.getLastD_cons, List.getLastD_eq_getLast?, List.getLastD_eq_getLast?,
      List.getLast?_eq_some_getLast hrest]
    rfl
  unfold lines
  dsimp only
  rw [hsplit, hlast, List.dropLast_cons_of_ne_nil hrest, List.map_cons, List.cons_append, stripCarriage,
    if_neg hr.carriage]

/-- **A file is read back line by line.** -/
theorem lines_file {rows : List (List Char)} (h : ∀ r ∈ rows, IsLine r) : lines (file rows) = rows := by
  induction rows with
  | nil => rfl
  | cons r rows ih =>
    rw [file_cons, lines_cons (h r List.mem_cons_self), ih fun r' hr' => h r' (List.mem_cons_of_mem _ hr')]

/-- **A row is read back field by field.** -/
theorem fields_row {fs : List (List Char)} (hne : fs ≠ []) (h : ∀ f ∈ fs, ',' ∉ f) : fields (row fs) = fs :=
  List.splitOn_intercalate _ h hne

theorem mem_row {fs : List (List Char)} {c : Char} (h : c ∈ row fs) : c = ',' ∨ ∃ f ∈ fs, c ∈ f := by
  induction fs with
  | nil => cases h
  | cons f fs ih =>
    cases fs with
    | nil =>
      rw [row, List.intercalate_singleton] at h
      exact .inr ⟨f, List.mem_cons_self, h⟩
    | cons g fs =>
      rw [row, List.intercalate_cons_cons, List.append_assoc] at h
      rcases List.mem_append.mp h with hf | hrest
      · exact .inr ⟨f, List.mem_cons_self, hf⟩
      · rcases List.mem_cons.mp hrest with hcomma | hrest
        · exact .inl hcomma
        · rcases ih hrest with hcomma | ⟨f', hf', hc⟩
          · exact .inl hcomma
          · exact .inr ⟨f', List.mem_cons_of_mem _ hf', hc⟩

example : lines "a,b\r\nc\n".toList = ["a,b".toList, "c".toList] := by decide +kernel

end Csv
