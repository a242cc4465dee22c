import Polarity.Capacity
import Polarity.Selection

/-!
# Matrices

A matrix has a height, a width and its entries row by row.  A matrix without
rows still has columns, and one without columns still has rows; neither has
entries, however large its other dimension is.  Matrices are reasoned about
through their rows: `rows` and `ofRows` are inverse to each other.  Operations
whose operands do not fit give `Violation.shape`.

The scalars are any type with the arithmetic that an operation uses; nothing is
assumed of that arithmetic.
-/

namespace Polarity

@[ext]
structure Matrix (α : Type) where
  height : Nat
  width : Nat
  /-- Row by row. -/
  entries : List α
  length_entries : entries.length = height * width

namespace Matrix

variable {α β γ : Type}

/-! ## Rows -/

def cut (width : Nat) : Nat → List α → List (List α)
  | 0, _ => []
  | count + 1, entries => entries.take width :: cut width count (entries.drop width)

private theorem length_cut (width count : Nat) (entries : List α) :
    (cut width count entries).length = count := by
  induction count generalizing entries with
  | zero => rfl
  | succ count ih => rw [cut, List.length_cons, ih]

private theorem cut_flatten {width : Nat} {rows : List (List α)}
    (hrows : ∀ row ∈ rows, row.length = width) : cut width rows.length rows.flatten = rows := by
  induction rows with
  | nil => rfl
  | cons row rest ih =>
      have hrow : row.length = width := hrows row List.mem_cons_self
      have hrest := ih fun row hrow => hrows row (List.mem_cons_of_mem _ hrow)
      rw [List.length_cons, List.flatten_cons, cut, ← hrow, List.take_left, List.drop_left, hrow,
        hrest]

private theorem flatten_cut {width count : Nat} {entries : List α}
    (hlength : entries.length = count * width) : (cut width count entries).flatten = entries := by
  induction count generalizing entries with
  | zero => simpa [cut, eq_comm] using hlength
  | succ count ih =>
      rw [Nat.succ_mul] at hlength
      rw [cut, List.flatten_cons, ih (by rw [List.length_drop]; omega), List.take_append_drop]

private theorem length_of_mem_cut {width count : Nat} {entries row : List α}
    (hlength : entries.length = count * width) (hrow : row ∈ cut width count entries) :
    row.length = width := by
  induction count generalizing entries with
  | zero => simp [cut] at hrow
  | succ count ih =>
      rw [Nat.succ_mul] at hlength
      rcases List.mem_cons.mp hrow with rfl | hrow
      · rw [List.length_take]; omega
      · exact ih (by rw [List.length_drop]; omega) hrow

/-- The runs of `width` entries from place `start * width` on, read from a table. -/
private theorem map_range'_extract (width start count : Nat) (entries : List α) :
    ((List.range' start count).map fun i =>
      (entries.toArray.extract (i * width) (i * width + width)).toList) =
      cut width count (entries.drop (start * width)) := by
  induction count generalizing start with
  | zero => rfl
  | succ count ih =>
      rw [List.range'_succ, List.map_cons, ih, cut, List.drop_drop, Nat.succ_mul]
      simp [List.extract_eq_take_drop]

def rows (matrix : Matrix α) : List (List α) :=
  let table := matrix.entries.toArray
  let width := matrix.width
  (List.range matrix.height).map fun i => (table.extract (i * width) (i * width + width)).toList

theorem rows_eq_cut (matrix : Matrix α) :
    matrix.rows = cut matrix.width matrix.height matrix.entries := by
  simpa [rows, List.range_eq_range'] using
    map_range'_extract matrix.width 0 matrix.height matrix.entries

@[simp] theorem length_rows (matrix : Matrix α) : matrix.rows.length = matrix.height := by
  rw [rows_eq_cut, length_cut]

theorem length_of_mem_rows {matrix : Matrix α} {row : List α} (hrow : row ∈ matrix.rows) :
    row.length = matrix.width :=
  length_of_mem_cut matrix.length_entries (rows_eq_cut matrix ▸ hrow)

@[simp] theorem flatten_rows (matrix : Matrix α) : matrix.rows.flatten = matrix.entries := by
  rw [rows_eq_cut, flatten_cut matrix.length_entries]

private theorem length_flatten_of_forall {width : Nat} {rows : List (List α)}
    (hrows : ∀ row ∈ rows, row.length = width) : rows.flatten.length = rows.length * width := by
  induction rows with
  | nil => simp
  | cons row rest ih =>
      rw [List.flatten_cons, List.length_append, hrows row List.mem_cons_self,
        ih fun row hrow => hrows row (List.mem_cons_of_mem _ hrow), List.length_cons, Nat.succ_mul,
        Nat.add_comm]

def ofRows (width : Nat) (rows : List (List α)) (hrows : ∀ row ∈ rows, row.length = width) :
    Matrix α :=
  ⟨rows.length, width, rows.flatten, length_flatten_of_forall hrows⟩

@[simp] theorem rows_ofRows {width : Nat} {rows : List (List α)}
    (hrows : ∀ row ∈ rows, row.length = width) : (ofRows width rows hrows).rows = rows := by
  rw [rows_eq_cut]
  exact cut_flatten hrows

theorem eq_of_rows {left right : Matrix α} (hwidth : left.width = right.width)
    (hrows : left.rows = right.rows) : left = right := by
  ext1
  · rw [← length_rows, hrows, length_rows]
  · exact hwidth
  · rw [← flatten_rows, hrows, flatten_rows]

/-! ## Building -/

def ofEntries (height width : Nat) (entries : List α) : Except Error (Matrix α) :=
  if addressable [height, width] then
    if hlength : entries.length = height * width then .ok ⟨height, width, entries, hlength⟩
    else .error (.violation .shape)
  else
    .error (.violation .capacity)

def empty (width : Nat) : Matrix α := ⟨0, width, [], by simp⟩

def ofRow (row : List α) : Matrix α := ⟨1, row.length, row, by simp⟩

def map (f : α → β) (matrix : Matrix α) : Matrix β where
  height := matrix.height
  width := matrix.width
  entries := matrix.entries.map f
  length_entries := by simpa using matrix.length_entries

def zipWith (f : α → β → γ) (left : Matrix α) (right : Matrix β) : Except Error (Matrix γ) :=
  if hshape : left.height = right.height ∧ left.width = right.width then
    .ok {
      height := left.height
      width := left.width
      entries := List.zipWith f left.entries right.entries
      length_entries := by
        rw [List.length_zipWith, left.length_entries, right.length_entries, hshape.1, hshape.2,
          Nat.min_self] }
  else
    .error (.violation .shape)

/-! ## Choosing rows -/

def rowsAt (places : List Nat) (matrix : Matrix α)
    (hplaces : ∀ place ∈ places, place < matrix.height) : Matrix α :=
  ofRows matrix.width (itemsAt matrix.rows.toArray places (by simpa using hplaces))
    fun _ hrow => length_of_mem_rows (mem_of_mem_itemsAt hrow)

def take (count : Nat) (matrix : Matrix α) : Matrix α :=
  ofRows matrix.width (matrix.rows.take count)
    fun _ hrow => length_of_mem_rows (List.mem_of_mem_take hrow)

def drop (count : Nat) (matrix : Matrix α) : Matrix α :=
  ofRows matrix.width (matrix.rows.drop count)
    fun _ hrow => length_of_mem_rows (List.mem_of_mem_drop hrow)

def append (upper lower : Matrix α) (hwidth : upper.width = lower.width) : Matrix α where
  height := upper.height + lower.height
  width := upper.width
  entries := upper.entries ++ lower.entries
  length_entries := by
    rw [List.length_append, upper.length_entries, lower.length_entries, hwidth, Nat.add_mul]

/-! ## Columns -/

def columnsOf (width : Nat) (rows : List (List α)) : List (List α) :=
  rows.foldr (List.zipWith List.cons) (List.replicate width [])

theorem columnsOf_cons (width : Nat) (row : List α) (rest : List (List α)) :
    columnsOf width (row :: rest) = List.zipWith List.cons row (columnsOf width rest) := rfl

theorem length_columnsOf {width : Nat} {rows : List (List α)}
    (hrows : ∀ row ∈ rows, row.length = width) : (columnsOf width rows).length = width := by
  induction rows with
  | nil => simp [columnsOf]
  | cons row rest ih =>
      have hrest := ih fun row hrow => hrows row (List.mem_cons_of_mem _ hrow)
      rw [columnsOf_cons, List.length_zipWith, hrest, hrows row List.mem_cons_self, Nat.min_self]

private theorem length_of_mem_columnsOf {width : Nat} {rows : List (List α)} {column : List α}
    (hcolumn : column ∈ columnsOf width rows) : column.length = rows.length := by
  induction rows generalizing column with
  | nil => simp_all [columnsOf, List.mem_replicate]
  | cons row rest ih =>
      rw [columnsOf_cons] at hcolumn
      obtain ⟨i, hi, rfl⟩ := List.mem_iff_getElem.mp hcolumn
      simp only [List.getElem_zipWith, List.length_cons]
      rw [ih (List.getElem_mem _)]

def columns (matrix : Matrix α) : List (List α) := columnsOf matrix.width matrix.rows

@[simp] theorem length_columns (matrix : Matrix α) : matrix.columns.length = matrix.width :=
  length_columnsOf fun _ => length_of_mem_rows

private theorem length_of_mem_columns {matrix : Matrix α} {column : List α}
    (hcolumn : column ∈ matrix.columns) : column.length = matrix.height :=
  (length_of_mem_columnsOf hcolumn).trans matrix.length_rows

private theorem length_flatten_columns (matrix : Matrix α) :
    matrix.columns.flatten.length = matrix.width * matrix.height := by
  rw [length_flatten_of_forall fun _ => length_of_mem_columns, length_columns]

/-- Without entries there is nothing to rearrange. -/
def transpose (matrix : Matrix α) : Matrix α where
  height := matrix.width
  width := matrix.height
  entries := if matrix.entries.isEmpty then [] else matrix.columns.flatten
  length_entries := by
    split
    · next hempty =>
        have hlength := matrix.length_entries
        rw [List.isEmpty_iff.mp hempty, List.length_nil] at hlength
        rw [List.length_nil, hlength, Nat.mul_comm]
    · exact matrix.length_flatten_columns

theorem rows_transpose (matrix : Matrix α) : matrix.transpose.rows = matrix.columns := by
  have hentries : matrix.transpose.entries = matrix.columns.flatten := by
    simp only [transpose]
    split
    · next hempty =>
        refine (List.eq_nil_of_length_eq_zero ?_).symm
        rw [length_flatten_columns, Nat.mul_comm, ← matrix.length_entries,
          List.isEmpty_iff.mp hempty, List.length_nil]
    · rfl
  have hcolumns : ∀ column ∈ matrix.columns, column.length = matrix.height :=
    fun _ => length_of_mem_columns
  rw [rows_eq_cut, hentries]
  simpa [transpose] using cut_flatten hcolumns

/-! ## Arithmetic -/

def inner [Add α] [Zero α] [Mul α] (left right : List α) : α :=
  (List.zipWith (· * ·) left right).sum

def mulVec [Add α] [Zero α] [Mul α] (matrix : Matrix α) (vector : List α) :
    Except Error (List α) :=
  if matrix.width = vector.length then
    .ok (matrix.rows.map fun row => inner row vector)
  else
    .error (.violation .shape)

def products [Add α] [Zero α] [Mul α] (left right : Matrix α) : List (List α) :=
  let columns := right.columns
  left.rows.map fun row => columns.map (inner row)

private theorem length_products [Add α] [Zero α] [Mul α] (left right : Matrix α) :
    (products left right).length = left.height := by
  simp [products]

private theorem length_of_mem_products [Add α] [Zero α] [Mul α] {left right : Matrix α}
    {row : List α} (hrow : row ∈ products left right) : row.length = right.width := by
  obtain ⟨line, -, rfl⟩ := List.mem_map.mp hrow
  simp

private theorem length_flatten_products [Add α] [Zero α] [Mul α] (left right : Matrix α) :
    (products left right).flatten.length = left.height * right.width := by
  rw [length_flatten_of_forall fun _ => length_of_mem_products, length_products]

/-- A product without entries is not computed. -/
def mul [Add α] [Zero α] [Mul α] (left right : Matrix α) : Except Error (Matrix α) :=
  if left.width = right.height then
    .ok {
      height := left.height
      width := right.width
      entries := if left.height * right.width = 0 then [] else (products left right).flatten
      length_entries := by
        split
        · next hnone => rw [hnone, List.length_nil]
        · exact length_flatten_products left right }
  else
    .error (.violation .shape)

theorem mul_eq_ok [Add α] [Zero α] [Mul α] {left right : Matrix α}
    (hfit : left.width = right.height) :
    left.mul right =
      .ok (ofRows right.width (products left right) fun _ => length_of_mem_products) := by
  rw [mul, if_pos hfit]
  congr 1
  ext1
  · simp [ofRows, length_products]
  · rfl
  · show (if _ then _ else _) = _
    split
    · next hnone =>
        refine (List.eq_nil_of_length_eq_zero ?_).symm
        exact (length_flatten_products left right).trans hnone
    · rfl

def addRow [Add α] (matrix : Matrix α) (row : List α) : Except Error (Matrix α) :=
  if hwidth : row.length = matrix.width then
    .ok (ofRows matrix.width (matrix.rows.map fun line => List.zipWith (· + ·) line row) (by
      simp only [List.mem_map, forall_exists_index, and_imp, forall_apply_eq_imp_iff₂,
        List.length_zipWith]
      intro line hline
      rw [length_of_mem_rows hline, hwidth, Nat.min_self]))
  else
    .error (.violation .shape)

def firstColumn (matrix : Matrix α) : Except Error (List α) :=
  if matrix.width = 0 then .error (.violation .shape)
  else .ok (matrix.rows.filterMap List.head?)

end Matrix

/-- The mean; of nothing it is the quotient of zero by zero. -/
def mean {α : Type} [Add α] [Zero α] [Div α] [NatCast α] (values : List α) : α :=
  values.sum / (values.length : α)

end Polarity
