import Mathlib.Algebra.BigOperators.Ring.Finset
import Polarity.Proofs.Matrix

/-!
# Entries

Over numbers with the usual laws, the operations are those of matrices: an entry
of a product is a sum of products, an entry of a transpose is the entry in the
mirrored place.
-/

namespace Polarity.Matrix

open Finset (range)

variable {α β γ : Type}

/-! ## Sums over lists -/

theorem sum_eq_sum_getD [AddCommMonoid α] (values : List α) :
    values.sum = ∑ k ∈ range values.length, values.getD k 0 := by
  induction values with
  | nil => simp
  | cons value values ih =>
      rw [List.sum_cons, List.length_cons, Finset.sum_range_succ', add_comm, ih]
      simp

theorem sum_map_eq_sum_getD [AddCommMonoid α] (f : β → α) (items : List β) (default : β) :
    (items.map f).sum = ∑ k ∈ range items.length, f (items.getD k default) := by
  rw [sum_eq_sum_getD, List.length_map]
  apply Finset.sum_congr rfl
  intro k hk
  have hk := Finset.mem_range.mp hk
  simp [hk]

theorem inner_eq_sum [NonUnitalNonAssocSemiring α] {length : Nat} {left right : List α}
    (hleft : left.length = length) (hright : right.length = length) :
    inner left right = ∑ k ∈ range length, left.getD k 0 * right.getD k 0 := by
  have hlength : (List.zipWith (· * ·) left right).length = length := by simp [hleft, hright]
  rw [inner, sum_eq_sum_getD, hlength]
  apply Finset.sum_congr rfl
  intro k hk
  have hk := Finset.mem_range.mp hk
  simp [hleft, hright, hk]

theorem inner_map [Add α] [Zero α] [Mul α] (items : List β) (f g : β → α) :
    inner (items.map f) (items.map g) = (items.map fun item => f item * g item).sum := by
  simp [inner, List.zipWith_map, List.zipWith_self]

theorem getD_zipWith [Zero α] [Zero β] [Zero γ] {f : α → β → γ} (hzero : f 0 0 = 0)
    {left : List α} {right : List β} (hlength : left.length = right.length) (k : Nat) :
    (List.zipWith f left right).getD k 0 = f (left.getD k 0) (right.getD k 0) := by
  by_cases hk : k < right.length
  · simp [hlength, hk]
  · simp [hlength, hk, hzero]

theorem eq_of_getD [Zero α] {left right : List α} (hlength : left.length = right.length)
    (hequal : ∀ k < left.length, left.getD k 0 = right.getD k 0) : left = right := by
  apply List.ext_getElem hlength
  intro k hk hk'
  simpa [hk, hk'] using hequal k hk

/-! ## Entries of the operations -/

/-- The entry in a row and a column; beyond the matrix it is zero. -/
def entry [Zero α] (matrix : Matrix α) (i j : Nat) : α := (matrix.rows.getD i []).getD j 0

theorem exists_row {matrix : Matrix α} {i : Nat} (hi : i < matrix.height) :
    ∃ row, matrix.rows[i]? = some row ∧ row.length = matrix.width := by
  have hrow : i < matrix.rows.length := by rwa [length_rows]
  exact ⟨matrix.rows[i], List.getElem?_eq_getElem hrow, length_of_mem_rows (List.getElem_mem hrow)⟩

theorem entry_of_row [Zero α] {matrix : Matrix α} {i : Nat} {row : List α}
    (hrow : matrix.rows[i]? = some row) (j : Nat) : matrix.entry i j = row.getD j 0 := by
  simp [entry, hrow]

theorem entry_eq_zero [Zero α] {matrix : Matrix α} {i j : Nat}
    (hbeyond : ¬(i < matrix.height ∧ j < matrix.width)) : matrix.entry i j = 0 := by
  by_cases hi : i < matrix.height
  · obtain ⟨row, hrow, hlength⟩ := exists_row hi
    rw [entry_of_row hrow, List.getD_eq_getElem?_getD, List.getElem?_eq_none (by omega),
      Option.getD_none]
  · simp [entry, hi]

theorem eq_of_entries [Zero α] {left right : Matrix α} {rows width : Nat}
    (hleft : left.HasShape rows width) (hright : right.HasShape rows width)
    (hequal : ∀ i < rows, ∀ j < width, left.entry i j = right.entry i j) : left = right := by
  apply eq_of_rows (hleft.width_eq.trans hright.width_eq.symm)
  apply List.ext_getElem
  · simp [hleft.height_eq, hright.height_eq]
  · intro i hi hi'
    have hrow : i < rows := by simpa [hleft.height_eq] using hi
    have hlength := length_of_mem_rows (List.getElem_mem hi)
    have hlength' := length_of_mem_rows (List.getElem_mem hi')
    rw [hleft.width_eq] at hlength
    rw [hright.width_eq] at hlength'
    apply eq_of_getD (hlength.trans hlength'.symm)
    intro j hj
    have hentry := hequal i hrow j (hlength ▸ hj)
    rwa [entry_of_row (List.getElem?_eq_getElem hi), entry_of_row (List.getElem?_eq_getElem hi')]
      at hentry

theorem entry_map [Zero α] [Zero β] (f : α → β) {matrix : Matrix α} {i j : Nat}
    (hi : i < matrix.height) (hj : j < matrix.width) :
    (matrix.map f).entry i j = f (matrix.entry i j) := by
  obtain ⟨row, hrow, hlength⟩ := exists_row hi
  have hmapped : (matrix.map f).rows[i]? = some (row.map f) := by simp [hrow]
  rw [entry_of_row hmapped, entry_of_row hrow]
  simp [hlength, hj]

theorem entry_of_zipWith [Zero α] [Zero β] [Zero γ] {f : α → β → γ} {left : Matrix α}
    {right : Matrix β} {joined : Matrix γ} (hjoined : left.zipWith f right = .ok joined) {i j : Nat}
    (hi : i < joined.height) (hj : j < joined.width) :
    joined.entry i j = f (left.entry i j) (right.entry i j) := by
  obtain ⟨hleft, hright⟩ := shape_of_zipWith hjoined
  obtain ⟨row, hrow, hlength⟩ := exists_row (hleft.height_eq ▸ hi)
  obtain ⟨other, hother, hotherLength⟩ := exists_row (hright.height_eq ▸ hi)
  have hboth : joined.rows[i]? = some (List.zipWith f row other) := by
    simp [rows_of_zipWith hjoined, List.getElem?_zipWith, hrow, hother]
  rw [entry_of_row hboth, entry_of_row hrow, entry_of_row hother]
  simp [hlength, hotherLength, hleft.width_eq, hright.width_eq, hj]

private theorem getD_columnsOf [Zero α] {width : Nat} {rows : List (List α)}
    (hrows : ∀ row ∈ rows, row.length = width) (i j : Nat) :
    ((columnsOf width rows).getD j []).getD i 0 = (rows.getD i []).getD j 0 := by
  by_cases hj : j < width
  · induction rows generalizing i with
    | nil => simp [columnsOf, hj]
    | cons row rows ih =>
        have hrow : row.length = width := hrows row List.mem_cons_self
        have hlater : ∀ row ∈ rows, row.length = width :=
          fun row hrow => hrows row (List.mem_cons_of_mem _ hrow)
        have hcolumns := length_columnsOf hlater
        rw [columnsOf_cons]
        cases i with
        | zero => simp [hrow, hcolumns, hj]
        | succ i => simpa [hrow, hcolumns, hj] using ih hlater i
  · have hcolumns := length_columnsOf hrows
    by_cases hi : i < rows.length
    · have hrow := hrows rows[i] (List.getElem_mem hi)
      simp [hcolumns, hi, hrow, hj]
    · simp [hcolumns, hi, hj]

theorem entry_transpose [Zero α] (matrix : Matrix α) (i j : Nat) :
    matrix.transpose.entry i j = matrix.entry j i := by
  rw [entry, rows_transpose, columns, getD_columnsOf fun _ => length_of_mem_rows]
  rfl

theorem getElem?_columns [Zero α] {matrix : Matrix α} {j : Nat} (hj : j < matrix.width) :
    matrix.columns[j]? = some (matrix.rows.map (·.getD j 0)) := by
  have hheight : j < matrix.transpose.height := hj
  obtain ⟨column, hcolumn, hlength⟩ := exists_row hheight
  have hlength : column.length = matrix.height := hlength
  rw [← rows_transpose, hcolumn]
  congr 1
  apply eq_of_getD
  · rw [hlength, List.length_map, length_rows]
  · intro i hi
    obtain ⟨row, hrow, -⟩ := exists_row (hlength ▸ hi)
    rw [← entry_of_row hcolumn, entry_transpose, entry_of_row hrow]
    simp [hrow]

theorem entry_of_mul [NonUnitalNonAssocSemiring α] {left right product : Matrix α}
    (hproduct : left.mul right = .ok product) {i j : Nat} (hi : i < product.height)
    (hj : j < product.width) :
    product.entry i j = ∑ k ∈ range left.width, left.entry i k * right.entry k j := by
  obtain ⟨hfit, hshape⟩ := shape_of_mul hproduct
  obtain ⟨row, hrow, hlength⟩ := exists_row (hshape.height_eq ▸ hi)
  have hheight : j < right.transpose.height := by
    rw [hshape.width_eq] at hj
    exact hj
  obtain ⟨column, hcolumn, hcolumnLength⟩ := exists_row hheight
  have hsums : product.rows[i]? = some (right.columns.map (inner row)) := by
    simp [rows_of_mul hproduct, products, hrow]
  have hcolumn' := rows_transpose right ▸ hcolumn
  rw [entry_of_row hsums, List.getD_eq_getElem?_getD, List.getElem?_map, hcolumn']
  simp only [Option.map_some, Option.getD_some]
  rw [inner_eq_sum hlength (hcolumnLength.trans hfit.symm)]
  simp only [entry_of_row hrow, ← entry_of_row hcolumn, entry_transpose]

theorem entry_of_addRow [AddZeroClass α] {matrix sum : Matrix α} {row : List α}
    (hsum : matrix.addRow row = .ok sum) {i j : Nat} (hi : i < sum.height) (hj : j < sum.width) :
    sum.entry i j = matrix.entry i j + row.getD j 0 := by
  obtain ⟨hrow, hshape⟩ := shape_of_addRow hsum
  obtain ⟨line, hline, hlength⟩ := exists_row (hshape.height_eq ▸ hi)
  have hadded : sum.rows[i]? = some (List.zipWith (· + ·) line row) := by
    simp [rows_of_addRow hsum, hline]
  rw [entry_of_row hadded, entry_of_row hline]
  simp [hlength, hrow, hshape.width_eq ▸ hj]

end Polarity.Matrix
