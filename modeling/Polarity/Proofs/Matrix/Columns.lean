import Polarity.Proofs.Matrix

/-!
# Matrices of one column

A matrix of one column is a vector written as a matrix.  Each operation on such
matrices is an operation on the vectors; in particular a product with one is a
product with the vector, and fails alike.
-/

namespace Polarity.Matrix

variable {α β γ : Type}

def ofColumn (column : List α) : Matrix α := ⟨column.length, 1, column, by simp⟩

private theorem ofColumn_eq_ofRows (column : List α)
    (hrows : ∀ row ∈ column.map ([·]), row.length = 1) :
    ofColumn column = ofRows 1 (column.map ([·])) hrows := by
  ext1
  · simp [ofColumn, ofRows]
  · rfl
  · simp [ofColumn, ofRows, ← List.flatMap_def]

@[simp] theorem rows_ofColumn (column : List α) : (ofColumn column).rows = column.map ([·]) := by
  have hrows : ∀ row ∈ column.map ([·]), row.length = 1 := by simp
  rw [ofColumn_eq_ofRows column hrows, rows_ofRows]

@[simp] theorem columns_ofColumn (column : List α) : (ofColumn column).columns = [column] := by
  rw [columns, rows_ofColumn]
  change columnsOf 1 _ = _
  induction column with
  | nil => rfl
  | cons entry column ih => rw [List.map_cons, columnsOf_cons, ih]; rfl

theorem firstColumn_ofColumn (column : List α) : (ofColumn column).firstColumn = .ok column := by
  rw [firstColumn, if_neg (by simp [ofColumn]), rows_ofColumn]
  simp [List.filterMap_map, Function.comp_def]

theorem map_ofColumn (f : α → β) (column : List α) :
    (ofColumn column).map f = ofColumn (column.map f) := by
  ext1 <;> simp [ofColumn, map]

theorem zipWith_ofColumn (f : α → β → γ) {column : List α} {other : List β}
    (hlength : column.length = other.length) :
    (ofColumn column).zipWith f (ofColumn other) =
      .ok (ofColumn (List.zipWith f column other)) := by
  rw [zipWith, dif_pos ⟨hlength, rfl⟩]
  congr 1
  ext1 <;> simp [ofColumn, hlength]

theorem addRow_ofColumn [Add α] (column : List α) (entry : α) :
    (ofColumn column).addRow [entry] = .ok (ofColumn (column.map (· + entry))) := by
  have hcolumn : (ofColumn column).HasShape column.length 1 := ⟨rfl, rfl⟩
  have hentry : [entry].length = 1 := rfl
  obtain ⟨sum, hsum, hshape⟩ := hcolumn.addRow hentry
  rw [hsum]
  congr 1
  apply eq_of_rows hshape.width_eq
  simp [rows_of_addRow hsum]

theorem mul_ofColumn [Add α] [Zero α] [Mul α] (matrix : Matrix α) (column : List α) :
    matrix.mul (ofColumn column) = (matrix.mulVec column).map ofColumn := by
  have hheight : (ofColumn column).height = column.length := rfl
  by_cases hfit : matrix.width = column.length
  · rw [mul_eq_ok (hfit.trans hheight.symm), mulVec, if_pos hfit, Except.map]
    congr 1
    refine eq_of_rows ?_ ?_
    · rfl
    · simp [products]
  · rw [mul, hheight, if_neg hfit, mulVec, if_neg hfit, Except.map]

end Polarity.Matrix
