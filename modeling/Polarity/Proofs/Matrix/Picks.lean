import Polarity.Proofs.Matrix.Entries
import Polarity.Proofs.Selection

/-!
# Operations that work row by row

An operation that makes each row of its result from one row of its operand does
the same to some of the rows: it commutes with picking rows, and fails alike.
-/

namespace Polarity.Matrix

variable {α β γ : Type}

def pick (places : List Nat) (matrix : Matrix α) : Matrix α :=
  ofRows matrix.width (Polarity.pick matrix.rows places)
    fun _ hrow => length_of_mem_rows (mem_of_mem_pick hrow)

@[simp] theorem rows_pick (places : List Nat) (matrix : Matrix α) :
    (matrix.pick places).rows = Polarity.pick matrix.rows places := rows_ofRows _

theorem rowsAt_eq_pick {places : List Nat} {matrix : Matrix α}
    (hplaces : ∀ place ∈ places, place < matrix.height) :
    matrix.rowsAt places hplaces = matrix.pick places := by
  apply eq_of_rows
  · rfl
  · rw [rowsAt, rows_ofRows, rows_pick, itemsAt_eq_pick]

theorem rows_ofRow (row : List α) : (ofRow row).rows = [row] := by
  simp [rows_eq_cut, ofRow, cut]

private theorem rows_pick_singleton {matrix : Matrix α} {place : Nat} {row : List α}
    (hrow : matrix.rows[place]? = some row) : (matrix.pick [place]).rows = [row] := by
  simp [Polarity.pick, hrow]

theorem pick_singleton {matrix : Matrix α} {place : Nat} {row : List α}
    (hrow : matrix.rows[place]? = some row) : matrix.pick [place] = .ofRow row := by
  apply eq_of_rows
  · exact (length_of_mem_rows (List.mem_of_getElem? hrow)).symm
  · rw [rows_pick_singleton hrow, rows_ofRow]

theorem HasShape.pick {rows width : Nat} {matrix : Matrix α} (hmatrix : matrix.HasShape rows width)
    {place : Nat} (hplace : place < rows) : (matrix.pick [place]).HasShape 1 width := by
  obtain ⟨row, hrow, -⟩ := exists_row (hmatrix.height_eq ▸ hplace)
  refine ⟨?_, hmatrix.width_eq⟩
  rw [← length_rows, rows_pick_singleton hrow, List.length_singleton]

theorem entry_pick [Zero α] {matrix : Matrix α} {place : Nat} (hplace : place < matrix.height)
    (j : Nat) : (matrix.pick [place]).entry 0 j = matrix.entry place j := by
  obtain ⟨row, hrow, -⟩ := exists_row hplace
  rw [entry_of_row hrow, entry, rows_pick_singleton hrow]
  rfl

theorem map_pick (f : α → β) (places : List Nat) (matrix : Matrix α) :
    (matrix.pick places).map f = (matrix.map f).pick places := by
  apply eq_of_rows
  · rfl
  · simp [pick_map]

theorem mul_pick [Add α] [Zero α] [Mul α] (places : List Nat) (left right : Matrix α) :
    (left.pick places).mul right = (left.mul right).map (pick places) := by
  by_cases hfit : left.width = right.height
  · have hpicked : (left.pick places).width = right.height := hfit
    rw [mul_eq_ok hfit, mul_eq_ok hpicked, Except.map]
    congr 1
    apply eq_of_rows
    · rfl
    · simp [products, pick_map]
  · have hpicked : (left.pick places).width ≠ right.height := hfit
    rw [mul, mul, if_neg hfit, if_neg hpicked, Except.map]

theorem addRow_pick [Add α] (places : List Nat) (matrix : Matrix α) (row : List α) :
    (matrix.pick places).addRow row = (matrix.addRow row).map (pick places) := by
  by_cases hfit : row.length = matrix.width
  · have hpicked : row.length = (matrix.pick places).width := hfit
    rw [addRow, addRow, dif_pos hfit, dif_pos hpicked, Except.map]
    congr 1
    apply eq_of_rows
    · rfl
    · simp [pick_map]
  · have hpicked : row.length ≠ (matrix.pick places).width := hfit
    rw [addRow, addRow, dif_neg hfit, dif_neg hpicked, Except.map]

theorem zipWith_pick {f : α → β → γ} {left : Matrix α} {right : Matrix β} {joined : Matrix γ}
    (hjoined : left.zipWith f right = .ok joined) (places : List Nat) :
    (left.pick places).zipWith f (right.pick places) = .ok (joined.pick places) := by
  obtain ⟨hleft, hright⟩ := shape_of_zipWith hjoined
  have hrows : left.rows.length = right.rows.length := by
    rw [length_rows, length_rows, hleft.height_eq, hright.height_eq]
  have hleft : (left.pick places).HasShape (left.pick places).height joined.width :=
    ⟨rfl, hleft.width_eq⟩
  have hright : (right.pick places).HasShape (left.pick places).height joined.width :=
    ⟨(length_pick_congr hrows places).symm, hright.width_eq⟩
  obtain ⟨picked, hpicked, hshape⟩ := hleft.zipWith hright f
  have hwidth : picked.width = (joined.pick places).width := hshape.width_eq
  rw [hpicked]
  congr 1
  apply eq_of_rows hwidth
  rw [rows_of_zipWith hpicked, rows_pick, rows_pick, rows_pick, rows_of_zipWith hjoined,
    pick_zipWith _ hrows]

end Polarity.Matrix
