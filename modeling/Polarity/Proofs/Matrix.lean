import Polarity.Matrix

/-!
# Rows and shapes

What each matrix operation does to the rows, and the shape of its result.  An
operation on operands whose shapes fit gives a matrix; nothing is assumed of the
scalars.
-/

namespace Polarity

variable {α β γ : Type}

/-! ## Outcomes -/

theorem ok_bind (value : α) (next : α → Except Error β) :
    (Except.ok value >>= next) = next value := rfl

theorem bind_eq_ok {outcome : Except Error α} {next : α → Except Error β} {value : β} :
    (outcome >>= next) = .ok value ↔ ∃ first, outcome = .ok first ∧ next first = .ok value := by
  cases outcome with
  | error error => exact ⟨nofun, nofun⟩
  | ok first => simp [ok_bind]

theorem ite_throw_eq_ok_iff {condition : Prop} [Decidable condition] {error : Error}
    {next : PUnit → Except Error α} {value : α} :
    (if condition then (throw error >>= next) else next ⟨⟩) = .ok value ↔
      ¬condition ∧ next ⟨⟩ = .ok value := by
  split
  · next hcondition => exact ⟨nofun, fun hrest => absurd hcondition hrest.1⟩
  · next hcondition => exact ⟨fun hrest => ⟨hcondition, hrest⟩, fun hrest => hrest.2⟩

namespace Matrix

/-! ## Rows -/

@[simp] theorem rows_take (count : Nat) (matrix : Matrix α) :
    (matrix.take count).rows = matrix.rows.take count := rows_ofRows _

@[simp] theorem rows_drop (count : Nat) (matrix : Matrix α) :
    (matrix.drop count).rows = matrix.rows.drop count := rows_ofRows _

theorem height_take (count : Nat) (matrix : Matrix α) :
    (matrix.take count).height = min count matrix.height := by
  rw [← length_rows, rows_take, List.length_take, length_rows]

theorem height_drop (count : Nat) (matrix : Matrix α) :
    (matrix.drop count).height = matrix.height - count := by
  rw [← length_rows, rows_drop, List.length_drop, length_rows]

private theorem append_eq_ofRows (upper lower : Matrix α) (hwidth : upper.width = lower.width)
    (hrows : ∀ row ∈ upper.rows ++ lower.rows, row.length = upper.width) :
    upper.append lower hwidth = ofRows upper.width (upper.rows ++ lower.rows) hrows := by
  ext1
  · simp [append, ofRows]
  · rfl
  · simp [append, ofRows]

@[simp] theorem rows_append (upper lower : Matrix α) (hwidth : upper.width = lower.width) :
    (upper.append lower hwidth).rows = upper.rows ++ lower.rows := by
  have hrows : ∀ row ∈ upper.rows ++ lower.rows, row.length = upper.width := by
    intro row hrow
    rcases List.mem_append.mp hrow with hrow | hrow
    · exact length_of_mem_rows hrow
    · exact hwidth ▸ length_of_mem_rows hrow
  rw [append_eq_ofRows upper lower hwidth hrows, rows_ofRows]

private theorem map_eq_ofRows (f : α → β) (matrix : Matrix α)
    (hrows : ∀ row ∈ matrix.rows.map (List.map f), row.length = matrix.width) :
    matrix.map f = ofRows matrix.width (matrix.rows.map (List.map f)) hrows := by
  ext1
  · simp [map, ofRows]
  · rfl
  · simp [map, ofRows, ← List.map_flatten]

@[simp] theorem rows_map (f : α → β) (matrix : Matrix α) :
    (matrix.map f).rows = matrix.rows.map (List.map f) := by
  have hrows : ∀ row ∈ matrix.rows.map (List.map f), row.length = matrix.width := by
    intro row hrow
    obtain ⟨line, hline, rfl⟩ := List.mem_map.mp hrow
    rw [List.length_map, length_of_mem_rows hline]
  rw [map_eq_ofRows f matrix hrows, rows_ofRows]

theorem rows_of_mul [Add α] [Zero α] [Mul α] {left right product : Matrix α}
    (hproduct : left.mul right = .ok product) : product.rows = products left right := by
  unfold mul at hproduct
  split at hproduct
  · next hfit =>
      have hmul := mul_eq_ok hfit
      rw [mul, if_pos hfit, hproduct] at hmul
      rw [Except.ok.inj hmul, rows_ofRows]
  · simp at hproduct

theorem rows_of_addRow [Add α] {matrix sum : Matrix α} {row : List α}
    (hsum : matrix.addRow row = .ok sum) :
    sum.rows = matrix.rows.map fun line => List.zipWith (· + ·) line row := by
  unfold addRow at hsum
  split at hsum
  · rw [← Except.ok.inj hsum, rows_ofRows]
  · simp at hsum

private theorem flatten_zipWith {width : Nat} (f : α → β → γ) {rows : List (List α)}
    {others : List (List β)} (hrows : ∀ row ∈ rows, row.length = width)
    (hothers : ∀ row ∈ others, row.length = width) :
    (List.zipWith (List.zipWith f) rows others).flatten =
      List.zipWith f rows.flatten others.flatten := by
  induction rows generalizing others with
  | nil => simp
  | cons row rows ih =>
      cases others with
      | nil => simp
      | cons other others =>
          have hrow : row.length = width := hrows row List.mem_cons_self
          have hother : other.length = width := hothers other List.mem_cons_self
          have hrest := ih (fun row hrow => hrows row (List.mem_cons_of_mem _ hrow))
            (fun other hother => hothers other (List.mem_cons_of_mem _ hother))
          rw [List.zipWith_cons_cons, List.flatten_cons, List.flatten_cons, List.flatten_cons,
            List.zipWith_append (hrow.trans hother.symm), hrest]

theorem rows_of_zipWith {f : α → β → γ} {left : Matrix α} {right : Matrix β} {joined : Matrix γ}
    (hjoined : left.zipWith f right = .ok joined) :
    joined.rows = List.zipWith (List.zipWith f) left.rows right.rows := by
  unfold zipWith at hjoined
  split at hjoined
  · next hshape =>
      have hleft : ∀ row ∈ left.rows, row.length = left.width := fun _ => length_of_mem_rows
      have hright : ∀ row ∈ right.rows, row.length = left.width :=
        fun _ hrow => (length_of_mem_rows hrow).trans hshape.2.symm
      have hrows : ∀ row ∈ List.zipWith (List.zipWith f) left.rows right.rows,
          row.length = left.width := by
        intro row hrow
        obtain ⟨i, hi, rfl⟩ := List.mem_iff_getElem.mp hrow
        rw [List.getElem_zipWith, List.length_zipWith, hleft _ (List.getElem_mem _),
          hright _ (List.getElem_mem _), Nat.min_self]
      rw [← Except.ok.inj hjoined, ← rows_ofRows hrows]
      congr 1
      ext1
      · simp [ofRows, hshape.1]
      · rfl
      · simp [ofRows, flatten_zipWith f hleft hright]
  · simp at hjoined

/-! ## Shapes -/

structure HasShape (height width : Nat) (matrix : Matrix α) : Prop where
  height_eq : matrix.height = height
  width_eq : matrix.width = width

namespace HasShape

variable {height width inner : Nat} {matrix : Matrix α}

theorem map (hmatrix : matrix.HasShape height width) (f : α → β) :
    (matrix.map f).HasShape height width :=
  ⟨hmatrix.height_eq, hmatrix.width_eq⟩

theorem transpose (hmatrix : matrix.HasShape height width) :
    matrix.transpose.HasShape width height :=
  ⟨hmatrix.width_eq, hmatrix.height_eq⟩

theorem mul [Add α] [Zero α] [Mul α] {left right : Matrix α} (hleft : left.HasShape height inner)
    (hright : right.HasShape inner width) :
    ∃ product, left.mul right = .ok product ∧ product.HasShape height width := by
  refine ⟨_, if_pos (hleft.width_eq.trans hright.height_eq.symm), hleft.height_eq, hright.width_eq⟩

theorem addRow [Add α] (hmatrix : matrix.HasShape height width) {row : List α}
    (hrow : row.length = width) :
    ∃ sum, matrix.addRow row = .ok sum ∧ sum.HasShape height width := by
  refine ⟨_, dif_pos (hrow.trans hmatrix.width_eq.symm), ?_, hmatrix.width_eq⟩
  simp [ofRows, hmatrix.height_eq]

theorem zipWith {other : Matrix β} (hmatrix : matrix.HasShape height width)
    (hother : other.HasShape height width) (f : α → β → γ) :
    ∃ joined, matrix.zipWith f other = .ok joined ∧ joined.HasShape height width := by
  refine ⟨_, dif_pos ⟨?_, ?_⟩, hmatrix.height_eq, hmatrix.width_eq⟩
  · rw [hmatrix.height_eq, hother.height_eq]
  · rw [hmatrix.width_eq, hother.width_eq]

theorem mulVec [Add α] [Zero α] [Mul α] (hmatrix : matrix.HasShape height width)
    {vector : List α} (hvector : vector.length = width) :
    ∃ sums, matrix.mulVec vector = .ok sums ∧ sums.length = height := by
  refine ⟨_, if_pos (hmatrix.width_eq.trans hvector.symm), ?_⟩
  rw [List.length_map, length_rows, hmatrix.height_eq]

theorem firstColumn (hmatrix : matrix.HasShape height width) (hwidth : width ≠ 0) :
    ∃ column, matrix.firstColumn = .ok column ∧ column.length = height := by
  have hsome : ∀ row ∈ matrix.rows, row.head?.isSome := by
    intro row hrow
    cases row with
    | nil => exact absurd ((length_of_mem_rows hrow).trans hmatrix.width_eq).symm hwidth
    | cons entry row => rfl
  refine ⟨_, if_neg (hmatrix.width_eq ▸ hwidth), ?_⟩
  rw [List.length_filterMap_eq_countP, List.countP_eq_length.mpr hsome, length_rows,
    hmatrix.height_eq]

end HasShape

theorem width_of_mulVec [Add α] [Zero α] [Mul α] {matrix : Matrix α} {vector sums : List α}
    (hsums : matrix.mulVec vector = .ok sums) : matrix.width = vector.length := by
  unfold mulVec at hsums
  split at hsums
  · next hfit => exact hfit
  · contradiction

theorem shape_of_mul [Add α] [Zero α] [Mul α] {left right product : Matrix α}
    (hproduct : left.mul right = .ok product) :
    left.width = right.height ∧ product.HasShape left.height right.width := by
  unfold mul at hproduct
  split at hproduct
  · next hfit =>
      rw [← Except.ok.inj hproduct]
      exact ⟨hfit, rfl, rfl⟩
  · simp at hproduct

theorem shape_of_addRow [Add α] {matrix sum : Matrix α} {row : List α}
    (hsum : matrix.addRow row = .ok sum) :
    row.length = matrix.width ∧ sum.HasShape matrix.height matrix.width := by
  unfold addRow at hsum
  split at hsum
  · next hwidth =>
      rw [← Except.ok.inj hsum]
      exact ⟨hwidth, by simp [ofRows], rfl⟩
  · simp at hsum

theorem shape_of_zipWith {f : α → β → γ} {left : Matrix α} {right : Matrix β} {joined : Matrix γ}
    (hjoined : left.zipWith f right = .ok joined) :
    left.HasShape joined.height joined.width ∧ right.HasShape joined.height joined.width := by
  unfold zipWith at hjoined
  split at hjoined
  · next hshape =>
      rw [← Except.ok.inj hjoined]
      exact ⟨⟨rfl, rfl⟩, hshape.1.symm, hshape.2.symm⟩
  · simp at hjoined

end Matrix

end Polarity
