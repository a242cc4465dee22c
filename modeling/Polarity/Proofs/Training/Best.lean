import Mathlib
import Polarity.Proofs.Numerics
import Polarity.Training.Metrics

/-!
# The best row of a history

A history is scanned once, and a row is kept until a strictly lower validation loss
comes.  What holds of the rows scanned so far is carried from row to row: if none was
kept, none is below the ceiling; the row that is kept is not above any other, and all
rows before it are higher or are no numbers.
-/

namespace Polarity.Metrics

variable {ceiling : Float} {history : List (Metrics Float)} {best next : Metrics Float}

/-- The row at a place is the first of the lowest rows, and is below the ceiling. -/
structure IsEarliestLowest (ceiling : Float) (history : List (Metrics Float))
    (best : Metrics Float) (place : Nat) : Prop where
  found : history[place]? = some best
  below : best.valLoss < ceiling
  lowest : ∀ row ∈ history, ¬row.valLoss < best.valLoss
  earliest : ∀ earlier < place, ∀ row, history[earlier]? = some row →
    row.valLoss.isNaN = true ∨ best.valLoss < row.valLoss

namespace IsEarliestLowest

variable {place : Nat}

theorem last {bar : Float} (hbelow : next.valLoss < ceiling) (hbar : next.valLoss < bar)
    (hrows : ∀ row ∈ history, ¬row.valLoss < bar) :
    IsEarliestLowest ceiling (history ++ [next]) next history.length where
  found := List.getElem?_concat_length
  below := hbelow
  lowest := by
    rw [List.forall_mem_append, List.forall_mem_singleton]
    exact ⟨fun row hrow hlt => hrows row hrow (Double.lt_trans hlt hbar), Double.not_lt_self _⟩
  earliest := by
    intro earlier hearlier row hrow
    rw [List.getElem?_append_left hearlier] at hrow
    exact Double.lt_of_lt_of_not_lt hbar (hrows row (List.mem_of_getElem? hrow))

theorem append (hbest : IsEarliestLowest ceiling history best place)
    (hnext : ¬next.valLoss < best.valLoss) :
    IsEarliestLowest ceiling (history ++ [next]) best place := by
  obtain ⟨hplace, -⟩ := List.getElem?_eq_some_iff.mp hbest.found
  refine ⟨?_, hbest.below, ?_, ?_⟩
  · rw [List.getElem?_append_left hplace, hbest.found]
  · rw [List.forall_mem_append, List.forall_mem_singleton]
    exact ⟨hbest.lowest, hnext⟩
  · intro earlier hearlier row hrow
    rw [List.getElem?_append_left (hearlier.trans hplace)] at hrow
    exact hbest.earliest earlier hearlier row hrow

end IsEarliestLowest

/-! ## Scanning a history -/

def bar (ceiling : Float) (kept : Option (Metrics Float)) : Float :=
  (kept.map valLoss).getD ceiling

theorem better_eq (ceiling : Float) (kept : Option (Metrics Float)) (next : Metrics Float) :
    better ceiling kept next = if next.valLoss < bar ceiling kept then some next else kept := by
  unfold better improves
  by_cases hnext : next.valLoss < bar ceiling kept
  · rw [if_pos hnext]
    exact if_pos (decide_eq_true hnext)
  · rw [if_neg hnext]
    exact if_neg fun hless => hnext (of_decide_eq_true hless)

def Scanned (ceiling : Float) (history : List (Metrics Float)) : Option (Metrics Float) → Prop
  | none => ∀ row ∈ history, ¬row.valLoss < ceiling
  | some best => ∃ place, IsEarliestLowest ceiling history best place

namespace Scanned

variable {kept : Option (Metrics Float)}

private theorem not_lt_bar (hkept : Scanned ceiling history kept) :
    ∀ row ∈ history, ¬row.valLoss < bar ceiling kept := by
  cases kept with
  | none => exact hkept
  | some best =>
      obtain ⟨place, hbest⟩ := hkept
      exact hbest.lowest

private theorem lt_ceiling (hkept : Scanned ceiling history kept) {loss : Float}
    (hloss : loss < bar ceiling kept) : loss < ceiling := by
  cases kept with
  | none => exact hloss
  | some best =>
      obtain ⟨place, hbest⟩ := hkept
      exact Double.lt_trans hloss hbest.below

theorem better (hkept : Scanned ceiling history kept) (next : Metrics Float) :
    Scanned ceiling (history ++ [next]) (better ceiling kept next) := by
  rw [better_eq]
  split
  · next hnext => exact ⟨history.length, .last (hkept.lt_ceiling hnext) hnext hkept.not_lt_bar⟩
  · next hnext =>
      cases kept with
      | none => exact List.forall_mem_append.mpr ⟨hkept, List.forall_mem_singleton.mpr hnext⟩
      | some best =>
          obtain ⟨place, hbest⟩ := hkept
          exact ⟨place, hbest.append hnext⟩

end Scanned

theorem scanned_best? (ceiling : Float) (history : List (Metrics Float)) :
    Scanned ceiling history (best? ceiling history) := by
  induction history using List.reverseRecOn with
  | nil => exact fun row hrow => absurd hrow List.not_mem_nil
  | append_singleton history next ih =>
      rw [best?, List.foldl_append, List.foldl_cons, List.foldl_nil]
      exact ih.better next

theorem best?_eq_none_iff (ceiling : Float) (history : List (Metrics Float)) :
    best? ceiling history = none ↔ ∀ row ∈ history, ¬row.valLoss < ceiling := by
  have hscanned := scanned_best? ceiling history
  cases hbest : best? ceiling history with
  | none =>
      rw [hbest] at hscanned
      exact iff_of_true rfl hscanned
  | some best =>
      rw [hbest] at hscanned
      obtain ⟨place, hplace⟩ := hscanned
      refine iff_of_false (by simp) fun hrows => ?_
      exact hrows best (List.mem_of_getElem? hplace.found) hplace.below

theorem best?_filter (ceiling : Float) (history : List (Metrics Float)) :
    best? ceiling (history.filter fun row => !row.valLoss.isNaN) = best? ceiling history := by
  rw [best?, List.foldl_filter, best?]
  congr 1
  funext kept row
  cases hrow : row.valLoss.isNaN with
  | false => rfl
  | true =>
      rw [better_eq, if_neg (Double.not_lt_of_isNaN hrow _)]
      rfl

/--
No row is chosen if all are infinite or no numbers.  Otherwise the first of the lowest rows
is chosen, and rows that are no numbers have no say in it.
-/
theorem best_row_is_earliest_lowest (history : List (Metrics Float)) :
    (best? Numerics.double.infinity history = none ↔ ∀ row ∈ history,
      row.valLoss.isNaN = true ∨ row.valLoss = Numerics.double.infinity) ∧
    (∀ best, best? Numerics.double.infinity history = some best →
      ∃ place, IsEarliestLowest Numerics.double.infinity history best place) ∧
    ∀ other : List (Metrics Float),
      (other.filter fun row => !row.valLoss.isNaN) =
        (history.filter fun row => !row.valLoss.isNaN) →
      best? Numerics.double.infinity other = best? Numerics.double.infinity history := by
  refine ⟨?_, ?_, ?_⟩
  · simp only [best?_eq_none_iff, Double.not_lt_infinity_iff]
  · intro best hbest
    have hscanned := scanned_best? Numerics.double.infinity history
    rwa [hbest] at hscanned
  · intro other hother
    rw [← best?_filter, hother, best?_filter]

def tiedRows : List (Metrics Float) :=
  [⟨1, 0.7, 0.0 / 0.0, 0.5, 0.0⟩, ⟨2, 0.7, 1.0 / 0.0, 0.5, 0.5⟩, ⟨3, 0.5, 0.25, 0.7, 0.7⟩,
    ⟨4, 0.4, 0.0 / 0.0, 0.8, 0.7⟩, ⟨5, 0.3, 0.25, 0.9, 0.7⟩, ⟨6, 0.2, 0.5, 0.9, 0.6⟩]

theorem third_of_tiedRows_is_best :
    best? Numerics.double.infinity tiedRows = some ⟨3, 0.5, 0.25, 0.7, 0.7⟩ ∧
      (∃ place, IsEarliestLowest Numerics.double.infinity tiedRows ⟨3, 0.5, 0.25, 0.7, 0.7⟩ place) ∧
      best? Numerics.double.infinity
          [⟨2, 0.7, 1.0 / 0.0, 0.5, 0.5⟩, ⟨3, 0.5, 0.25, 0.7, 0.7⟩, ⟨5, 0.3, 0.25, 0.9, 0.7⟩,
            ⟨6, 0.2, 0.5, 0.9, 0.6⟩] =
        best? Numerics.double.infinity tiedRows := by
  have hbest : best? Numerics.double.infinity tiedRows = some ⟨3, 0.5, 0.25, 0.7, 0.7⟩ := by
    decide +kernel
  obtain ⟨-, hlowest, hothers⟩ := best_row_is_earliest_lowest tiedRows
  exact ⟨hbest, hlowest _ hbest, hothers _ (by decide +kernel)⟩

end Polarity.Metrics
