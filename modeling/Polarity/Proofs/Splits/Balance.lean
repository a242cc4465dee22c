import Mathlib
import Polarity.Proofs.Splits

/-!
# What a split takes from each class

Each class gives the training set half of the rows asked for, or all rows it has,
and the validation set the rest.  The counts are taken on origins, where the class
of a row can be seen, and carried over to the labels.
-/

namespace Polarity

open Polarity.Random
open Session

/-! ## Origins of one class -/

namespace Origin

private theorem countP_of_forall {origins : List Origin} {isPositive : Bool}
    (horigins : ∀ origin ∈ origins, origin.positive = isPositive) (wanted : Bool) :
    origins.countP (fun origin => origin.positive == wanted) =
      if isPositive = wanted then origins.length else 0 := by
  split
  · next hwanted =>
      apply List.countP_eq_length.mpr
      intro origin horigin
      simp [horigins origin horigin, hwanted]
  · next hother =>
      apply List.countP_eq_zero.mpr
      intro origin horigin
      simp [horigins origin horigin, hother]

private theorem positive_of_mem_shuffle {isPositive : Bool} {size : Nat} {generator : Generator}
    {origin : Origin}
    (horigin : origin ∈ (shuffle ((List.range size).map (mk isPositive)) generator).1) :
    origin.positive = isPositive := by
  have hmem := (shuffle_perm _ generator).mem_iff.mp horigin
  obtain ⟨place, -, rfl⟩ := List.mem_map.mp hmem
  rfl

private theorem length_shuffle_class (isPositive : Bool) (size : Nat) (generator : Generator) :
    (shuffle ((List.range size).map (mk isPositive)) generator).1.length = size := by
  rw [(shuffle_perm _ generator).length_eq, List.length_map, List.length_range]

/-- How many rows of a class are drawn for training, and how many are left. -/
theorem countP_split (isPositive : Bool) (positive negative trainSize : Nat)
    (generator : Generator) :
    let size := if isPositive then positive else negative
    let drawn := min (trainSize / 2) size
    (split positive negative trainSize generator).1.1.countP
        (fun origin => origin.positive == isPositive) = drawn ∧
      (split positive negative trainSize generator).1.2.countP
        (fun origin => origin.positive == isPositive) = size - drawn := by
  intro size drawn
  have hup := fun origin => @positive_of_mem_shuffle true positive generator origin
  have hdown := fun origin => @positive_of_mem_shuffle false negative
    (shuffle ((List.range positive).map (mk true)) generator).2 origin
  simp only [split, (shuffle_perm _ _).countP_eq, List.countP_append]
  rw [countP_of_forall (fun origin horigin => hup origin (List.mem_of_mem_take horigin)),
    countP_of_forall (fun origin horigin => hdown origin (List.mem_of_mem_take horigin)),
    countP_of_forall (fun origin horigin => hup origin (List.mem_of_mem_drop horigin)),
    countP_of_forall (fun origin horigin => hdown origin (List.mem_of_mem_drop horigin))]
  simp only [List.length_take, List.length_drop, length_shuffle_class, Split.quota]
  cases isPositive <;> simp [size, drawn] <;> omega

end Origin

/-! ## Labels -/

theorem Origin.label_beq (origin : Origin) (wanted : Bool) :
    ((origin.label : Float) == if wanted then 1 else 0) = (origin.positive == wanted) := by
  obtain ⟨positive, place⟩ := origin
  cases positive <;> cases wanted
  · change ((0 : Float) == 0) = true
    decide
  · change ((0 : Float) == 1) = false
    decide
  · change ((1 : Float) == 0) = false
    decide
  · change ((1 : Float) == 1) = true
    decide

namespace Lists

variable {row : Origin → List Float} {width : Nat} {origins : List Origin} {data : Dataset Float}

theorem countP_label (hdata : Lists row width origins data) (wanted : Bool) :
    data.labels.countP (· == if wanted then 1 else 0) =
      origins.countP fun origin => origin.positive == wanted := by
  have hlabels : data.labels = origins.map Origin.label := by
    rw [← Dataset.map_snd_pairs, hdata.pairs_eq, List.map_map]
    rfl
  rw [hlabels, List.countP_map]
  congr 1
  funext origin
  exact origin.label_beq wanted

end Lists

/-! ## The sets of a split -/

/--
The two sets of a split hold every row of the pools once, with the label of its
class; `half` rows of each class are for training, or all that there are.
-/
structure Split.Partitions (positive negative : Matrix Float) (half : Nat) (split : Split Float) :
    Prop where
  trainingPositives : split.training.positives = min half positive.height
  trainingNegatives : split.training.negatives = min half negative.height
  validationPositives : split.validation.positives = positive.height - min half positive.height
  validationNegatives : split.validation.negatives = negative.height - min half negative.height
  trainingWidth : split.training.width = positive.width
  validationWidth : split.validation.width = positive.width
  trainingLabels : split.training.labels.length = split.training.features.height
  validationLabels : split.validation.labels.length = split.validation.features.height
  perm : (split.training.pairs ++ split.validation.pairs).Perm
    (positive.rows.map (·, 1) ++ negative.rows.map (·, 0))

private theorem map_ofPools {positive negative : Matrix Float} :
    (Origin.ofPools positive.height negative.height).map
        (fun origin => (rowAt positive.rows negative.rows origin, (origin.label : Float))) =
      positive.rows.map (·, 1) ++ negative.rows.map (·, 0) := by
  have hpositive := (holds_positive positive negative).map_label
  have hnegative := (holds_negative positive negative).map_label
  rw [Origin.ofPools, List.map_append, ← hpositive, ← hnegative]
  rfl

theorem Split.draw_partitions {positive negative : Matrix Float}
    (hwidth : positive.width = negative.width) {trainSize : Nat}
    (hroom : Roomy positive.height negative.height (trainSize / 2)) (generator : Generator) :
    ∃ pools between split later,
      shufflePools positive negative generator = .ok (pools, between) ∧
      cut pools.1 pools.2 trainSize between = .ok (split, later) ∧
      split.Partitions positive negative (trainSize / 2) := by
  obtain ⟨pools, between, split, hpools, hcut, htraining, hvalidation⟩ :=
    Split.draw_eq_ok hwidth hroom generator
  have hperm := Origin.split_perm positive.height negative.height trainSize generator
  have hpositive := Origin.countP_split true positive.height negative.height trainSize generator
  have hnegative := Origin.countP_split false positive.height negative.height trainSize generator
  refine ⟨pools, between, split, _, hpools, hcut, ?_⟩
  constructor
  · exact (htraining.countP_label true).trans hpositive.1
  · exact (htraining.countP_label false).trans hnegative.1
  · exact (hvalidation.countP_label true).trans hpositive.2
  · exact (hvalidation.countP_label false).trans hnegative.2
  · exact htraining.width_eq
  · exact hvalidation.width_eq
  · exact split.training.height_eq.symm
  · exact split.validation.height_eq.symm
  · rw [htraining.pairs_eq, hvalidation.pairs_eq, ← List.map_append, ← map_ofPools]
    exact hperm.map _

/-! ## Pools that are refused -/

section Refused

variable {α : Type} {positive negative : Matrix α} {trainSize : Nat} {generator : Generator}

theorem Matrix.shape_of_shuffled {matrix shuffled : Matrix α} {later : Generator}
    (hshuffled : matrix.shuffled generator = .ok (shuffled, later)) :
    matrix.height < 2 ^ 60 ∧ shuffled.HasShape matrix.height matrix.width := by
  obtain ⟨_, hroom, -⟩ := bind_eq_ok.mp hshuffled
  rw [requireRoom_singleton] at hroom
  obtain ⟨other, hother, hwidth, hrows⟩ := Matrix.shuffled_eq_ok hroom generator
  obtain rfl : other = shuffled := by
    rw [hother] at hshuffled
    exact congrArg Prod.fst (Except.ok.inj hshuffled)
  refine ⟨hroom, ?_, hwidth⟩
  rw [← other.length_rows, hrows, (shuffle_perm _ _).length_eq, matrix.length_rows]

theorem Split.shape_of_shufflePools {pools : Matrix α × Matrix α} {later : Generator}
    (hpools : shufflePools positive negative generator = .ok (pools, later)) :
    (positive.height < 2 ^ 60 ∧ pools.1.HasShape positive.height positive.width) ∧
      negative.height < 2 ^ 60 ∧ pools.2.HasShape negative.height negative.width := by
  obtain ⟨⟨upper, between⟩, hupper, hrest⟩ := bind_eq_ok.mp hpools
  obtain ⟨⟨lower, latest⟩, hlower, hrest⟩ := bind_eq_ok.mp hrest
  obtain ⟨rfl, -⟩ := Prod.mk.inj (Except.ok.inj hrest)
  exact ⟨Matrix.shape_of_shuffled hupper, Matrix.shape_of_shuffled hlower⟩

variable [Zero α] [One α]

theorem Split.fits_of_cut {result : Split α × Generator}
    (hcut : cut positive negative trainSize generator = .ok result) :
    positive.width = negative.width ∧
      min (trainSize / 2) positive.height + min (trainSize / 2) negative.height < 2 ^ 60 ∧
      (positive.height - min (trainSize / 2) positive.height) +
        (negative.height - min (trainSize / 2) negative.height) < 2 ^ 60 := by
  obtain ⟨training, htraining, hrest⟩ := bind_eq_ok.mp hcut
  obtain ⟨validation, hvalidation, -⟩ := bind_eq_ok.mp hrest
  obtain ⟨hwidth, htrainingRoom⟩ := Dataset.fits_of_ofPools htraining
  have hvalidationRoom := (Dataset.fits_of_ofPools hvalidation).2
  rw [Matrix.height_take, Matrix.height_take, Nat.min_eq_left (Nat.min_le_right _ _),
    Nat.min_eq_left (Nat.min_le_right _ _)] at htrainingRoom
  rw [Matrix.height_drop, Matrix.height_drop] at hvalidationRoom
  exact ⟨hwidth, htrainingRoom, hvalidationRoom⟩

/-- Shuffling keeps the shapes, so that pools are refused for what they were given as. -/
theorem Prepared.fits_of_run_split {world after : World} {result : Split α × Generator}
    (hrun : (Prepared.split positive negative trainSize generator).run world = (.ok result, after)) :
    positive.width = negative.width ∧
      Split.Roomy positive.height negative.height (trainSize / 2) := by
  obtain ⟨⟨⟨upper, lower⟩, later⟩, after, hpools, hrun⟩ := run_bind_eq_ok.mp hrun
  have hcut : ∃ split, Split.cut upper lower trainSize later = .ok split := by
    dsimp only at hrun
    split at hrun
    · obtain ⟨_, _, -, hrun⟩ := run_bind_eq_ok.mp hrun
      obtain ⟨split, _, hcut, -⟩ := run_bind_eq_ok.mp hrun
      exact ⟨split, (run_lift_eq_ok.mp hcut).1⟩
    · obtain ⟨split, _, hcut, -⟩ := run_bind_eq_ok.mp hrun
      exact ⟨split, (run_lift_eq_ok.mp hcut).1⟩
  obtain ⟨split, hcut⟩ := hcut
  obtain ⟨⟨hpositive, hupper⟩, hnegative, hlower⟩ :=
    Split.shape_of_shufflePools (run_lift_eq_ok.mp hpools).1
  obtain ⟨hwidth, htraining, hvalidation⟩ := Split.fits_of_cut hcut
  rw [hupper.width_eq, hlower.width_eq] at hwidth
  rw [hupper.height_eq, hlower.height_eq] at htraining hvalidation
  exact ⟨hwidth, hpositive, hnegative, htraining, hvalidation⟩

end Refused

/--
Pools are refused if and only if their widths differ or there is no room for an order of
their rows or for the labels of a set.  All others are divided between training and
validation with exact counts for each class, and no row is lost, repeated or given
another label.
-/
theorem Split.pools_are_partitioned (positive negative : Matrix Float) (trainSize : Nat)
    (generator : Generator) :
    (∀ world : World,
      (∃ error, ((Prepared.split positive negative trainSize generator).run world).1 =
        .error error) ↔
      positive.width ≠ negative.width ∨
        ¬Roomy positive.height negative.height (trainSize / 2)) ∧
    (positive.width = negative.width → Roomy positive.height negative.height (trainSize / 2) →
      ∃ split later,
        OnlyNotes (Prepared.split positive negative trainSize generator) (split, later) ∧
        split.Partitions positive negative (trainSize / 2)) := by
  have hdivided : positive.width = negative.width →
      Roomy positive.height negative.height (trainSize / 2) →
      ∃ split later,
        OnlyNotes (Prepared.split positive negative trainSize generator) (split, later) ∧
        split.Partitions positive negative (trainSize / 2) := by
    intro hwidth hroom
    obtain ⟨pools, between, split, later, hpools, hcut, hsplit⟩ :=
      Split.draw_partitions hwidth hroom generator
    exact ⟨split, later, Prepared.onlyNotes_split hpools hcut, hsplit⟩
  refine ⟨fun world => ⟨?_, ?_⟩, hdivided⟩
  · rintro ⟨error, hfails⟩
    by_contra hfits
    push Not at hfits
    obtain ⟨split, later, hnotes, -⟩ := hdivided hfits.1 hfits.2
    obtain ⟨notes, hrun⟩ := hnotes world
    rw [hrun] at hfails
    contradiction
  · intro hrefused
    cases hrun : (Prepared.split positive negative trainSize generator).run world with
    | mk outcome after =>
        cases outcome with
        | error error => exact ⟨error, rfl⟩
        | ok result =>
            obtain ⟨hwidth, hroom⟩ := Prepared.fits_of_run_split hrun
            exact absurd hrefused (not_or.mpr ⟨not_not.mpr hwidth, not_not.mpr hroom⟩)

/-- Five rows asked for: two of each class, and the only negative row is one of them. -/
theorem Split.four_rows_are_partitioned :
    let positive : Matrix Float := ⟨3, 2, [1, 0, 1, 1, 1, 2], rfl⟩
    let negative : Matrix Float := ⟨1, 2, [0, 7], rfl⟩
    ∃ split later, OnlyNotes (Prepared.split positive negative 5 (.ofSeed 9)) (split, later) ∧
      split.training.positives = 2 ∧ split.training.negatives = 1 ∧
      split.validation.positives = 1 ∧ split.validation.negatives = 0 := by
  intro positive negative
  obtain ⟨split, later, hrun, hsplit⟩ :=
    (Split.pools_are_partitioned positive negative 5 (.ofSeed 9)).2 rfl
      (Split.roomy_of_add_lt (by decide) _)
  exact ⟨split, later, hrun, hsplit.trainingPositives, hsplit.trainingNegatives,
    hsplit.validationPositives, hsplit.validationNegatives⟩

/-- Pools without columns can have too many rows to be shuffled, though their widths are equal. -/
theorem Split.countless_rows_are_refused :
    let positive : Matrix Float := ⟨2 ^ 60, 0, [], (Nat.mul_zero _).symm⟩
    let negative : Matrix Float := ⟨0, 0, [], (Nat.mul_zero _).symm⟩
    positive.width = negative.width ∧
      ∀ world : World, ∃ error,
        ((Prepared.split positive negative 0 (.ofSeed 1)).run world).1 = .error error :=
  ⟨rfl, fun _ => ⟨.violation .capacity, rfl⟩⟩

end Polarity
