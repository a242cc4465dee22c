import Mathlib
import Polarity.Proofs.Dataset
import Polarity.Proofs.Features
import Polarity.Proofs.Session
import Polarity.Training.Prepared

/-!
# Where documents land

An `Origin` names a document by its class and its place in the pool of that
class.  The splits are drawn on origins alone: which row of which pool lands
where depends on the sizes of the pools, the training size and the generator, and
on nothing that the documents say.
-/

namespace Polarity

open Polarity.Random

structure Origin where
  positive : Bool
  place : Nat
  deriving DecidableEq, Repr

namespace Origin

variable {α : Type}

def ofPools (positive negative : Nat) : List Origin :=
  (List.range positive).map (mk true) ++ (List.range negative).map (mk false)

def label [Zero α] [One α] (origin : Origin) : α := if origin.positive then 1 else 0

def find? {β : Type} (positive negative : List β) (origin : Origin) : Option β :=
  (if origin.positive then positive else negative)[origin.place]?

/-- The training and the validation set, drawn from pools of the given sizes. -/
def split (positive negative trainSize : Nat) (generator : Generator) :
    (List Origin × List Origin) × Generator :=
  let (positive, generator) := shuffle ((List.range positive).map (mk true)) generator
  let (negative, generator) := shuffle ((List.range negative).map (mk false)) generator
  let quota := Split.quota trainSize
  let (training, generator) := shuffle (positive.take quota ++ negative.take quota) generator
  let (validation, generator) := shuffle (positive.drop quota ++ negative.drop quota) generator
  ((training, validation), generator)

def test (positive negative : Nat) (generator : Generator) : List Origin × Generator :=
  shuffle (ofPools positive negative) generator

private theorem perm_of_cuts {β : Type} (upper lower : List β) (cut : Nat) :
    ((upper.take cut ++ lower.take cut) ++ (upper.drop cut ++ lower.drop cut)).Perm
      (upper ++ lower) := by
  have hcuts := (List.perm_append_comm_assoc (lower.take cut) (upper.drop cut)
    (lower.drop cut)).append_left (upper.take cut)
  rwa [← List.append_assoc, List.take_append_drop, ← List.append_assoc (upper.take cut),
    List.take_append_drop] at hcuts

theorem split_perm (positive negative trainSize : Nat) (generator : Generator) :
    ((split positive negative trainSize generator).1.1 ++
      (split positive negative trainSize generator).1.2).Perm (ofPools positive negative) := by
  simp only [split]
  refine ((shuffle_perm _ _).append (shuffle_perm _ _)).trans ?_
  refine (perm_of_cuts _ _ _).trans ?_
  exact (shuffle_perm _ _).append (shuffle_perm _ _)

theorem test_perm (positive negative : Nat) (generator : Generator) :
    (test positive negative generator).1.Perm (ofPools positive negative) :=
  shuffle_perm _ _

end Origin

/-! ## The splits of two matrices -/

theorem Matrix.shuffled_eq_ok {α : Type} {matrix : Matrix α}
    (hroom : matrix.height < 2 ^ 60) (generator : Generator) :
    ∃ shuffled, matrix.shuffled generator = .ok (shuffled, (shuffle matrix.rows generator).2) ∧
      shuffled.width = matrix.width ∧ shuffled.rows = (shuffle matrix.rows generator).1 := by
  have hrows := shuffle_eq_pick matrix.rows generator
  rw [length_rows] at hrows
  rw [hrows]
  refine ⟨matrix.pick (shuffle (List.range matrix.height) generator).1, ?_, rfl, rows_pick _ _⟩
  simp only [Matrix.shuffled, (requireRoom_singleton _).mpr hroom, ok_bind, rowsAt_eq_pick]
  rfl

theorem Matrix.rows_take_min {α : Type} (count : Nat) (matrix : Matrix α) :
    (matrix.take (min count matrix.height)).rows = matrix.rows.take count := by
  rw [Matrix.rows_take, ← matrix.length_rows, ← List.take_eq_take_min]

theorem Matrix.rows_drop_min {α : Type} (count : Nat) (matrix : Matrix α) :
    (matrix.drop (min count matrix.height)).rows = matrix.rows.drop count := by
  rw [Matrix.rows_drop, ← matrix.length_rows]
  by_cases hcount : count ≤ matrix.rows.length
  · rw [Nat.min_eq_left hcount]
  · rw [Nat.min_eq_right (by omega), List.drop_length, List.drop_eq_nil_of_le (by omega)]

/-- The rows of a pool are those of the given origins, all of one class. -/
structure Holds {α : Type} (row : Origin → List α) (isPositive : Bool) (origins : List Origin)
    (pool : Matrix α) : Prop where
  rows_eq : pool.rows = origins.map row
  positive_eq : ∀ origin ∈ origins, origin.positive = isPositive

/-- The rows of a dataset are those of the given origins, each with the label of its class. -/
structure Lists {α : Type} [Zero α] [One α] (row : Origin → List α) (width : Nat)
    (origins : List Origin) (data : Dataset α) : Prop where
  width_eq : data.width = width
  pairs_eq : data.pairs = origins.map fun origin => (row origin, origin.label)

namespace Holds

variable {α : Type} {row : Origin → List α} {isPositive : Bool} {origins : List Origin}
  {pool : Matrix α}

theorem shuffled (hpool : Holds row isPositive origins pool)
    (hroom : pool.height < 2 ^ 60) (generator : Generator) :
    ∃ shuffled, pool.shuffled generator = .ok (shuffled, (shuffle origins generator).2) ∧
      shuffled.width = pool.width ∧ Holds row isPositive (shuffle origins generator).1 shuffled := by
  obtain ⟨shuffled, hshuffled, hwidth, hrows⟩ := Matrix.shuffled_eq_ok hroom generator
  rw [hpool.rows_eq, shuffle_map] at hshuffled hrows
  refine ⟨shuffled, hshuffled, hwidth, hrows, ?_⟩
  intro origin horigin
  exact hpool.positive_eq origin ((shuffle_perm _ _).mem_iff.mp horigin)

theorem take (hpool : Holds row isPositive origins pool) (count : Nat) :
    Holds row isPositive (origins.take count) (pool.take (min count pool.height)) := by
  refine ⟨?_, fun origin horigin => hpool.positive_eq origin (List.mem_of_mem_take horigin)⟩
  rw [Matrix.rows_take_min, hpool.rows_eq, List.map_take]

theorem drop (hpool : Holds row isPositive origins pool) (count : Nat) :
    Holds row isPositive (origins.drop count) (pool.drop (min count pool.height)) := by
  refine ⟨?_, fun origin horigin => hpool.positive_eq origin (List.mem_of_mem_drop horigin)⟩
  rw [Matrix.rows_drop_min, hpool.rows_eq, List.map_drop]

theorem height_eq (hpool : Holds row isPositive origins pool) : pool.height = origins.length := by
  rw [← pool.length_rows, hpool.rows_eq, List.length_map]

theorem map_label [Zero α] [One α] (hpool : Holds row isPositive origins pool) :
    pool.rows.map (·, (if isPositive then 1 else 0 : α)) =
      origins.map fun origin => (row origin, origin.label) := by
  rw [hpool.rows_eq, List.map_map]
  apply List.map_congr_left
  intro origin horigin
  rw [← hpool.positive_eq origin horigin]
  rfl

theorem ofPools [Zero α] [One α] {uppers lowers : List Origin} {upper lower : Matrix α}
    (hupper : Holds row true uppers upper) (hlower : Holds row false lowers lower)
    (hwidth : upper.width = lower.width)
    (hroom : uppers.length + lowers.length < 2 ^ 60) :
    ∃ data : Dataset α, Dataset.ofPools upper lower = .ok data ∧
      Lists row upper.width (uppers ++ lowers) data := by
  rw [← hupper.height_eq, ← hlower.height_eq] at hroom
  obtain ⟨data, hdata, hdataWidth, hpairs⟩ := Dataset.ofPools_eq_ok hwidth hroom
  refine ⟨data, hdata, hdataWidth, ?_⟩
  rw [hpairs, List.map_append, ← hupper.map_label, ← hlower.map_label]
  rfl

end Holds

theorem Lists.shuffled {α : Type} [Zero α] [One α] {row : Origin → List α} {width : Nat}
    {origins : List Origin} {data : Dataset α} (hdata : Lists row width origins data)
    (generator : Generator) :
    Lists row width (shuffle origins generator).1 (data.shuffled generator).1 ∧
      (data.shuffled generator).2 = (shuffle origins generator).2 := by
  have hshuffled := Dataset.pairs_shuffled generator data
  rw [hdata.pairs_eq, shuffle_map, Prod.mk.injEq] at hshuffled
  exact ⟨⟨hdata.width_eq, hshuffled.1⟩, hshuffled.2⟩

section Draw

variable {α : Type}

def rowAt (uppers lowers : List (List α)) (origin : Origin) : List α :=
  (origin.find? uppers lowers).getD []

theorem holds_positive (positive negative : Matrix α) :
    Holds (rowAt positive.rows negative.rows) true ((List.range positive.height).map (Origin.mk true))
      positive := by
  refine ⟨?_, by simp⟩
  have hrange := congrArg (List.map fun row => row.getD []) (map_getElem?_range positive.rows)
  simpa [Function.comp_def, rowAt, Origin.find?] using hrange.symm

theorem holds_negative (positive negative : Matrix α) :
    Holds (rowAt positive.rows negative.rows) false
      ((List.range negative.height).map (Origin.mk false)) negative := by
  refine ⟨?_, by simp⟩
  have hrange := congrArg (List.map fun row => row.getD []) (map_getElem?_range negative.rows)
  simpa [Function.comp_def, rowAt, Origin.find?] using hrange.symm

variable [Zero α] [One α] {positive negative : Matrix α}

/--
There is room for an order of each pool and for the labels of both sets, at eight bytes
a row, if `half` rows of each pool are for training.
-/
structure Split.Roomy (positive negative half : Nat) : Prop where
  positive_lt : positive < 2 ^ 60
  negative_lt : negative < 2 ^ 60
  training_lt : min half positive + min half negative < 2 ^ 60
  validation_lt : (positive - min half positive) + (negative - min half negative) < 2 ^ 60

theorem Split.roomy_of_add_lt {positive negative : Nat} (hroom : positive + negative < 2 ^ 60)
    (half : Nat) : Roomy positive negative half := by
  constructor <;> omega

theorem Split.draw_eq_ok (hwidth : positive.width = negative.width) {trainSize : Nat}
    (hroom : Roomy positive.height negative.height (quota trainSize)) (generator : Generator) :
    let origins := Origin.split positive.height negative.height trainSize generator
    ∃ pools later split,
      shufflePools positive negative generator = .ok (pools, later) ∧
      cut pools.1 pools.2 trainSize later = .ok (split, origins.2) ∧
      Lists (rowAt positive.rows negative.rows) positive.width origins.1.1 split.training ∧
      Lists (rowAt positive.rows negative.rows) positive.width origins.1.2 split.validation := by
  -- The pools and their origins are shuffled alike.
  set uppers := shuffle ((List.range positive.height).map (Origin.mk true)) generator with huppers
  set lowers := shuffle ((List.range negative.height).map (Origin.mk false)) uppers.2 with hlowers
  obtain ⟨upper, hupper, hupperWidth, hup⟩ :=
    (holds_positive positive negative).shuffled hroom.positive_lt generator
  obtain ⟨lower, hlower, hlowerWidth, hdown⟩ :=
    (holds_negative positive negative).shuffled hroom.negative_lt uppers.2
  rw [← huppers] at hupper hup
  rw [← hlowers] at hlower hdown
  have hwidths : upper.width = lower.width := by rw [hupperWidth, hlowerWidth, hwidth]
  have hups : uppers.1.length = positive.height := by simp [huppers, (shuffle_perm _ _).length_eq]
  have hdowns : lowers.1.length = negative.height := by
    simp [hlowers, (shuffle_perm _ _).length_eq]
  obtain ⟨training, htraining, htrainingLists⟩ :=
    (hup.take (quota trainSize)).ofPools (hdown.take (quota trainSize)) hwidths (by
      rw [List.length_take, List.length_take, hups, hdowns]
      exact hroom.training_lt)
  obtain ⟨validation, hvalidation, hvalidationLists⟩ :=
    (hup.drop (quota trainSize)).ofPools (hdown.drop (quota trainSize)) hwidths (by
      rw [List.length_drop, List.length_drop, hups, hdowns]
      have hrest := hroom.validation_lt
      omega)
  obtain ⟨htrainingShuffled, htrainingGenerator⟩ := htrainingLists.shuffled lowers.2
  obtain ⟨hvalidationShuffled, hvalidationGenerator⟩ :=
    hvalidationLists.shuffled (training.shuffled lowers.2).2
  simp only [Origin.split, ← huppers, ← hlowers, ← htrainingGenerator, ← hvalidationGenerator,
    ← hupperWidth]
  refine ⟨(upper, lower), lowers.2, ⟨_, _⟩, ?_, ?_, htrainingShuffled, hvalidationShuffled⟩
  · simp only [shufflePools, hupper, hlower, ok_bind]
    rfl
  · simp only [cut, htraining, hvalidation, ok_bind]
    rfl

theorem Split.drawTest_eq_ok (hwidth : positive.width = negative.width)
    (hroom : positive.height + negative.height < 2 ^ 60) (generator : Generator) :
    let origins := Origin.test positive.height negative.height generator
    ∃ test : Dataset α, Split.drawTest positive negative generator = .ok (test, origins.2) ∧
      Lists (rowAt positive.rows negative.rows) positive.width origins.1 test := by
  obtain ⟨test, htest, htestLists⟩ :=
    (holds_positive positive negative).ofPools (holds_negative positive negative) hwidth
      (by simpa using hroom)
  obtain ⟨hshuffled, hgenerator⟩ := htestLists.shuffled generator
  simp only [Origin.test, Origin.ofPools, ← hgenerator]
  refine ⟨_, ?_, hshuffled⟩
  simp only [Split.drawTest, htest]
  rfl

end Draw

/-! ## The splits of a corpus -/

section Corpus

variable {α : Type} [Zero α] [One α]

/--
The rows of a dataset are the features of the documents at the given origins, in
their order, each with the label of its pool.
-/
structure Featured (featurizer : Featurizer) (positive negative : List Document)
    (origins : List Origin) (data : Dataset α) : Prop where
  width_eq : data.width = featurizer.vocabulary.size
  rows_eq : data.features.rows.map some =
    origins.map fun origin => (origin.find? positive negative).map featurizer.row
  labels_eq : data.labels = origins.map Origin.label

theorem Origin.find?_map {β γ : Type} (f : β → γ) (positive negative : List β) (origin : Origin) :
    origin.find? (positive.map f) (negative.map f) = (origin.find? positive negative).map f := by
  unfold Origin.find?
  split <;> exact List.getElem?_map

theorem Origin.exists_find? {β : Type} {positive negative : List β} {origin : Origin}
    (horigin : origin ∈ Origin.ofPools positive.length negative.length) :
    ∃ item, origin.find? positive negative = some item := by
  rcases List.mem_append.mp horigin with horigin | horigin
  · obtain ⟨place, hplace, rfl⟩ := List.mem_map.mp horigin
    exact ⟨_, List.getElem?_eq_getElem (List.mem_range.mp hplace)⟩
  · obtain ⟨place, hplace, rfl⟩ := List.mem_map.mp horigin
    exact ⟨_, List.getElem?_eq_getElem (List.mem_range.mp hplace)⟩

theorem Lists.featured {featurizer : Featurizer} {positive negative : List Document}
    {origins : List Origin} {data : Dataset α}
    (hdata : Lists (rowAt (featurizer.matrix positive : Matrix α).rows
      (featurizer.matrix negative).rows) featurizer.width origins data)
    (horigins : ∀ origin ∈ origins, origin ∈ Origin.ofPools positive.length negative.length) :
    Featured featurizer positive negative origins data := by
  refine ⟨hdata.width_eq, ?_, ?_⟩
  · rw [← Dataset.map_fst_pairs, hdata.pairs_eq, List.map_map, List.map_map]
    apply List.map_congr_left
    intro origin horigin
    obtain ⟨document, hdocument⟩ := Origin.exists_find? (horigins origin horigin)
    simp only [Function.comp_apply, rowAt, Featurizer.rows_matrix, Origin.find?_map, hdocument,
      Option.map_some, Option.getD_some]
  · rw [← Dataset.map_snd_pairs, hdata.pairs_eq, List.map_map]
    rfl

theorem Featured.unique {featurizer : Featurizer} {positive negative : List Document}
    {origins : List Origin} {data other : Dataset α}
    (hdata : Featured featurizer positive negative origins data)
    (hother : Featured featurizer positive negative origins other) : data = other := by
  have hrows := hdata.rows_eq.trans hother.rows_eq.symm
  have hrows := List.map_injective_iff.mpr (Option.some_injective _) hrows
  have hwidth : data.features.width = other.features.width :=
    hdata.width_eq.trans hother.width_eq.symm
  exact Dataset.ext (Matrix.eq_of_rows hwidth hrows) (hdata.labels_eq.trans hother.labels_eq.symm)

open Session

theorem Prepared.onlyNotes_buildVocabulary (documents : List Document) (size : Nat) :
    OnlyNotes (Prepared.buildVocabulary documents size) (Vocabulary.build documents size) :=
  (onlyNotes_note _ _).bind (.pure _)

theorem Prepared.onlyNotes_featurize (featurizer : Featurizer) (documents : List Document) :
    OnlyNotes (Prepared.featurize featurizer documents : Session (Matrix α))
      (featurizer.matrix documents) := by
  refine (onlyNotes_forIn _ ?_).bind (.pure _)
  intro place
  exact .ite ((onlyNotes_note _ _).bind (.pure _)) (.pure _)

theorem Prepared.onlyNotes_split {positive negative : Matrix α} {trainSize : Nat}
    {generator later : Generator} {pools : Matrix α × Matrix α} {split : Split α × Generator}
    (hpools : Split.shufflePools positive negative generator = .ok (pools, later))
    (hcut : Split.cut pools.1 pools.2 trainSize later = .ok split) :
    OnlyNotes (Prepared.split positive negative trainSize generator) split := by
  refine (onlyNotes_lift hpools).bind ?_
  -- The pools are cut alike, whether they were noted to be too small or not.
  refine .ite ((onlyNotes_note _ _).bind ?_) ?_ <;>
    exact (onlyNotes_lift hcut).bind ((onlyNotes_note _ _).bind (.pure _))

theorem Corpus.lengths_lt (corpus : Corpus) :
    corpus.trainPositive.length + corpus.trainNegative.length < 2 ^ 60 ∧
      corpus.testPositive.length + corpus.testNegative.length < 2 ^ 60 := by
  have hlimit : addressLimit = 2 ^ 63 - 1 := rfl
  have hpools := corpus.inMemory
  simp only [documentBytes, hlimit, List.forall_mem_cons] at hpools
  omega

/-- What the preparation of a corpus gives, origin by origin. -/
theorem Prepared.ofCorpus_featured (corpus : Corpus) (settings : Settings) :
    let vocabulary := Vocabulary.build corpus.training settings.vocabSize.toNat
    let featurizer := Featurizer.ofVocabulary vocabulary
    let origins := Origin.split corpus.trainPositive.length corpus.trainNegative.length
      settings.trainSize.toNat (.ofSeed settings.splitSeed)
    let tests := Origin.test corpus.testPositive.length corpus.testNegative.length origins.2
    ∃ prepared : Prepared α, OnlyNotes (Prepared.ofCorpus corpus settings) prepared ∧
      prepared.vocabulary = vocabulary ∧
      Featured featurizer corpus.trainPositive corpus.trainNegative origins.1.1 prepared.training ∧
      Featured featurizer corpus.trainPositive corpus.trainNegative origins.1.2
        prepared.validation ∧
      Featured featurizer corpus.testPositive corpus.testNegative tests.1 prepared.test := by
  intro vocabulary featurizer origins tests
  have hwidth : ∀ documents others : List Document,
      (featurizer.matrix documents : Matrix α).width = (featurizer.matrix others : Matrix α).width :=
    fun _ _ => rfl
  obtain ⟨htrain, htests⟩ := corpus.lengths_lt
  obtain ⟨pools, later, split, hpools, hcut, htraining, hvalidation⟩ :=
    Split.draw_eq_ok (hwidth corpus.trainPositive corpus.trainNegative)
      (Split.roomy_of_add_lt (by simpa only [Featurizer.height_matrix] using htrain) _)
      (.ofSeed settings.splitSeed)
  obtain ⟨test, htest, htestLists⟩ :=
    Split.drawTest_eq_ok (hwidth corpus.testPositive corpus.testNegative)
      (by simpa only [Featurizer.height_matrix] using htests) origins.2
  simp only [Featurizer.height_matrix] at hcut htraining hvalidation htest htestLists
  have hperm := Origin.split_perm corpus.trainPositive.length corpus.trainNegative.length
    settings.trainSize.toNat (.ofSeed settings.splitSeed)
  refine ⟨⟨vocabulary, split.training, split.validation, test⟩, ?_, rfl,
    htraining.featured fun origin horigin => hperm.mem_iff.mp (List.mem_append_left _ horigin),
    hvalidation.featured fun origin horigin => hperm.mem_iff.mp (List.mem_append_right _ horigin),
    htestLists.featured fun origin horigin => (Origin.test_perm _ _ _).mem_iff.mp horigin⟩
  refine (onlyNotes_buildVocabulary _ _).bind ?_
  refine .ite ((onlyNotes_note _ _).bind ?_) ?_ <;>
    exact (onlyNotes_featurize _ _).bind <| (onlyNotes_featurize _ _).bind <|
      (onlyNotes_featurize _ _).bind <| (onlyNotes_featurize _ _).bind <|
      (onlyNotes_split hpools hcut).bind <| (onlyNotes_lift htest).bind <|
      (onlyNotes_note _ _).bind (.pure _)

end Corpus

end Polarity
