import Mathlib
import Polarity.Proofs.Classifier.Steps
import Polarity.Proofs.Network.Backpropagation
import Polarity.Proofs.Training.Observation

/-!
# Features that training does not see

A feature that no training row has takes no part in any gradient.  In exact
arithmetic a step therefore leaves its weights as they are: the one weight of a
logistic regression, or the row of the first layer of a network.  What a step
leaves, a run leaves.
-/

namespace Polarity

open Polarity.Random

variable {α : Type}

/-! ## Columns of zeros -/

namespace Matrix

def HasZeroColumn [Zero α] (matrix : Matrix α) (place : Nat) : Prop :=
  ∀ row ∈ matrix.rows, row[place]? = some 0

private theorem inner_replicate_zero [NonUnitalNonAssocSemiring α] (count : Nat) (vector : List α) :
    inner (List.replicate count 0) vector = 0 := by
  induction count generalizing vector with
  | zero => simp [inner]
  | succ count ih =>
      cases vector with
      | nil => simp [inner]
      | cons value vector => simpa [inner, List.replicate_succ] using ih vector

namespace HasZeroColumn

variable {matrix : Matrix α} {place : Nat}

theorem lt_width [Zero α] (hzero : matrix.HasZeroColumn place) (hrows : matrix.height ≠ 0) :
    place < matrix.width := by
  obtain ⟨row, hrow, hlength⟩ := exists_row (Nat.pos_of_ne_zero hrows)
  obtain ⟨hplace, -⟩ := List.getElem?_eq_some_iff.mp (hzero row (List.mem_of_getElem? hrow))
  omega

theorem getElem?_columns [Zero α] (hzero : matrix.HasZeroColumn place)
    (hrows : matrix.height ≠ 0) :
    matrix.columns[place]? = some (List.replicate matrix.height 0) := by
  have hentries : ∀ row ∈ matrix.rows, row.getD place 0 = 0 := by
    intro row hrow
    rw [List.getD_eq_getElem?_getD, hzero row hrow, Option.getD_some]
  rw [Matrix.getElem?_columns (hzero.lt_width hrows), List.map_congr_left hentries]
  simp

variable [NonUnitalNonAssocSemiring α]

private theorem getElem?_mulVec (hzero : matrix.HasZeroColumn place) (hrows : matrix.height ≠ 0)
    {vector sums : List α} (hsums : matrix.transpose.mulVec vector = .ok sums) :
    sums[place]? = some 0 := by
  unfold mulVec at hsums
  split at hsums
  · obtain rfl := Except.ok.inj hsums
    rw [List.getElem?_map, rows_transpose, hzero.getElem?_columns hrows, Option.map_some,
      inner_replicate_zero]
  · contradiction

private theorem getElem?_mul (hzero : matrix.HasZeroColumn place) (hrows : matrix.height ≠ 0)
    {other sums : Matrix α} (hsums : matrix.transpose.mul other = .ok sums) :
    sums.rows[place]? = some (List.replicate other.width 0) := by
  rw [rows_of_mul hsums, products, List.getElem?_map, rows_transpose,
    hzero.getElem?_columns hrows]
  simp [funext (inner_replicate_zero matrix.height)]

end HasZeroColumn

end Matrix

variable [Field α] {numerics : Numerics α} {x : Matrix α} {y : List α} {feature : Nat}

/-! ## Logistic regression -/

theorem Logistic.getElem?_weights_of_fit {model next : Logistic α}
    (hzero : x.HasZeroColumn feature) (hfit : model.fit numerics x y = .ok next) :
    next.weights[feature]? = model.weights[feature]? := by
  by_cases hrows : x.height = 0
  · rw [fit, if_pos hrows] at hfit
    rw [Except.ok.inj hfit]
  · rw [fit, if_neg hrows] at hfit
    obtain ⟨probabilities, -, hfit⟩ := bind_eq_ok.mp hfit
    obtain ⟨labels, -, hfit⟩ := bind_eq_ok.mp hfit
    obtain ⟨sums, hsums, hfit⟩ := bind_eq_ok.mp hfit
    rw [← Except.ok.inj hfit]
    simp only [List.getElem?_zipWith, hzero.getElem?_mulVec hrows hsums]
    cases model.weights[feature]? <;> simp

/-! ## Networks -/

namespace Network

private theorem getElem?_of_layerGradient {delta : Matrix α} {gradient : LayerGradient α}
    (hzero : x.HasZeroColumn feature) (hrows : x.height ≠ 0)
    (hgradient : layerGradient x delta = .ok gradient) :
    gradient.weights.rows[feature]? = some (List.replicate gradient.weights.width 0) := by
  obtain ⟨sums, hsums, hgradient⟩ := bind_eq_ok.mp hgradient
  obtain rfl := Except.ok.inj hgradient
  have hwidth : sums.width = delta.width := (Matrix.shape_of_mul hsums).2.width_eq
  rw [Matrix.rows_map, List.getElem?_map, hzero.getElem?_mul hrows hsums, ← hwidth]
  simp [Matrix.map]

private theorem getElem?_of_stepLayer {rate : α} {layer next : Layer α} {gradient : LayerGradient α}
    (hzero : gradient.weights.rows[feature]? = some (List.replicate gradient.weights.width 0))
    (hnext : stepLayer rate layer gradient = .ok next) :
    next.weights.rows[feature]? = layer.weights.rows[feature]? := by
  obtain ⟨weights, hweights, hnext⟩ := bind_eq_ok.mp hnext
  obtain rfl := Except.ok.inj hnext
  obtain ⟨hlayer, hgradient⟩ := Matrix.shape_of_zipWith hweights
  simp only [Matrix.rows_of_zipWith hweights, List.getElem?_zipWith, hzero]
  cases hrow : layer.weights.rows[feature]? with
  | none => rfl
  | some row =>
      have hlength := Matrix.length_of_mem_rows (List.mem_of_getElem? hrow)
      rw [hgradient.width_eq, ← hlayer.width_eq, ← hlength]
      exact congrArg some (List.ext_getElem (by simp) (by simp))

variable [LT α] [DecidableLT α]

/-- Of all layers only the first reads the features, and its gradient is the first. -/
private theorem getElem?_of_fit {network next : Network α} (hzero : x.HasZeroColumn feature)
    (hfit : network.fit numerics x y = .ok next) :
    (next.layers.head?.bind fun layer => layer.weights.rows[feature]?) =
      network.layers.head?.bind fun layer => layer.weights.rows[feature]? := by
  by_cases hrows : x.height = 0
  · rw [fit, if_pos hrows] at hfit
    rw [Except.ok.inj hfit]
  · rw [fit, if_neg hrows] at hfit
    obtain ⟨gradients, hgradients, hfit⟩ := bind_eq_ok.mp hfit
    obtain ⟨layers, hlayers, hfit⟩ := bind_eq_ok.mp hfit
    obtain rfl := Except.ok.inj hfit
    obtain ⟨kept, slope, before, hkept, -, hbackward⟩ := passes_of_gradients numerics hgradients
    rw [trace_eq_stages] at hkept
    cases hnetwork : network.layers with
    | nil =>
        rw [hnetwork, List.zip_nil_left, List.mapM_nil] at hlayers
        rw [← Except.ok.inj hlayers]
    | cons layer rest =>
        rw [hnetwork] at hkept hbackward hlayers
        obtain ⟨z, later, -, -, rfl⟩ := stages_cons numerics hkept
        obtain ⟨others, after, delta, gradient, -, -, hgradient, -, rfl⟩ :=
          backward_cons numerics hbackward
        rw [List.zip_cons_cons, List.mapM_cons] at hlayers
        obtain ⟨first, hfirst, hlayers⟩ := bind_eq_ok.mp hlayers
        obtain ⟨others, -, hlayers⟩ := bind_eq_ok.mp hlayers
        rw [← Except.ok.inj hlayers]
        exact getElem?_of_stepLayer (getElem?_of_layerGradient hzero hrows hgradient) hfirst

end Network

/-! ## Both kinds -/

namespace Classifier

/-- What a feature is multiplied with: one weight, or a row of the first layer. -/
def featureWeights (feature : Nat) : Classifier α → Option (List α)
  | .logistic model => model.weights[feature]?.map ([·])
  | .network model => model.layers.head?.bind fun layer => layer.weights.rows[feature]?

omit [Field α] in
private theorem exists_featureWeights {classifier : Classifier α} {width : Nat}
    (hfits : classifier.Fits width) (hfeature : feature < width) :
    ∃ weights, classifier.featureWeights feature = some weights := by
  cases classifier with
  | logistic model =>
      have hlength : model.weights.length = width := hfits
      exact ⟨[model.weights[feature]], by simp [featureWeights, hlength, hfeature]⟩
  | network model =>
      obtain ⟨hshape, rfl, -⟩ := hfits
      obtain ⟨first, rest, fanOut, hlayers, hfirst⟩ := hshape.exists_first
      obtain ⟨row, hrow, -⟩ := Matrix.exists_row (hfirst.weights.height_eq.symm ▸ hfeature)
      exact ⟨row, by simp [featureWeights, hlayers, hrow]⟩

variable [LT α] [DecidableLT α] {classifier next : Classifier α}

theorem featureWeights_of_fit (hzero : x.HasZeroColumn feature)
    (hfit : classifier.fit numerics x y = .ok next) :
    next.featureWeights feature = classifier.featureWeights feature := by
  cases classifier with
  | logistic model =>
      obtain ⟨after, hafter, rfl⟩ := map_eq_ok.mp hfit
      rw [featureWeights, featureWeights, Logistic.getElem?_weights_of_fit hzero hafter]
  | network model =>
      obtain ⟨after, hafter, rfl⟩ := map_eq_ok.mp hfit
      exact Network.getElem?_of_fit hzero hafter

end Classifier

/-! ## Runs -/

omit [Field α] in
theorem Dataset.mem_rows_iff {data : Dataset α} {row : List α} :
    row ∈ data.features.rows ↔ ∃ label, (row, label) ∈ data.pairs := by
  simp [← map_fst_pairs]

namespace Training

private theorem hasZeroColumn_of_pairs {training batch : Dataset α}
    (hzero : training.features.HasZeroColumn feature) (hpairs : batch.pairs ⊆ training.pairs) :
    batch.features.HasZeroColumn feature := by
  intro row hrow
  obtain ⟨label, hpair⟩ := Dataset.mem_rows_iff.mp hrow
  exact hzero row (Dataset.mem_rows_iff.mpr ⟨label, hpairs hpair⟩)

variable [LT α] [DecidableLT α] {classifier last : Classifier α} {training validation : Dataset α}

theorem featureWeights_of_fitBatches {batches : List (Dataset α)}
    (hzero : training.features.HasZeroColumn feature)
    (hbatches : ∀ batch ∈ batches, batch.pairs ⊆ training.pairs)
    (hlast : fitBatches numerics classifier batches = .ok last) :
    last.featureWeights feature = classifier.featureWeights feature := by
  induction batches generalizing classifier with
  | nil => rw [← Except.ok.inj hlast]
  | cons batch batches ih =>
      obtain ⟨hbatch, hrest⟩ := List.forall_mem_cons.mp hbatches
      obtain ⟨next, hnext, hlast⟩ := bind_eq_ok.mp hlast
      rw [ih hrest hlast,
        Classifier.featureWeights_of_fit (hasZeroColumn_of_pairs hzero hbatch) hnext]

variable [LE α] [DecidableLE α] [BEq α] {batchSize epochs : Nat} {generator : Generator}
  {table : Option MetricsTable} {trained : Trained α} {world after : World}

theorem featureWeights_of_run (hzero : training.features.HasZeroColumn feature)
    (hrun : (run numerics classifier training validation batchSize epochs generator table).run
      world = (.ok trained, after)) :
    trained.classifier.featureWeights feature = classifier.featureWeights feature := by
  obtain ⟨plan, -, hcarried⟩ := (performed_of_run hrun).steps
  refine featureWeights_of_fitBatches hzero (fun batch hbatch => ?_) hcarried.fitted
  obtain ⟨batches, hbatches, hbatch⟩ := List.mem_flatten.mp hbatch
  have hsubset : batch.pairs ⊆ batches.flatMap Dataset.pairs :=
    fun pair hpair => List.mem_flatMap.mpr ⟨batch, hbatch, hpair⟩
  exact List.Subset.trans hsubset (hcarried.covers batches hbatches).subset

/--
A feature has weights, and they stay as they are: in every step on rows that are zero
there, in any steps on batches of such training rows, and so in every run, whatever
its batches, its generator and the number of its epochs are.  Steps on rows of the
right width do not fail, and neither do runs, a metrics table apart.
-/
theorem unseen_feature_keeps_weights (numerics : Numerics α) {width : Nat}
    (hfits : classifier.Fits width) (hfeature : feature < width) :
    ∃ weights, classifier.featureWeights feature = some weights ∧
      (∀ (x : Matrix α) (y : List α), x.HasZeroColumn feature →
        (∀ next, classifier.fit numerics x y = .ok next →
          next.featureWeights feature = some weights) ∧
        (x.width = width → y.length = x.height ∨ y.length = 1 →
          ∃ next, classifier.fit numerics x y = .ok next)) ∧
      ∀ training : Dataset α, training.features.HasZeroColumn feature →
        (∀ batches last, (∀ batch ∈ batches, batch.pairs ⊆ training.pairs) →
          fitBatches numerics classifier batches = .ok last →
          last.featureWeights feature = some weights) ∧
        ∀ (validation : Dataset α) (batchSize epochs : Nat) (generator : Generator)
          (table : Option MetricsTable) (world : World),
          let session := run numerics classifier training validation batchSize epochs generator
            table
          (∀ trained after, session.run world = (.ok trained, after) →
            trained.classifier.featureWeights feature = some weights) ∧
          (batchSize ≠ 0 → training.width = width → validation.width = width →
            historyRowBytes * epochs ≤ addressLimit → table = none →
            ∃ trained after, session.run world = (.ok trained, after)) := by
  obtain ⟨weights, hweights⟩ := Classifier.exists_featureWeights hfits hfeature
  refine ⟨weights, hweights, fun x y hzero => ⟨?_, ?_⟩, fun training hzero => ⟨?_, ?_⟩⟩
  · intro next hnext
    rw [Classifier.featureWeights_of_fit hzero hnext, hweights]
  · intro hx hy
    obtain ⟨next, hnext, -⟩ := Classifier.fit_eq_ok_of_shapes numerics hfits hx hy
    exact ⟨next, hnext⟩
  · intro batches last hbatches hlast
    rw [featureWeights_of_fitBatches hzero hbatches hlast, hweights]
  · intro validation batchSize epochs generator table world session
    constructor
    · intro trained after hrun
      rw [featureWeights_of_run hzero hrun, hweights]
    · rintro hsize htraining hvalidation hroom rfl
      rcases run_eq_ok_or_unlogged hsize hfits htraining hvalidation hroom world with
        hrun | ⟨kept, after, htable, -⟩
      · exact hrun
      · cases htable

def oneSided : Dataset Rat := ⟨⟨3, 2, [1, 0, 2, 0, -1, 0], rfl⟩, [1, 0, 1], rfl⟩

theorem oneSided_keeps_second_row :
    (Classifier.network Network.rationalNetwork).Fits 2 ∧
    oneSided.features.HasZeroColumn 1 ∧
    ∃ trained after,
      (run Network.rationalNumerics (.network Network.rationalNetwork) oneSided oneSided 2 4
        (.ofSeed 3) none).run (.ofFiles flatFiles) = (.ok trained, after) ∧
      trained.classifier.featureWeights 1 = some [3, 4] := by
  have hfits : (Classifier.network Network.rationalNetwork).Fits 2 :=
    ⟨.layer ⟨⟨rfl, rfl⟩, rfl⟩ (.layer ⟨⟨rfl, rfl⟩, rfl⟩ (.output 2)), rfl, by decide⟩
  have hzero : oneSided.features.HasZeroColumn 1 := by
    unfold Matrix.HasZeroColumn
    decide
  obtain ⟨weights, hweights, -, hruns⟩ :=
    unseen_feature_keeps_weights Network.rationalNumerics hfits (by decide : 1 < 2)
  obtain rfl : [3, 4] = weights := Option.some.inj hweights
  obtain ⟨hkeeps, hends⟩ := (hruns oneSided hzero).2 oneSided 2 4 (.ofSeed 3) none
    (.ofFiles flatFiles)
  obtain ⟨trained, after, hrun⟩ := hends (by decide) rfl rfl (by decide) rfl
  exact ⟨hfits, hzero, trained, after, hrun, hkeeps trained after hrun⟩

end Training

end Polarity
