import Mathlib
import Polarity.Proofs.Batches
import Polarity.Proofs.Classifier.Steps
import Polarity.Proofs.Network.Logistic
import Polarity.Proofs.Network.Means

/-!
# A step on a batch is the mean of the steps on its rows

Both kinds of model learn from a batch what they would learn from its rows, each
row taken alone and from the same parameters, on the average.  A step therefore
does not see the order of the rows, and an epoch whose batches have room for all
rows is one step, whatever the generator.
-/

namespace Polarity

open Polarity.Random

variable {α : Type} [Field α]

/-! ## Logistic regression -/

theorem Dataset.mulVec_transpose (data : Dataset α) (factor : List α × α → α) :
    ∃ sums, data.features.transpose.mulVec (data.pairs.map factor) = .ok sums ∧
      sums.length = data.width ∧
      ∀ k, sums.getD k 0 = (data.pairs.map fun pair => pair.1.getD k 0 * factor pair).sum := by
  have hshape : data.features.transpose.HasShape data.width data.features.height := ⟨rfl, rfl⟩
  have hfactors : (data.pairs.map factor).length = data.features.height := by
    rw [List.length_map, length_pairs, size, data.height_eq]
  have hsums : data.features.transpose.mulVec (data.pairs.map factor) =
      .ok (data.features.columns.map fun column => Matrix.inner column (data.pairs.map factor)) := by
    rw [Matrix.mulVec, if_pos (hshape.width_eq.trans hfactors.symm), Matrix.rows_transpose]
  have hlength : data.features.columns.length = data.width := Matrix.length_columns _
  refine ⟨_, hsums, by rw [List.length_map, hlength], fun k => ?_⟩
  by_cases hk : k < data.width
  · rw [List.getD_eq_getElem?_getD, List.getElem?_map, Matrix.getElem?_columns hk,
      ← map_fst_pairs, List.map_map, Option.map_some, Option.getD_some, Matrix.inner_map]
    rfl
  · rw [List.getD_eq_default _ _ (by rw [List.length_map, hlength]; omega), List.sum_eq_zero]
    intro entry hentry
    obtain ⟨pair, hpair, rfl⟩ := List.mem_map.mp hentry
    rw [List.getD_eq_default _ _ (by rw [length_of_mem_pairs hpair]; omega), zero_mul]

namespace Logistic

variable (numerics : Numerics α) {model : Logistic α}

/-- By how much the probability of a row is above its label. -/
def residual (model : Logistic α) (pair : List α × α) : α :=
  numerics.sigmoid (Matrix.inner pair.1 model.weights + model.bias) - pair.2

/-- The model after a step on the given rows with their labels. -/
structure IsStep (model : Logistic α) (pairs : List (List α × α)) (next : Logistic α) : Prop where
  config_eq : next.config = model.config
  length_eq : next.weights.length = model.weights.length
  weights : ∀ k, next.weights.getD k 0 - model.weights.getD k 0 =
    -model.config.learningRate *
      ((pairs.map fun pair => pair.1.getD k 0 * model.residual numerics pair).sum /
        (pairs.length : α))
  bias : next.bias - model.bias =
    -model.config.learningRate *
      ((pairs.map (model.residual numerics)).sum / (pairs.length : α))

private theorem zipWith_predict {batch : Dataset α} (hwidth : batch.width = model.weights.length) :
    ∃ probabilities, model.predict numerics batch.features = .ok probabilities ∧
      differences probabilities batch.labels = .ok (batch.pairs.map (model.residual numerics)) := by
  have hsums : batch.features.mulVec model.weights =
      .ok (batch.features.rows.map fun row => Matrix.inner row model.weights) := if_pos hwidth
  refine ⟨_, by rw [predict, hsums, ok_bind]; rfl, ?_⟩
  rw [differences_of_length_eq (by simp [batch.height_eq]), List.map_map, List.zipWith_map_left,
    Dataset.pairs, ← List.map_uncurry_zip_eq_zipWith]
  rfl

theorem isStep_fit {batch : Dataset α} (hwidth : batch.width = model.weights.length) :
    ∃ next, model.fit numerics batch.features batch.labels = .ok next ∧
      model.IsStep numerics batch.pairs next := by
  have hlength : batch.pairs.length = batch.features.height :=
    batch.length_pairs.trans batch.height_eq.symm
  by_cases hempty : batch.features.height = 0
  · have hpairs : batch.pairs = [] := List.length_eq_zero_iff.mp (hlength.trans hempty)
    refine ⟨model, by rw [fit, if_pos hempty]; rfl, rfl, rfl, ?_, ?_⟩
    · simp [hpairs]
    · simp [hpairs]
  · obtain ⟨probabilities, hpredict, hresiduals⟩ := zipWith_predict numerics hwidth
    obtain ⟨sums, hsums, hsumsLength, hentries⟩ :=
      batch.mulVec_transpose (model.residual numerics)
    have hslopes : model.weights.length = sums.length := by rw [hsumsLength, hwidth]
    refine ⟨_, fit_eq_descend hempty hpredict hresiduals hsums, rfl, ?_, ?_, ?_⟩
    · simp [descend, hslopes]
    · intro k
      rw [descend, List.zipWith_map_right, Matrix.getD_zipWith (by simp) hslopes, hentries, hlength,
        add_sub_cancel_left]
    · rw [descend, mean, List.length_map]
      ring

private theorem exists_rowSteps {batch : Dataset α} (hwidth : batch.width = model.weights.length) :
    ∃ rowNext : List α × α → Logistic α, ∀ pair ∈ batch.pairs,
      model.fit numerics (Dataset.ofPair pair).features (Dataset.ofPair pair).labels =
        .ok (rowNext pair) ∧
      model.IsStep numerics [pair] (rowNext pair) := by
  have hrow : ∀ pair ∈ batch.pairs, ∃ next,
      model.fit numerics (Dataset.ofPair pair).features (Dataset.ofPair pair).labels = .ok next ∧
        model.IsStep numerics [pair] next := by
    intro pair hpair
    have hpairWidth : (Dataset.ofPair pair).width = model.weights.length :=
      (Dataset.length_of_mem_pairs hpair).trans hwidth
    simpa using isStep_fit numerics hpairWidth
  have : Nonempty (Logistic α) := ⟨model⟩
  choose! rowNext hrowNext using hrow
  exact ⟨rowNext, hrowNext⟩

theorem IsStep.perm {pairs others : List (List α × α)} {next : Logistic α}
    (hstep : model.IsStep numerics pairs next) (hperm : others.Perm pairs) :
    model.IsStep numerics others next where
  config_eq := hstep.config_eq
  length_eq := hstep.length_eq
  weights k := by rw [hstep.weights k, (hperm.map _).sum_eq, hperm.length_eq]
  bias := by rw [hstep.bias, (hperm.map _).sum_eq, hperm.length_eq]

theorem IsStep.unique {pairs : List (List α × α)} {left right : Logistic α}
    (hleft : model.IsStep numerics pairs left) (hright : model.IsStep numerics pairs right) :
    left = right := by
  have hweights : left.weights = right.weights := by
    apply Matrix.eq_of_getD (hleft.length_eq.trans hright.length_eq.symm)
    intro k _
    exact sub_left_injective ((hleft.weights k).trans (hright.weights k).symm)
  have hbias : left.bias = right.bias :=
    sub_left_injective (hleft.bias.trans hright.bias.symm)
  have hconfig := hleft.config_eq.trans hright.config_eq.symm
  obtain ⟨config, weights, bias⟩ := left
  obtain rfl : config = right.config := hconfig
  obtain rfl : weights = right.weights := hweights
  obtain rfl : bias = right.bias := hbias
  rfl

private theorem scaled_mean {τ : Type} {rate count : α} {items : List τ} {change share : τ → α}
    (hchange : ∀ item ∈ items, change item = rate * share item) :
    rate * ((items.map share).sum / count) = 1 / count * (items.map change).sum := by
  rw [List.map_congr_left hchange, List.sum_map_mul_left]
  ring

theorem IsStep.weights_eq_mean {pairs : List (List α × α)} {next : Logistic α}
    {rowNext : List α × α → Logistic α} (hstep : model.IsStep numerics pairs next)
    (hrows : ∀ pair ∈ pairs, model.IsStep numerics [pair] (rowNext pair)) (k : Nat) :
    next.weights.getD k 0 - model.weights.getD k 0 =
      1 / (pairs.length : α) *
        (pairs.map fun pair => (rowNext pair).weights.getD k 0 - model.weights.getD k 0).sum := by
  rw [hstep.weights k]
  apply scaled_mean
  intro pair hpair
  rw [(hrows pair hpair).weights k]
  simp

theorem IsStep.bias_eq_mean {pairs : List (List α × α)} {next : Logistic α}
    {rowNext : List α × α → Logistic α} (hstep : model.IsStep numerics pairs next)
    (hrows : ∀ pair ∈ pairs, model.IsStep numerics [pair] (rowNext pair)) :
    next.bias - model.bias =
      1 / (pairs.length : α) * (pairs.map fun pair => (rowNext pair).bias - model.bias).sum := by
  rw [hstep.bias]
  apply scaled_mean
  intro pair hpair
  rw [(hrows pair hpair).bias]
  simp

theorem fit_eq_of_perm {batch other : Dataset α} (hwidth : batch.width = model.weights.length)
    (hother : other.width = batch.width) (hperm : other.pairs.Perm batch.pairs) :
    model.fit numerics other.features other.labels =
      model.fit numerics batch.features batch.labels := by
  obtain ⟨next, hnext, hstep⟩ := isStep_fit numerics hwidth
  obtain ⟨otherNext, hotherNext, hotherStep⟩ := isStep_fit numerics (hother.trans hwidth)
  rw [hnext, hotherNext, hotherStep.unique numerics (hstep.perm numerics hperm)]

end Logistic

/-! ## Both kinds -/

variable [LT α] [DecidableLT α] (numerics : Numerics α)

theorem Network.fit_eq_of_perm {network : Network α} {batch other : Dataset α}
    (hnetwork : network.WellShaped) (hwidth : batch.width = network.config.inputSize)
    (hother : other.width = batch.width) (hperm : other.pairs.Perm batch.pairs) :
    network.fit numerics other.features other.labels =
      network.fit numerics batch.features batch.labels := by
  have hheight : other.features.height = batch.features.height := by
    have hsize := hperm.length_eq
    rwa [Dataset.length_pairs, Dataset.length_pairs, Dataset.size, Dataset.size,
      ← other.height_eq, ← batch.height_eq] at hsize
  rw [fit, fit, hheight, gradients_eq_of_perm numerics hnetwork hwidth hother hperm]

namespace Classifier

variable {classifier : Classifier α} {batch : Dataset α}

theorem fit_eq_of_perm {other : Dataset α} (hclassifier : classifier.WellShaped)
    (hwidth : batch.width = classifier.inputSize) (hother : other.width = batch.width)
    (hperm : other.pairs.Perm batch.pairs) :
    classifier.fit numerics other.features other.labels =
      classifier.fit numerics batch.features batch.labels := by
  cases classifier with
  | logistic model =>
      have hmodel : model.weights.length = model.config.inputSize := hclassifier
      rw [fit, fit, Logistic.fit_eq_of_perm numerics (hwidth.trans hmodel.symm) hother hperm]
  | network model =>
      rw [fit, fit, Network.fit_eq_of_perm numerics hclassifier hwidth hother hperm]

/-- An epoch whose batches have room for all rows is one step on all rows. -/
theorem fitBatches_epochBatches {size : Nat} {consumer : Consumer α}
    (hclassifier : classifier.WellShaped) (hwidth : batch.width = classifier.inputSize)
    (hepoch : consumer.InEpoch batch size) (hsize : batch.size ≤ size) :
    Training.fitBatches numerics classifier consumer.epochBatches =
      classifier.fit numerics batch.features batch.labels := by
  by_cases hrows : batch.size = 0
  · have horder : consumer.batches.order = [] := by
      rw [← List.length_eq_zero_iff, hepoch.order_perm.length_eq, List.length_range, hrows]
    have hempty : consumer.epochBatches = [] := by
      rw [hepoch.epochBatches_eq, horder, chunks, dif_pos (Or.inl rfl), List.map_nil]
    rw [hempty, fit_of_empty numerics (batch.height_eq.trans hrows)]
    rfl
  · have horder : (batch.pick consumer.batches.order).pairs.Perm batch.pairs := by
      rw [Dataset.pairs_pick]
      apply pick_perm
      rw [Dataset.length_pairs]
      exact hepoch.order_perm
    have hpicked : (batch.pick consumer.batches.order).width = batch.width := rfl
    rw [hepoch.epochBatches_of_size_le hrows hsize, Training.fitBatches, List.foldlM_cons,
      fit_eq_of_perm numerics hclassifier hwidth hpicked horder]
    exact bind_pure _

/--
A step on a batch is the mean of the steps on its rows: the gradients of a network
parameter by parameter, and the changes of a logistic regression weight by weight.
The order of the rows is lost, and with it the order of the places in an epoch
whose batches have room for all rows.
-/
theorem batch_step_is_mean_of_row_steps (batch : Dataset α) :
    (∀ network : Network α, network.WellShaped → batch.width = network.config.inputSize →
      ∃ (gradients : List (LayerGradient α)) (rowGradients : List α × α → List (LayerGradient α)),
        network.gradients numerics batch.features batch.labels = .ok gradients ∧
        Stacked LayerGradient.HasShape network.config.widths gradients ∧
        (∀ pair ∈ batch.pairs,
          network.gradients numerics (Dataset.ofPair pair).features (Dataset.ofPair pair).labels =
            .ok (rowGradients pair) ∧
          Stacked LayerGradient.HasShape network.config.widths (rowGradients pair)) ∧
        Network.IsMeanOf (batch.pairs.map rowGradients) gradients ∧
        ∀ other : Dataset α, other.width = batch.width → other.pairs.Perm batch.pairs →
          network.gradients numerics other.features other.labels = .ok gradients) ∧
    (∀ model : Logistic α, model.weights.length = model.config.inputSize →
      batch.width = model.config.inputSize →
      ∃ (next : Logistic α) (rowNext : List α × α → Logistic α),
        model.fit numerics batch.features batch.labels = .ok next ∧
        next.weights.length = model.weights.length ∧
        (∀ pair ∈ batch.pairs,
          model.fit numerics (Dataset.ofPair pair).features (Dataset.ofPair pair).labels =
            .ok (rowNext pair) ∧
          (rowNext pair).weights.length = model.weights.length) ∧
        (∀ k, next.weights.getD k 0 - model.weights.getD k 0 =
          1 / (batch.size : α) *
            (batch.pairs.map fun pair =>
              (rowNext pair).weights.getD k 0 - model.weights.getD k 0).sum) ∧
        next.bias - model.bias =
          1 / (batch.size : α) *
            (batch.pairs.map fun pair => (rowNext pair).bias - model.bias).sum) ∧
    ∀ classifier : Classifier α, classifier.WellShaped → batch.width = classifier.inputSize →
      (∀ other : Dataset α, other.width = batch.width → other.pairs.Perm batch.pairs →
        classifier.fit numerics other.features other.labels =
          classifier.fit numerics batch.features batch.labels) ∧
      ∀ (size : Nat) (batches : Batches α) (generator : Generator) (requests : List Request),
        batch.size ≤ size → Batches.ofDataset batch size = .ok batches → .epoch ∈ requests →
        Training.fitBatches numerics classifier
            ((Consumer.start batches generator).run requests).epochBatches =
          classifier.fit numerics batch.features batch.labels := by
  refine ⟨?_, ?_, ?_⟩
  · intro network hnetwork hwidth
    obtain ⟨gradients, hgradients, hshape⟩ :=
      Network.gradients_eq_ok numerics hnetwork hwidth (.inl batch.height_eq.symm)
    obtain ⟨rowGradients, hrows⟩ := Network.exists_rowGradients numerics hnetwork hwidth
    refine ⟨gradients, rowGradients, hgradients, hshape, hrows, ?_, ?_⟩
    · exact Network.isMeanOf_gradients numerics hnetwork hwidth hgradients
        fun pair hpair => (hrows pair hpair).1
    · intro other hother hperm
      rw [Network.gradients_eq_of_perm numerics hnetwork hwidth hother hperm, hgradients]
  · intro model hmodel hwidth
    have hlength : batch.width = model.weights.length := hwidth.trans hmodel.symm
    obtain ⟨next, hnext, hstep⟩ := Logistic.isStep_fit numerics hlength
    obtain ⟨rowNext, hrowNext⟩ := Logistic.exists_rowSteps numerics hlength
    have hrowSteps := fun pair hpair => (hrowNext pair hpair).2
    rw [← batch.length_pairs]
    exact ⟨next, rowNext, hnext, hstep.length_eq,
      fun pair hpair => ⟨(hrowNext pair hpair).1, (hrowSteps pair hpair).length_eq⟩,
      hstep.weights_eq_mean numerics hrowSteps, hstep.bias_eq_mean numerics hrowSteps⟩
  · intro classifier hclassifier hwidth
    refine ⟨fun other => fit_eq_of_perm numerics hclassifier hwidth, ?_⟩
    intro size batches generator requests hsize hbatches hrequests
    have hstart : (Consumer.start batches generator).Ordered batch size := by
      rw [Batches.ofDataset_eq] at hbatches
      split at hbatches
      · simp at hbatches
      · obtain rfl := Except.ok.inj hbatches
        exact ⟨rfl, rfl, .refl _⟩
    exact fitBatches_epochBatches numerics hclassifier hwidth (hstart.inEpoch_run hrequests) hsize

def mixedBatch : Dataset Rat := ⟨⟨3, 2, [1, 0, 2, -1, 1, 0], rfl⟩, [1, 0, 0], rfl⟩

theorem mixedBatch_step_is_mean :
    Network.rationalNetwork.WellShaped ∧
    (∃ (gradients : List (LayerGradient Rat))
        (rowGradients : List Rat × Rat → List (LayerGradient Rat)),
      Network.rationalNetwork.gradients Network.rationalNumerics mixedBatch.features
        mixedBatch.labels = .ok gradients ∧
      (∀ pair ∈ mixedBatch.pairs,
        Network.rationalNetwork.gradients Network.rationalNumerics (Dataset.ofPair pair).features
          (Dataset.ofPair pair).labels = .ok (rowGradients pair)) ∧
      Network.IsMeanOf (mixedBatch.pairs.map rowGradients) gradients) ∧
    (∃ (next : Logistic Rat) (rowNext : List Rat × Rat → Logistic Rat),
      Logistic.untrained.fit Network.rationalNumerics mixedBatch.features mixedBatch.labels =
        .ok next ∧
      (∀ pair ∈ mixedBatch.pairs,
        Logistic.untrained.fit Network.rationalNumerics (Dataset.ofPair pair).features
          (Dataset.ofPair pair).labels = .ok (rowNext pair)) ∧
      next.bias - 1 / 2 =
        1 / ((3 : Nat) : Rat) * (mixedBatch.pairs.map fun pair => (rowNext pair).bias - 1 / 2).sum) ∧
    ∀ generator, Training.fitBatches Network.rationalNumerics (.network Network.rationalNetwork)
        ((Consumer.start ⟨mixedBatch, 5, List.range 3, by decide⟩
          generator).run [.epoch]).epochBatches =
      fit Network.rationalNumerics (.network Network.rationalNetwork) mixedBatch.features
        mixedBatch.labels := by
  have hnetwork : Network.rationalNetwork.WellShaped :=
    .layer ⟨⟨rfl, rfl⟩, rfl⟩ (.layer ⟨⟨rfl, rfl⟩, rfl⟩ (.output 2))
  obtain ⟨hgradients, hsteps, hepochs⟩ :=
    batch_step_is_mean_of_row_steps Network.rationalNumerics mixedBatch
  obtain ⟨gradients, rowGradients, hbatch, -, hrows, hmean, -⟩ :=
    hgradients Network.rationalNetwork hnetwork rfl
  obtain ⟨next, rowNext, hnext, -, hrowNext, -, hbias⟩ := hsteps Logistic.untrained rfl rfl
  refine ⟨hnetwork, ⟨gradients, rowGradients, hbatch, fun pair hpair => (hrows pair hpair).1, hmean⟩,
    ⟨next, rowNext, hnext, fun pair hpair => (hrowNext pair hpair).1, hbias⟩, fun generator => ?_⟩
  obtain ⟨-, hepoch⟩ := hepochs (.network Network.rationalNetwork) hnetwork rfl
  exact hepoch 5 ⟨mixedBatch, 5, List.range 3, by decide⟩ generator [.epoch] (by decide) rfl
    (by decide)

end Classifier

end Polarity
