import Mathlib
import Polarity.Proofs.Classifier
import Polarity.Proofs.Matrix.Columns
import Polarity.Training.Loop

/-!
# A network without hidden layers

A network with a single output unit and no hidden layers is a logistic
regression whose probabilities are clamped.  As long as no probability is so near
to zero or one that it is clamped, both learn the same parameters from the same
batches: the slope of the sigmoid cancels the divisor in the slope of the loss.
-/

namespace Polarity

variable {α : Type}

theorem Training.fitBatches_cons [Zero α] [One α] [Add α] [Sub α] [Mul α] [Div α] [Neg α]
    [NatCast α] [LT α] [DecidableLT α] (numerics : Numerics α) {classifier next : Classifier α}
    {batch : Dataset α} {batches : List (Dataset α)}
    (hnext : classifier.fit numerics batch.features batch.labels = .ok next) :
    fitBatches numerics classifier (batch :: batches) = fitBatches numerics next batches := by
  rw [fitBatches, List.foldlM_cons, hnext, ok_bind, fitBatches]

def Logistic.toNetwork (model : Logistic α) : Network α where
  config := ⟨model.config.inputSize, [], 1, model.config.learningRate⟩
  layers := [⟨.ofColumn model.weights, [model.bias]⟩]

namespace Logistic

/-! ## Predictions -/

section Predictions

theorem clamp_eq_self [LinearOrder α] {low high value : α} (hlow : low ≤ value)
    (hhigh : value ≤ high) : Numerics.clamp low high value = value := by
  rw [Numerics.clamp, if_neg hlow.not_gt, if_neg hhigh.not_gt]

variable [Zero α] [Add α] [Mul α]

private theorem preActivation_toNetwork (model : Logistic α) (x : Matrix α) :
    Layer.preActivation ⟨.ofColumn model.weights, [model.bias]⟩ x =
      (x.mulVec model.weights).map fun sums => .ofColumn (sums.map (· + model.bias)) := by
  rw [Layer.preActivation, Matrix.mul_ofColumn]
  cases x.mulVec model.weights with
  | error error => rfl
  | ok sums => exact Matrix.addRow_ofColumn sums model.bias

variable [One α] [Sub α] [LT α] [DecidableLT α] (numerics : Numerics α)

theorem predict_toNetwork (model : Logistic α) (x : Matrix α) :
    model.toNetwork.predict numerics x =
      (model.predict numerics x).map
        (List.map (Numerics.clamp numerics.margin (1 - numerics.margin))) := by
  rw [Network.predict, Network.forward, toNetwork, predict]
  simp only [List.foldlM_cons, List.foldlM_nil, Layer.forward, preActivation_toNetwork]
  cases x.mulVec model.weights with
  | error error => rfl
  | ok sums =>
      change (Matrix.map _ (Matrix.ofColumn _)).firstColumn = Except.ok _
      rw [Matrix.map_ofColumn, Matrix.firstColumn_ofColumn]
      simp [Numerics.activate]

end Predictions

/-! ## Gradients -/

section Gradients

variable [Field α]

private theorem outputSlope_ofColumn {activations y : List α} (hy : y.length = activations.length) :
    Network.outputSlope (.ofColumn activations) y =
      .ok (.ofColumn (List.zipWith Network.lossSlope activations y)) := by
  have hlabels : Network.spreadLabels activations.length y = .ok y := if_pos hy
  obtain ⟨slope, hslope, hshape, hrows⟩ := Network.outputSlope_eq_ok
    (⟨rfl, rfl⟩ : (Matrix.ofColumn activations).HasShape activations.length 1) hlabels hy
  rw [hslope]
  congr 1
  apply Matrix.eq_of_rows hshape.width_eq
  simp [hrows, List.zipWith_map_left, List.map_zipWith]

private theorem layerGradient_ofColumn {x : Matrix α} {residuals slopes : List α}
    (hx : x.height ≠ 0) (hslopes : x.transpose.mulVec residuals = .ok slopes) :
    Network.layerGradient x (.ofColumn residuals) =
      .ok ⟨.ofColumn (slopes.map (· / (x.height : α))), [mean residuals]⟩ := by
  rw [Network.layerGradient, Matrix.mul_ofColumn, hslopes, if_neg hx, Matrix.columns_ofColumn]
  simp only [Except.map, ok_bind, Matrix.map_ofColumn, List.map_cons, List.map_nil]
  rfl

def descend (model : Logistic α) (slopes : List α) (slope : α) : Logistic α :=
  { model with
    weights := List.zipWith (fun weight slope => weight + -model.config.learningRate * slope)
      model.weights slopes
    bias := model.bias - model.config.learningRate * slope }

theorem fit_eq_descend {numerics : Numerics α} {model : Logistic α} {x : Matrix α}
    {y probabilities residuals sums : List α} (hrows : x.height ≠ 0)
    (hpredict : model.predict numerics x = .ok probabilities)
    (hresiduals : differences probabilities y = .ok residuals)
    (hsums : x.transpose.mulVec residuals = .ok sums) :
    model.fit numerics x y =
      .ok (model.descend (sums.map (· / (x.height : α))) (mean residuals)) := by
  rw [fit, if_neg hrows]
  simp only [hpredict, ok_bind, hresiduals, hsums, descend, List.zipWith_map_right]
  rfl

private theorem stepLayer_toNetwork {model : Logistic α} {slopes : List α}
    (hlength : model.weights.length = slopes.length) (slope : α) :
    Network.stepLayer model.config.learningRate ⟨.ofColumn model.weights, [model.bias]⟩
        ⟨.ofColumn slopes, [slope]⟩ =
      .ok ⟨.ofColumn (model.descend slopes slope).weights, [(model.descend slopes slope).bias]⟩ := by
  rw [Network.stepLayer, Matrix.zipWith_ofColumn _ hlength, ok_bind]
  simp only [List.zipWith_cons_cons, List.zipWith_nil_right, neg_mul, ← sub_eq_add_neg, descend]
  rfl

variable [LinearOrder α] {numerics : Numerics α}

/-- No probability that the model gives to a row comes nearer to zero or one than the margin. -/
def Unsaturated (numerics : Numerics α) (model : Logistic α) (x : Matrix α) : Prop :=
  ∀ probabilities, model.predict numerics x = .ok probabilities →
    ∀ probability ∈ probabilities,
      numerics.margin ≤ probability ∧ probability ≤ 1 - numerics.margin

theorem Unsaturated.predict_eq {model : Logistic α} {x : Matrix α}
    (hx : model.Unsaturated numerics x) :
    model.toNetwork.predict numerics x = model.predict numerics x := by
  rw [predict_toNetwork]
  cases hpredict : model.predict numerics x with
  | error error => rfl
  | ok probabilities =>
      rw [Except.map, List.map_congr_left (g := id), List.map_id]
      intro probability hprobability
      obtain ⟨hlow, hhigh⟩ := hx probabilities hpredict probability hprobability
      exact clamp_eq_self hlow hhigh

variable [IsStrictOrderedRing α]

/-- The slope of the sigmoid cancels the divisor in the slope of the loss. -/
private theorem lossSlope_mul_slope {margin probability : α} (hmargin : 0 < margin)
    (hlow : margin ≤ probability) (hhigh : probability ≤ 1 - margin) (label : α) :
    Network.lossSlope probability label * (probability * (1 - probability)) =
      probability - label := by
  have hpositive : 0 < probability := hmargin.trans_le hlow
  have hbelow : 0 < 1 - probability := hmargin.trans_le (le_sub_comm.mp hhigh)
  rw [Network.lossSlope, div_mul_cancel₀ _ (mul_pos hpositive hbelow).ne']

private theorem zipWith_lossSlope {sums y : List α} (hmargin : 0 < numerics.margin)
    (hsums : ∀ sum ∈ sums, numerics.margin ≤ numerics.sigmoid sum ∧
      numerics.sigmoid sum ≤ 1 - numerics.margin) :
    List.zipWith (· * ·) (List.zipWith Network.lossSlope (sums.map numerics.activate) y)
        (sums.map numerics.sigmoidSlope) =
      List.zipWith (· - ·) (sums.map numerics.sigmoid) y := by
  induction sums generalizing y with
  | nil => simp
  | cons sum sums ih =>
      obtain ⟨⟨hlow, hhigh⟩, hrest⟩ := List.forall_mem_cons.mp hsums
      cases y with
      | nil => simp
      | cons label y =>
          simp only [List.map_cons, List.zipWith_cons_cons, List.cons.injEq]
          refine ⟨?_, ih hrest⟩
          rw [Numerics.activate, clamp_eq_self hlow hhigh, Numerics.sigmoidSlope]
          exact lossSlope_mul_slope hmargin hlow hhigh label

theorem gradients_toNetwork {model : Logistic α} {x : Matrix α} {y sums z slopes : List α}
    (hmargin : 0 < numerics.margin) (hx : x.height ≠ 0)
    (hsums : x.mulVec model.weights = .ok sums) (hz : sums.map (· + model.bias) = z)
    (hy : y.length = z.length)
    (hunsaturated : ∀ sum ∈ z, numerics.margin ≤ numerics.sigmoid sum ∧
      numerics.sigmoid sum ≤ 1 - numerics.margin)
    (hslopes : x.transpose.mulVec (List.zipWith (· - ·) (z.map numerics.sigmoid) y) = .ok slopes) :
    model.toNetwork.gradients numerics x y =
      .ok [⟨.ofColumn (slopes.map (· / (x.height : α))),
        [mean (List.zipWith (· - ·) (z.map numerics.sigmoid) y)]⟩] := by
  have htrace : model.toNetwork.trace numerics x =
      .ok [⟨x, .ofColumn z, .ofColumn (z.map numerics.activate)⟩] := by
    simp only [Network.trace_eq_stages, toNetwork, Network.stages, preActivation_toNetwork, hsums,
      Except.map, hz, ok_bind, Matrix.map_ofColumn]
    rfl
  have hslope : Network.outputSlope (.ofColumn (z.map numerics.activate)) y =
      .ok (.ofColumn (List.zipWith Network.lossSlope (z.map numerics.activate) y)) :=
    outputSlope_ofColumn (by rw [List.length_map, hy])
  have hdelta : (Matrix.ofColumn
      (List.zipWith Network.lossSlope (z.map numerics.activate) y)).zipWith (· * ·)
        (.ofColumn (z.map numerics.sigmoidSlope)) =
      .ok (.ofColumn (List.zipWith (· - ·) (z.map numerics.sigmoid) y)) := by
    rw [Matrix.zipWith_ofColumn _ (by simp [hy]), zipWith_lossSlope hmargin hunsaturated]
  have hgradient := layerGradient_ofColumn hx hslopes
  obtain ⟨before, hbefore, -⟩ := Matrix.HasShape.mul
    (⟨rfl, rfl⟩ : (Matrix.ofColumn (List.zipWith (· - ·) (z.map numerics.sigmoid) y)).HasShape _ 1)
    (⟨rfl, rfl⟩ : (Matrix.ofColumn model.weights).transpose.HasShape 1 _)
  rw [Network.gradients, htrace, ok_bind]
  simp only [Network.traceOutput, List.getLast?_singleton, Option.map_some, Option.getD_some,
    hslope, ok_bind, toNetwork, List.zip_cons_cons, List.zip_nil_right, Network.backward,
    Matrix.map_ofColumn, hdelta, hgradient, hbefore]
  rfl

/-! ## Steps -/

theorem fit_toNetwork {model : Logistic α} {x : Matrix α} {y : List α}
    (hmargin : 0 < numerics.margin) (hx : x.width = model.weights.length)
    (hy : y.length = x.height) (hunsaturated : model.Unsaturated numerics x) :
    ∃ next, model.fit numerics x y = .ok next ∧
      model.toNetwork.fit numerics x y = .ok next.toNetwork ∧
      next.weights.length = model.weights.length ∧ next.config = model.config := by
  by_cases hempty : x.height = 0
  · refine ⟨model, ?_, ?_, rfl, rfl⟩
    · rw [fit, if_pos hempty]
      rfl
    · rw [Network.fit, if_pos hempty]
      rfl
  · have hshape : x.HasShape x.height model.weights.length := ⟨rfl, hx⟩
    obtain ⟨sums, hsums, hlength⟩ := hshape.mulVec rfl
    obtain ⟨z, hz⟩ : ∃ z, sums.map (· + model.bias) = z := ⟨_, rfl⟩
    have hzLength : z.length = x.height := by rw [← hz, List.length_map, hlength]
    have hpredict : model.predict numerics x = .ok (z.map numerics.sigmoid) := by
      rw [predict, hsums, ok_bind, ← hz, List.map_map]
      rfl
    have hresiduals : (List.zipWith (· - ·) (z.map numerics.sigmoid) y).length = x.height := by
      simp [hzLength, hy]
    obtain ⟨slopes, hslopes, hslopesLength⟩ := hshape.transpose.mulVec hresiduals
    have hgradients := gradients_toNetwork hmargin hempty hsums hz (hy.trans hzLength.symm)
      (fun sum hsum => hunsaturated _ hpredict _ (List.mem_map_of_mem hsum)) hslopes
    have hmeans : model.weights.length = (slopes.map (· / (x.height : α))).length := by
      rw [List.length_map, hslopesLength]
    have hstep := stepLayer_toNetwork hmeans
      (mean (List.zipWith (· - ·) (z.map numerics.sigmoid) y))
    have hdifferences : differences (z.map numerics.sigmoid) y =
        .ok (List.zipWith (· - ·) (z.map numerics.sigmoid) y) :=
      differences_of_length_eq (by rw [List.length_map, hzLength, hy])
    refine ⟨model.descend (slopes.map (· / (x.height : α)))
      (mean (List.zipWith (· - ·) (z.map numerics.sigmoid) y)), ?_, ?_, ?_, rfl⟩
    · exact fit_eq_descend hempty hpredict hdifferences hslopes
    · rw [Network.fit, if_neg hempty, hgradients, ok_bind]
      simp only [toNetwork, List.zip_cons_cons, List.zip_nil_right, List.mapM_cons,
        List.mapM_nil, hstep, ok_bind, pure_bind]
      rfl
    · simp [descend, hslopesLength]

/-! ## Runs -/

/-- No probability that is computed while the model learns from the batches is clamped. -/
def UnsaturatedRun (numerics : Numerics α) : Logistic α → List (Dataset α) → Prop
  | _, [] => True
  | model, batch :: batches =>
      model.Unsaturated numerics batch.features ∧
        ∀ next, model.fit numerics batch.features batch.labels = .ok next →
          UnsaturatedRun numerics next batches

theorem fitBatches_toNetwork {model : Logistic α} {batches done : List (Dataset α)}
    (hmargin : 0 < numerics.margin)
    (hbatches : ∀ batch ∈ batches, batch.width = model.weights.length)
    (hrun : model.UnsaturatedRun numerics batches) (hdone : done <+: batches) :
    ∃ next, Training.fitBatches numerics (.logistic model) done = .ok (.logistic next) ∧
      Training.fitBatches numerics (.network model.toNetwork) done =
        .ok (.network next.toNetwork) ∧
      next.weights.length = model.weights.length ∧ next.config = model.config := by
  induction done generalizing model batches with
  | nil => exact ⟨model, rfl, rfl, rfl, rfl⟩
  | cons batch done ih =>
      obtain ⟨later, rfl⟩ := hdone
      obtain ⟨hwidth, hlater⟩ := List.forall_mem_cons.mp hbatches
      obtain ⟨hunsaturated, hrest⟩ := hrun
      obtain ⟨next, hnext, hnetwork, hlength, hconfig⟩ :=
        fit_toNetwork hmargin hwidth batch.height_eq.symm hunsaturated
      obtain ⟨last, hlast, hlastNetwork, hlastLength, hlastConfig⟩ :=
        ih (fun batch hbatch => (hlater batch hbatch).trans hlength.symm) (hrest next hnext)
          (List.prefix_append done later)
      refine ⟨last, ?_, ?_, hlastLength.trans hlength, hlastConfig.trans hconfig⟩
      · rw [Training.fitBatches_cons numerics (by rw [Classifier.fit, hnext]; rfl), hlast]
      · rw [Training.fitBatches_cons numerics (by rw [Classifier.fit, hnetwork]; rfl), hlastNetwork]

end Gradients

/--
A logistic regression and the network of one unit with the same parameters, trained
on the same batches, have the same parameters after every batch and answer alike, as
long as no probability is clamped.
-/
theorem network_learns_alike [Field α] [LinearOrder α] [IsStrictOrderedRing α]
    (numerics : Numerics α) (hmargin : 0 < numerics.margin) {model : Logistic α}
    (hmodel : model.weights.length = model.config.inputSize) {batches done : List (Dataset α)}
    (hbatches : ∀ batch ∈ batches, batch.width = model.config.inputSize)
    (hrun : model.UnsaturatedRun numerics batches) (hdone : done <+: batches) :
    ∃ next : Logistic α,
      Training.fitBatches numerics (.logistic model) done = .ok (.logistic next) ∧
      Training.fitBatches numerics (.network model.toNetwork) done =
        .ok (.network next.toNetwork) ∧
      next.config = model.config ∧ next.weights.length = model.config.inputSize ∧
      ∀ x, next.Unsaturated numerics x →
        Classifier.predict numerics (.network next.toNetwork) x =
          Classifier.predict numerics (.logistic next) x ∧
        ∀ y, Classifier.score numerics (.network next.toNetwork) x y =
          Classifier.score numerics (.logistic next) x y := by
  obtain ⟨next, hnext, hnetwork, hlength, hconfig⟩ :=
    fitBatches_toNetwork hmargin (hmodel ▸ hbatches) hrun hdone
  refine ⟨next, hnext, hnetwork, hconfig, hlength.trans hmodel, ?_⟩
  intro x hx
  have hpredict : Classifier.predict numerics (.network next.toNetwork) x =
      Classifier.predict numerics (.logistic next) x := hx.predict_eq
  refine ⟨hpredict, fun y => ?_⟩
  rw [Classifier.score, Classifier.score, hpredict]

/-! ## Two rows and then none -/

def linear : Numerics Rat where
  sigmoid z := 1 / 2 + z / 10
  log z := z
  margin := 1 / 10
  infinity := 100
  fixed _ _ := ""

def untrained : Logistic Rat := ⟨⟨2, 1 / 2⟩, [1, -1], 1 / 2⟩

def trained : Logistic Rat := ⟨⟨2, 1 / 2⟩, [87 / 80, -47 / 40], 1 / 2⟩

def twoBatches : List (Dataset Rat) :=
  [⟨⟨2, 2, [2, 1, 1, 3], rfl⟩, [1, 0], rfl⟩, ⟨.empty 2, [], rfl⟩]

private theorem unsaturatedRun_untrained : untrained.UnsaturatedRun linear twoBatches := by
  have hfirst : untrained.predict linear ⟨2, 2, [2, 1, 1, 3], rfl⟩ = .ok [13 / 20, 7 / 20] := by
    cbv
  have hfit : untrained.fit linear ⟨2, 2, [2, 1, 1, 3], rfl⟩ [1, 0] = .ok trained := by
    cbv
  have hsecond : trained.predict linear (.empty 2) = .ok [] := by
    cbv
  refine ⟨?_, fun next hnext => ⟨?_, fun _ _ => trivial⟩⟩
  · intro probabilities hprobabilities
    obtain rfl := Except.ok.inj (hfirst.symm.trans hprobabilities)
    norm_num [linear]
  · obtain rfl := Except.ok.inj (hfit.symm.trans hnext)
    intro probabilities hprobabilities
    obtain rfl := Except.ok.inj (hsecond.symm.trans hprobabilities)
    simp

theorem network_learns_alike_from_two_batches :
    0 < linear.margin ∧ untrained.UnsaturatedRun linear twoBatches ∧
    (∀ batch ∈ twoBatches, batch.width = 2) ∧
    ∃ next : Logistic Rat,
      Training.fitBatches linear (.logistic untrained) twoBatches = .ok (.logistic next) ∧
      Training.fitBatches linear (.network untrained.toNetwork) twoBatches =
        .ok (.network next.toNetwork) ∧
      next.config = untrained.config ∧ next.weights.length = 2 ∧
      ∀ x, next.Unsaturated linear x →
        Classifier.predict linear (.network next.toNetwork) x =
          Classifier.predict linear (.logistic next) x ∧
        ∀ y, Classifier.score linear (.network next.toNetwork) x y =
          Classifier.score linear (.logistic next) x y := by
  have hmargin : 0 < linear.margin := by norm_num [linear]
  have hbatches : ∀ batch ∈ twoBatches, batch.width = 2 := by
    simp [twoBatches, Dataset.width, Matrix.empty]
  exact ⟨hmargin, unsaturatedRun_untrained, hbatches, network_learns_alike linear hmargin rfl
    hbatches unsaturatedRun_untrained (List.prefix_refl twoBatches)⟩

end Logistic

end Polarity
