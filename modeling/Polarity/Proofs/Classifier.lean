import Mathlib.Data.List.Chain
import Polarity.Model.Classifier
import Polarity.Proofs.Network.Shape

/-!
# Classifiers that fit their features

A classifier fits features of a width if its parameters do.  Such a classifier
predicts one probability for every row, learns from every batch of that width
without losing its shape, and can be evaluated on every dataset of that width.
New classifiers fit the width that they were made for.
-/

namespace Polarity

open Polarity.Random

variable {α : Type}

/-! ## Differences -/

section Differences

variable [Sub α] {left right : List α}

theorem differences_of_length_eq (hlength : left.length = right.length) :
    differences left right = .ok (List.zipWith (· - ·) left right) :=
  if_pos hlength

theorem differences_of_spreadLabels {labels : List α}
    (hlabels : Network.spreadLabels left.length right = .ok labels) :
    differences left right = .ok (List.zipWith (· - ·) left labels) := by
  unfold Network.spreadLabels at hlabels
  split at hlabels
  · next hlength =>
      obtain rfl := Except.ok.inj hlabels
      exact differences_of_length_eq hlength.symm
  · next hlength =>
      split at hlabels
      · next single =>
          obtain rfl := Except.ok.inj hlabels
          rw [differences, if_neg (Ne.symm hlength)]
          · exact congrArg Except.ok (List.ext_getElem (by simp) (by simp))
          · rintro other rfl
            simp at hlength
      · contradiction

theorem length_of_differences {result : List α} (hresult : differences left right = .ok result)
    (hlength : result.length = left.length) : right.length = left.length ∨ right.length = 1 := by
  unfold differences at hresult
  split at hresult
  · next hsame => exact .inl hsame.symm
  · split at hresult
    · -- One entry is spread over the other operand, which then must have one entry, too.
      obtain rfl := Except.ok.inj hresult
      rw [List.length_map] at hlength
      exact .inl hlength
    · exact .inr rfl
    · contradiction

end Differences

/-! ## Logistic regression -/

namespace Logistic

section Shapes

variable [Zero α] [Add α] [Mul α] (numerics : Numerics α) {model : Logistic α} {x : Matrix α}

theorem predict_eq_ok (hx : x.width = model.weights.length) :
    ∃ probabilities, model.predict numerics x = .ok probabilities ∧
      probabilities.length = x.height := by
  have hshape : x.HasShape x.height model.weights.length := ⟨rfl, hx⟩
  obtain ⟨sums, hsums, hlength⟩ := hshape.mulVec rfl
  refine ⟨_, by rw [predict, hsums, ok_bind]; rfl, ?_⟩
  rw [List.length_map, hlength]

variable [Sub α] [Div α] [Neg α] [NatCast α]

theorem fit_eq_ok {y : List α} (hx : x.width = model.weights.length)
    (hy : y.length = x.height ∨ y.length = 1) :
    ∃ next, model.fit numerics x y = .ok next ∧ next.weights.length = model.weights.length := by
  by_cases hempty : x.height = 0
  · exact ⟨model, by rw [fit, if_pos hempty]; rfl, rfl⟩
  · obtain ⟨probabilities, hprobabilities, hcount⟩ := predict_eq_ok numerics hx
    obtain ⟨labels, hlabels, hlength⟩ := Network.spreadLabels_eq_ok hy
    rw [← hcount] at hlabels
    have hresiduals : (List.zipWith (· - ·) probabilities labels).length = x.height := by
      rw [List.length_zipWith, hcount, hlength, Nat.min_self]
    have hshape : x.transpose.HasShape model.weights.length x.height := ⟨hx, rfl⟩
    obtain ⟨sums, hsums, hsumsLength⟩ := hshape.mulVec hresiduals
    rw [fit, if_neg hempty]
    simp only [hprobabilities, ok_bind, differences_of_spreadLabels hlabels, hsums]
    refine ⟨_, rfl, ?_⟩
    rw [List.length_zipWith, hsumsLength, Nat.min_self]

end Shapes

theorem new_eq_ok {config : LogisticConfig Float} (hroom : addressable [config.inputSize])
    (generator : Generator) :
    ∃ model later, new config generator = .ok (model, later) ∧
      model.weights.length = config.inputSize := by
  rw [new, requireRoom, if_pos hroom, ok_bind]
  refine ⟨_, _, rfl, ?_⟩
  rw [List.length_map]
  exact Generator.length_drawMany

end Logistic

/-! ## Networks -/

namespace Network

theorem predict_eq_ok [Zero α] [One α] [Add α] [Sub α] [Mul α] [LT α] [DecidableLT α]
    (numerics : Numerics α) {network : Network α} {x : Matrix α} (hnetwork : network.WellShaped)
    (houtputs : network.config.outputs ≠ 0) (hx : x.width = network.config.inputSize) :
    ∃ probabilities, network.predict numerics x = .ok probabilities ∧
      probabilities.length = x.height := by
  obtain ⟨trace, htrace, -, houtput⟩ := trace_eq_ok numerics hnetwork hx
  obtain ⟨column, hcolumn, hlength⟩ := houtput.firstColumn houtputs
  refine ⟨column, ?_, hlength⟩
  rw [predict, forward_eq_trace, htrace]
  exact hcolumn

/-- There is room for the weights and the biases of a layer between every two widths. -/
def Roomy (widths : List Nat) : Prop :=
  widths.IsChain fun fanIn fanOut => addressable [fanIn, fanOut] ∧ addressable [fanOut]

instance (widths : List Nat) : Decidable (Roomy widths) :=
  inferInstanceAs (Decidable (widths.IsChain _))

private theorem drawLayers_eq_ok {width : Nat} {widths : List Nat} (hroom : Roomy (width :: widths))
    (generator : Generator) :
    ∃ layers later, drawLayers (width :: widths) generator = .ok (layers, later) ∧
      Stacked Layer.HasShape (width :: widths) layers := by
  induction widths generalizing width generator with
  | nil => exact ⟨[], generator, rfl, .output width⟩
  | cons fanOut widths ih =>
      obtain ⟨⟨hweights, hbiases⟩, hrest⟩ := List.isChain_cons_cons.mp hroom
      obtain ⟨layers, later, hlayers, hshape⟩ := ih hrest (Layer.new width fanOut generator).2
      refine ⟨(Layer.new width fanOut generator).1 :: layers, later, ?_, .layer ?_ hshape⟩
      · simp only [drawLayers, requireRoom, if_pos hweights, if_pos hbiases, ok_bind, hlayers]
        rfl
      · exact ⟨⟨rfl, rfl⟩, Generator.length_drawMany⟩

theorem new_eq_ok {config : NetworkConfig Float} (houtputs : config.outputs ≠ 0)
    (hroom : Roomy config.widths) (generator : Generator) :
    ∃ network later, new config generator = .ok (network, later) ∧ network.config = config ∧
      network.WellShaped := by
  obtain ⟨layers, later, hlayers, hshape⟩ := drawLayers_eq_ok hroom generator
  have hwidths : drawLayers config.widths generator = .ok (layers, later) := hlayers
  refine ⟨⟨config, layers⟩, later, ?_, rfl, hshape⟩
  rw [new, if_neg houtputs]
  simp only [hwidths, ok_bind]
  rfl

end Network

/-! ## Both kinds -/

namespace Classifier

/-- The parameters are for rows of the given width. -/
def Fits (width : Nat) : Classifier α → Prop
  | .logistic model => model.weights.length = width
  | .network model =>
      model.WellShaped ∧ model.config.inputSize = width ∧ model.config.outputs ≠ 0

section Fits

variable [Zero α] [One α] [Add α] [Sub α] [Mul α] [LT α] [DecidableLT α]
  (numerics : Numerics α) {width : Nat} {classifier : Classifier α}

theorem predict_eq_ok {x : Matrix α} (hfits : classifier.Fits width) (hx : x.width = width) :
    ∃ probabilities, classifier.predict numerics x = .ok probabilities ∧
      probabilities.length = x.height := by
  cases classifier with
  | logistic model => exact Logistic.predict_eq_ok numerics (hx.trans hfits.symm)
  | network model =>
      obtain ⟨hshape, hinput, houtputs⟩ := hfits
      exact Network.predict_eq_ok numerics hshape houtputs (hx.trans hinput.symm)

variable [Div α] [Neg α] [NatCast α]

theorem fit_eq_ok_of_shapes {x : Matrix α} {y : List α} (hfits : classifier.Fits width)
    (hx : x.width = width) (hy : y.length = x.height ∨ y.length = 1) :
    ∃ next, classifier.fit numerics x y = .ok next ∧ next.Fits width := by
  cases classifier with
  | logistic model =>
      obtain ⟨next, hnext, hlength⟩ := Logistic.fit_eq_ok numerics (hx.trans hfits.symm) hy
      exact ⟨.logistic next, by rw [fit, hnext]; rfl, hlength.trans hfits⟩
  | network model =>
      obtain ⟨hshape, hinput, houtputs⟩ := hfits
      obtain ⟨next, hnext, hnextShape, hconfig⟩ :=
        Network.fit_eq_ok numerics hshape (hx.trans hinput.symm) hy
      refine ⟨.network next, by rw [fit, hnext]; rfl, hnextShape, ?_, ?_⟩
      · rw [hconfig, hinput]
      · rw [hconfig]
        exact houtputs

theorem fit_eq_ok {batch : Dataset α} (hfits : classifier.Fits width)
    (hbatch : batch.width = width) :
    ∃ next, classifier.fit numerics batch.features batch.labels = .ok next ∧ next.Fits width :=
  fit_eq_ok_of_shapes numerics hfits hbatch (.inl batch.height_eq.symm)

theorem evaluate_eq_ok [LE α] [DecidableLE α] [BEq α] {data : Dataset α}
    (hfits : classifier.Fits width) (hdata : data.width = width) :
    ∃ loss accuracy,
      classifier.evaluate numerics data.features data.labels = .ok (loss, accuracy) := by
  obtain ⟨probabilities, hprobabilities, hlength⟩ := predict_eq_ok numerics hfits hdata
  have hcount : data.labels.length = probabilities.length := by rw [hlength, data.height_eq]
  rw [evaluate, hprobabilities, ok_bind, crossEntropy, if_pos hcount]
  exact ⟨_, _, rfl⟩

end Fits

end Classifier

end Polarity
