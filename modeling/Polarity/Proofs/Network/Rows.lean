import Polarity.Proofs.Matrix.Picks
import Polarity.Proofs.Network.Shape

/-!
# Rows do not meet

No row of a batch takes part in what a network computes for another row: a pass
over some of the rows, forwards or backwards, leaves the same rows as a pass over
all of them.  Only the gradients of the layers bring rows together.
-/

namespace Polarity

variable {α : Type}

def Stage.pick (places : List Nat) (stage : Stage α) : Stage α :=
  ⟨stage.input.pick places, stage.preActivation.pick places, stage.activation.pick places⟩

namespace Network

theorem traceOutput_pick (places : List Nat) (x : Matrix α) (trace : List (Stage α)) :
    traceOutput (x.pick places) (trace.map (Stage.pick places)) =
      (traceOutput x trace).pick places := by
  cases hlast : trace.getLast? <;> simp [traceOutput, hlast, Stage.pick]

/-! ## Forwards -/

section Forward

variable [Zero α] [Add α] [Mul α]

theorem preActivation_pick (places : List Nat) (layer : Layer α) (input : Matrix α) :
    layer.preActivation (input.pick places) =
      (layer.preActivation input).map (Matrix.pick places) := by
  rw [Layer.preActivation, Layer.preActivation, Matrix.mul_pick]
  cases input.mul layer.weights with
  | error error => rfl
  | ok sums => exact Matrix.addRow_pick places sums layer.biases

variable [One α] [Sub α] [LT α] [DecidableLT α] (numerics : Numerics α)

theorem stages_pick (places : List Nat) (layers : List (Layer α)) (x : Matrix α) :
    stages numerics layers (x.pick places) =
      (stages numerics layers x).map (List.map (Stage.pick places)) := by
  induction layers generalizing x with
  | nil => rfl
  | cons layer layers ih =>
      rw [stages, stages, preActivation_pick]
      cases layer.preActivation x with
      | error error => rfl
      | ok z =>
          simp only [Except.map, ok_bind, Matrix.map_pick, ih]
          cases stages numerics layers (z.map numerics.activate) with
          | error error => rfl
          | ok later => rfl

theorem trace_pick (places : List Nat) (network : Network α) (x : Matrix α) :
    network.trace numerics (x.pick places) =
      (network.trace numerics x).map (List.map (Stage.pick places)) := by
  rw [trace_eq_stages, trace_eq_stages, stages_pick]

end Forward

/-! ## Backwards -/

theorem outputSlope_pick [One α] [Sub α] [Mul α] [Div α] {output slope : Matrix α} {y : List α}
    (hy : y.length = output.height) (hslope : outputSlope output y = .ok slope)
    (places : List Nat) :
    outputSlope (output.pick places) (Polarity.pick y places) = .ok (slope.pick places) := by
  have hrows : output.rows.length = y.length := by rw [Matrix.length_rows, hy]
  have hpicked : (Polarity.pick y places).length = (output.pick places).height :=
    (length_pick_congr hrows places).symm
  obtain ⟨same, hsame, hshape, hslopes⟩ := outputSlope_eq_ok ⟨rfl, rfl⟩ (if_pos hy) hy
  obtain rfl : same = slope := Except.ok.inj (hsame.symm.trans hslope)
  obtain ⟨part, hpart, hpartShape, hparts⟩ :=
    outputSlope_eq_ok ⟨rfl, rfl⟩ (if_pos hpicked) hpicked
  have hwidth : part.width = (same.pick places).width :=
    hpartShape.width_eq.trans hshape.width_eq.symm
  rw [hpart]
  congr 1
  apply Matrix.eq_of_rows hwidth
  rw [hparts, Matrix.rows_pick, Matrix.rows_pick, hslopes, pick_zipWith _ hrows]

section Backward

variable [Zero α] [Add α] [Mul α] [Div α] [NatCast α]

theorem layerGradient_pick {input delta : Matrix α} {gradient : LayerGradient α}
    (hgradient : layerGradient input delta = .ok gradient) (places : List Nat) :
    ∃ part, layerGradient (input.pick places) (delta.pick places) = .ok part := by
  obtain ⟨sums, hsums, -⟩ := bind_eq_ok.mp hgradient
  have hheight : input.height = delta.height := (Matrix.shape_of_mul hsums).1
  have hrows : input.rows.length = delta.rows.length := by simp [hheight]
  have hinput : (input.pick places).HasShape (input.pick places).height input.width := ⟨rfl, rfl⟩
  have hdelta : (delta.pick places).HasShape (input.pick places).height delta.width :=
    ⟨(length_pick_congr hrows places).symm, rfl⟩
  obtain ⟨part, hpart, -⟩ := layerGradient_eq_ok hinput hdelta
  exact ⟨part, hpart⟩

variable [One α] [Sub α] (numerics : Numerics α)

theorem backward_pick {items : List (Layer α × Stage α)} {slope before : Matrix α}
    {gradients : List (LayerGradient α)}
    (hbackward : backward numerics slope items = .ok (gradients, before)) (places : List Nat) :
    ∃ parts, backward numerics (slope.pick places) (items.map (Prod.map id (Stage.pick places))) =
      .ok (parts, before.pick places) := by
  induction items generalizing gradients before with
  | nil =>
      obtain ⟨rfl, rfl⟩ := Prod.mk.inj (Except.ok.inj hbackward)
      exact ⟨[], rfl⟩
  | cons item items ih =>
      obtain ⟨layer, stage⟩ := item
      obtain ⟨later, after, delta, gradient, hlater, hdelta, hgradient, hbefore, rfl⟩ :=
        backward_cons numerics hbackward
      obtain ⟨laterParts, hlaterParts⟩ := ih hlater
      have hdeltaPart := Matrix.zipWith_pick hdelta places
      rw [← Matrix.map_pick] at hdeltaPart
      obtain ⟨part, hpart⟩ := layerGradient_pick hgradient places
      have hbeforePart : (delta.pick places).mul layer.weights.transpose =
          .ok (before.pick places) := by
        rw [Matrix.mul_pick, hbefore]
        rfl
      refine ⟨part :: laterParts, ?_⟩
      simp only [List.map_cons, Prod.map, id_eq, backward, hlaterParts, ok_bind, Stage.pick,
        hdeltaPart, hpart, hbeforePart]
      rfl

end Backward

end Network

end Polarity
