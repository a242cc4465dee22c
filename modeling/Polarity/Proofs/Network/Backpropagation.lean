import Mathlib.Algebra.BigOperators.Field
import Mathlib.Algebra.BigOperators.Group.Finset.Sigma
import Polarity.Proofs.Matrix.Entries
import Polarity.Proofs.Network.Shape

/-!
# Backpropagation

When the parameters of a network change in some direction, its output changes at
a rate that is found forwards, layer by layer.  The gradient is found backwards.
The two are adjoint: the gradient along the direction is the slope of the loss at
the output, paired with the rate of the output and averaged over the rows.

Neither the sigmoid nor the margin enters the argument, so both are arbitrary.
-/

namespace Polarity

open Finset (range)

variable {α : Type}

/-! ## Pairings -/

/-- The sum of the products of what two tables hold in the same place. -/
def pairing [NonUnitalNonAssocSemiring α] (rows width : Nat) (left right : Nat → Nat → α) : α :=
  ∑ r ∈ range rows, ∑ j ∈ range width, left r j * right r j

section Pairing

variable [CommSemiring α] {rows width fanIn fanOut : Nat}

theorem pairing_congr {left right left' right' : Nat → Nat → α}
    (hequal : ∀ r < rows, ∀ j < width, left r j * right r j = left' r j * right' r j) :
    pairing rows width left right = pairing rows width left' right' := by
  apply Finset.sum_congr rfl
  intro r hr
  apply Finset.sum_congr rfl
  intro j hj
  exact hequal r (Finset.mem_range.mp hr) j (Finset.mem_range.mp hj)

theorem pairing_add (left right right' : Nat → Nat → α) :
    pairing rows width left (fun r j => right r j + right' r j) =
      pairing rows width left right + pairing rows width left right' := by
  simp only [pairing, mul_add, Finset.sum_add_distrib]

/-- A product on one side of a pairing goes to the other side with its factor transposed. -/
theorem pairing_mul (delta rate weights : Nat → Nat → α) :
    pairing rows fanOut delta (fun r j => ∑ k ∈ range fanIn, rate r k * weights k j) =
      pairing rows fanIn (fun r k => ∑ j ∈ range fanOut, delta r j * weights k j) rate := by
  apply Finset.sum_congr rfl
  intro r _
  simp only [Finset.mul_sum, Finset.sum_mul]
  rw [Finset.sum_comm]
  apply Finset.sum_congr rfl
  intro k _
  apply Finset.sum_congr rfl
  intro j _
  rw [mul_comm (rate r k), mul_assoc]

private theorem pairing_weights (delta value direction : Nat → Nat → α) :
    pairing rows fanOut delta (fun r j => ∑ k ∈ range fanIn, value r k * direction k j) =
      pairing fanIn fanOut (fun k j => ∑ r ∈ range rows, value r k * delta r j) direction := by
  simp only [pairing, Finset.mul_sum, Finset.sum_mul]
  calc
    _ = ∑ r ∈ range rows, ∑ k ∈ range fanIn, ∑ j ∈ range fanOut,
        delta r j * (value r k * direction k j) :=
      Finset.sum_congr rfl fun r _ => Finset.sum_comm
    _ = ∑ k ∈ range fanIn, ∑ r ∈ range rows, ∑ j ∈ range fanOut,
        delta r j * (value r k * direction k j) := Finset.sum_comm
    _ = ∑ k ∈ range fanIn, ∑ j ∈ range fanOut, ∑ r ∈ range rows,
        delta r j * (value r k * direction k j) :=
      Finset.sum_congr rfl fun k _ => Finset.sum_comm
    _ = _ := by simp only [mul_left_comm, mul_assoc]

private theorem pairing_biases (delta : Nat → Nat → α) (direction : Nat → α) :
    pairing rows fanOut delta (fun _ j => direction j) =
      ∑ j ∈ range fanOut, (∑ r ∈ range rows, delta r j) * direction j := by
  simp only [pairing, Finset.sum_mul]
  rw [Finset.sum_comm]

private theorem pairing_div {α : Type} [Field α] (left right : Nat → Nat → α) (divisor : α) :
    pairing rows width (fun r j => left r j / divisor) right =
      pairing rows width left right / divisor := by
  simp only [pairing, Finset.sum_div, div_mul_eq_mul_div]

end Pairing

/-! ## Rates -/

section Rates

variable [CommRing α]

def Layer.sumAt (layer : Layer α) (value : Nat → Nat → α) (r j : Nat) : α :=
  ∑ k ∈ range layer.weights.height, value r k * layer.weights.entry k j + layer.biases.getD j 0

/-- The rate of that sum, when the input has a rate and the parameters change in a direction. -/
def Layer.sumRate (layer direction : Layer α) (value rate : Nat → Nat → α) (r j : Nat) : α :=
  ∑ k ∈ range layer.weights.height, rate r k * layer.weights.entry k j +
    (∑ k ∈ range layer.weights.height, value r k * direction.weights.entry k j +
      direction.biases.getD j 0)

/-- The rate of the output, layer by layer from the values and the rates of the input. -/
def Network.outputRate [LT α] [DecidableLT α] (numerics : Numerics α) :
    List (Layer α × Layer α) → (value rate : Nat → Nat → α) → Nat → Nat → α
  | [], _, rate => rate
  | (layer, direction) :: rest, value, rate =>
      outputRate numerics rest (fun r j => numerics.activate (layer.sumAt value r j))
        fun r j => numerics.sigmoid (layer.sumAt value r j) *
          (1 - numerics.sigmoid (layer.sumAt value r j)) * layer.sumRate direction value rate r j

def LayerGradient.along (gradient : LayerGradient α) (direction : Layer α) : α :=
  pairing gradient.weights.height gradient.weights.width gradient.weights.entry
      direction.weights.entry +
    ∑ j ∈ range gradient.biases.length, gradient.biases.getD j 0 * direction.biases.getD j 0

theorem Layer.entry_preActivation {rows fanIn fanOut : Nat} {layer : Layer α} {input z : Matrix α}
    (hlayer : layer.HasShape fanIn fanOut) (hinput : input.HasShape rows fanIn)
    (hz : layer.preActivation input = .ok z) {value : Nat → Nat → α} {r j : Nat}
    (hvalue : ∀ k < fanIn, value r k = input.entry r k) (hr : r < rows) (hj : j < fanOut) :
    z.entry r j = layer.sumAt value r j := by
  obtain ⟨sums, hsums, hsumsShape⟩ := hinput.mul hlayer.weights
  obtain ⟨total, htotal, htotalShape⟩ := hsumsShape.addRow hlayer.biases
  have hsame : total = z := by
    rw [Layer.preActivation, hsums, ok_bind, htotal] at hz
    exact Except.ok.inj hz
  rw [← hsame, Matrix.entry_of_addRow htotal (htotalShape.height_eq ▸ hr)
    (htotalShape.width_eq ▸ hj), Matrix.entry_of_mul hsums (hsumsShape.height_eq ▸ hr)
    (hsumsShape.width_eq ▸ hj), Layer.sumAt, hinput.width_eq, hlayer.weights.height_eq]
  congr 1
  apply Finset.sum_congr rfl
  intro k hk
  rw [hvalue k (Finset.mem_range.mp hk)]

end Rates

namespace Network

section Adjoint

variable [Field α] {rows fanIn fanOut : Nat}

/-! ## The output -/

private theorem entry_outputSlope {width : Nat} {output slope : Matrix α} {y : List α}
    (houtput : output.HasShape rows width) (hy : y.length = rows)
    (hslope : outputSlope output y = .ok slope) {r j : Nat} (hr : r < rows) (hj : j < width) :
    slope.entry r j = lossSlope (output.entry r j) (y.getD r 0) := by
  have hlabels : spreadLabels rows y = .ok y := if_pos hy
  obtain ⟨same, hsame, -, hrows⟩ := outputSlope_eq_ok houtput hlabels hy
  obtain rfl : same = slope := Except.ok.inj (hsame.symm.trans hslope)
  obtain ⟨row, hrow, hlength⟩ := Matrix.exists_row (houtput.height_eq ▸ hr)
  have hlabel : y[r]? = some (y.getD r 0) := by simp [hy, hr]
  have hslopes : same.rows[r]? = some (row.map fun a => lossSlope a (y.getD r 0)) := by
    rw [hrows, List.getElem?_zipWith, hrow, hlabel]
  rw [Matrix.entry_of_row hslopes, Matrix.entry_of_row hrow]
  simp [hlength, houtput.width_eq, hj]

/-! ## One layer -/

theorem weights_of_layerGradient {input delta : Matrix α} {gradient : LayerGradient α}
    (hinput : input.HasShape rows fanIn) (hdelta : delta.HasShape rows fanOut)
    (hgradient : layerGradient input delta = .ok gradient) {k j : Nat} (hk : k < fanIn)
    (hj : j < fanOut) :
    gradient.weights.entry k j =
      (∑ r ∈ range rows, input.entry r k * delta.entry r j) / (rows : α) := by
  obtain ⟨sums, hsums, hsumsShape⟩ := hinput.transpose.mul hdelta
  rw [layerGradient, hsums, ok_bind] at hgradient
  rw [← Except.ok.inj hgradient]
  have hheight : k < sums.height := hsumsShape.height_eq ▸ hk
  have hwidth : j < sums.width := hsumsShape.width_eq ▸ hj
  rw [Matrix.entry_map _ hheight hwidth, Matrix.entry_of_mul hsums hheight hwidth,
    hinput.transpose.width_eq, hinput.height_eq]
  simp only [Matrix.entry_transpose]

theorem biases_of_layerGradient {input delta : Matrix α} {gradient : LayerGradient α}
    (hinput : input.HasShape rows fanIn) (hdelta : delta.HasShape rows fanOut)
    (hgradient : layerGradient input delta = .ok gradient) {j : Nat} (hj : j < fanOut) :
    gradient.biases.getD j 0 = (∑ r ∈ range rows, delta.entry r j) / (rows : α) := by
  obtain ⟨sums, hsums, -⟩ := hinput.transpose.mul hdelta
  rw [layerGradient, hsums, ok_bind] at hgradient
  rw [← Except.ok.inj hgradient]
  dsimp only
  split
  · next hempty =>
      have hrows : rows = 0 := hinput.height_eq.symm.trans hempty
      have hwidth : j < delta.width := hdelta.width_eq ▸ hj
      simp [hrows, hwidth]
  · have hheight : j < delta.transpose.height := by
      rw [hdelta.transpose.height_eq]
      exact hj
    obtain ⟨column, hcolumn, hlength⟩ := Matrix.exists_row hheight
    have hcolumns : delta.columns[j]? = some column := Matrix.rows_transpose delta ▸ hcolumn
    rw [List.getD_eq_getElem?_getD, List.getElem?_map, hcolumns]
    simp only [Option.map_some, Option.getD_some, mean]
    rw [Matrix.sum_eq_sum_getD, hlength, hdelta.transpose.width_eq]
    simp only [← Matrix.entry_of_row hcolumn, Matrix.entry_transpose]

private theorem along_of_layerGradient {input delta : Matrix α} {gradient : LayerGradient α}
    (hinput : input.HasShape rows fanIn) (hdelta : delta.HasShape rows fanOut)
    (hgradient : layerGradient input delta = .ok gradient) (direction : Layer α) :
    gradient.along direction =
      pairing rows fanOut delta.entry (fun r j =>
        ∑ k ∈ range fanIn, input.entry r k * direction.weights.entry k j +
          direction.biases.getD j 0) / (rows : α) := by
  have hshape := shape_of_layerGradient hinput hdelta hgradient
  rw [pairing_add, pairing_weights, pairing_biases, add_div, LayerGradient.along,
    hshape.weights.height_eq, hshape.weights.width_eq, hshape.biases]
  congr 1
  · rw [← pairing_div]
    apply pairing_congr
    intro k hk j hj
    rw [weights_of_layerGradient hinput hdelta hgradient hk hj]
  · rw [Finset.sum_div]
    apply Finset.sum_congr rfl
    intro j hj
    rw [biases_of_layerGradient hinput hdelta hgradient (Finset.mem_range.mp hj),
      div_mul_eq_mul_div]

private theorem pairing_sumRate {layer : Layer α} {input : Matrix α} {value : Nat → Nat → α}
    (hlayer : layer.HasShape fanIn fanOut)
    (hvalue : ∀ r < rows, ∀ k < fanIn, value r k = input.entry r k) (delta : Nat → Nat → α)
    (direction : Layer α) (rate : Nat → Nat → α) :
    pairing rows fanOut delta (layer.sumRate direction value rate) =
      pairing rows fanOut delta (fun r j =>
        ∑ k ∈ range fanIn, rate r k * layer.weights.entry k j) +
      pairing rows fanOut delta fun r j =>
        ∑ k ∈ range fanIn, input.entry r k * direction.weights.entry k j +
          direction.biases.getD j 0 := by
  rw [← pairing_add]
  apply pairing_congr
  intro r hr j _
  have hinput : ∑ k ∈ range fanIn, value r k * direction.weights.entry k j =
      ∑ k ∈ range fanIn, input.entry r k * direction.weights.entry k j := by
    apply Finset.sum_congr rfl
    intro k hk
    rw [hvalue r hr k (Finset.mem_range.mp hk)]
  rw [Layer.sumRate, hlayer.weights.height_eq, hinput]

/-- The slope before a layer pairs with a rate as the slope at its sums does with their rates. -/
private theorem pairing_before {layer : Layer α} {delta before : Matrix α}
    (hlayer : layer.HasShape fanIn fanOut) (hdelta : delta.HasShape rows fanOut)
    (hbefore : delta.mul layer.weights.transpose = .ok before) (rate : Nat → Nat → α) :
    pairing rows fanIn before.entry rate =
      pairing rows fanOut delta.entry fun r j =>
        ∑ k ∈ range fanIn, rate r k * layer.weights.entry k j := by
  obtain ⟨-, hheight, hwidth⟩ := Matrix.shape_of_mul hbefore
  have hrows : before.height = rows := hheight.trans hdelta.height_eq
  have hcolumns : before.width = fanIn := hwidth.trans hlayer.weights.transpose.width_eq
  rw [pairing_mul]
  apply pairing_congr
  intro r hr k hk
  rw [Matrix.entry_of_mul hbefore (hrows ▸ hr) (hcolumns ▸ hk), hdelta.width_eq]
  simp only [Matrix.entry_transpose]

variable (numerics : Numerics α)

private theorem pairing_delta {stage : Stage α} {slope delta : Matrix α}
    (hstage : stage.HasShape rows fanIn fanOut)
    (hdelta : slope.zipWith (· * ·) (stage.preActivation.map numerics.sigmoidSlope) = .ok delta)
    (hdeltaShape : delta.HasShape rows fanOut) (rate : Nat → Nat → α) :
    pairing rows fanOut slope.entry (fun r j =>
        numerics.sigmoidSlope (stage.preActivation.entry r j) * rate r j) =
      pairing rows fanOut delta.entry rate := by
  apply pairing_congr
  intro r hr j hj
  rw [Matrix.entry_of_zipWith hdelta (hdeltaShape.height_eq ▸ hr) (hdeltaShape.width_eq ▸ hj),
    Matrix.entry_map _ (hstage.preActivation.height_eq ▸ hr)
      (hstage.preActivation.width_eq ▸ hj), mul_assoc]

/--
One layer: what its gradient says of a direction is what the pairing of slope and
rate gains from the input of the layer to its output.
-/
theorem along_eq_sub_pairing {layer : Layer α} {stage : Stage α}
    {slope delta before : Matrix α} {gradient : LayerGradient α} {value : Nat → Nat → α}
    (hlayer : layer.HasShape fanIn fanOut) (hstage : stage.HasShape rows fanIn fanOut)
    (hvalue : ∀ r < rows, ∀ k < fanIn, value r k = stage.input.entry r k)
    (hdelta : slope.zipWith (· * ·) (stage.preActivation.map numerics.sigmoidSlope) = .ok delta)
    (hgradient : layerGradient stage.input delta = .ok gradient)
    (hbefore : delta.mul layer.weights.transpose = .ok before)
    (direction : Layer α) (rate : Nat → Nat → α) :
    gradient.along direction =
      (pairing rows fanOut slope.entry (fun r j =>
          numerics.sigmoidSlope (stage.preActivation.entry r j) *
            layer.sumRate direction value rate r j) -
        pairing rows fanIn before.entry rate) / (rows : α) := by
  have hdeltaShape := shape_of_delta numerics hstage hdelta
  rw [pairing_delta numerics hstage hdelta hdeltaShape, pairing_sumRate hlayer hvalue,
    pairing_before hlayer hdeltaShape hbefore, add_sub_cancel_left,
    along_of_layerGradient hstage.input hdeltaShape hgradient]

/-! ## All layers -/

variable [LT α] [DecidableLT α]

theorem sum_along_eq_sub_pairing {width : Nat} {widths : List Nat}
    {layers directions : List (Layer α)} {x slope before : Matrix α} {trace : List (Stage α)}
    {gradients : List (LayerGradient α)} {value : Nat → Nat → α}
    (hlayers : Stacked Layer.HasShape (width :: widths) layers)
    (hdirections : Stacked Layer.HasShape (width :: widths) directions)
    (hx : x.HasShape rows width) (hvalue : ∀ r < rows, ∀ k < width, value r k = x.entry r k)
    (htrace : stages numerics layers x = .ok trace)
    (hbackward : backward numerics slope (layers.zip trace) = .ok (gradients, before))
    (rate : Nat → Nat → α) :
    (List.zipWith LayerGradient.along gradients directions).sum =
      (pairing rows (widths.getLastD width) slope.entry
          (outputRate numerics (layers.zip directions) value rate) -
        pairing rows width before.entry rate) / (rows : α) := by
  -- The gradients behind a layer stop at the pairing with which its own starts.
  induction layers generalizing width widths directions x value rate trace gradients before with
  | nil =>
      cases hlayers
      cases hdirections
      obtain ⟨rfl, rfl⟩ := Prod.mk.inj (Except.ok.inj hbackward)
      simp [outputRate]
  | cons layer layers ih =>
      obtain ⟨z, laterTrace, hz, hlaterTrace, rfl⟩ := stages_cons numerics htrace
      obtain ⟨laterGradients, after, delta, gradient, hlater, hdelta, hgradient, hbefore, rfl⟩ :=
        backward_cons numerics hbackward
      cases hlayers with
      | @layer _ fanOut _ _ _ hlayer hrest =>
          cases hdirections with
          | @layer _ _ _ direction _ hdirection hrestDirections =>
              obtain ⟨same, hsame, hzShape⟩ := preActivation_eq_ok hlayer hx
              obtain rfl : same = z := Except.ok.inj (hsame.symm.trans hz)
              have hactivation := hzShape.map numerics.activate
              have hsum : ∀ r < rows, ∀ j < fanOut, same.entry r j = layer.sumAt value r j :=
                fun r hr j hj => layer.entry_preActivation hlayer hx hz (hvalue r hr) hr hj
              have hnext : ∀ r < rows, ∀ j < fanOut,
                  numerics.activate (layer.sumAt value r j) =
                    (same.map numerics.activate).entry r j := by
                intro r hr j hj
                rw [Matrix.entry_map _ (hzShape.height_eq ▸ hr) (hzShape.width_eq ▸ hj),
                  hsum r hr j hj]
              have hrate : pairing rows fanOut after.entry (fun r j =>
                  numerics.sigmoidSlope (same.entry r j) *
                    layer.sumRate direction value rate r j) =
                  pairing rows fanOut after.entry fun r j =>
                    numerics.sigmoid (layer.sumAt value r j) *
                      (1 - numerics.sigmoid (layer.sumAt value r j)) *
                      layer.sumRate direction value rate r j := by
                apply pairing_congr
                intro r hr j hj
                rw [hsum r hr j hj, Numerics.sigmoidSlope]
              have hfirst := along_eq_sub_pairing numerics hlayer ⟨hx, hzShape, hactivation⟩ hvalue
                hdelta hgradient hbefore direction rate
              have hlaterSum := ih hrest hrestDirections hactivation hnext hlaterTrace hlater fun r j =>
                numerics.sigmoid (layer.sumAt value r j) *
                  (1 - numerics.sigmoid (layer.sumAt value r j)) *
                  layer.sumRate direction value rate r j
              rw [List.zipWith_cons_cons, List.sum_cons, List.zip_cons_cons, outputRate,
                List.getLastD_cons, hlaterSum, hfirst, hrate, ← add_div, sub_add_sub_cancel']

end Adjoint

/--
Backpropagation is exact.  Along every direction in which the parameters can
change, the gradient is the mean over the rows of the slopes of the loss at the
output units, each times the rate of its unit.
-/
theorem gradients_along_eq_mean_output_rate [Field α] [LinearOrder α] (numerics : Numerics α)
    {network : Network α} {x : Matrix α} {y : List α} {directions : List (Layer α)}
    (hnetwork : network.WellShaped) (hx : x.width = network.config.inputSize)
    (hy : y.length = x.height)
    (hdirections : Stacked Layer.HasShape network.config.widths directions) :
    ∃ output gradients, network.forward numerics x = .ok output ∧
      output.HasShape x.height network.config.outputs ∧
      network.gradients numerics x y = .ok gradients ∧
      Stacked LayerGradient.HasShape network.config.widths gradients ∧
      (List.zipWith LayerGradient.along gradients directions).sum =
        1 / (x.height : α) * ∑ r ∈ range x.height, ∑ j ∈ range network.config.outputs,
          (output.entry r j - y.getD r 0) / (output.entry r j * (1 - output.entry r j)) *
            outputRate numerics (network.layers.zip directions) x.entry (fun _ _ => 0) r j := by
  obtain ⟨trace, htrace, -, houtput⟩ := trace_eq_ok numerics hnetwork hx
  obtain ⟨gradients, hgradients, hshape⟩ := gradients_eq_ok numerics hnetwork hx (.inl hy)
  have hforward : network.forward numerics x = .ok (traceOutput x trace) := by
    rw [forward_eq_trace, htrace]
    rfl
  refine ⟨traceOutput x trace, gradients, hforward, houtput, hgradients, hshape, ?_⟩
  have hpasses := hgradients
  simp only [Network.gradients, htrace, bind_eq_ok, Except.ok.injEq, exists_eq_left'] at hpasses
  obtain ⟨slope, hslope, ⟨same, before⟩, hbackward, hresult⟩ := hpasses
  obtain rfl : same = gradients := Except.ok.inj hresult
  have hlayers : Stacked Layer.HasShape (network.config.inputSize ::
      (network.config.hiddenSizes ++ [network.config.outputs])) network.layers := hnetwork
  have hadjoint := sum_along_eq_sub_pairing numerics hlayers hdirections ⟨rfl, hx⟩
    (fun _ _ _ _ => rfl) ((trace_eq_stages numerics network x).symm.trans htrace) hbackward
    fun _ _ => 0
  have hinput : pairing x.height network.config.inputSize before.entry (fun _ _ => 0) = 0 := by
    simp [pairing]
  rw [hadjoint, hinput, List.getLastD_concat, sub_zero, one_div, div_eq_inv_mul, pairing]
  congr 1
  apply Finset.sum_congr rfl
  intro r hr
  apply Finset.sum_congr rfl
  intro j hj
  rw [entry_outputSlope houtput hy hslope (Finset.mem_range.mp hr) (Finset.mem_range.mp hj),
    lossSlope]

def rationalNumerics : Numerics Rat where
  sigmoid z := 1 / 2 + z / 100
  log z := z
  margin := 1 / 10
  infinity := 100
  fixed _ _ := ""

def rationalNetwork : Network Rat where
  config := ⟨2, [2], 2, 1⟩
  layers := [⟨⟨2, 2, [1, -2, 3, 4], rfl⟩, [1, 0]⟩, ⟨⟨2, 2, [2, 1, -1, 5], rfl⟩, [0, -3]⟩]

def rationalDirections : List (Layer Rat) :=
  [⟨⟨2, 2, [1, 0, 0, 2], rfl⟩, [0, 1]⟩, ⟨⟨2, 2, [0, 3, 1, 0], rfl⟩, [-1, 0]⟩]

def rationalRows : Matrix Rat := ⟨2, 2, [1, 0, 2, -1], rfl⟩

theorem rationalNetwork_gradients_along :
    rationalNetwork.WellShaped ∧
    Stacked Layer.HasShape rationalNetwork.config.widths rationalDirections ∧
    ∃ output gradients, rationalNetwork.forward rationalNumerics rationalRows = .ok output ∧
      output.HasShape 2 2 ∧
      rationalNetwork.gradients rationalNumerics rationalRows [1, 0] = .ok gradients ∧
      Stacked LayerGradient.HasShape [2, 2, 2] gradients ∧
      (List.zipWith LayerGradient.along gradients rationalDirections).sum =
        1 / ((2 : Nat) : Rat) * ∑ r ∈ range 2, ∑ j ∈ range 2,
          (output.entry r j - [1, 0].getD r 0) / (output.entry r j * (1 - output.entry r j)) *
            outputRate rationalNumerics (rationalNetwork.layers.zip rationalDirections)
              rationalRows.entry (fun _ _ => 0) r j := by
  have hnetwork : rationalNetwork.WellShaped :=
    .layer ⟨⟨rfl, rfl⟩, rfl⟩ (.layer ⟨⟨rfl, rfl⟩, rfl⟩ (.output 2))
  have hdirections : Stacked Layer.HasShape rationalNetwork.config.widths rationalDirections :=
    .layer ⟨⟨rfl, rfl⟩, rfl⟩ (.layer ⟨⟨rfl, rfl⟩, rfl⟩ (.output 2))
  exact ⟨hnetwork, hdirections,
    gradients_along_eq_mean_output_rate rationalNumerics hnetwork rfl rfl hdirections⟩

end Network

end Polarity
