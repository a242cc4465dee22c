import Polarity.Model.Network
import Polarity.Proofs.Matrix

/-!
# Shapes of networks

The layers of a network fit the widths of its configuration, one layer between
every two neighbouring widths.  Forward and backward passes over such layers do
not fail, and a step of training keeps the shapes.
-/

namespace Polarity

variable {α : Type}

/-- Items between neighbouring widths, each of which fits the two widths around it. -/
inductive Stacked {τ : Type} (fits : Nat → Nat → τ → Prop) : List Nat → List τ → Prop
  | output (width : Nat) : Stacked fits [width] []
  | layer {fanIn fanOut : Nat} {widths : List Nat} {item : τ} {items : List τ}
      (hitem : fits fanIn fanOut item) (hitems : Stacked fits (fanOut :: widths) items) :
      Stacked fits (fanIn :: fanOut :: widths) (item :: items)

theorem Stacked.exists_fits {τ : Type} {fits : Nat → Nat → τ → Prop} {widths : List Nat}
    {items : List τ} (hitems : Stacked fits widths items) {item : τ} (hitem : item ∈ items) :
    ∃ fanIn fanOut, fits fanIn fanOut item := by
  induction hitems with
  | output width => cases hitem
  | layer hfirst _ ih =>
      cases hitem with
      | head => exact ⟨_, _, hfirst⟩
      | tail _ hitem => exact ih hitem

structure Layer.HasShape (fanIn fanOut : Nat) (layer : Layer α) : Prop where
  weights : layer.weights.HasShape fanIn fanOut
  biases : layer.biases.length = fanOut

structure LayerGradient.HasShape (fanIn fanOut : Nat) (gradient : LayerGradient α) : Prop where
  weights : gradient.weights.HasShape fanIn fanOut
  biases : gradient.biases.length = fanOut

/-- The shapes that a pass over `rows` rows leaves at a layer. -/
structure Stage.HasShape (rows fanIn fanOut : Nat) (stage : Stage α) : Prop where
  input : stage.input.HasShape rows fanIn
  preActivation : stage.preActivation.HasShape rows fanOut
  activation : stage.activation.HasShape rows fanOut

def Network.WellShaped (network : Network α) : Prop :=
  Stacked Layer.HasShape network.config.widths network.layers

theorem Network.WellShaped.exists_first {network : Network α} (hnetwork : network.WellShaped) :
    ∃ first rest fanOut, network.layers = first :: rest ∧
      first.HasShape network.config.inputSize fanOut := by
  rw [WellShaped, NetworkConfig.widths] at hnetwork
  generalize network.layers = layers at hnetwork
  cases hhidden : network.config.hiddenSizes with
  | nil =>
      rw [hhidden] at hnetwork
      cases hnetwork with
      | layer hfirst _ => exact ⟨_, _, _, rfl, hfirst⟩
  | cons width hiddenSizes =>
      rw [hhidden] at hnetwork
      cases hnetwork with
      | layer hfirst _ => exact ⟨_, _, _, rfl, hfirst⟩

namespace Network

theorem spreadLabels_eq_ok {count : Nat} {y : List α} (hy : y.length = count ∨ y.length = 1) :
    ∃ labels, spreadLabels count y = .ok labels ∧ labels.length = count := by
  unfold spreadLabels
  split
  · next hlength => exact ⟨y, rfl, hlength⟩
  · next hlength =>
      obtain ⟨label, rfl⟩ := List.length_eq_one_iff.mp (hy.resolve_left hlength)
      exact ⟨_, rfl, List.length_replicate⟩

@[simp] theorem traceOutput_cons (x : Matrix α) (stage : Stage α) (trace : List (Stage α)) :
    traceOutput x (stage :: trace) = traceOutput stage.activation trace := by
  cases trace with
  | nil => rfl
  | cons next trace => simp [traceOutput, List.getLast?_cons]

/-! ## Forward -/

section Forward

variable [Zero α] [Add α] [Mul α]

theorem preActivation_eq_ok {rows fanIn fanOut : Nat} {layer : Layer α} {input : Matrix α}
    (hlayer : layer.HasShape fanIn fanOut) (hinput : input.HasShape rows fanIn) :
    ∃ z, layer.preActivation input = .ok z ∧ z.HasShape rows fanOut := by
  obtain ⟨sums, hsums, hsumsShape⟩ := hinput.mul hlayer.weights
  obtain ⟨z, hz, hzShape⟩ := hsumsShape.addRow hlayer.biases
  exact ⟨z, by rw [Layer.preActivation, hsums, ok_bind, hz], hzShape⟩

variable [One α] [Sub α] [LT α] [DecidableLT α] (numerics : Numerics α)

/-- The stages of some consecutive layers, each of which hands its activation to the next. -/
def stages : List (Layer α) → Matrix α → Except Error (List (Stage α))
  | [], _ => .ok []
  | layer :: layers, input => do
      let z ← layer.preActivation input
      let activation := z.map numerics.activate
      let later ← stages layers activation
      return ⟨input, z, activation⟩ :: later

private theorem foldlM_addStage (layers : List (Layer α)) (x : Matrix α) (kept : List (Stage α)) :
    layers.foldlM (addStage numerics x) kept =
      (stages numerics layers (traceOutput x kept)).map (kept ++ ·) := by
  induction layers generalizing kept with
  | nil =>
      rw [List.foldlM_nil, stages, Except.map, List.append_nil]
      rfl
  | cons layer layers ih =>
      rw [List.foldlM_cons, addStage, stages]
      cases layer.preActivation (traceOutput x kept) with
      | error error => rfl
      | ok z =>
          -- The activation that is read back from the last stage is the one just computed.
          have houtput : traceOutput x (kept ++ [⟨traceOutput x kept, z, z.map numerics.activate⟩]) =
              z.map numerics.activate := by
            simp [traceOutput]
          simp only [ok_bind, pure_bind, ih, houtput]
          cases stages numerics layers (z.map numerics.activate) with
          | error error => rfl
          | ok later =>
              refine congrArg Except.ok ?_
              exact List.append_assoc _ _ _

theorem trace_eq_stages (network : Network α) (x : Matrix α) :
    network.trace numerics x = stages numerics network.layers x := by
  rw [trace, foldlM_addStage]
  exact congrFun Except.map_id _

/-- The pass that keeps its stages computes the same output, or fails alike. -/
theorem forward_eq_trace (network : Network α) (x : Matrix α) :
    network.forward numerics x = (network.trace numerics x).map (traceOutput x) := by
  rw [trace_eq_stages]
  unfold forward
  induction network.layers generalizing x with
  | nil => rfl
  | cons layer layers ih =>
      rw [List.foldlM_cons, Layer.forward, stages]
      cases layer.preActivation x with
      | error error => rfl
      | ok z =>
          simp only [ok_bind, pure_bind, ih]
          cases stages numerics layers (z.map numerics.activate) with
          | error error => rfl
          | ok later =>
              change Except.ok _ = Except.ok _
              rw [traceOutput_cons]

theorem stages_cons {layer : Layer α} {layers : List (Layer α)} {x : Matrix α}
    {trace : List (Stage α)} (htrace : stages numerics (layer :: layers) x = .ok trace) :
    ∃ z later, layer.preActivation x = .ok z ∧
      stages numerics layers (z.map numerics.activate) = .ok later ∧
      trace = ⟨x, z, z.map numerics.activate⟩ :: later := by
  simp only [stages, bind_eq_ok] at htrace
  obtain ⟨z, hz, later, hlater, htrace⟩ := htrace
  exact ⟨z, later, hz, hlater, (Except.ok.inj htrace).symm⟩

theorem stages_eq_ok {rows width : Nat} {widths : List Nat} {layers : List (Layer α)}
    {x : Matrix α} (hlayers : Stacked Layer.HasShape (width :: widths) layers)
    (hx : x.HasShape rows width) :
    ∃ trace, stages numerics layers x = .ok trace ∧
      Stacked (Stage.HasShape rows) (width :: widths) trace ∧
      (traceOutput x trace).HasShape rows (widths.getLastD width) := by
  induction layers generalizing width widths x with
  | nil =>
      cases hlayers
      exact ⟨[], rfl, .output width, hx⟩
  | cons layer layers ih =>
      cases hlayers with
      | layer hlayer hrest =>
          obtain ⟨z, hz, hzShape⟩ := preActivation_eq_ok hlayer hx
          have hactivation := hzShape.map numerics.activate
          obtain ⟨later, hlater, htrace, houtput⟩ := ih hrest hactivation
          refine ⟨⟨x, z, z.map numerics.activate⟩ :: later, ?_, ?_, ?_⟩
          · simp only [stages, hz, ok_bind, hlater]
            rfl
          · exact .layer ⟨hx, hzShape, hactivation⟩ htrace
          · rw [traceOutput_cons, List.getLastD_cons]
            exact houtput

theorem trace_eq_ok {network : Network α} {x : Matrix α} (hnetwork : network.WellShaped)
    (hx : x.width = network.config.inputSize) :
    ∃ trace, network.trace numerics x = .ok trace ∧
      Stacked (Stage.HasShape x.height) network.config.widths trace ∧
      (traceOutput x trace).HasShape x.height network.config.outputs := by
  have hlayers : Stacked Layer.HasShape (network.config.inputSize ::
      (network.config.hiddenSizes ++ [network.config.outputs])) network.layers := hnetwork
  obtain ⟨trace, htrace, hstages, houtput⟩ := stages_eq_ok numerics hlayers ⟨rfl, hx⟩
  rw [List.getLastD_concat] at houtput
  exact ⟨trace, (trace_eq_stages numerics network x).trans htrace, hstages, houtput⟩

end Forward

/-! ## Backward -/

theorem outputSlope_eq_ok [One α] [Sub α] [Mul α] [Div α] {rows width : Nat} {output : Matrix α}
    {y labels : List α} (houtput : output.HasShape rows width)
    (hlabels : spreadLabels rows y = .ok labels) (hlength : labels.length = rows) :
    ∃ slope, outputSlope output y = .ok slope ∧ slope.HasShape rows width ∧
      slope.rows = List.zipWith (fun row label => row.map fun a => lossSlope a label)
        output.rows labels := by
  rw [outputSlope, houtput.height_eq, hlabels, ok_bind]
  refine ⟨_, rfl, ⟨?_, houtput.width_eq⟩, Matrix.rows_ofRows _⟩
  simp [Matrix.ofRows, houtput.height_eq, hlength]

section Backward

variable [Zero α] [Add α] [Mul α] [Div α] [NatCast α]

theorem layerGradient_eq_ok {rows fanIn fanOut : Nat} {input delta : Matrix α}
    (hinput : input.HasShape rows fanIn) (hdelta : delta.HasShape rows fanOut) :
    ∃ gradient, layerGradient input delta = .ok gradient ∧ gradient.HasShape fanIn fanOut := by
  obtain ⟨sums, hsums, hsumsShape⟩ := hinput.transpose.mul hdelta
  refine ⟨_, by rw [layerGradient, hsums, ok_bind]; rfl, hsumsShape.map _, ?_⟩
  dsimp only
  split
  · rw [List.length_replicate, hdelta.width_eq]
  · rw [List.length_map, Matrix.length_columns, hdelta.width_eq]

theorem shape_of_layerGradient {rows fanIn fanOut : Nat} {input delta : Matrix α}
    {gradient : LayerGradient α} (hinput : input.HasShape rows fanIn)
    (hdelta : delta.HasShape rows fanOut) (hgradient : layerGradient input delta = .ok gradient) :
    gradient.HasShape fanIn fanOut := by
  obtain ⟨same, hsame, hshape⟩ := layerGradient_eq_ok hinput hdelta
  obtain rfl : same = gradient := Except.ok.inj (hsame.symm.trans hgradient)
  exact hshape

variable [One α] [Sub α] (numerics : Numerics α)

omit [Zero α] [Add α] [Div α] [NatCast α] in
theorem shape_of_delta {rows fanIn fanOut : Nat} {stage : Stage α} {slope delta : Matrix α}
    (hstage : stage.HasShape rows fanIn fanOut)
    (hdelta : slope.zipWith (· * ·) (stage.preActivation.map numerics.sigmoidSlope) = .ok delta) :
    delta.HasShape rows fanOut := by
  obtain ⟨hheight, hwidth⟩ := (Matrix.shape_of_zipWith hdelta).2
  exact ⟨hheight.symm.trans hstage.preActivation.height_eq,
    hwidth.symm.trans hstage.preActivation.width_eq⟩

/-- One step backwards, from the slope after a layer to the slope before it. -/
private theorem backward_layer {rows fanIn fanOut : Nat} {layer : Layer α} {stage : Stage α}
    {slope : Matrix α} (hlayer : layer.HasShape fanIn fanOut)
    (hstage : stage.HasShape rows fanIn fanOut) (hslope : slope.HasShape rows fanOut) :
    ∃ delta gradient before,
      slope.zipWith (· * ·) (stage.preActivation.map numerics.sigmoidSlope) = .ok delta ∧
      layerGradient stage.input delta = .ok gradient ∧
      delta.mul layer.weights.transpose = .ok before ∧
      delta.HasShape rows fanOut ∧ gradient.HasShape fanIn fanOut ∧
      before.HasShape rows fanIn := by
  obtain ⟨delta, hdelta, hdeltaShape⟩ :=
    hslope.zipWith (hstage.preActivation.map numerics.sigmoidSlope) (· * ·)
  obtain ⟨gradient, hgradient, hgradientShape⟩ := layerGradient_eq_ok hstage.input hdeltaShape
  obtain ⟨before, hbefore, hbeforeShape⟩ := hdeltaShape.mul hlayer.weights.transpose
  exact ⟨delta, gradient, before, hdelta, hgradient, hbefore, hdeltaShape, hgradientShape,
    hbeforeShape⟩

theorem backward_cons {layer : Layer α} {stage : Stage α} {rest : List (Layer α × Stage α)}
    {slope before : Matrix α} {gradients : List (LayerGradient α)}
    (hbackward : backward numerics slope ((layer, stage) :: rest) = .ok (gradients, before)) :
    ∃ later after delta gradient,
      backward numerics slope rest = .ok (later, after) ∧
      after.zipWith (· * ·) (stage.preActivation.map numerics.sigmoidSlope) = .ok delta ∧
      layerGradient stage.input delta = .ok gradient ∧
      delta.mul layer.weights.transpose = .ok before ∧ gradients = gradient :: later := by
  simp only [backward, bind_eq_ok] at hbackward
  obtain ⟨⟨later, after⟩, hlater, delta, hdelta, gradient, hgradient, slope, hslope, hresult⟩ :=
    hbackward
  obtain ⟨rfl, rfl⟩ := Prod.mk.inj (Except.ok.inj hresult)
  exact ⟨later, after, delta, gradient, hlater, hdelta, hgradient, hslope, rfl⟩

theorem backward_eq_ok {rows width : Nat} {widths : List Nat} {layers : List (Layer α)}
    {trace : List (Stage α)} {slope : Matrix α}
    (hlayers : Stacked Layer.HasShape (width :: widths) layers)
    (htrace : Stacked (Stage.HasShape rows) (width :: widths) trace)
    (hslope : slope.HasShape rows (widths.getLastD width)) :
    ∃ gradients before, backward numerics slope (layers.zip trace) = .ok (gradients, before) ∧
      Stacked LayerGradient.HasShape (width :: widths) gradients ∧ before.HasShape rows width := by
  induction layers generalizing width widths trace with
  | nil =>
      cases hlayers
      exact ⟨[], slope, rfl, .output width, hslope⟩
  | cons layer layers ih =>
      cases hlayers with
      | layer hlayer hrest =>
          cases htrace with
          | layer hstage hlater =>
              rw [List.getLastD_cons] at hslope
              obtain ⟨gradients, after, hbackward, hgradients, hafter⟩ := ih hrest hlater hslope
              obtain ⟨delta, gradient, before, hdelta, hgradient, hbefore, -, hgradientShape,
                hbeforeShape⟩ := backward_layer numerics hlayer hstage hafter
              refine ⟨gradient :: gradients, before, ?_, .layer hgradientShape hgradients,
                hbeforeShape⟩
              simp only [List.zip_cons_cons, backward, hbackward, ok_bind, hdelta, hgradient,
                hbefore]
              rfl

variable [LT α] [DecidableLT α]

theorem passes_of_gradients {network : Network α} {x : Matrix α} {y : List α}
    {gradients : List (LayerGradient α)}
    (hgradients : network.gradients numerics x y = .ok gradients) :
    ∃ trace slope before, network.trace numerics x = .ok trace ∧
      outputSlope (traceOutput x trace) y = .ok slope ∧
      backward numerics slope (network.layers.zip trace) = .ok (gradients, before) := by
  simp only [Network.gradients, bind_eq_ok] at hgradients
  obtain ⟨trace, htrace, slope, hslope, ⟨same, before⟩, hbackward, hresult⟩ := hgradients
  obtain rfl : same = gradients := Except.ok.inj hresult
  exact ⟨trace, slope, before, htrace, hslope, hbackward⟩

theorem gradients_eq_ok {network : Network α} {x : Matrix α} {y : List α}
    (hnetwork : network.WellShaped) (hx : x.width = network.config.inputSize)
    (hy : y.length = x.height ∨ y.length = 1) :
    ∃ gradients, network.gradients numerics x y = .ok gradients ∧
      Stacked LayerGradient.HasShape network.config.widths gradients := by
  obtain ⟨trace, htrace, hstages, houtput⟩ := trace_eq_ok numerics hnetwork hx
  obtain ⟨labels, hlabels, hlength⟩ := spreadLabels_eq_ok hy
  obtain ⟨slope, hslope, hslopeShape, -⟩ := outputSlope_eq_ok houtput hlabels hlength
  have hlast : slope.HasShape x.height
      ((network.config.hiddenSizes ++ [network.config.outputs]).getLastD
        network.config.inputSize) := by
    rwa [List.getLastD_concat]
  obtain ⟨gradients, before, hbackward, hgradients, -⟩ :=
    backward_eq_ok numerics hnetwork hstages hlast
  refine ⟨gradients, ?_, hgradients⟩
  simp only [Network.gradients, htrace, ok_bind, hslope, hbackward]
  rfl

end Backward

/-! ## Steps of training -/

section Fit

variable [Add α] [Mul α] [Neg α]

theorem stepLayer_eq_ok (rate : α) {fanIn fanOut : Nat} {layer : Layer α}
    {gradient : LayerGradient α} (hlayer : layer.HasShape fanIn fanOut)
    (hgradient : gradient.HasShape fanIn fanOut) :
    ∃ next, stepLayer rate layer gradient = .ok next ∧ next.HasShape fanIn fanOut := by
  obtain ⟨weights, hweights, hweightsShape⟩ :=
    hlayer.weights.zipWith hgradient.weights fun weight slope => weight + -rate * slope
  refine ⟨_, by rw [stepLayer, hweights, ok_bind]; rfl, hweightsShape, ?_⟩
  simp [hlayer.biases, hgradient.biases]

private theorem mapM_stepLayer_eq_ok (rate : α) {widths : List Nat} {layers : List (Layer α)}
    {gradients : List (LayerGradient α)} (hlayers : Stacked Layer.HasShape widths layers)
    (hgradients : Stacked LayerGradient.HasShape widths gradients) :
    ∃ next, ((layers.zip gradients).mapM fun (layer, gradient) => stepLayer rate layer gradient) =
      .ok next ∧ Stacked Layer.HasShape widths next := by
  induction hlayers generalizing gradients with
  | output width =>
      cases hgradients
      exact ⟨[], rfl, .output width⟩
  | layer hlayer hlayers ih =>
      cases hgradients with
      | layer hgradient hgradients =>
          obtain ⟨first, hfirst, hfirstShape⟩ := stepLayer_eq_ok rate hlayer hgradient
          obtain ⟨rest, hrest, hrestShape⟩ := ih hgradients
          refine ⟨first :: rest, ?_, .layer hfirstShape hrestShape⟩
          simp only [List.zip_cons_cons, List.mapM_cons, hfirst, ok_bind, hrest]
          rfl

variable [Zero α] [Div α] [NatCast α] [One α] [Sub α] [LT α] [DecidableLT α]
  (numerics : Numerics α)

theorem fit_eq_ok {network : Network α} {x : Matrix α} {y : List α}
    (hnetwork : network.WellShaped) (hx : x.width = network.config.inputSize)
    (hy : y.length = x.height ∨ y.length = 1) :
    ∃ next, network.fit numerics x y = .ok next ∧ next.WellShaped ∧
      next.config = network.config := by
  by_cases hempty : x.height = 0
  · exact ⟨network, by rw [fit, if_pos hempty]; rfl, hnetwork, rfl⟩
  · obtain ⟨gradients, hgradients, hgradientsShape⟩ := gradients_eq_ok numerics hnetwork hx hy
    obtain ⟨layers, hlayers, hlayersShape⟩ :=
      mapM_stepLayer_eq_ok network.config.learningRate hnetwork hgradientsShape
    refine ⟨{ network with layers := layers }, ?_, hlayersShape, rfl⟩
    rw [fit, if_neg hempty]
    simp only [hgradients, ok_bind, hlayers]
    rfl

end Fit

end Network

end Polarity
