import Polarity.Proofs.Network.Shape

/-!
# Forward passes and their traces

A network is run in two ways: for its output alone, and with a trace from which
the gradients are computed.  Both fail on the same inputs and have the same
output.  The trace holds one stage for every layer, and each stage reads what the
stage before it left.  Nothing is assumed of the scalars.
-/

namespace Polarity

variable {α : Type} [Zero α] [Add α] [Mul α]

/-! ## One layer -/

namespace Network

theorem shape_of_preActivation {layer : Layer α} {input z : Matrix α}
    (hz : layer.preActivation input = .ok z) :
    layer.HasShape input.width z.width ∧ z.height = input.height := by
  obtain ⟨sums, hsums, hz⟩ := bind_eq_ok.mp hz
  obtain ⟨hfit, hsumsShape⟩ := Matrix.shape_of_mul hsums
  obtain ⟨hbiases, hzShape⟩ := Matrix.shape_of_addRow hz
  have hwidth : z.width = layer.weights.width := hzShape.width_eq.trans hsumsShape.width_eq
  exact ⟨⟨⟨hfit.symm, hwidth.symm⟩, hbiases.trans hzShape.width_eq.symm⟩,
    hzShape.height_eq.trans hsumsShape.height_eq⟩

private theorem rows_of_preActivation {layer : Layer α} {input z : Matrix α}
    (hz : layer.preActivation input = .ok z) :
    z.rows = input.rows.map fun row =>
      List.zipWith (· + ·) (layer.weights.columns.map (Matrix.inner row)) layer.biases := by
  obtain ⟨sums, hsums, hz⟩ := bind_eq_ok.mp hz
  rw [Matrix.rows_of_addRow hz, Matrix.rows_of_mul hsums, Matrix.products, List.map_map]
  rfl

end Network

variable [One α] [Sub α] [LT α] [DecidableLT α] (numerics : Numerics α)

/-- The stage that a layer leaves when it is given an input: `z = a W + b`, and `z` activated. -/
structure Layer.Leaves (layer : Layer α) (input : Matrix α) (stage : Stage α) : Prop where
  input_eq : stage.input = input
  fits : layer.HasShape input.width stage.preActivation.width
  rows_eq : stage.preActivation.rows = input.rows.map fun row =>
    List.zipWith (· + ·) (layer.weights.columns.map (Matrix.inner row)) layer.biases
  activation_eq : stage.activation = stage.preActivation.map numerics.activate

namespace Network

/-! ## All layers -/

theorem length_of_stages {layers : List (Layer α)} {x : Matrix α} {trace : List (Stage α)}
    (htrace : stages numerics layers x = .ok trace) : trace.length = layers.length := by
  induction layers generalizing x trace with
  | nil =>
      obtain rfl := Except.ok.inj htrace
      rfl
  | cons layer layers ih =>
      obtain ⟨z, later, -, hlater, rfl⟩ := stages_cons numerics htrace
      rw [List.length_cons, List.length_cons, ih hlater]

private theorem height_of_stages {layers : List (Layer α)} {x : Matrix α} {trace : List (Stage α)}
    (htrace : stages numerics layers x = .ok trace) : (traceOutput x trace).height = x.height := by
  induction layers generalizing x trace with
  | nil =>
      obtain rfl := Except.ok.inj htrace
      rfl
  | cons layer layers ih =>
      obtain ⟨z, later, hz, hlater, rfl⟩ := stages_cons numerics htrace
      rw [traceOutput_cons, ih hlater]
      exact (shape_of_preActivation hz).2

theorem height_of_trace {network : Network α} {x : Matrix α} {trace : List (Stage α)}
    (htrace : network.trace numerics x = .ok trace) : (traceOutput x trace).height = x.height :=
  height_of_stages numerics ((trace_eq_stages numerics network x).symm.trans htrace)

theorem width_of_trace {network : Network α} {x : Matrix α} {trace : List (Stage α)}
    (hnetwork : network.WellShaped) (htrace : network.trace numerics x = .ok trace) :
    x.width = network.config.inputSize := by
  obtain ⟨first, rest, fanOut, hlayers, hfirst⟩ := hnetwork.exists_first
  rw [trace_eq_stages, hlayers] at htrace
  obtain ⟨z, -, hz, -⟩ := stages_cons numerics htrace
  exact (shape_of_preActivation hz).1.weights.height_eq.symm.trans hfirst.weights.height_eq

/-- Each layer reads the input or what the layer before it left. -/
theorem leaves_of_stages {layers : List (Layer α)} {x : Matrix α} {kept : List (Stage α)}
    (hkept : stages numerics layers x = .ok kept) {i : Nat} {layer : Layer α}
    (hlayer : layers[i]? = some layer) :
    ∃ input stage, (x :: kept.map Stage.activation)[i]? = some input ∧
      kept[i]? = some stage ∧ layer.Leaves numerics input stage ∧
      stage.HasShape x.height layer.weights.height layer.weights.width := by
  induction layers generalizing x kept i with
  | nil => simp at hlayer
  | cons first layers ih =>
      obtain ⟨z, later, hz, hlater, rfl⟩ := stages_cons numerics hkept
      obtain ⟨hfits, hheight⟩ := shape_of_preActivation hz
      cases i with
      | zero =>
          obtain rfl : first = layer := Option.some.inj hlayer
          have hzShape : z.HasShape x.height first.weights.width :=
            ⟨hheight, hfits.weights.width_eq.symm⟩
          exact ⟨x, _, rfl, rfl, ⟨rfl, hfits, rows_of_preActivation hz, rfl⟩,
            ⟨rfl, hfits.weights.height_eq.symm⟩, hzShape, hzShape.map numerics.activate⟩
      | succ i =>
          obtain ⟨input, stage, hinput, hstage, hleaves, hshape⟩ := ih hlater hlayer
          have hsame : (z.map numerics.activate).height = x.height := hheight
          exact ⟨input, stage, hinput, hstage, hleaves, hsame ▸ hshape⟩

theorem getLast?_of_stages {layers : List (Layer α)} {x : Matrix α} {trace : List (Stage α)}
    (htrace : stages numerics layers x = .ok trace) (hlayers : layers ≠ []) :
    trace.getLast?.map Stage.activation = some (traceOutput x trace) := by
  have hlength := length_of_stages numerics htrace
  have hpos := List.length_pos_iff.mpr hlayers
  have htrace : trace ≠ [] := List.length_pos_iff.mp (by omega)
  simp [traceOutput, List.getLast?_eq_some_getLast htrace]

theorem forward_eq_error_iff (network : Network α) (x : Matrix α) (error : Error) :
    network.forward numerics x = .error error ↔ network.trace numerics x = .error error := by
  rw [forward_eq_trace]
  cases network.trace numerics x <;> simp [Except.map]

/--
The pass for the output and the pass with a trace agree.  They fail alike; if they
do not, the trace follows the layers from the input to the output, and its last
activation is the output of the other pass.
-/
theorem trace_agrees_with_forward {network : Network α} (hlayers : network.layers ≠ [])
    (x : Matrix α) :
    (∀ error, network.forward numerics x = .error error ↔
      network.trace numerics x = .error error) ∧
    (∀ kept, network.trace numerics x = .ok kept →
      kept.length = network.layers.length ∧
      (∀ (i : Nat) (layer : Layer α), network.layers[i]? = some layer →
        ∃ (input : Matrix α) (stage : Stage α),
          (x :: kept.map Stage.activation)[i]? = some input ∧ kept[i]? = some stage ∧
          layer.Leaves numerics input stage ∧
          stage.HasShape x.height layer.weights.height layer.weights.width) ∧
      kept.getLast?.map Stage.activation = some (traceOutput x kept) ∧
      network.forward numerics x = .ok (traceOutput x kept)) ∧
    (network.WellShaped →
      ((∃ kept, network.trace numerics x = .ok kept) ↔
        x.width = network.config.inputSize) ∧
      ∀ kept, network.trace numerics x = .ok kept →
        Stacked (Stage.HasShape x.height) network.config.widths kept) := by
  refine ⟨forward_eq_error_iff numerics network x, ?_, ?_⟩
  · intro trace htrace
    have hstages := (trace_eq_stages numerics network x).symm.trans htrace
    refine ⟨length_of_stages numerics hstages, fun i layer => leaves_of_stages numerics hstages,
      getLast?_of_stages numerics hstages hlayers, ?_⟩
    rw [forward_eq_trace, htrace]
    rfl
  · intro hnetwork
    constructor
    · constructor
      · rintro ⟨trace, htrace⟩
        exact width_of_trace numerics hnetwork htrace
      · intro hx
        obtain ⟨trace, htrace, -⟩ := trace_eq_ok numerics hnetwork hx
        exact ⟨trace, htrace⟩
    · intro trace htrace
      have hx := width_of_trace numerics hnetwork htrace
      obtain ⟨same, hsame, hstages, -⟩ := trace_eq_ok numerics hnetwork hx
      obtain rfl := Except.ok.inj (htrace.symm.trans hsame)
      exact hstages

def narrowNetwork : Network Float where
  config := ⟨2, [1], 2, 0.5⟩
  layers := [⟨⟨2, 1, [0.25, -1.5], rfl⟩, [0.5]⟩, ⟨⟨1, 2, [2.5, -3], rfl⟩, [0, 1.25]⟩]

theorem narrowNetwork_trace_agrees :
    narrowNetwork.layers ≠ [] ∧ narrowNetwork.WellShaped ∧
    (∃ trace,
      narrowNetwork.trace .double ⟨3, 2, [0.1, 0.2, 30, -4, 1000, 1], rfl⟩ = .ok trace ∧
      trace.length = 2 ∧ Stacked (Stage.HasShape 3) [2, 1, 2] trace ∧
      narrowNetwork.forward .double ⟨3, 2, [0.1, 0.2, 30, -4, 1000, 1], rfl⟩ =
        .ok (traceOutput ⟨3, 2, [0.1, 0.2, 30, -4, 1000, 1], rfl⟩ trace)) ∧
    ¬∃ output, narrowNetwork.forward .double ⟨1, 3, [7, 8, 9], rfl⟩ = .ok output := by
  have hlayers : narrowNetwork.layers ≠ [] := by simp [narrowNetwork]
  have hnetwork : narrowNetwork.WellShaped :=
    .layer ⟨⟨rfl, rfl⟩, rfl⟩ (.layer ⟨⟨rfl, rfl⟩, rfl⟩ (.output 2))
  refine ⟨hlayers, hnetwork, ?_, ?_⟩
  · obtain ⟨-, htraced, hshaped⟩ := trace_agrees_with_forward .double hlayers
      ⟨3, 2, [0.1, 0.2, 30, -4, 1000, 1], rfl⟩
    obtain ⟨hexists, hstacked⟩ := hshaped hnetwork
    obtain ⟨trace, htrace⟩ := hexists.mpr rfl
    obtain ⟨hlength, -, -, hforward⟩ := htraced trace htrace
    exact ⟨trace, htrace, hlength, hstacked trace htrace, hforward⟩
  · obtain ⟨hfails, -, hshaped⟩ := trace_agrees_with_forward .double hlayers
      ⟨1, 3, [7, 8, 9], rfl⟩
    rintro ⟨output, houtput⟩
    cases htrace : narrowNetwork.trace .double ⟨1, 3, [7, 8, 9], rfl⟩ with
    | error error =>
        rw [(hfails error).mpr htrace] at houtput
        cases houtput
    | ok trace =>
        have hwidth := (hshaped hnetwork).1.mp ⟨trace, htrace⟩
        simp [narrowNetwork] at hwidth

end Network

end Polarity
