import Mathlib
import Polarity.Proofs.Classifier.Steps
import Polarity.Proofs.Network.Backpropagation
import Polarity.Proofs.Numerics

/-!
# Margins of a network

Whatever the parameters of a network are, every activation of a pass lies within the
margins.  At the output the slope of the loss divides by `a (1 - a)`, and in exact
arithmetic the margins keep this divisor away from zero: after any steps of training,
however large the weights have grown.
-/

namespace Polarity

variable {α : Type}

namespace Network

section Passes

variable [Zero α] [One α] [Add α] [Sub α] [Mul α] [LT α] [DecidableLT α] {numerics : Numerics α}

theorem within_of_stages (hmargins : numerics.HasMargins) {layers : List (Layer α)}
    {x : Matrix α} {kept : List (Stage α)} (hkept : stages numerics layers x = .ok kept) :
    ∀ stage ∈ kept, ∀ a ∈ stage.activation.entries, numerics.Within a := by
  induction layers generalizing x kept with
  | nil =>
      obtain rfl := Except.ok.inj hkept
      simp
  | cons layer layers ih =>
      obtain ⟨z, later, -, hlater, rfl⟩ := stages_cons numerics hkept
      intro stage hstage a ha
      rcases List.mem_cons.mp hstage with rfl | hstage
      · obtain ⟨entry, -, rfl⟩ := List.mem_map.mp ha
        exact hmargins.within_activate entry
      · exact ih hlater stage hstage a ha

/-- The output is an activation too, since a network has at least one layer. -/
theorem within_of_traceOutput (hmargins : numerics.HasMargins) {network : Network α}
    (hnetwork : network.WellShaped) {x : Matrix α} {kept : List (Stage α)}
    (hkept : network.trace numerics x = .ok kept) :
    ∀ a ∈ (traceOutput x kept).entries, numerics.Within a := by
  obtain ⟨first, rest, -, hlayers, -⟩ := hnetwork.exists_first
  rw [trace_eq_stages] at hkept
  have hlast := getLast?_of_stages numerics hkept (by simp [hlayers])
  obtain ⟨stage, hstage, houtput⟩ := Option.map_eq_some_iff.mp hlast
  rw [← houtput]
  exact within_of_stages hmargins hkept stage (List.mem_of_getLast? hstage)

variable [Div α] [NatCast α]

/-- The passes behind the gradients, with the slopes at the output written out. -/
private theorem exists_passes (numerics : Numerics α) {network : Network α} {x : Matrix α}
    {y : List α} (hnetwork : network.WellShaped) (hx : x.width = network.config.inputSize)
    (hy : y.length = x.height ∨ y.length = 1) :
    ∃ kept labels slope gradients before,
      network.trace numerics x = .ok kept ∧
      spreadLabels x.height y = .ok labels ∧
      slope.rows = List.zipWith (fun row label => row.map fun a => (a - label) / (a * (1 - a)))
        (traceOutput x kept).rows labels ∧
      backward numerics slope (network.layers.zip kept) = .ok (gradients, before) ∧
      network.gradients numerics x y = .ok gradients := by
  obtain ⟨gradients, hgradients, -⟩ := gradients_eq_ok numerics hnetwork hx hy
  obtain ⟨kept, slope, before, hkept, hslope, hbackward⟩ :=
    passes_of_gradients numerics hgradients
  obtain ⟨labels, hlabels, hlength⟩ := spreadLabels_eq_ok hy
  obtain ⟨same, hsame, -, hrows⟩ :=
    outputSlope_eq_ok ⟨height_of_trace numerics hkept, rfl⟩ hlabels hlength
  obtain rfl : same = slope := Except.ok.inj (hsame.symm.trans hslope)
  exact ⟨kept, labels, same, gradients, before, hkept, hlabels, hrows, hbackward, hgradients⟩

end Passes

/--
No activation of a pass in doubles compares outside the margins, so each of them is no
number or lies between them.  In exact arithmetic, with any function for the sigmoid, no
divisor at the output is below the product of the margins, after any steps of training.
-/
theorem activations_keep_margins :
    (∀ (network : Network Float) (x : Matrix Float), network.WellShaped →
      x.width = network.config.inputSize →
      ∃ kept output, network.trace .double x = .ok kept ∧
        network.forward .double x = .ok output ∧
        ∀ a, (a ∈ output.entries ∨ ∃ stage ∈ kept, a ∈ stage.activation.entries) →
          ¬a < 1e-13 ∧ ¬1 - 1e-13 < a ∧ (a.isNaN ∨ 1e-13 ≤ a ∧ a ≤ 1 - 1e-13)) ∧
    (∀ (α : Type) [Field α] [LinearOrder α] [IsStrictOrderedRing α] (numerics : Numerics α),
      0 < numerics.margin → numerics.margin < 1 / 2 →
      ∀ (network : Network α) (batches : List (Matrix α × List α)), network.WellShaped →
      ∃ last : Network α,
        (Classifier.network network).attempts numerics batches = .network last ∧
        last.config = network.config ∧
        ∀ (x : Matrix α) (y : List α), x.width = network.config.inputSize →
          y.length = x.height ∨ y.length = 1 →
          ∃ kept labels slope gradients before,
            last.trace numerics x = .ok kept ∧
            spreadLabels x.height y = .ok labels ∧
            slope.rows = List.zipWith
              (fun row label => row.map fun a => (a - label) / (a * (1 - a)))
              (traceOutput x kept).rows labels ∧
            backward numerics slope (last.layers.zip kept) = .ok (gradients, before) ∧
            last.gradients numerics x y = .ok gradients ∧
            0 < numerics.margin * (1 - numerics.margin) ∧
            ∀ a ∈ (traceOutput x kept).entries,
              numerics.margin * (1 - numerics.margin) ≤ a * (1 - a)) := by
  constructor
  · intro network x hnetwork hx
    obtain ⟨kept, hkept, -⟩ := trace_eq_ok .double hnetwork hx
    have hforward : network.forward .double x = .ok (traceOutput x kept) := by
      rw [forward_eq_trace, hkept]
      rfl
    refine ⟨kept, _, hkept, hforward, fun a ha => ?_⟩
    have hwithin : Numerics.double.Within a := by
      rcases ha with ha | ⟨stage, hstage, ha⟩
      · exact within_of_traceOutput Numerics.hasMargins_double hnetwork hkept a ha
      · rw [trace_eq_stages] at hkept
        exact within_of_stages Numerics.hasMargins_double hkept stage hstage a ha
    exact ⟨hwithin.not_below, hwithin.not_above, Numerics.isNaN_or_of_within hwithin⟩
  · intro α _ _ _ numerics hpos hhalf network batches hnetwork
    have hmodel : (Classifier.network network).WellShaped := hnetwork
    obtain ⟨hshape, hconfig⟩ := Classifier.shape_of_attempts numerics hmodel batches
    obtain ⟨last, hlast, hlastConfig⟩ := Classifier.network_of_config hconfig
    rw [hlast] at hshape
    refine ⟨last, hlast, hlastConfig, fun x y hx hy => ?_⟩
    obtain ⟨kept, labels, slope, gradients, before, hkept, hlabels, hrows, hbackward,
      hgradients⟩ := exists_passes numerics hshape (hx.trans (by rw [hlastConfig])) hy
    have hproduct : 0 < numerics.margin * (1 - numerics.margin) :=
      mul_pos hpos (by linarith)
    refine ⟨kept, labels, slope, gradients, before, hkept, hlabels, hrows, hbackward, hgradients,
      hproduct, fun a ha => ?_⟩
    have hmargins := Numerics.hasMargins_of_lt_half hhalf
    exact (within_of_traceOutput hmargins hshape hkept a ha).le_mul

/-- Rows that saturate the units in doubles, and gradients after a step in exact arithmetic. -/
theorem narrowNetwork_keeps_margins :
    (∃ kept output,
      narrowNetwork.trace .double ⟨2, 2, [1e300, 0.2, -1e300, 4], rfl⟩ = .ok kept ∧
      narrowNetwork.forward .double ⟨2, 2, [1e300, 0.2, -1e300, 4], rfl⟩ = .ok output ∧
      ∀ a, (a ∈ output.entries ∨ ∃ stage ∈ kept, a ∈ stage.activation.entries) →
        ¬a < 1e-13 ∧ ¬1 - 1e-13 < a ∧ (a.isNaN ∨ 1e-13 ≤ a ∧ a ≤ 1 - 1e-13)) ∧
    ∃ last : Network Rat,
      (Classifier.network rationalNetwork).attempts rationalNumerics
        [(⟨1, 2, [3, -5], rfl⟩, [1])] = .network last ∧
      ∃ kept gradients, last.trace rationalNumerics ⟨2, 2, [100, 7, -100, 0], rfl⟩ = .ok kept ∧
        last.gradients rationalNumerics ⟨2, 2, [100, 7, -100, 0], rfl⟩ [0, 1] = .ok gradients ∧
        ∀ a ∈ (traceOutput ⟨2, 2, [100, 7, -100, 0], rfl⟩ kept).entries,
          1 / 10 * (1 - 1 / 10) ≤ a * (1 - a) := by
  obtain ⟨hdouble, hexact⟩ := activations_keep_margins
  constructor
  · exact hdouble narrowNetwork _ (.layer ⟨⟨rfl, rfl⟩, rfl⟩ (.layer ⟨⟨rfl, rfl⟩, rfl⟩ (.output 2)))
      rfl
  · have hpos : 0 < rationalNumerics.margin := by norm_num [rationalNumerics]
    have hhalf : rationalNumerics.margin < 1 / 2 := by norm_num [rationalNumerics]
    obtain ⟨last, hlast, -, hgradients⟩ := hexact Rat rationalNumerics hpos hhalf rationalNetwork
      [(⟨1, 2, [3, -5], rfl⟩, [1])]
      (.layer ⟨⟨rfl, rfl⟩, rfl⟩ (.layer ⟨⟨rfl, rfl⟩, rfl⟩ (.output 2)))
    obtain ⟨kept, labels, slope, gradients, before, hkept, -, -, -, hresult, -, hdivisors⟩ :=
      hgradients ⟨2, 2, [100, 7, -100, 0], rfl⟩ [0, 1] rfl (.inl rfl)
    exact ⟨last, hlast, kept, gradients, hkept, hresult, hdivisors⟩

end Network

end Polarity
