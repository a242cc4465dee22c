import Mathlib
import Polarity.Proofs.Dataset
import Polarity.Proofs.Network.Backpropagation
import Polarity.Proofs.Network.Rows

/-!
# Gradients are means over rows

The gradient of a batch is the mean of the gradients of its rows, each taken as a
batch of its own.  Rows do not meet before the gradient of a layer is formed, and
there every row adds its own share.  The order of the rows is therefore lost.

The field, the sigmoid and the margin are arbitrary.
-/

namespace Polarity

open Finset (range)

variable {α : Type}

inductive Parameter where
  | weight (input unit : Nat)
  | bias (unit : Nat)
  deriving DecidableEq, Repr

def Parameter.Fits (fanIn fanOut : Nat) : Parameter → Prop
  | .weight input unit => input < fanIn ∧ unit < fanOut
  | .bias unit => unit < fanOut

def LayerGradient.slope [Zero α] (gradient : LayerGradient α) : Parameter → α
  | .weight input unit => gradient.weights.entry input unit
  | .bias unit => gradient.biases.getD unit 0

theorem LayerGradient.HasShape.slope_eq_zero [Zero α] {fanIn fanOut : Nat}
    {gradient : LayerGradient α} (hgradient : gradient.HasShape fanIn fanOut)
    {parameter : Parameter} (hbeyond : ¬parameter.Fits fanIn fanOut) : gradient.slope parameter = 0 := by
  cases parameter with
  | weight input unit =>
      apply Matrix.entry_eq_zero
      rwa [hgradient.weights.height_eq, hgradient.weights.width_eq]
  | bias unit =>
      have hunit : ¬unit < gradient.biases.length := by rwa [hgradient.biases]
      simp [LayerGradient.slope, hunit]

theorem LayerGradient.eq_of_slopes [Zero α] {fanIn fanOut : Nat} {left right : LayerGradient α}
    (hleft : left.HasShape fanIn fanOut) (hright : right.HasShape fanIn fanOut)
    (hslopes : ∀ parameter, left.slope parameter = right.slope parameter) : left = right := by
  obtain ⟨weights, biases⟩ := left
  obtain ⟨otherWeights, otherBiases⟩ := right
  obtain rfl : weights = otherWeights :=
    Matrix.eq_of_entries hleft.weights hright.weights fun k _ j _ => hslopes (.weight k j)
  obtain rfl : biases = otherBiases :=
    Matrix.eq_of_getD (hleft.biases.trans hright.biases.symm) fun j _ => hslopes (.bias j)
  rfl

namespace Network

def slopeAt [Zero α] (gradients : List (LayerGradient α)) (layer : Nat) (parameter : Parameter) :
    α :=
  (gradients[layer]?.map (·.slope parameter)).getD 0

@[simp] theorem slopeAt_nil [Zero α] (layer : Nat) (parameter : Parameter) :
    slopeAt ([] : List (LayerGradient α)) layer parameter = 0 := rfl

@[simp] theorem slopeAt_cons_zero [Zero α] (gradient : LayerGradient α)
    (gradients : List (LayerGradient α)) (parameter : Parameter) :
    slopeAt (gradient :: gradients) 0 parameter = gradient.slope parameter := rfl

@[simp] theorem slopeAt_cons_succ [Zero α] (gradient : LayerGradient α)
    (gradients : List (LayerGradient α)) (layer : Nat) (parameter : Parameter) :
    slopeAt (gradient :: gradients) (layer + 1) parameter = slopeAt gradients layer parameter := rfl

private theorem eq_of_slopeAt [Zero α] {widths : List Nat} {left right : List (LayerGradient α)}
    (hleft : Stacked LayerGradient.HasShape widths left)
    (hright : Stacked LayerGradient.HasShape widths right)
    (hslopes : ∀ layer parameter, slopeAt left layer parameter = slopeAt right layer parameter) :
    left = right := by
  induction hleft generalizing right with
  | output width =>
      cases hright
      rfl
  | layer hgradient hlater ih =>
      cases hright with
      | layer hother hothers =>
          rw [LayerGradient.eq_of_slopes hgradient hother (hslopes 0),
            ih hothers fun layer => hslopes (layer + 1)]

variable [Field α]

/-- Parameter by parameter, the gradients are the mean of the given ones. -/
def IsMeanOf (parts : List (List (LayerGradient α))) (gradients : List (LayerGradient α)) : Prop :=
  ∀ layer parameter, slopeAt gradients layer parameter =
    1 / (parts.length : α) * (parts.map (slopeAt · layer parameter)).sum

theorem IsMeanOf.perm {parts others : List (List (LayerGradient α))}
    {gradients : List (LayerGradient α)} (hmean : IsMeanOf parts gradients)
    (hperm : others.Perm parts) : IsMeanOf others gradients := by
  intro layer parameter
  rw [hmean layer parameter, hperm.length_eq, (hperm.map _).sum_eq]

theorem IsMeanOf.unique {widths : List Nat} {parts : List (List (LayerGradient α))}
    {left right : List (LayerGradient α)} (hleft : IsMeanOf parts left)
    (hright : IsMeanOf parts right) (hleftShape : Stacked LayerGradient.HasShape widths left)
    (hrightShape : Stacked LayerGradient.HasShape widths right) : left = right :=
  eq_of_slopeAt hleftShape hrightShape fun layer parameter =>
    (hleft layer parameter).trans (hright layer parameter).symm

/-! ## One layer -/

/-- What one row adds to the slope in a parameter, before the division by the number of rows. -/
def share (input delta : Matrix α) (r : Nat) : Parameter → α
  | .weight k j => input.entry r k * delta.entry r j
  | .bias j => delta.entry r j

section Layer

variable {rows fanIn fanOut : Nat} {input delta : Matrix α}

private theorem share_pick (hinput : input.HasShape rows fanIn)
    (hdelta : delta.HasShape rows fanOut) {r : Nat} (hr : r < rows) (parameter : Parameter) :
    share (input.pick [r]) (delta.pick [r]) 0 parameter = share input delta r parameter := by
  have hentry := Matrix.entry_pick (hinput.height_eq ▸ hr)
  have hdeltaEntry := Matrix.entry_pick (hdelta.height_eq ▸ hr)
  cases parameter with
  | weight k j => rw [share, share, hentry, hdeltaEntry]
  | bias j => rw [share, share, hdeltaEntry]

/-- The two divisions by the number of rows agree. -/
theorem slope_of_layerGradient {gradient : LayerGradient α} (hinput : input.HasShape rows fanIn)
    (hdelta : delta.HasShape rows fanOut) (hgradient : layerGradient input delta = .ok gradient)
    {parameter : Parameter} (hfits : parameter.Fits fanIn fanOut) :
    gradient.slope parameter = (∑ r ∈ range rows, share input delta r parameter) / (rows : α) := by
  cases parameter with
  | weight k j => exact weights_of_layerGradient hinput hdelta hgradient hfits.1 hfits.2
  | bias j => exact biases_of_layerGradient hinput hdelta hgradient hfits

theorem slope_eq_mean {gradient : LayerGradient α} {parts : Nat → LayerGradient α}
    (hinput : input.HasShape rows fanIn) (hdelta : delta.HasShape rows fanOut)
    (hgradient : layerGradient input delta = .ok gradient)
    (hparts : ∀ r < rows, layerGradient (input.pick [r]) (delta.pick [r]) = .ok (parts r))
    (parameter : Parameter) :
    gradient.slope parameter = (∑ r ∈ range rows, (parts r).slope parameter) / (rows : α) := by
  by_cases hfits : parameter.Fits fanIn fanOut
  · rw [slope_of_layerGradient hinput hdelta hgradient hfits]
    congr 1
    apply Finset.sum_congr rfl
    intro r hr
    have hr := Finset.mem_range.mp hr
    rw [slope_of_layerGradient (hinput.pick hr) (hdelta.pick hr) (hparts r hr) hfits,
      Finset.sum_range_one, share_pick hinput hdelta hr, Nat.cast_one, div_one]
  · rw [(shape_of_layerGradient hinput hdelta hgradient).slope_eq_zero hfits,
      Finset.sum_eq_zero, zero_div]
    intro r hr
    have hr := Finset.mem_range.mp hr
    exact (shape_of_layerGradient (hinput.pick hr) (hdelta.pick hr) (hparts r hr)).slope_eq_zero
      hfits

end Layer

/-! ## All layers -/

section Backward

variable (numerics : Numerics α) {rows : Nat}

private theorem backward_pick_cons {places : List Nat} {layer : Layer α} {stage : Stage α}
    {items : List (Layer α × Stage α)} {slope after delta earlier : Matrix α}
    {later parts : List (LayerGradient α)}
    (hlater : backward numerics slope items = .ok (later, after))
    (hdelta : after.zipWith (· * ·) (stage.preActivation.map numerics.sigmoidSlope) = .ok delta)
    (hparts : backward numerics (slope.pick places)
      (((layer, stage) :: items).map (Prod.map id (Stage.pick places))) = .ok (parts, earlier)) :
    ∃ part laterParts, parts = part :: laterParts ∧
      layerGradient (stage.input.pick places) (delta.pick places) = .ok part ∧
      backward numerics (slope.pick places) (items.map (Prod.map id (Stage.pick places))) =
        .ok (laterParts, after.pick places) := by
  obtain ⟨laterParts, afterPart, deltaPart, part, hlaterParts, hdeltaPart, hpart, -, rfl⟩ :=
    backward_cons numerics hparts
  obtain ⟨sameParts, hsame⟩ := backward_pick numerics hlater places
  obtain ⟨rfl, rfl⟩ := Prod.mk.inj (Except.ok.inj (hsame.symm.trans hlaterParts))
  have hdeltaPick := Matrix.zipWith_pick hdelta places
  rw [← Matrix.map_pick] at hdeltaPick
  obtain rfl : delta.pick places = deltaPart :=
    Except.ok.inj (hdeltaPick.symm.trans hdeltaPart)
  exact ⟨part, sameParts, rfl, hpart, hsame⟩

private theorem slopeAt_of_backward {items : List (Layer α × Stage α)} {slope before : Matrix α}
    {gradients : List (LayerGradient α)} {parts : Nat → List (LayerGradient α)}
    (hitems : ∀ item ∈ items, ∃ fanIn fanOut, item.2.HasShape rows fanIn fanOut)
    (hbackward : backward numerics slope items = .ok (gradients, before))
    (hparts : ∀ r < rows, ∃ earlier, backward numerics (slope.pick [r])
      (items.map (Prod.map id (Stage.pick [r]))) = .ok (parts r, earlier))
    (layer : Nat) (parameter : Parameter) :
    slopeAt gradients layer parameter =
      (∑ r ∈ range rows, slopeAt (parts r) layer parameter) / (rows : α) := by
  induction items generalizing before gradients parts layer with
  | nil =>
      obtain ⟨rfl, -⟩ := Prod.mk.inj (Except.ok.inj hbackward)
      rw [slopeAt_nil, Finset.sum_eq_zero, zero_div]
      intro r hr
      obtain ⟨earlier, hearlier⟩ := hparts r (Finset.mem_range.mp hr)
      rw [← (Prod.mk.inj (Except.ok.inj hearlier)).1, slopeAt_nil]
  | cons item items ih =>
      obtain ⟨unit, stage⟩ := item
      obtain ⟨⟨fanIn, fanOut, hstage⟩, hrest⟩ := List.forall_mem_cons.mp hitems
      obtain ⟨later, after, delta, gradient, hlater, hdelta, hgradient, -, rfl⟩ :=
        backward_cons numerics hbackward
      have hdeltaShape := shape_of_delta numerics hstage hdelta
      -- the slope that reaches this layer from a row alone is that row of the slope of all rows
      have hrow : ∀ r < rows, ∃ part laterParts, parts r = part :: laterParts ∧
          layerGradient (stage.input.pick [r]) (delta.pick [r]) = .ok part ∧
          backward numerics (slope.pick [r]) (items.map (Prod.map id (Stage.pick [r]))) =
            .ok (laterParts, after.pick [r]) := by
        intro r hr
        obtain ⟨earlier, hearlier⟩ := hparts r hr
        exact backward_pick_cons numerics hlater hdelta hearlier
      have : Nonempty (LayerGradient α) := ⟨gradient⟩
      choose! first laterParts hcons hfirst hlaterParts using hrow
      have hsum : ∑ r ∈ range rows, slopeAt (parts r) layer parameter =
          ∑ r ∈ range rows, slopeAt (first r :: laterParts r) layer parameter := by
        apply Finset.sum_congr rfl
        intro r hr
        rw [hcons r (Finset.mem_range.mp hr)]
      rw [hsum]
      cases layer with
      | zero =>
          simp only [slopeAt_cons_zero]
          exact slope_eq_mean hstage.input hdeltaShape hgradient hfirst parameter
      | succ layer =>
          simp only [slopeAt_cons_succ]
          exact ih hrest hlater (fun r hr => ⟨_, hlaterParts r hr⟩) layer

end Backward

/-! ## The network -/

section Gradients

variable [LT α] [DecidableLT α] (numerics : Numerics α)

/-- The passes over some of the rows are the passes over all of them, with rows picked. -/
private theorem backward_of_gradients_pick {network : Network α} {x slope : Matrix α} {y : List α}
    {trace : List (Stage α)} {places : List Nat} {parts : List (LayerGradient α)}
    (htrace : network.trace numerics x = .ok trace)
    (hy : y.length = (traceOutput x trace).height)
    (hslope : outputSlope (traceOutput x trace) y = .ok slope)
    (hparts : network.gradients numerics (x.pick places) (Polarity.pick y places) = .ok parts) :
    ∃ earlier, backward numerics (slope.pick places)
      ((network.layers.zip trace).map (Prod.map id (Stage.pick places))) =
        .ok (parts, earlier) := by
  obtain ⟨tracePart, slopePart, earlier, htracePart, hslopePart, hbackward⟩ :=
    passes_of_gradients numerics hparts
  have hpicked : network.trace numerics (x.pick places) =
      .ok (trace.map (Stage.pick places)) := by
    rw [trace_pick, htrace]
    rfl
  obtain rfl : trace.map (Stage.pick places) = tracePart :=
    Except.ok.inj (hpicked.symm.trans htracePart)
  have hslopePick := outputSlope_pick hy hslope places
  rw [← traceOutput_pick] at hslopePick
  obtain rfl : slope.pick places = slopePart :=
    Except.ok.inj (hslopePick.symm.trans hslopePart)
  rw [List.zip_map_right] at hbackward
  exact ⟨earlier, hbackward⟩

theorem exists_rowGradients {network : Network α} {batch : Dataset α}
    (hnetwork : network.WellShaped) (hwidth : batch.width = network.config.inputSize) :
    ∃ rowGradients : List α × α → List (LayerGradient α), ∀ pair ∈ batch.pairs,
      network.gradients numerics (Dataset.ofPair pair).features (Dataset.ofPair pair).labels =
        .ok (rowGradients pair) ∧
      Stacked LayerGradient.HasShape network.config.widths (rowGradients pair) := by
  have hrow : ∀ pair ∈ batch.pairs, ∃ part, network.gradients numerics
      (Dataset.ofPair pair).features (Dataset.ofPair pair).labels = .ok part ∧
        Stacked LayerGradient.HasShape network.config.widths part := by
    intro pair hpair
    exact gradients_eq_ok numerics hnetwork ((Dataset.length_of_mem_pairs hpair).trans hwidth)
      (.inl rfl)
  choose! rowGradients hrows using hrow
  exact ⟨rowGradients, hrows⟩

theorem isMeanOf_gradients {network : Network α} {batch : Dataset α}
    {gradients : List (LayerGradient α)} {rowGradients : List α × α → List (LayerGradient α)}
    (hnetwork : network.WellShaped) (hwidth : batch.width = network.config.inputSize)
    (hgradients : network.gradients numerics batch.features batch.labels = .ok gradients)
    (hrows : ∀ pair ∈ batch.pairs, network.gradients numerics (Dataset.ofPair pair).features
      (Dataset.ofPair pair).labels = .ok (rowGradients pair)) :
    IsMeanOf (batch.pairs.map rowGradients) gradients := by
  obtain ⟨trace, slope, before, htrace, hslope, hbackward⟩ :=
    passes_of_gradients numerics hgradients
  obtain ⟨same, hsame, hstages, houtput⟩ := trace_eq_ok numerics hnetwork hwidth
  obtain rfl : same = trace := Except.ok.inj (hsame.symm.trans htrace)
  have hlabels : batch.labels.length = (traceOutput batch.features same).height :=
    batch.height_eq.symm.trans houtput.height_eq.symm
  have hitems : ∀ item ∈ network.layers.zip same,
      ∃ fanIn fanOut, item.2.HasShape batch.features.height fanIn fanOut :=
    fun item hitem => hstages.exists_fits (List.of_mem_zip hitem).2
  have hlength : batch.pairs.length = batch.features.height :=
    batch.length_pairs.trans batch.height_eq.symm
  have hparts : ∀ r < batch.features.height, ∃ earlier, backward numerics (slope.pick [r])
      ((network.layers.zip same).map (Prod.map id (Stage.pick [r]))) =
        .ok (rowGradients (batch.pairs.getD r ([], 0)), earlier) := by
    intro r hr
    have hpair : batch.pairs[r]? = some (batch.pairs.getD r ([], 0)) := by simp [hlength, hr]
    have hpart := hrows _ (List.mem_of_getElem? hpair)
    rw [← Dataset.pick_singleton hpair] at hpart
    exact backward_of_gradients_pick numerics htrace hlabels hslope hpart
  intro layer parameter
  rw [slopeAt_of_backward numerics hitems hbackward hparts, List.map_map,
    Matrix.sum_map_eq_sum_getD _ _ ([], 0), List.length_map, hlength, one_div, div_eq_inv_mul]
  rfl

theorem gradients_eq_of_perm {network : Network α} {batch other : Dataset α}
    (hnetwork : network.WellShaped) (hwidth : batch.width = network.config.inputSize)
    (hother : other.width = batch.width) (hperm : other.pairs.Perm batch.pairs) :
    network.gradients numerics other.features other.labels =
      network.gradients numerics batch.features batch.labels := by
  have hotherWidth := hother.trans hwidth
  obtain ⟨gradients, hgradients, hshape⟩ :=
    gradients_eq_ok numerics hnetwork hwidth (.inl batch.height_eq.symm)
  obtain ⟨others, hothers, hothersShape⟩ :=
    gradients_eq_ok numerics hnetwork hotherWidth (.inl other.height_eq.symm)
  obtain ⟨rowGradients, hrows⟩ := exists_rowGradients numerics hnetwork hwidth
  have hmean := isMeanOf_gradients numerics hnetwork hwidth hgradients
    fun pair hpair => (hrows pair hpair).1
  have hotherMean := isMeanOf_gradients numerics hnetwork hotherWidth hothers
    fun pair hpair => (hrows pair (hperm.mem_iff.mp hpair)).1
  rw [hgradients, hothers, hotherMean.unique (hmean.perm (hperm.map _)) hothersShape hshape]

end Gradients

end Network

end Polarity
