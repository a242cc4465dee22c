import Polarity.Proofs.Classifier
import Polarity.Proofs.Network.Trace

/-!
# Steps on arbitrary batches

A step of training may be given rows of any width and any number of labels.  The two
kinds of model check them at different places: a network spreads its labels over the
rows, and a logistic regression subtracts labels that may be more than the rows and
notices only when the differences are multiplied with the features.  Still both fail on
the same batches, and a step that does not fail keeps the configuration and every shape.
A classifier that is kept as it is whenever a step fails never loses its shapes.
-/

namespace Polarity

open Polarity.Random

variable {α : Type}

private theorem exists_error_iff {outcome : Except Error α} :
    (∃ error, outcome = .error error) ↔ ¬∃ value, outcome = .ok value := by
  cases outcome with
  | error error => simp
  | ok value => simp

theorem map_eq_ok {β : Type} {f : α → β} {outcome : Except Error α} {value : β} :
    f <$> outcome = .ok value ↔ ∃ first, outcome = .ok first ∧ f first = value := by
  cases outcome with
  | error error => exact ⟨nofun, nofun⟩
  | ok first => simp [Functor.map, Except.map]

/-! ## Labels -/

namespace Network

private theorem exists_spreadLabels_iff {count : Nat} {y : List α} :
    (∃ labels, spreadLabels count y = .ok labels) ↔ y.length = count ∨ y.length = 1 := by
  constructor
  · rintro ⟨labels, hlabels⟩
    unfold spreadLabels at hlabels
    split at hlabels
    · next hlength => exact .inl hlength
    · split at hlabels
      · exact .inr rfl
      · contradiction
  · intro hy
    obtain ⟨labels, hlabels, -⟩ := spreadLabels_eq_ok hy
    exact ⟨labels, hlabels⟩

private theorem spreadLabels_single (count : Nat) (label : α) :
    spreadLabels count [label] = spreadLabels count (List.replicate count label) := by
  have hcopies : spreadLabels count (List.replicate count label) =
      .ok (List.replicate count label) := if_pos List.length_replicate
  rw [hcopies, spreadLabels]
  split
  · next hone => rw [← hone]; rfl
  · rfl

end Network

/-! ## Logistic regression -/

namespace Logistic

variable [Zero α] [Add α] [Mul α] (numerics : Numerics α) {model : Logistic α} {x : Matrix α}

private theorem shape_of_predict {probabilities : List α}
    (hpredict : model.predict numerics x = .ok probabilities) :
    x.width = model.weights.length ∧ probabilities.length = x.height := by
  obtain ⟨sums, hsums, -⟩ := bind_eq_ok.mp hpredict
  have hwidth := Matrix.width_of_mulVec hsums
  obtain ⟨others, hothers, hlength⟩ := predict_eq_ok numerics hwidth
  obtain rfl := Except.ok.inj (hpredict.symm.trans hothers)
  exact ⟨hwidth, hlength⟩

variable [Sub α] [Div α] [Neg α] [NatCast α] {y : List α}

theorem exists_fit_iff (hrows : x.height ≠ 0) :
    (∃ next, model.fit numerics x y = .ok next) ↔
      x.width = model.weights.length ∧ (y.length = x.height ∨ y.length = 1) := by
  constructor
  · rintro ⟨next, hfit⟩
    rw [fit, if_neg hrows] at hfit
    obtain ⟨probabilities, hpredict, hfit⟩ := bind_eq_ok.mp hfit
    obtain ⟨residuals, hresiduals, hfit⟩ := bind_eq_ok.mp hfit
    obtain ⟨sums, hsums, -⟩ := bind_eq_ok.mp hfit
    obtain ⟨hwidth, hcount⟩ := shape_of_predict numerics hpredict
    -- The product refuses differences of more entries than there are rows.
    have hlength : x.height = residuals.length := Matrix.width_of_mulVec hsums
    have hlabels := length_of_differences hresiduals (hlength.symm.trans hcount.symm)
    rw [hcount] at hlabels
    exact ⟨hwidth, hlabels⟩
  · rintro ⟨hx, hy⟩
    obtain ⟨next, hnext, -⟩ := fit_eq_ok numerics hx hy
    exact ⟨next, hnext⟩

theorem fit_single (x : Matrix α) (label : α) :
    model.fit numerics x [label] = model.fit numerics x (List.replicate x.height label) := by
  unfold fit
  split
  · rfl
  · cases hpredict : model.predict numerics x with
    | error error => rfl
    | ok probabilities =>
        have hsame := Network.spreadLabels_single probabilities.length label
        obtain ⟨labels, hlabels⟩ : ∃ labels,
            Network.spreadLabels probabilities.length [label] = .ok labels :=
          Network.exists_spreadLabels_iff.mpr (.inr rfl)
        rw [← (shape_of_predict numerics hpredict).2]
        simp only [ok_bind, differences_of_spreadLabels hlabels,
          differences_of_spreadLabels (hsame.symm.trans hlabels)]

theorem shape_of_fit {next : Logistic α} (hfit : model.fit numerics x y = .ok next) :
    next.weights.length = model.weights.length ∧ next.config = model.config := by
  by_cases hrows : x.height = 0
  · rw [fit, if_pos hrows] at hfit
    obtain rfl := Except.ok.inj hfit
    exact ⟨rfl, rfl⟩
  · obtain ⟨hx, hy⟩ := (exists_fit_iff numerics hrows).mp ⟨next, hfit⟩
    obtain ⟨other, hother, hlength⟩ := fit_eq_ok numerics hx hy
    obtain rfl := Except.ok.inj (hfit.symm.trans hother)
    rw [fit, if_neg hrows] at hfit
    obtain ⟨probabilities, -, hfit⟩ := bind_eq_ok.mp hfit
    obtain ⟨labels, -, hfit⟩ := bind_eq_ok.mp hfit
    obtain ⟨sums, -, hfit⟩ := bind_eq_ok.mp hfit
    exact ⟨hlength, by rw [← Except.ok.inj hfit]⟩

omit [Zero α] [Add α] [Mul α] [Sub α] [Div α] [Neg α] [NatCast α] in
private theorem config_of_new {config : LogisticConfig Float} {generator later : Generator}
    {model : Logistic Float} (hnew : new config generator = .ok (model, later)) :
    model.config = config := by
  obtain ⟨_, -, hnew⟩ := bind_eq_ok.mp hnew
  rw [← (Prod.mk.inj (Except.ok.inj hnew)).1]

end Logistic

/-! ## Networks -/

namespace Network

variable [Zero α] [Add α] [Mul α] [One α] [Sub α] [LT α] [DecidableLT α] [Div α] [NatCast α]
  (numerics : Numerics α) {network : Network α} {x : Matrix α} {y : List α}

private theorem labels_of_gradients {gradients : List (LayerGradient α)}
    (hgradients : network.gradients numerics x y = .ok gradients) :
    ∃ trace labels, network.trace numerics x = .ok trace ∧
      spreadLabels x.height y = .ok labels := by
  obtain ⟨trace, slope, -, htrace, hslope, -⟩ := passes_of_gradients numerics hgradients
  obtain ⟨labels, hlabels, -⟩ := bind_eq_ok.mp hslope
  rw [height_of_trace numerics htrace] at hlabels
  exact ⟨trace, labels, htrace, hlabels⟩

private theorem gradients_single (x : Matrix α) (label : α) :
    network.gradients numerics x [label] =
      network.gradients numerics x (List.replicate x.height label) := by
  unfold gradients
  cases htrace : network.trace numerics x with
  | error error => rfl
  | ok trace =>
      simp only [ok_bind, outputSlope, height_of_trace numerics htrace,
        spreadLabels_single x.height label]

variable [Neg α]

theorem exists_fit_iff (hnetwork : network.WellShaped) (hrows : x.height ≠ 0) :
    (∃ next, network.fit numerics x y = .ok next) ↔
      x.width = network.config.inputSize ∧ (y.length = x.height ∨ y.length = 1) := by
  constructor
  · rintro ⟨next, hfit⟩
    rw [fit, if_neg hrows] at hfit
    obtain ⟨gradients, hgradients, -⟩ := bind_eq_ok.mp hfit
    obtain ⟨trace, labels, htrace, hlabels⟩ := labels_of_gradients numerics hgradients
    exact ⟨width_of_trace numerics hnetwork htrace, exists_spreadLabels_iff.mp ⟨labels, hlabels⟩⟩
  · rintro ⟨hx, hy⟩
    obtain ⟨next, hnext, -⟩ := fit_eq_ok numerics hnetwork hx hy
    exact ⟨next, hnext⟩

theorem fit_single (x : Matrix α) (label : α) :
    network.fit numerics x [label] = network.fit numerics x (List.replicate x.height label) := by
  simp only [fit, gradients_single numerics x label]

theorem shape_of_fit {next : Network α} (hnetwork : network.WellShaped)
    (hfit : network.fit numerics x y = .ok next) :
    next.WellShaped ∧ next.config = network.config := by
  by_cases hrows : x.height = 0
  · rw [fit, if_pos hrows] at hfit
    obtain rfl := Except.ok.inj hfit
    exact ⟨hnetwork, rfl⟩
  · obtain ⟨hx, hy⟩ := (exists_fit_iff numerics hnetwork hrows).mp ⟨next, hfit⟩
    obtain ⟨other, hother, hshape, hconfig⟩ := fit_eq_ok numerics hnetwork hx hy
    obtain rfl := Except.ok.inj (hfit.symm.trans hother)
    exact ⟨hshape, hconfig⟩

end Network

/-! ## Both kinds -/

namespace Classifier

def inputSize : Classifier α → Nat
  | .logistic model => model.config.inputSize
  | .network model => model.config.inputSize

def config : Classifier α → LogisticConfig α ⊕ NetworkConfig α
  | .logistic model => .inl model.config
  | .network model => .inr model.config

private theorem logistic_of_config {classifier : Classifier α} {settings : LogisticConfig α}
    (hconfig : classifier.config = .inl settings) :
    ∃ model, classifier = .logistic model ∧ model.config = settings := by
  cases classifier with
  | logistic model => exact ⟨model, rfl, Sum.inl.inj hconfig⟩
  | network model => cases hconfig

theorem network_of_config {classifier : Classifier α} {settings : NetworkConfig α}
    (hconfig : classifier.config = .inr settings) :
    ∃ model, classifier = .network model ∧ model.config = settings := by
  cases classifier with
  | logistic model => cases hconfig
  | network model => exact ⟨model, rfl, Sum.inr.inj hconfig⟩

def WellShaped : Classifier α → Prop
  | .logistic model => model.weights.length = model.config.inputSize
  | .network model => model.WellShaped

/-- The values that a pass over the given number of rows makes at a layer can be kept. -/
def HasRoom (rows : Nat) : Classifier α → Prop
  | .logistic _ => addressable [rows]
  | .network model => ∀ width ∈ model.config.widths.tail, addressable [rows, width]

theorem requireRoomFor_eq_ok_iff (rows : Nat) (classifier : Classifier α) :
    classifier.requireRoomFor rows = .ok () ↔ classifier.HasRoom rows := by
  cases classifier with
  | logistic model => exact requireRoom_eq_ok_iff [rows]
  | network model =>
      simp only [requireRoomFor, HasRoom]
      induction model.config.widths.tail with
      | nil => simp [pure, Except.pure]
      | cons width widths ih =>
          rw [List.forall_mem_cons, ← ih, ← requireRoom_eq_ok_iff]
          refine bind_eq_ok.trans ⟨?_, ?_⟩
          · rintro ⟨_, hfirst, hrest⟩
            exact ⟨hfirst, hrest⟩
          · rintro ⟨hfirst, hrest⟩
            exact ⟨(), hfirst, hrest⟩

variable [Zero α] [One α] [Add α] [Sub α] [Mul α] [Div α] [Neg α] [NatCast α]
  [LT α] [DecidableLT α] (numerics : Numerics α)

/-- On which batches a step fails, and what labels for fewer rows than there are stand for. -/
structure StepRules (inputSize : Nat) (classifier : Classifier α) : Prop where
  fails_iff : ∀ (x : Matrix α) (y : List α), 1 ≤ x.height →
    ((∃ error, classifier.learn numerics x y = .error error) ↔
      ¬classifier.HasRoom x.height ∨ x.width ≠ inputSize ∨
        (y.length ≠ x.height ∧ y.length ≠ 1))
  single : ∀ (x : Matrix α) (label : α),
    classifier.learn numerics x [label] =
      classifier.learn numerics x (List.replicate x.height label)
  empty : ∀ (x : Matrix α) (y : List α), x.height = 0 →
    classifier.learn numerics x y = .ok classifier

variable {classifier : Classifier α}

theorem exists_fit_iff {x : Matrix α} {y : List α} (hshape : classifier.WellShaped)
    (hrows : x.height ≠ 0) :
    (∃ next, classifier.fit numerics x y = .ok next) ↔
      x.width = classifier.inputSize ∧ (y.length = x.height ∨ y.length = 1) := by
  cases classifier with
  | logistic model =>
      have hwidth : model.weights.length = model.config.inputSize := hshape
      simp [inputSize, ← hwidth, ← Logistic.exists_fit_iff numerics hrows, fit, map_eq_ok]
  | network model =>
      simp [inputSize, ← Network.exists_fit_iff numerics hshape hrows, fit, map_eq_ok]

theorem fit_single (x : Matrix α) (label : α) :
    classifier.fit numerics x [label] =
      classifier.fit numerics x (List.replicate x.height label) := by
  cases classifier with
  | logistic model => rw [fit, fit, Logistic.fit_single]
  | network model => rw [fit, fit, Network.fit_single]

theorem fit_of_empty {x : Matrix α} (hempty : x.height = 0) (y : List α) :
    classifier.fit numerics x y = .ok classifier := by
  cases classifier with
  | logistic model => rw [fit, Logistic.fit, if_pos hempty]; rfl
  | network model => rw [fit, Network.fit, if_pos hempty]; rfl

theorem learn_eq_ok_iff {next : Classifier α} {x : Matrix α} {y : List α} :
    classifier.learn numerics x y = .ok next ↔
      (x.height ≠ 0 → classifier.HasRoom x.height) ∧ classifier.fit numerics x y = .ok next := by
  unfold learn
  split
  · next hrows =>
      rw [bind_eq_ok, ← requireRoomFor_eq_ok_iff]
      simp [hrows, Unique.exists_iff]
  · next hrows => simp [hrows]

theorem stepRules (hshape : classifier.WellShaped) :
    classifier.StepRules numerics classifier.inputSize := by
  constructor
  · intro x y hrows
    have hsome : x.height ≠ 0 := by omega
    rw [exists_error_iff]
    simp only [learn_eq_ok_iff, exists_and_left, exists_fit_iff numerics hshape hsome]
    tauto
  · intro x label
    rw [learn, learn, fit_single]
  · intro x y hempty
    rw [learn_eq_ok_iff]
    exact ⟨fun hrows => absurd hempty hrows, fit_of_empty numerics hempty y⟩

theorem shape_of_fit {next : Classifier α} {x : Matrix α} {y : List α}
    (hshape : classifier.WellShaped) (hfit : classifier.fit numerics x y = .ok next) :
    next.WellShaped ∧ next.config = classifier.config := by
  cases classifier with
  | logistic model =>
      obtain ⟨after, hafter, rfl⟩ := map_eq_ok.mp hfit
      obtain ⟨hlength, hconfig⟩ := Logistic.shape_of_fit numerics hafter
      refine ⟨?_, congrArg Sum.inl hconfig⟩
      rw [WellShaped, hlength, hconfig]
      exact hshape
  | network model =>
      obtain ⟨after, hafter, rfl⟩ := map_eq_ok.mp hfit
      obtain ⟨hafterShape, hconfig⟩ := Network.shape_of_fit numerics hshape hafter
      exact ⟨hafterShape, congrArg Sum.inr hconfig⟩

/-- One step, after which the classifier is as it was if the step failed. -/
def attempt (classifier : Classifier α) (batch : Matrix α × List α) : Classifier α :=
  (classifier.learn numerics batch.1 batch.2).toOption.getD classifier

def attempts (classifier : Classifier α) (batches : List (Matrix α × List α)) : Classifier α :=
  batches.foldl (attempt numerics) classifier

theorem shape_of_attempt (hshape : classifier.WellShaped) (batch : Matrix α × List α) :
    (classifier.attempt numerics batch).WellShaped ∧
      (classifier.attempt numerics batch).config = classifier.config := by
  unfold attempt
  cases hlearn : classifier.learn numerics batch.1 batch.2 with
  | error error => exact ⟨hshape, rfl⟩
  | ok next => exact shape_of_fit numerics hshape ((learn_eq_ok_iff numerics).mp hlearn).2

theorem shape_of_attempts (hshape : classifier.WellShaped) (batches : List (Matrix α × List α)) :
    (classifier.attempts numerics batches).WellShaped ∧
      (classifier.attempts numerics batches).config = classifier.config := by
  unfold attempts
  induction batches generalizing classifier with
  | nil => exact ⟨hshape, rfl⟩
  | cons batch batches ih =>
      obtain ⟨hnext, hconfig⟩ := shape_of_attempt numerics hshape batch
      obtain ⟨hlast, hlastConfig⟩ := ih hnext
      exact ⟨hlast, hlastConfig.trans hconfig⟩

/--
Whatever batches a new classifier is given, it keeps its configuration and its
shapes, and after any of them the next step fails on the same batches as before.
-/
theorem shapes_kept_by_attempts (numerics : Numerics Float) (generator : Generator)
    (batches : List (Matrix Float × List Float)) :
    (∀ config : LogisticConfig Float, addressable [config.inputSize] →
      ∃ model later, Logistic.new config generator = .ok (model, later) ∧
        ∃ last : Logistic Float,
          (Classifier.logistic model).attempts numerics batches = .logistic last ∧
          last.config = config ∧ last.weights.length = config.inputSize ∧
          (Classifier.logistic last).StepRules numerics config.inputSize) ∧
    (∀ config : NetworkConfig Float, 1 ≤ config.outputs → Network.Roomy config.widths →
      ∃ network later, Network.new config generator = .ok (network, later) ∧
        ∃ last : Network Float,
          (Classifier.network network).attempts numerics batches = .network last ∧
          last.config = config ∧ Stacked Layer.HasShape config.widths last.layers ∧
          (Classifier.network last).StepRules numerics config.inputSize) := by
  constructor
  · intro config hroom
    obtain ⟨model, later, hnew, hlength⟩ := Logistic.new_eq_ok hroom generator
    obtain rfl := Logistic.config_of_new hnew
    have hmodel : (Classifier.logistic model).WellShaped := hlength
    obtain ⟨hshape, hconfig⟩ := shape_of_attempts numerics hmodel batches
    obtain ⟨last, hlast, hlastConfig⟩ := logistic_of_config hconfig
    rw [hlast] at hshape
    rw [← hlastConfig] at hnew ⊢
    exact ⟨model, later, hnew, last, hlast, rfl, hshape, stepRules numerics hshape⟩
  · intro config houtputs hroom
    obtain ⟨network, later, hnew, rfl, hnetwork⟩ :=
      Network.new_eq_ok (by omega) hroom generator
    have hmodel : (Classifier.network network).WellShaped := hnetwork
    obtain ⟨hshape, hconfig⟩ := shape_of_attempts numerics hmodel batches
    obtain ⟨last, hlast, hlastConfig⟩ := network_of_config hconfig
    rw [hlast] at hshape
    rw [← hlastConfig] at hnew ⊢
    exact ⟨network, later, hnew, last, hlast, rfl, hshape, stepRules numerics hshape⟩

/-- Too wide rows, and a hidden layer without units. -/
theorem shapes_kept_by_three_attempts :
    let batches : List (Matrix Float × List Float) :=
      [(⟨1, 3, [1, 0, 1], rfl⟩, [1]), (⟨2, 2, [1, 0, 0, 1], rfl⟩, [0]), (⟨0, 7, [], rfl⟩, [])]
    (∃ model later, Logistic.new ⟨2, 0.5⟩ (.ofSeed 1) = .ok (model, later) ∧
      ∃ last : Logistic Float,
        (Classifier.logistic model).attempts .double batches = .logistic last ∧
        last.weights.length = 2) ∧
    (∃ network later, Network.new ⟨2, [0, 3], 1, 0.5⟩ (.ofSeed 1) = .ok (network, later) ∧
      ∃ last : Network Float,
        (Classifier.network network).attempts .double batches = .network last ∧
        Stacked Layer.HasShape [2, 0, 3, 1] last.layers) := by
  intro batches
  obtain ⟨hlogistic, hnetwork⟩ := shapes_kept_by_attempts .double (.ofSeed 1) batches
  constructor
  · obtain ⟨model, later, hnew, last, hlast, -, hlength, -⟩ := hlogistic ⟨2, 0.5⟩ (by decide)
    exact ⟨model, later, hnew, last, hlast, hlength⟩
  · obtain ⟨network, later, hnew, last, hlast, -, hshape, -⟩ :=
      hnetwork ⟨2, [0, 3], 1, 0.5⟩ (by decide) (by decide)
    exact ⟨network, later, hnew, last, hlast, hshape⟩

end Classifier

end Polarity
