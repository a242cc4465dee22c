import Polarity.Proofs.Batches
import Polarity.Proofs.Classifier
import Polarity.Proofs.Splits
import Polarity.Training.Loop
import Polarity.Training.Models

/-!
# Training does not fail

Settings that pass their check lead from any corpus to a trained and evaluated
model, as long as there is room for its parameters and its history.  What every
epoch keeps is that the classifier fits the width of the data.
-/

namespace Polarity

open Polarity.Random
open Session

/-! ## Settings -/

namespace Settings

theorem validate_eq_ok_iff (settings : Settings) :
    settings.validate = .ok () ↔ settings.batchSize ≠ 0 ∧ settings.vocabSize ≠ 0 ∧
      settings.outputs ≠ 0 ∧ 0 ∉ settings.hiddenSizes ∧ settings.learningRate.isFinite ∧
      ¬settings.learningRate < 0 := by
  have hlast : ∀ (condition : Bool) (error : Error),
      (if condition then throw error else pure () : Except Error Unit) = .ok () ↔
        condition = false := by
    intro condition error
    cases condition with
    | false => exact ⟨fun _ => rfl, fun _ => rfl⟩
    | true => exact ⟨nofun, nofun⟩
  simp only [validate, ite_throw_eq_ok_iff, hlast, ne_eq, Bool.or_eq_false_iff,
    Bool.not_eq_false', decide_eq_false_iff_not]

/-- There is room for the history of a run and for the parameters of its model. -/
def Representable (settings : Settings) (inputSize : Nat) : Prop :=
  historyRowBytes * settings.epochs.toNat ≤ addressLimit ∧
    match settings.model with
    | .logistic => addressable [inputSize]
    | .network => Network.Roomy (settings.networkConfig inputSize).widths

theorem makeClassifier_fits {settings : Settings} {inputSize : Nat}
    (houtputs : settings.outputs ≠ 0) (hroom : settings.Representable inputSize)
    (generator : Generator) :
    ∃ classifier later,
      OnlyNotes (settings.makeClassifier inputSize generator) (classifier, later) ∧
      classifier.Fits inputSize := by
  obtain ⟨-, hroom⟩ := hroom
  unfold makeClassifier
  cases hmodel : settings.model with
  | logistic =>
      simp only [hmodel] at hroom
      have hinput : addressable [(settings.logisticConfig inputSize).inputSize] := hroom
      obtain ⟨model, later, hmodel, hlength⟩ := Logistic.new_eq_ok hinput generator
      exact ⟨.logistic model, later, (onlyNotes_lift hmodel).bind (.pure _), hlength⟩
  | network =>
      simp only [hmodel] at hroom
      have hsome : (settings.networkConfig inputSize).outputs ≠ 0 := by
        intro hzero
        exact houtputs (UInt64.toNat_inj.mp hzero)
      obtain ⟨network, later, hnetwork, hconfig, hshape⟩ :=
        Network.new_eq_ok hsome hroom generator
      have hmake : OnlyNotes (Network.make (settings.networkConfig inputSize) generator)
          (network, later) :=
        (onlyNotes_lift hnetwork).bind ((onlyNotes_note _ _).bind (.pure _))
      refine ⟨.network network, later, hmake.bind (.pure _), hshape, ?_, ?_⟩
      · rw [hconfig]
        rfl
      · rwa [hconfig]

end Settings

/-! ## Epochs -/

namespace Training

section Epochs

variable {α : Type}

theorem width_of_mem_epoch {batches : Batches α} {generator : Generator} {batch : Dataset α}
    (hbatch : batch ∈ (batches.epoch generator).1.toList) : batch.width = batches.data.width := by
  rw [Epoch.toList_eq_map] at hbatch
  obtain ⟨places, -, rfl⟩ := List.mem_map.mp hbatch
  rfl

variable [Zero α] [One α] [Add α] [Sub α] [Mul α] [Div α] [Neg α] [NatCast α]
  [LT α] [DecidableLT α] (numerics : Numerics α) {width : Nat} {classifier : Classifier α}

theorem fitBatches_eq_ok {batches : List (Dataset α)} (hfits : classifier.Fits width)
    (hbatches : ∀ batch ∈ batches, batch.width = width) :
    ∃ next, fitBatches numerics classifier batches = .ok next ∧ next.Fits width := by
  unfold fitBatches
  induction batches generalizing classifier with
  | nil => exact ⟨classifier, rfl, hfits⟩
  | cons batch batches ih =>
      obtain ⟨next, hnext, hnextFits⟩ :=
        Classifier.fit_eq_ok numerics hfits (hbatches batch List.mem_cons_self)
      obtain ⟨last, hlast, hlastFits⟩ :=
        ih hnextFits fun batch hbatch => hbatches batch (List.mem_cons_of_mem _ hbatch)
      refine ⟨last, ?_, hlastFits⟩
      rw [List.foldlM_cons, hnext, ok_bind, hlast]

variable [LE α] [DecidableLE α] [BEq α]

theorem measure_eq_ok (epoch : Nat) {training validation : Dataset α}
    (hfits : classifier.Fits width) (htraining : training.width = width)
    (hvalidation : validation.width = width) :
    ∃ metrics, measure numerics epoch classifier training validation = .ok metrics := by
  obtain ⟨trainLoss, trainAccuracy, htrain⟩ := Classifier.evaluate_eq_ok numerics hfits htraining
  obtain ⟨valLoss, valAccuracy, hval⟩ := Classifier.evaluate_eq_ok numerics hfits hvalidation
  rw [measure, htrain, ok_bind]
  dsimp only
  rw [hval, ok_bind]
  exact ⟨_, rfl⟩

private theorem runEpochs_fits (epochs left : Nat) {validation : Dataset α} {batches : Batches α}
    (hfits : classifier.Fits width) (hdata : batches.data.width = width)
    (hvalidation : validation.width = width) (generator : Generator) (history : List (Metrics α)) :
    ∃ trained,
      OnlyReports (runEpochs numerics validation none epochs left classifier batches generator
        history) trained ∧
      trained.classifier.Fits width := by
  induction left generalizing classifier batches generator history with
  | zero => exact ⟨_, (OnlyNotes.pure _).onlyReports, hfits⟩
  | succ left ih =>
      obtain ⟨next, hnext, hnextFits⟩ := fitBatches_eq_ok numerics hfits
        fun batch hbatch => (width_of_mem_epoch hbatch).trans hdata
      obtain ⟨metrics, hmetrics⟩ :=
        measure_eq_ok numerics (epochs - left) hnextFits hdata hvalidation
      have hnextData : (batches.epoch generator).2.1.data.width = width := hdata
      obtain ⟨trained, htrained, htrainedFits⟩ := ih hnextFits
        hnextData (batches.epoch generator).2.2 (metrics :: history)
      refine ⟨trained, ?_, htrainedFits⟩
      exact (onlyNotes_lift hnext).onlyReports.bind <|
        (onlyNotes_lift hmetrics).onlyReports.bind <|
        (onlyReports_printLine _).bind <| (OnlyNotes.pure _).onlyReports.bind htrained

theorem run_fits {training validation : Dataset α} {batchSize epochs : Nat}
    (hfits : classifier.Fits width) (htraining : training.width = width)
    (hvalidation : validation.width = width) (hbatchSize : batchSize ≠ 0)
    (hroom : historyRowBytes * epochs ≤ addressLimit) (generator : Generator) :
    ∃ trained,
      OnlyReports (run numerics classifier training validation batchSize epochs generator none)
        trained ∧
      trained.classifier.Fits width := by
  obtain ⟨batches, hbatches, hdata⟩ : ∃ batches,
      Batches.ofDataset training batchSize = .ok batches ∧ batches.data.width = width :=
    ⟨_, Batches.ofDataset_eq_ok training hbatchSize, htraining⟩
  obtain ⟨trained, htrained, htrainedFits⟩ :=
    runEpochs_fits numerics epochs epochs hfits hdata hvalidation generator []
  refine ⟨trained, ?_, htrainedFits⟩
  refine (onlyNotes_lift hbatches).onlyReports.bind <| (onlyNotes_note _ _).onlyReports.bind ?_
  have hhistory : ¬addressLimit < historyRowBytes * epochs := by omega
  simp only [if_neg hhistory]
  exact htrained.bind <| (onlyNotes_note _ _).onlyReports.bind (OnlyNotes.pure _).onlyReports

end Epochs

end Training

/--
Settings that pass their check do not fail later.  Every corpus can be prepared,
the model can be made for its vocabulary, trained and evaluated, whatever the
generators are.
-/
theorem Settings.training_succeeds (numerics : Numerics Float) (settings : Settings)
    (corpus : Corpus) (hvalid : settings.validate = .ok ())
    (hroom : settings.Representable
      (Vocabulary.build corpus.training settings.vocabSize.toNat).size) :
    ∃ prepared : Prepared Float, OnlyNotes (Prepared.ofCorpus corpus settings) prepared ∧
      ∀ generator, ∃ classifier later,
        OnlyNotes (settings.makeClassifier prepared.vocabulary.size generator)
          (classifier, later) ∧
        ∀ generator, ∃ trained,
          OnlyReports (Training.run numerics classifier prepared.training prepared.validation
            settings.batchSize.toNat settings.epochs.toNat generator none) trained ∧
          ∃ loss accuracy, trained.classifier.evaluate numerics prepared.test.features
            prepared.test.labels = .ok (loss, accuracy) := by
  obtain ⟨hbatch, -, houtputs, -⟩ := (validate_eq_ok_iff settings).mp hvalid
  obtain ⟨prepared, hprepared, hvocabulary, htraining, hvalidation, htest⟩ :=
    @Prepared.ofCorpus_featured Float _ _ corpus settings
  refine ⟨prepared, hprepared, ?_⟩
  rw [hvocabulary]
  intro generator
  obtain ⟨classifier, later, hmake, hfits⟩ := makeClassifier_fits houtputs hroom generator
  refine ⟨classifier, later, hmake, ?_⟩
  intro generator
  have hsize : settings.batchSize.toNat ≠ 0 := by
    intro hzero
    exact hbatch (UInt64.toNat_inj.mp hzero)
  obtain ⟨trained, htrained, htrainedFits⟩ := Training.run_fits numerics hfits htraining.width_eq
    hvalidation.width_eq hsize hroom.1 generator
  exact ⟨trained, htrained, Classifier.evaluate_eq_ok numerics htrainedFits htest.width_eq⟩

theorem Settings.training_of_two_documents_succeeds :
    let settings : Settings := { Settings.default with model := .network, trainSize := 0 }
    let corpus : Corpus := ⟨[.ofWords ["good", "film"], .ofWords ["film"]], [], [], [.ofWords []],
      by decide⟩
    settings.validate = .ok () ∧
    settings.Representable (Vocabulary.build corpus.training settings.vocabSize.toNat).size ∧
    ∃ prepared : Prepared Float, OnlyNotes (Prepared.ofCorpus corpus settings) prepared ∧
      ∀ generator, ∃ classifier later,
        OnlyNotes (settings.makeClassifier prepared.vocabulary.size generator)
          (classifier, later) ∧
        ∀ generator, ∃ trained,
          OnlyReports (Training.run .double classifier prepared.training prepared.validation 20 300
            generator none) trained ∧
          ∃ loss accuracy, trained.classifier.evaluate .double prepared.test.features
            prepared.test.labels = .ok (loss, accuracy) := by
  intro settings corpus
  have hvalid : settings.validate = .ok () := by
    rw [validate_eq_ok_iff]
    decide
  have hlimit : settings.vocabSize.toNat = 2000 := rfl
  have hsize : (Vocabulary.build corpus.training settings.vocabSize.toNat).size = 2 := by
    rw [hlimit]
    cbv
  have hroom : settings.Representable
      (Vocabulary.build corpus.training settings.vocabSize.toNat).size := by
    rw [hsize]
    constructor
    · decide
    · change Network.Roomy [2, 20, 1]
      decide
  exact ⟨hvalid, hroom, training_succeeds .double settings corpus hvalid hroom⟩

end Polarity
