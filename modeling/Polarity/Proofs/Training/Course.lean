import Mathlib
import Polarity.Proofs.Batches
import Polarity.Proofs.FileSystem.Names
import Polarity.Proofs.Training.Safety
import Polarity.Proofs.Training.Tables

/-!
# The course of training

An epoch takes the classifier, the order of the batches and the generator to those
that the next epoch begins with, and measures the classifier that it leaves.  A run
that ends has gone through its epochs one after the other, and for each of them it
has printed one line and logged one row.  On rows of the right width there are few
ways for a run to end otherwise.
-/

namespace Polarity

open Text.Utf8 (ofString)
open FileSystem Session
open Polarity.Random

/-! ## Rows of a table -/

namespace MetricsTable

variable {table : MetricsTable} {before between after : FileSystem}

theorem Logged.append {first second : String} (hfirst : table.Logged before between first)
    (hsecond : table.Logged between after second) :
    table.Logged before after (first ++ second) := by
  -- The path still leads to the first place, where the second line finds what the first left.
  have hkeeps := hfirst.keepsDirectories
  obtain ⟨place, old, hplace, hold, hlook⟩ := hfirst
  obtain ⟨found, content, hfound, hcontent, hlater⟩ := hsecond
  obtain rfl : found = place := (LeadsTo.iff_eq (hplace.mono hkeeps)).mp hfound
  rw [content?_eq_some_iff, hlook, if_pos rfl] at hcontent
  obtain rfl : old ++ ofString first = content := by simpa using hcontent
  refine ⟨found, old, hplace, hold, fun other => ?_⟩
  rw [hlater, hlook, Text.Utf8.ofString_append, List.append_assoc]
  split <;> rfl

private theorem failsOnly_log {α : Type} (numerics : Numerics α) (table : MetricsTable)
    (metrics : Metrics α) :
    FailsOnly (table.log numerics metrics) (· = .file (.openTable table.path)) := by
  intro world error after hrun
  rcases run_log numerics table metrics world with ⟨_, hlog, -⟩ | hlog
  · rw [hlog] at hrun
    cases hrun
  · rw [hlog] at hrun
    cases hrun
    rfl

end MetricsTable

namespace Training

/-! ## Reports -/

section Reports

variable {α : Type} [Mul α] [NatCast α] {numerics : Numerics α} {table : Option MetricsTable}
  {epochs : Nat} {rows : List (Metrics α)} {before after : World}

structure RowReported (numerics : Numerics α) (table : Option MetricsTable) (epochs : Nat)
    (metrics : Metrics α) (before after : World) : Prop where
  lines : after.lines = before.lines.push (progressLine numerics epochs metrics)
  untabled : table = none → after.files = before.files
  tabled : ∀ kept, table = some kept →
    kept.Logged before.files after.files (metrics.line numerics)

/-- The rows were reported one after the other; notes may be taken at any time. -/
inductive Reported (numerics : Numerics α) (table : Option MetricsTable) (epochs : Nat) :
    World → List (Metrics α) → World → Prop where
  | nil {before after : World} (hlines : after.lines = before.lines)
      (hfiles : after.files = before.files) : Reported numerics table epochs before [] after
  | cons {before between after : World} {metrics : Metrics α} {rows : List (Metrics α)}
      (hrow : RowReported numerics table epochs metrics before between)
      (hrest : Reported numerics table epochs between rows after) :
      Reported numerics table epochs before (metrics :: rows) after

theorem Reported.notes (hreported : Reported numerics table epochs before rows after)
    (earlier later : Array Note) :
    Reported numerics table epochs { before with notes := earlier } rows
      { after with notes := later } := by
  induction hreported generalizing earlier with
  | nil hlines hfiles => exact .nil hlines hfiles
  | @cons before between after metrics rows hrow _ ih =>
      have hnoted : RowReported numerics table epochs metrics { before with notes := earlier }
          between := ⟨hrow.lines, hrow.untabled, hrow.tabled⟩
      exact .cons hnoted (ih between.notes)

theorem Reported.lines (hreported : Reported numerics table epochs before rows after) :
    after.lines.toList = before.lines.toList ++ rows.map (progressLine numerics epochs) := by
  induction hreported with
  | nil hlines _ => simp [hlines]
  | cons hrow _ ih => simp [ih, hrow.lines]

theorem Reported.untabled (hreported : Reported numerics none epochs before rows after) :
    after.files = before.files := by
  induction hreported with
  | nil _ hfiles => exact hfiles
  | cons hrow _ ih => exact ih.trans (hrow.untabled rfl)

/-- Rows that were logged one after the other stand together at the end of the file. -/
theorem Reported.tabled {kept : MetricsTable}
    (hreported : Reported numerics (some kept) epochs before rows after) :
    (rows = [] ∧ after.files = before.files) ∨
      kept.Logged before.files after.files (String.join (rows.map (Metrics.line numerics))) := by
  induction hreported with
  | nil _ hfiles => exact .inl ⟨rfl, hfiles⟩
  | cons hrow _ ih =>
      have hlogged := hrow.tabled kept rfl
      rw [List.map_cons, String.join_cons]
      rcases ih with ⟨rfl, hfiles⟩ | hjoined
      · rw [hfiles]
        exact .inr (by simpa using hlogged)
      · exact .inr (hlogged.append hjoined)

end Reports

variable {α : Type} [Zero α] [One α] [Add α] [Sub α] [Mul α] [Div α] [Neg α] [NatCast α]
  [LT α] [DecidableLT α]

/-! ## Epochs -/

theorem fitBatches_append {numerics : Numerics α} {classifier next last : Classifier α}
    {earlier later : List (Dataset α)}
    (hearlier : fitBatches numerics classifier earlier = .ok next)
    (hlater : fitBatches numerics next later = .ok last) :
    fitBatches numerics classifier (earlier ++ later) = .ok last := by
  rw [fitBatches, List.foldlM_append]
  exact (congrArg (· >>= _) hearlier).trans hlater

variable [LE α] [DecidableLE α] [BEq α]

theorem measure_eq_ok_iff {numerics : Numerics α} {epoch : Nat} {classifier : Classifier α}
    {training validation : Dataset α} {metrics : Metrics α} :
    measure numerics epoch classifier training validation = .ok metrics ↔
      metrics.epoch = epoch ∧
      classifier.evaluate numerics training.features training.labels =
        .ok (metrics.trainLoss, metrics.trainAccuracy) ∧
      classifier.evaluate numerics validation.features validation.labels =
        .ok (metrics.valLoss, metrics.valAccuracy) := by
  constructor
  · intro hmeasure
    obtain ⟨first, hfirst, hmeasure⟩ := bind_eq_ok.mp hmeasure
    obtain ⟨second, hsecond, hmeasure⟩ := bind_eq_ok.mp hmeasure
    cases hmeasure
    exact ⟨rfl, hfirst, hsecond⟩
  · rintro ⟨rfl, htraining, hvalidation⟩
    rw [measure, htraining, ok_bind]
    dsimp only
    rw [hvalidation, ok_bind]
    rfl

structure Progress (α : Type) where
  classifier : Classifier α
  batches : Batches α
  generator : Generator

namespace Progress

omit [Zero α] [One α] [Add α] [Sub α] [Mul α] [Div α] [Neg α] [NatCast α] [LT α] [DecidableLT α]
  [LE α] [DecidableLE α] [BEq α]

def start (classifier : Classifier α) (training : Dataset α) (batchSize : Nat)
    (generator : Generator) : Progress α :=
  ⟨classifier, .unshuffled training batchSize, generator⟩

def epochBatches (progress : Progress α) : List (Dataset α) :=
  (progress.batches.epoch progress.generator).1.toList

def next (progress : Progress α) (classifier : Classifier α) : Progress α :=
  ⟨classifier, (progress.batches.epoch progress.generator).2.1,
    (progress.batches.epoch progress.generator).2.2⟩

def Ordered (data : Dataset α) (size : Nat) (progress : Progress α) : Prop :=
  (Consumer.start progress.batches progress.generator).Ordered data size

variable {data : Dataset α} {size : Nat} {progress : Progress α}

private theorem ordered_start (classifier : Classifier α) (training : Dataset α) (batchSize : Nat)
    (generator : Generator) :
    (start classifier training batchSize generator).Ordered training batchSize :=
  ⟨rfl, rfl, .refl _⟩

theorem Ordered.next (hordered : progress.Ordered data size) (classifier : Classifier α) :
    (progress.next classifier).Ordered data size := by
  have hstep := Consumer.Ordered.step hordered .epoch
  exact ⟨hstep.data_eq, hstep.size_eq, hstep.order_perm⟩

theorem Ordered.length_epochBatches (hordered : progress.Ordered data size) (hsize : 0 < size) :
    progress.epochBatches.length = ⌈(data.size / size : ℚ)⌉₊ := by
  have hcount := (Consumer.Ordered.inEpoch_step hordered).length_epochBatches hsize
  obtain ⟨rfl, rfl, -⟩ := hordered
  rw [← Batches.count_eq_ceil hsize]
  exact hcount

theorem Ordered.pairs_perm (hordered : progress.Ordered data size) (hsize : 0 < size) :
    (progress.epochBatches.flatMap Dataset.pairs).Perm data.pairs := by
  have hepoch := Consumer.Ordered.inEpoch_step hordered
  have hpairs : progress.epochBatches.flatMap Dataset.pairs = _ := hepoch.pairs_eq hsize
  rw [hpairs]
  apply pick_perm
  rw [Dataset.length_pairs]
  exact hepoch.order_perm

end Progress

/--
Epochs one after the other, the first of them with the given number.  There is one
row for each.
-/
inductive Course (numerics : Numerics α) (validation : Dataset α) :
    Nat → Progress α → List (Metrics α) → Progress α → Prop where
  | done (number : Nat) (progress : Progress α) :
      Course numerics validation number progress [] progress
  | epoch {number : Nat} {progress last : Progress α} {classifier : Classifier α}
      {metrics : Metrics α} {rows : List (Metrics α)}
      (hfit : fitBatches numerics progress.classifier progress.epochBatches = .ok classifier)
      (hmeasure : measure numerics number classifier progress.batches.data validation =
        .ok metrics)
      (hrest : Course numerics validation (number + 1) (progress.next classifier) rows last) :
      Course numerics validation number progress (metrics :: rows) last

namespace Course

variable {numerics : Numerics α} {validation data : Dataset α} {number size : Nat}
  {progress last : Progress α} {rows : List (Metrics α)}

theorem numbers (hcourse : Course numerics validation number progress rows last) :
    rows.map Metrics.epoch = List.range' number rows.length := by
  induction hcourse with
  | done number progress => rfl
  | epoch _ hmeasure _ ih =>
      rw [List.map_cons, List.length_cons, List.range'_succ, ih, (measure_eq_ok_iff.mp hmeasure).1]

end Course

/--
What the batches of the epochs in `plan` make of a classifier: each epoch covers the
data, and each row is measured on the classifier as its epoch left it.
-/
structure Carried (numerics : Numerics α) (training validation : Dataset α) (batchSize : Nat)
    (classifier : Classifier α) (rows : List (Metrics α)) (last : Classifier α)
    (plan : List (List (Dataset α))) : Prop where
  length_eq : plan.length = rows.length
  count_eq : ∀ batches ∈ plan, batches.length = ⌈(training.size / batchSize : ℚ)⌉₊
  covers : ∀ batches ∈ plan, (batches.flatMap Dataset.pairs).Perm training.pairs
  fitted : fitBatches numerics classifier plan.flatten = .ok last
  measured : ∀ (place : Nat) (metrics : Metrics α), rows[place]? = some metrics →
    ∃ model, fitBatches numerics classifier (plan.take (place + 1)).flatten = .ok model ∧
      model.evaluate numerics training.features training.labels =
        .ok (metrics.trainLoss, metrics.trainAccuracy) ∧
      model.evaluate numerics validation.features validation.labels =
        .ok (metrics.valLoss, metrics.valAccuracy)

namespace Carried

variable {numerics : Numerics α} {training validation : Dataset α} {batchSize : Nat}
  {classifier next last : Classifier α} {rows : List (Metrics α)} {plan : List (List (Dataset α))}

theorem nil (classifier : Classifier α) :
    Carried numerics training validation batchSize classifier [] classifier [] where
  length_eq := rfl
  count_eq := nofun
  covers := nofun
  fitted := rfl
  measured := nofun

theorem cons {batches : List (Dataset α)} {number : Nat} {metrics : Metrics α}
    (hcount : batches.length = ⌈(training.size / batchSize : ℚ)⌉₊)
    (hcovers : (batches.flatMap Dataset.pairs).Perm training.pairs)
    (hfit : fitBatches numerics classifier batches = .ok next)
    (hmeasure : measure numerics number next training validation = .ok metrics)
    (hrest : Carried numerics training validation batchSize next rows last plan) :
    Carried numerics training validation batchSize classifier (metrics :: rows) last
      (batches :: plan) where
  length_eq := by rw [List.length_cons, List.length_cons, hrest.length_eq]
  count_eq := List.forall_mem_cons.mpr ⟨hcount, hrest.count_eq⟩
  covers := List.forall_mem_cons.mpr ⟨hcovers, hrest.covers⟩
  fitted := fitBatches_append hfit hrest.fitted
  measured place row hrow := by
    cases place with
    | zero =>
        obtain rfl : metrics = row := by simpa using hrow
        refine ⟨next, ?_, (measure_eq_ok_iff.mp hmeasure).2⟩
        rwa [List.take_succ_cons, List.take_zero, List.flatten_singleton]
    | succ place =>
        obtain ⟨model, hmodel, hevaluate⟩ := hrest.measured place row (by simpa using hrow)
        exact ⟨model, fitBatches_append hfit hmodel, hevaluate⟩

private theorem length_flatten
    (hcarried : Carried numerics training validation batchSize classifier rows last plan) :
    plan.flatten.length = rows.length * ⌈(training.size / batchSize : ℚ)⌉₊ := by
  have hcounts : plan.map List.length =
      List.replicate rows.length ⌈(training.size / batchSize : ℚ)⌉₊ := by
    rw [List.eq_replicate_iff, List.length_map, hcarried.length_eq, List.forall_mem_map]
    exact ⟨rfl, hcarried.count_eq⟩
  rw [List.length_flatten, hcounts, List.sum_replicate, smul_eq_mul]

end Carried

theorem Course.exists_plan {numerics : Numerics α} {validation data : Dataset α}
    {number size : Nat} {progress last : Progress α} {rows : List (Metrics α)}
    (hcourse : Course numerics validation number progress rows last)
    (hordered : progress.Ordered data size) (hsize : 0 < size) :
    ∃ plan, Carried numerics data validation size progress.classifier rows last.classifier
      plan := by
  induction hcourse with
  | done number progress => exact ⟨[], .nil progress.classifier⟩
  | @epoch number progress last classifier metrics rows hfit hmeasure hrest ih =>
      obtain ⟨plan, hplan⟩ := ih (hordered.next classifier)
      have hdata : progress.batches.data = data := hordered.data_eq
      rw [hdata] at hmeasure
      exact ⟨progress.epochBatches :: plan, .cons (hordered.length_epochBatches hsize)
        (hordered.pairs_perm hsize) hfit hmeasure hplan⟩

/-! ## Runs -/

variable {numerics : Numerics α} {classifier : Classifier α} {training validation : Dataset α}
  {batchSize epochs : Nat} {generator : Generator} {table : Option MetricsTable}
  {trained : Trained α} {world after : World}

private theorem epoch_of_runEpochs {left : Nat} {progress : Progress α} {history : List (Metrics α)}
    (hrun : (runEpochs numerics validation table epochs (left + 1) progress.classifier
      progress.batches progress.generator history).run world = (.ok trained, after)) :
    ∃ next metrics between,
      fitBatches numerics progress.classifier progress.epochBatches = .ok next ∧
      measure numerics (epochs - left) next progress.batches.data validation = .ok metrics ∧
      RowReported numerics table epochs metrics world between ∧
      (runEpochs numerics validation table epochs left (progress.next next).classifier
        (progress.next next).batches (progress.next next).generator (metrics :: history)).run
          between = (.ok trained, after) := by
  obtain ⟨next, fitted, hfit, hrun⟩ := run_bind_eq_ok.mp hrun
  obtain ⟨hnext, rfl⟩ := run_lift_eq_ok.mp hfit
  obtain ⟨metrics, measured, hmeasure, hrun⟩ := run_bind_eq_ok.mp hrun
  obtain ⟨hmetrics, rfl⟩ := run_lift_eq_ok.mp hmeasure
  rw [run_bind_ok (run_printLine _ _)] at hrun
  cases table with
  | none =>
      refine ⟨next, metrics, _, hnext, hmetrics, ?_, hrun⟩
      exact ⟨rfl, fun _ => rfl, nofun⟩
  | some kept =>
      obtain ⟨_, between, hlog, hrun⟩ := run_bind_eq_ok.mp hrun
      obtain ⟨hlines, hlogged⟩ := MetricsTable.logged_of_run hlog
      refine ⟨next, metrics, between, hnext, hmetrics, ⟨hlines, nofun, ?_⟩, hrun⟩
      rintro _ ⟨⟩
      exact hlogged

theorem course_of_runEpochs (progress : Progress α) {left : Nat} {history : List (Metrics α)}
    (hleft : left ≤ epochs)
    (hrun : (runEpochs numerics validation table epochs left progress.classifier progress.batches
      progress.generator history).run world = (.ok trained, after)) :
    ∃ rows last, rows.length = left ∧ trained.history = history.reverse ++ rows ∧
      last.classifier = trained.classifier ∧ last.generator = trained.generator ∧
      Course numerics validation (epochs - left + 1) progress rows last ∧
      Reported numerics table epochs world rows after := by
  -- The history has its last row first, so the rows to come stand after all of it, reversed.
  induction left generalizing progress history world with
  | zero =>
      cases hrun
      exact ⟨[], progress, rfl, by simp, rfl, rfl, .done _ _, .nil rfl rfl⟩
  | succ left ih =>
      obtain ⟨next, metrics, between, hnext, hmetrics, hrow, hrun⟩ := epoch_of_runEpochs hrun
      obtain ⟨rows, last, hlength, hhistory, hclassifier, hgenerator, hcourse, hreported⟩ :=
        ih (progress.next next) (by omega) hrun
      have hnumber : epochs - (left + 1) + 1 = epochs - left := by omega
      refine ⟨metrics :: rows, last, by rw [List.length_cons, hlength], by simp [hhistory],
        hclassifier, hgenerator, ?_, .cons hrow hreported⟩
      rw [hnumber]
      exact .epoch hnext hmetrics hcourse

theorem course_of_run
    (hrun : (run numerics classifier training validation batchSize epochs generator table).run
      world = (.ok trained, after)) :
    batchSize ≠ 0 ∧ trained.history.length = epochs ∧
      Reported numerics table epochs world trained.history after ∧
      ∃ last, last.classifier = trained.classifier ∧ last.generator = trained.generator ∧
        Course numerics validation 1 (.start classifier training batchSize generator)
          trained.history last := by
  obtain ⟨batches, begun, hbatches, hrun⟩ := run_bind_eq_ok.mp hrun
  obtain ⟨hbatches, rfl⟩ := run_lift_eq_ok.mp hbatches
  rw [info, run_bind_ok (run_note _ _ _)] at hrun
  by_cases hroom : addressLimit < historyRowBytes * epochs
  · rw [if_pos hroom] at hrun
    cases hrun
  · rw [if_neg hroom] at hrun
    obtain ⟨result, done, hepochs, hrun⟩ := run_bind_eq_ok.mp hrun
    cases hrun
    rw [Batches.ofDataset_eq] at hbatches
    split at hbatches
    · cases hbatches
    · next hsize =>
        cases hbatches
        obtain ⟨rows, last, hlength, hhistory, hclassifier, hgenerator, hcourse, hreported⟩ :=
          course_of_runEpochs (.start classifier training batchSize generator)
            (Nat.le_refl epochs) hepochs
        rw [List.reverse_nil, List.nil_append] at hhistory
        rw [Nat.sub_self, Nat.zero_add] at hcourse
        subst hhistory
        exact ⟨hsize, hlength, hreported.notes _ _, last, hclassifier, hgenerator, hcourse⟩

/-! ## How a run can end -/

variable {width : Nat}

theorem failsOnly_runEpochs {batches : Batches α} (left : Nat) (history : List (Metrics α))
    (hfits : classifier.Fits width) (hdata : batches.data.width = width)
    (hvalidation : validation.width = width) (generator : Generator) :
    FailsOnly (runEpochs numerics validation table epochs left classifier batches generator history)
      fun error => ∃ kept, table = some kept ∧ error = .file (.openTable kept.path) := by
  induction left generalizing classifier batches generator history with
  | zero => exact .pure _ _
  | succ left ih =>
      obtain ⟨next, hnext, hnextFits⟩ := fitBatches_eq_ok numerics hfits
        fun batch hbatch => (width_of_mem_epoch hbatch).trans hdata
      obtain ⟨metrics, hmetrics⟩ :=
        measure_eq_ok numerics (epochs - left) hnextFits hdata hvalidation
      have hrest := @ih next (batches.epoch generator).2.1 (metrics :: history) hnextFits hdata
        (batches.epoch generator).2.2
      refine (onlyNotes_lift hnext).onlyReports.failsOnly_bind <|
        (onlyNotes_lift hmetrics).onlyReports.failsOnly_bind <|
        (onlyReports_printLine _).failsOnly_bind ?_
      cases table with
      | none => exact hrest
      | some kept =>
          refine FailsOnly.bind ?_ fun _ => hrest
          intro world error after hrun
          exact ⟨kept, rfl, kept.failsOnly_log numerics metrics world error after hrun⟩

/-- How a run on rows of the right width can end. -/
inductive Ends (batchSize epochs : Nat) (table : Option MetricsTable) :
    Except Error (Trained α) → Prop where
  | zeroBatchSize (hsize : batchSize = 0) : Ends batchSize epochs table (.error .zeroBatchSize)
  | capacity (hsize : batchSize ≠ 0) (hroom : addressLimit < historyRowBytes * epochs) :
      Ends batchSize epochs table (.error (.violation .capacity))
  | unlogged {kept : MetricsTable} (hsize : batchSize ≠ 0)
      (hroom : historyRowBytes * epochs ≤ addressLimit) (htable : table = some kept) :
      Ends batchSize epochs table (.error (.file (.openTable kept.path)))
  | trained (hsize : batchSize ≠ 0) (hroom : historyRowBytes * epochs ≤ addressLimit)
      (trained : Trained α) : Ends batchSize epochs table (.ok trained)

theorem run_of_zero :
    run numerics classifier training validation 0 epochs generator table =
      throw .zeroBatchSize := by
  rw [run, Batches.ofDataset_eq, if_pos rfl]
  rfl

theorem run_ends (hfits : classifier.Fits width) (htraining : training.width = width)
    (hvalidation : validation.width = width) (world : World) :
    Ends batchSize epochs table ((run numerics classifier training validation batchSize epochs
      generator table).run world).1 := by
  by_cases hsize : batchSize = 0
  · subst hsize
    rw [run_of_zero]
    exact .zeroBatchSize rfl
  have hbatches := Batches.ofDataset_eq_ok training hsize
  -- The history is given its room before the first epoch, so this failure comes before any row.
  by_cases hroom : addressLimit < historyRowBytes * epochs
  · rw [run, run_bind_ok (run_lift_eq_ok.mpr ⟨hbatches, rfl⟩), info,
      run_bind_ok (run_note _ _ _), if_pos hroom]
    exact .capacity hsize hroom
  · have hfails : FailsOnly (run numerics classifier training validation batchSize epochs
        generator table)
        fun error => ∃ kept, table = some kept ∧ error = .file (.openTable kept.path) := by
      refine (onlyNotes_lift hbatches).onlyReports.failsOnly_bind <|
        (onlyNotes_note _ _).onlyReports.failsOnly_bind ?_
      simp only [if_neg hroom]
      refine (failsOnly_runEpochs epochs [] hfits htraining hvalidation generator).bind ?_
      exact fun trained => (onlyNotes_note _ _).onlyReports.failsOnly_bind (.pure _ _)
    rcases hrun : (run numerics classifier training validation batchSize epochs generator
      table).run world with ⟨error | trained, after⟩
    · obtain ⟨kept, htable, rfl⟩ := hfails world error after hrun
      exact .unlogged hsize (by omega) htable
    · exact .trained hsize (by omega) trained

/-! ## What a run reports -/

/-- What a run that ends with the given result has done. -/
structure Performed (numerics : Numerics α) (classifier : Classifier α)
    (training validation : Dataset α) (batchSize epochs : Nat) (table : Option MetricsTable)
    (before : World) (trained : Trained α) (after : World) : Prop where
  numbers : trained.history.map Metrics.epoch = List.range' 1 epochs
  lines : after.lines.toList =
    before.lines.toList ++ trained.history.map (progressLine numerics epochs)
  untabled : table = none → after.files = before.files
  tabled : ∀ kept, table = some kept →
    (epochs = 0 ∧ after.files = before.files) ∨
      kept.Logged before.files after.files
        (String.join (trained.history.map (Metrics.line numerics)))
  steps : ∃ plan : List (List (Dataset α)),
    plan.flatten.length = epochs * ⌈(training.size / batchSize : ℚ)⌉₊ ∧
    Carried numerics training validation batchSize classifier trained.history trained.classifier
      plan

theorem performed_of_run
    (hrun : (run numerics classifier training validation batchSize epochs generator table).run
      world = (.ok trained, after)) :
    Performed numerics classifier training validation batchSize epochs table world trained
      after := by
  obtain ⟨hsize, hlength, hreported, last, hclassifier, -, hcourse⟩ := course_of_run hrun
  have hordered := Progress.ordered_start classifier training batchSize generator
  obtain ⟨plan, hplan⟩ := hcourse.exists_plan hordered (Nat.pos_of_ne_zero hsize)
  have hsteps := hplan.length_flatten
  rw [hclassifier] at hplan
  rw [hlength] at hsteps
  refine ⟨?_, hreported.lines, ?_, ?_, plan, hsteps, hplan⟩
  · rw [hcourse.numbers, hlength]
  · rintro rfl
    exact hreported.untabled
  · rintro kept rfl
    rcases hreported.tabled with ⟨hrows, hfiles⟩ | hlogged
    · exact .inl ⟨by rw [← hlength, hrows, List.length_nil], hfiles⟩
    · exact .inr hlogged

/--
A run with batches of no rows fails at once, whatever it is given, and no other run
fails in this way or because rows and labels differ in number.  A run that ends has
gone through all its epochs, every one of them over all rows, and its history, its
lines and its table tell of the classifier as every epoch left it.
-/
theorem run_does_what_it_reports (numerics : Numerics α) (classifier : Classifier α)
    (training validation : Dataset α) (hfits : classifier.Fits width)
    (htraining : training.width = width) (hvalidation : validation.width = width)
    (batchSize epochs : Nat) (generator : Generator) (table : Option MetricsTable) :
    let session := run numerics classifier training validation batchSize epochs generator table
    (batchSize = 0 →
      session = throw .zeroBatchSize ∧
      ∀ world, session.run world = (.error .zeroBatchSize, world)) ∧
    (∀ world, (session.run world).1 = .error .zeroBatchSize → batchSize = 0) ∧
    (∀ world features labels, (session.run world).1 ≠ .error (.sizeMismatch features labels)) ∧
    ∀ world trained after, session.run world = (.ok trained, after) →
      Performed numerics classifier training validation batchSize epochs table world trained
        after := by
  intro session
  have hends : ∀ world, Ends batchSize epochs table (session.run world).1 :=
    run_ends hfits htraining hvalidation
  refine ⟨?_, ?_, ?_, fun world trained after => performed_of_run⟩
  · rintro rfl
    have hsession : session = throw .zeroBatchSize := run_of_zero
    refine ⟨hsession, fun world => ?_⟩
    rw [hsession]
    rfl
  · intro world herror
    have hend := hends world
    rw [herror] at hend
    cases hend with
    | zeroBatchSize hsize => exact hsize
  · intro world features labels herror
    have hend := hends world
    rw [herror] at hend
    cases hend

def threeRows : Dataset Float := ⟨⟨3, 2, [1, 0, 0, 1, 0, 0], rfl⟩, [1, 0, 1], rfl⟩

def noRows : Dataset Float := ⟨⟨0, 2, [], rfl⟩, [], rfl⟩

def flatModel : Classifier Float := .logistic ⟨⟨2, 0.5⟩, [0, 0], 0⟩

def flatTable : MetricsTable := ⟨"runs/logistic_metrics.csv"⟩

def flatFiles : FileSystem where
  children := [(ofString "runs", .directory
    [(ofString "logistic_metrics.csv", .file (pack (ofString "kept\n")))])]

theorem run_on_three_rows_performed :
    flatModel.Fits 2 ∧ threeRows.width = 2 ∧ noRows.width = 2 ∧
    ∃ trained after,
      (run .double flatModel threeRows noRows 2 2 (.ofSeed 7) (some flatTable)).run
        (.ofFiles flatFiles) = (.ok trained, after) ∧
      Performed .double flatModel threeRows noRows 2 2 (some flatTable) (.ofFiles flatFiles)
        trained after := by
  have hperformed := (run_does_what_it_reports .double flatModel threeRows noRows rfl rfl rfl 2 2
    (.ofSeed 7) (some flatTable)).2.2.2 (.ofFiles flatFiles)
  have hends : ((run .double flatModel threeRows noRows 2 2 (.ofSeed 7) (some flatTable)).run
      (.ofFiles flatFiles)).1.toOption.isSome = true := by
    decide +kernel
  obtain ⟨trained, after, hrun⟩ := exists_run_eq_ok hends
  exact ⟨rfl, rfl, rfl, trained, after, hrun, hperformed trained after hrun⟩

end Training

end Polarity
