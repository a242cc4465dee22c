import Mathlib
import Polarity.Proofs.Training.Course

/-!
# Longer runs and other observers

What training does is fixed by the classifier, the training rows, the batch size and
the generator.  A run of more epochs begins as a shorter one does, and neither the
validation rows nor a metrics table has a part in what comes out of the epochs.
-/

namespace Polarity

open Session
open Polarity.Random

def Session.Yields {α : Type} (session : Session α) (value : α) : Prop :=
  ∃ world after, session.run world = (.ok value, after)

def Metrics.onTraining {α : Type} (metrics : Metrics α) : α × α :=
  (metrics.trainLoss, metrics.trainAccuracy)

namespace Training

variable {α β : Type} [Zero α] [One α] [Add α] [Sub α] [Mul α] [Div α] [Neg α] [NatCast α]
  [LT α] [DecidableLT α] [LE α] [DecidableLE α] [BEq α]

variable {numerics : Numerics α} {classifier : Classifier α} {training validation other : Dataset α}
  {number batchSize epochs : Nat} {generator : Generator} {table otherTable : Option MetricsTable}
  {trained again : Trained α}

private theorem onTraining_eq_of_measure {metrics row : Metrics α}
    (hmetrics : measure numerics number classifier training validation = .ok metrics)
    (hrow : measure numerics number classifier training other = .ok row) :
    metrics.onTraining = row.onTraining := by
  obtain ⟨-, hfirst, -⟩ := measure_eq_ok_iff.mp hmetrics
  obtain ⟨-, hsecond, -⟩ := measure_eq_ok_iff.mp hrow
  exact Except.ok.inj (hfirst.symm.trans hsecond)

namespace Course

variable {progress last finish : Progress α} {rows otherRows : List (Metrics α)}

theorem exists_take (hcourse : Course numerics validation number progress rows last)
    (count : Nat) :
    ∃ middle, Course numerics validation number progress (rows.take count) middle := by
  induction hcourse generalizing count with
  | done number progress =>
      rw [List.take_nil]
      exact ⟨progress, .done number progress⟩
  | epoch hfit hmeasure _ ih =>
      cases count with
      | zero => exact ⟨_, .done _ _⟩
      | succ count =>
          obtain ⟨middle, hmiddle⟩ := ih count
          exact ⟨middle, .epoch hfit hmeasure hmiddle⟩

/--
Two courses of one length from one start end alike.  They look the same in every view
of their rows in which the two sets of validation rows cannot be told apart.
-/
theorem agree {view : Metrics α → β}
    (hview : ∀ number classifier training metrics row,
      measure numerics number classifier training validation = .ok metrics →
      measure numerics number classifier training other = .ok row → view metrics = view row)
    (hcourse : Course numerics validation number progress rows last)
    (hother : Course numerics other number progress otherRows finish)
    (hlength : rows.length = otherRows.length) :
    last = finish ∧ rows.map view = otherRows.map view := by
  induction hcourse generalizing otherRows with
  | done number progress =>
      cases hother with
      | done => exact ⟨rfl, rfl⟩
      | epoch => simp at hlength
  | epoch hfit hmeasure _ ih =>
      cases hother with
      | done => simp at hlength
      | epoch hotherFit hotherMeasure hotherRest =>
          -- The batches are those of the common start, so both go on from one classifier.
          obtain rfl := Except.ok.inj (hfit.symm.trans hotherFit)
          obtain ⟨hlast, hrows⟩ := ih hotherRest (Nat.succ.inj hlength)
          have hfirst := hview _ _ _ _ _ hmeasure hotherMeasure
          exact ⟨hlast, by rw [List.map_cons, List.map_cons, hfirst, hrows]⟩

theorem rows_eq (hcourse : Course numerics validation number progress rows last)
    (hother : Course numerics validation number progress otherRows finish)
    (hlength : rows.length = otherRows.length) : rows = otherRows := by
  have hview : ∀ number classifier training (metrics row : Metrics α),
      measure numerics number classifier training validation = .ok metrics →
      measure numerics number classifier training validation = .ok row → id metrics = id row :=
    fun _ _ _ _ _ hmetrics hrow => Except.ok.inj (hmetrics.symm.trans hrow)
  simpa using (agree hview hcourse hother hlength).2

end Course

theorem history_of_fewer_epochs {fewer : Nat} (hfewer : fewer ≤ epochs)
    (htrained : (run numerics classifier training validation batchSize fewer generator
      table).Yields trained)
    (hagain : (run numerics classifier training validation batchSize epochs generator
      otherTable).Yields again) :
    trained.history = again.history.take fewer := by
  obtain ⟨world, after, hrun⟩ := htrained
  obtain ⟨otherWorld, otherAfter, hotherRun⟩ := hagain
  obtain ⟨-, hlength, -, last, -, -, hcourse⟩ := course_of_run hrun
  obtain ⟨-, hotherLength, -, finish, -, -, hotherCourse⟩ := course_of_run hotherRun
  obtain ⟨middle, htake⟩ := hotherCourse.exists_take fewer
  apply hcourse.rows_eq htake
  rw [List.length_take, hlength, hotherLength, Nat.min_eq_left hfewer]

theorem trained_alike
    (htrained : (run numerics classifier training validation batchSize epochs generator
      table).Yields trained)
    (hagain : (run numerics classifier training other batchSize epochs generator
      otherTable).Yields again) :
    trained.classifier = again.classifier ∧ trained.generator = again.generator ∧
      trained.history.map Metrics.onTraining = again.history.map Metrics.onTraining := by
  obtain ⟨world, after, hrun⟩ := htrained
  obtain ⟨otherWorld, otherAfter, hotherRun⟩ := hagain
  obtain ⟨-, hlength, -, last, hclassifier, hgenerator, hcourse⟩ := course_of_run hrun
  obtain ⟨-, hotherLength, -, finish, hotherClassifier, hotherGenerator, hotherCourse⟩ :=
    course_of_run hotherRun
  obtain ⟨rfl, hrows⟩ := Course.agree (fun _ _ _ _ _ => onTraining_eq_of_measure) hcourse
    hotherCourse (hlength.trans hotherLength.symm)
  exact ⟨hclassifier.symm.trans hotherClassifier, hgenerator.symm.trans hotherGenerator, hrows⟩

theorem run_eq_ok_or_unlogged {width : Nat} (hsize : batchSize ≠ 0) (hfits : classifier.Fits width)
    (htraining : training.width = width) (hvalidation : validation.width = width)
    (hroom : historyRowBytes * epochs ≤ addressLimit) (world : World) :
    let session := run numerics classifier training validation batchSize epochs generator table
    (∃ trained after, session.run world = (.ok trained, after)) ∨
      ∃ kept after, table = some kept ∧
        session.run world = (.error (.file (.openTable kept.path)), after) := by
  intro session
  have hends : Ends batchSize epochs table (session.run world).1 :=
    run_ends hfits htraining hvalidation world
  rcases hrun : session.run world with ⟨outcome, after⟩
  rw [hrun] at hends
  cases hends with
  | zeroBatchSize hzero => exact absurd hzero hsize
  | capacity _ hfull => omega
  | unlogged _ _ htable => exact .inr ⟨_, after, htable, rfl⟩
  | trained _ _ trained => exact .inl ⟨trained, after, rfl⟩

/--
The history of fewer epochs is the first part of that of more.  Neither the validation
rows nor the table tells in the classifier, the generator or what the history says
about the training rows.  With rows of the right width every run ends, whatever the
validation rows are, unless it cannot open its table.
-/
theorem run_extends_and_ignores_observers (numerics : Numerics α) (classifier : Classifier α)
    (training : Dataset α) (batchSize : Nat) (generator : Generator) :
    let session (validation : Dataset α) (epochs : Nat) (table : Option MetricsTable) :=
      run numerics classifier training validation batchSize epochs generator table
    (∀ validation fewer epochs table otherTable trained again, fewer ≤ epochs →
      (session validation fewer table).Yields trained →
      (session validation epochs otherTable).Yields again →
      trained.history = again.history.take fewer) ∧
    (∀ validation other epochs table otherTable trained again,
      (session validation epochs table).Yields trained →
      (session other epochs otherTable).Yields again →
      trained.classifier = again.classifier ∧ trained.generator = again.generator ∧
        trained.history.map Metrics.onTraining = again.history.map Metrics.onTraining) ∧
    ∀ width epochs, batchSize ≠ 0 → classifier.Fits width → training.width = width →
      historyRowBytes * epochs ≤ addressLimit →
      ∀ validation table world, validation.width = width →
        (∃ trained after, (session validation epochs table).run world = (.ok trained, after)) ∨
          ∃ kept after, table = some kept ∧ (session validation epochs table).run world =
            (.error (.file (.openTable kept.path)), after) := by
  intro session
  refine ⟨?_, ?_, ?_⟩
  · intro validation fewer epochs table otherTable trained again hfewer htrained hagain
    exact history_of_fewer_epochs hfewer htrained hagain
  · intro validation other epochs table otherTable trained again htrained hagain
    exact trained_alike htrained hagain
  · intro width epochs hsize hfits htraining hroom validation table world hvalidation
    exact run_eq_ok_or_unlogged hsize hfits htraining hvalidation hroom world

theorem run_on_three_rows_ignores_observers :
    let session validation epochs table :=
      run .double flatModel threeRows validation 2 epochs (.ofSeed 7) table
    ∃ short long checked,
      (session noRows 1 none).Yields short ∧ (session noRows 2 none).Yields long ∧
      (session threeRows 2 (some flatTable)).Yields checked ∧
      short.history = long.history.take 1 ∧
      long.classifier = checked.classifier ∧ long.generator = checked.generator ∧
      long.history.map Metrics.onTraining = checked.history.map Metrics.onTraining := by
  intro session
  have hchecked : ((session threeRows 2 (some flatTable)).run
      (.ofFiles flatFiles)).1.toOption.isSome = true := by
    decide +kernel
  obtain ⟨hextends, hignores, hends⟩ :=
    run_extends_and_ignores_observers .double flatModel threeRows 2 (.ofSeed 7)
  have hyields : ∀ epochs ≤ 2, ∃ trained, (session noRows epochs none).Yields trained := by
    intro epochs hepochs
    have hroom : historyRowBytes * epochs ≤ addressLimit :=
      (Nat.mul_le_mul_left historyRowBytes hepochs).trans (by decide)
    rcases hends 2 epochs (by decide) rfl rfl hroom noRows none (.ofFiles flatFiles) rfl with
      ⟨trained, after, hrun⟩ | ⟨kept, after, htable, -⟩
    · exact ⟨trained, _, after, hrun⟩
    · contradiction
  obtain ⟨short, hshort⟩ := hyields 1 (by decide)
  obtain ⟨long, hlong⟩ := hyields 2 (by decide)
  obtain ⟨checked, after, hrun⟩ := exists_run_eq_ok hchecked
  have hyielded : (session threeRows 2 (some flatTable)).Yields checked := ⟨_, after, hrun⟩
  exact ⟨short, long, checked, hshort, hlong, hyielded,
    hextends noRows 1 2 none none short long (by decide) hshort hlong,
    hignores noRows threeRows 2 none (some flatTable) long checked hlong hyielded⟩

end Training

end Polarity
