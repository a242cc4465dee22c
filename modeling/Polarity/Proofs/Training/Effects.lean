import Mathlib
import Polarity.Proofs.Corpus
import Polarity.Proofs.FileSystem.Names
import Polarity.Proofs.Splits
import Polarity.Proofs.Training.Course
import Polarity.Training.Run

/-!
# What a run does to the files

A run that is turned away at its settings or at one of its pools leaves all files
as they are.  A run that ends with a report has written its settings and its metrics
table and no other file.  Each stage of a run is first said in terms of the files
before and after it; the stages between are those that only report.
-/

namespace Polarity

open Text.Utf8 (Bytes ofString)
open FileSystem Session
open Polarity.Random

/-! ## Loading a corpus -/

namespace Corpus

/--
The session takes notes only.  It fails at the first of the directories that cannot be
loaded; if all can, it may still end in any way.
-/
def LoadsAll {α : Type} (paths : List String) (session : Session α) : Prop :=
  ∀ world, ∃ notes,
    (∃ problem, paths.findSome? (problem? world.files) = some problem ∧
      session.run world = (.error (.file problem), { world with notes := notes })) ∨
    (paths.findSome? (problem? world.files) = none ∧ ∃ outcome,
      session.run world = (outcome, { world with notes := notes }))

theorem LoadsAll.nil {α : Type} (outcome : Except Error α) :
    LoadsAll [] (liftM outcome : Session α) :=
  fun world => ⟨world.notes, .inr ⟨rfl, outcome, rfl⟩⟩

theorem LoadsAll.cons {α : Type} {path : String} {paths : List String}
    {next : List Document → Session α} (hnext : ∀ documents, LoadsAll paths (next documents)) :
    LoadsAll (path :: paths) (loadDirectory path >>= next) := by
  intro world
  obtain ⟨notes, ⟨problem, hproblem, hrun⟩ | ⟨hnone, documents, hrun⟩⟩ :=
    run_loadDirectory path world
  · exact ⟨notes, .inl ⟨problem, by rw [List.findSome?_cons, hproblem], by rw [run_bind, hrun]⟩⟩
  · obtain ⟨later, hlater⟩ := hnext documents { world with notes := notes }
    rw [run_bind_ok hrun, List.findSome?_cons, hnone]
    exact ⟨later, hlater⟩

theorem LoadsAll.files_eq {α : Type} {paths : List String} {session : Session α}
    {world after : World} {outcome : Except Error α} (hloads : LoadsAll paths session)
    (hrun : session.run world = (outcome, after)) : after.files = world.files := by
  obtain ⟨notes, ⟨problem, -, hloaded⟩ | ⟨-, ended, hloaded⟩⟩ := hloads world <;>
    rw [hloaded] at hrun <;> cases hrun <;> rfl

theorem LoadsAll.run_bind_of_problem {α β : Type} {paths : List String} {session : Session α}
    (hloads : LoadsAll paths session) (next : α → Session β) {world : World}
    {problem : FileProblem} (hproblem : paths.findSome? (problem? world.files) = some problem) :
    ∃ after, (session >>= next).run world = (.error (.file problem), after) ∧
      after.files = world.files := by
  obtain ⟨notes, ⟨found, hfound, hrun⟩ | ⟨hnone, -⟩⟩ := hloads world
  · obtain rfl := Option.some.inj (hfound.symm.trans hproblem)
    exact ⟨{ world with notes := notes }, by rw [run_bind, hrun], rfl⟩
  · rw [hproblem] at hnone
    contradiction

def pools (root : String) : List String :=
  [Path.join (Path.join root "train") "pos", Path.join (Path.join root "train") "neg",
    Path.join (Path.join root "test") "pos", Path.join (Path.join root "test") "neg"]

private theorem loadsAll_load (root : String) : LoadsAll (pools root) (load root) :=
  .cons fun _ => .cons fun _ => .cons fun _ => .cons fun _ => .nil _

end Corpus

/-! ## Saving settings and making a model -/

/-- The settings were saved at a place; directories may have been made as well. -/
structure SettingsStore.Saved (store : SettingsStore) (settings : Settings) (place : Place)
    (before after : FileSystem) : Prop where
  leads : after.place? (ofString store.path) = some place
  content : after.content? place = some (ofString settings.toJson.pretty)
  others : ∃ made, OnlyDirectories before made ∧
    ∀ other, other ≠ place → after.look other = made.look other

theorem SettingsStore.Saved.content?_of_ne {store : SettingsStore} {settings : Settings}
    {place other : Place} {before after : FileSystem}
    (hsaved : store.Saved settings place before after) (hother : other ≠ place) :
    after.content? other = before.content? other := by
  obtain ⟨made, hmade, hlook⟩ := hsaved.others
  rw [content?_eq, hlook other hother, ← content?_eq, hmade.content?]

theorem SettingsStore.saved_of_run {store : SettingsStore} {settings : Settings}
    {world after : World} (hrun : (store.save settings).run world = (.ok (), after)) :
    ∃ place, store.Saved settings place world.files after.files := by
  obtain ⟨made, hmade, hmake | ⟨error, hmake⟩⟩ :=
    RunDirectory.run_make_cases store.directory world
  · rw [save, run_bind_ok hmake, run_bind_ok (run_files _)] at hrun
    dsimp only at hrun
    cases hwrite : made.write? (ofString store.path) (ofString settings.toJson.pretty) with
    | none =>
        rw [hwrite] at hrun
        cases hrun
    | some written =>
        rw [hwrite] at hrun
        cases hrun
        obtain ⟨place, hplace, -, hlook⟩ := look_of_write? hwrite
        refine ⟨place, (place?_of_write? hwrite _).trans hplace, ?_, made, hmade, ?_⟩
        · exact content?_eq_some_iff.mpr ((hlook place).trans (if_pos rfl))
        · exact fun other hother => (hlook other).trans (if_neg hother)
  · rw [save, run_bind, hmake] at hrun
    cases hrun

theorem Settings.name_of_makeClassifier {settings : Settings} {inputSize : Nat}
    {generator : Generator} {world after : World} {made : Classifier Float × Generator}
    (hrun : (settings.makeClassifier inputSize generator).run world = (.ok made, after)) :
    made.1.name = settings.model.name ∧ after.files = world.files := by
  unfold makeClassifier at hrun
  cases hmodel : settings.model with
  | logistic =>
      rw [hmodel] at hrun
      obtain ⟨model, between, hnew, hrun⟩ := run_bind_eq_ok.mp hrun
      obtain ⟨-, rfl⟩ := run_lift_eq_ok.mp hnew
      cases hrun
      exact ⟨rfl, rfl⟩
  | network =>
      rw [hmodel] at hrun
      obtain ⟨model, between, hmake, hrun⟩ := run_bind_eq_ok.mp hrun
      obtain ⟨network, world, hnew, hmake⟩ := run_bind_eq_ok.mp hmake
      obtain ⟨-, rfl⟩ := run_lift_eq_ok.mp hnew
      cases hmake
      cases hrun
      exact ⟨rfl, rfl⟩

/-! ## Epochs -/

namespace Training

variable {classifier : Classifier Float} {training validation : Dataset Float}
  {table : MetricsTable} {trained : Trained Float} {generator : Generator} {epochs : Nat}
  {world after : World}

theorem Reported.trace {rows : List (Metrics Float)}
    (hreported : Reported .double (some table) epochs world rows after) :
    Recorder.Trace world.files (rows.map (.logged table)) after.files := by
  induction hreported with
  | nil _ hfiles =>
      rw [hfiles]
      exact .nil _
  | cons hrow _ ih => exact .cons (hrow.tabled table rfl) ih

theorem trace_run {batchSize : Nat}
    (hrun : (run .double classifier training validation batchSize epochs generator
      (some table)).run world = (.ok trained, after)) :
    trained.history.map Metrics.epoch = List.range' 1 epochs ∧
      Recorder.Trace world.files (trained.history.map (.logged table)) after.files := by
  obtain ⟨-, hlength, hreported, last, -, -, hcourse⟩ := course_of_run hrun
  exact ⟨by rw [hcourse.numbers, hlength], hreported.trace⟩

end Training

/-! ## The best epoch -/

namespace Metrics

private theorem mem_of_foldl_better {ceiling : Float} {history : List (Metrics Float)}
    {best : Option (Metrics Float)} {metrics : Metrics Float}
    (hbest : history.foldl (better ceiling) best = some metrics) :
    metrics ∈ history ∨ best = some metrics := by
  induction history generalizing best with
  | nil => exact .inr hbest
  | cons next rest ih =>
      rcases ih hbest with hrest | hnext
      · exact .inl (List.mem_cons_of_mem next hrest)
      · rw [better] at hnext
        split at hnext
        · exact .inl (Option.some.inj hnext ▸ List.mem_cons_self)
        · exact .inr hnext

private theorem getElem?_of_best? {ceiling : Float} {history : List (Metrics Float)}
    {metrics : Metrics Float} {count : Nat} (hbest : best? ceiling history = some metrics)
    (hnumbers : history.map epoch = List.range' 1 count) :
    history[metrics.epoch - 1]? = some metrics := by
  have hmem : metrics ∈ history := by
    rcases mem_of_foldl_better hbest with hmem | hnone
    · exact hmem
    · contradiction
  obtain ⟨place, hplace⟩ := List.mem_iff_getElem?.mp hmem
  have hnumber : (List.range' 1 count)[place]? = some metrics.epoch := by
    rw [← hnumbers, List.getElem?_map, hplace, Option.map_some]
  obtain ⟨hlt, hepoch⟩ := List.getElem?_eq_some_iff.mp hnumber
  rw [List.getElem_range'] at hepoch
  have hindex : metrics.epoch - 1 = place := by omega
  rw [hindex, hplace]

end Metrics

/-! ## One table with its rows -/

namespace Recorder

variable {files : FileSystem} {table : MetricsTable} {found : Place}

private theorem linesAt_table (hfound : table.LeadsTo files found) (rows : List (Metrics Float))
    (place : Place) :
    linesAt files place (.started table :: rows.map (.logged table)) =
      if place = found then rows.map (Metrics.line .double) else [] := by
  simp only [linesAt, List.flatMap_cons, Event.linesAt, List.nil_append]
  induction rows with
  | nil => simp
  | cons metrics rows ih =>
      rw [List.map_cons, List.flatMap_cons, ih, Event.linesAt_logged hfound]
      split <;> simp

private theorem startsAt_table (hfound : table.LeadsTo files found) (rows : List (Metrics Float))
    (place : Place) :
    startsAt files place (.started table :: rows.map (.logged table)) = decide (place = found) := by
  have hrows : (rows.map (.logged table)).any (Event.startsAt files place) = false := by
    simp [Event.startsAt]
  rw [startsAt, List.any_cons, hrows, Bool.or_false, Event.startsAt_started hfound]

namespace Trace

variable {before last : FileSystem} {rows : List (Metrics Float)}

private theorem exists_leadsTo {events : List Event}
    (htrace : Trace before (.started table :: events) last) :
    ∃ found, table.LeadsTo last found := by
  cases htrace with
  | cons hstarted hrest =>
      obtain ⟨found, hfound, -⟩ := hstarted
      exact ⟨found, hfound.mono hrest.keepsDirectories⟩

private theorem content?_of_ne
    (htrace : Trace before (.started table :: rows.map (.logged table)) last)
    (hfound : table.LeadsTo last found) {other : Place} (hother : other ≠ found) :
    last.content? other = before.content? other := by
  apply (htrace.follows other).untouched
  · rw [startsAt_table hfound, decide_eq_false hother]
  · rw [linesAt_table hfound, if_neg hother]

/-- Only a table without rows can be a directory. -/
private theorem table_cases
    (htrace : Trace before (.started table :: rows.map (.logged table)) last)
    (hfound : table.LeadsTo last found) :
    last.content? found = some ((before.content? found).getD (ofString MetricsTable.header) ++
        (rows.map (Metrics.line .double)).flatMap ofString) ∨
      (rows = [] ∧ last.isDirectory found = true ∧ before.content? found = none) := by
  have hfollows := htrace.follows found
  have hlines := linesAt_table hfound rows found
  rw [if_pos rfl] at hlines
  have hstarts := startsAt_table hfound rows found
  rw [decide_eq_true rfl] at hstarts
  cases hcontent : before.content? found with
  | some old =>
      have hlast := hfollows.kept old hcontent
      rw [hlines] at hlast
      exact .inl hlast
  | none =>
      cases hdirectory : last.isDirectory found with
      | true =>
          have hrows := hfollows.directory hdirectory
          rw [hlines, List.map_eq_nil_iff] at hrows
          exact .inr ⟨hrows, rfl, rfl⟩
      | false =>
          rcases content?_eq_none_iff.mp hcontent with hnone | hplace
          · have hlast := hfollows.begun hnone hstarts hdirectory
            rw [hlines] at hlast
            exact .inl hlast
          · rw [htrace.keepsDirectories found hplace] at hdirectory
            contradiction

end Trace

end Recorder

/-! ## Whole runs -/

namespace Settings

variable {settings : Settings} {entropy : Generator} {world after : World} {report : Report}

def table (settings : Settings) : MetricsTable :=
  ⟨MetricsTable.pathIn settings.runDir settings.model.name⟩

private theorem stages_of_run (hrun : (settings.run entropy).run world = (.ok report, after)) :
    ∃ place saved,
      SettingsStore.Saved ⟨settings.runDir⟩ settings place world.files saved ∧
      Recorder.Trace saved (.started settings.table :: report.history.map (.logged settings.table))
        after.files ∧
      report.history.map Metrics.epoch = List.range' 1 settings.epochs.toNat ∧
      report.bestEpoch =
        (Metrics.best? Numerics.double.infinity report.history).map Metrics.epoch := by
  obtain ⟨_, checked, hcheck, hrun⟩ := run_bind_eq_ok.mp hrun
  obtain ⟨-, rfl⟩ := run_lift_eq_ok.mp hcheck
  rw [info, run_bind_ok (run_note _ _ _)] at hrun
  obtain ⟨corpus, loaded, hload, hrun⟩ := run_bind_eq_ok.mp hrun
  have hloaded := (Corpus.loadsAll_load settings.dataDir).files_eq hload
  rw [info, run_bind_ok (run_note _ _ _)] at hrun
  obtain ⟨prepared, ready, hprepare, hrun⟩ := run_bind_eq_ok.mp hrun
  obtain ⟨_, hnotes, -⟩ := @Prepared.ofCorpus_featured Float _ _ corpus settings
  have hready : ready.files = world.files := (hnotes.files_eq hprepare).trans hloaded
  -- From here on the run writes: its settings, the start of the table, and the rows.
  obtain ⟨_, saved, hsave, hrun⟩ := run_bind_eq_ok.mp hrun
  obtain ⟨place, hsaved⟩ := SettingsStore.saved_of_run hsave
  obtain ⟨⟨classifier, generator⟩, made, hmake, hrun⟩ := run_bind_eq_ok.mp hrun
  obtain ⟨hname, hmade⟩ := name_of_makeClassifier hmake
  obtain ⟨table, started, hstart, hrun⟩ := run_bind_eq_ok.mp hrun
  obtain ⟨htable, hstarted⟩ := MetricsTable.started_of_run hstart
  obtain ⟨trained, done, htrain, hrun⟩ := run_bind_eq_ok.mp hrun
  obtain ⟨hepochs, htrace⟩ := Training.trace_run htrain
  obtain ⟨⟨testLoss, testAccuracy⟩, tested, htest, hrun⟩ := run_bind_eq_ok.mp hrun
  obtain ⟨-, rfl⟩ := run_lift_eq_ok.mp htest
  obtain ⟨_, noted, hnote, hrun⟩ := run_bind_eq_ok.mp hrun
  cases hnote
  have hend : report.history = trained.history ∧ after.files = done.files ∧
      report.bestEpoch =
        (Metrics.best? Numerics.double.infinity trained.history).map Metrics.epoch := by
    dsimp only at hrun
    split at hrun <;> cases hrun <;> exact ⟨rfl, rfl, rfl⟩
  obtain ⟨hhistory, hfiles, hbest⟩ := hend
  have hsame : table = settings.table := by rw [htable, Settings.table, ← hname]
  rw [hready] at hsaved
  rw [hmade] at hstarted
  rw [hsame] at hstarted htrace
  rw [hhistory, hfiles]
  exact ⟨place, saved.files, hsaved, .cons hstarted htrace, hepochs, hbest⟩

/-- What a run that ends with the report has done to the files. -/
structure Finished (settings : Settings) (before after : FileSystem) (report : Report) : Prop where
  files : ∃ config table : Place,
    after.place? (ofString (SettingsStore.path ⟨settings.runDir⟩)) = some config ∧
    settings.table.LeadsTo after table ∧
    after.content? config = some (ofString settings.toJson.pretty) ∧
    (after.content? table = some ((before.content? table).getD (ofString MetricsTable.header) ++
        (report.history.map (Metrics.line .double)).flatMap ofString) ∨
      (settings.epochs = 0 ∧ after.isDirectory table = true ∧ before.content? table = none)) ∧
    ∀ other, other ≠ config → other ≠ table → after.content? other = before.content? other
  epochs : report.history.map Metrics.epoch = List.range' 1 settings.epochs.toNat
  best : report.bestEpoch =
    (Metrics.best? Numerics.double.infinity report.history).map Metrics.epoch
  chosen : ∀ epoch, report.bestEpoch = some epoch →
    report.history[epoch - 1]? = Metrics.best? Numerics.double.infinity report.history

private theorem configPlace_ne_tablePlace {files : FileSystem} {config found : Place}
    (hconfig : files.place? (ofString (SettingsStore.path ⟨settings.runDir⟩)) = some config)
    (hfound : settings.table.LeadsTo files found) : config ≠ found := by
  have hconfigName : Path.IsPlain (ofString "train_config.json") := by decide
  have htableName : Path.IsPlain (ofString (settings.model.name ++ "_metrics.csv")) := by
    cases settings.model <;> decide
  have hlast := getLast?_of_place?_join hconfigName hconfig
  rintro rfl
  rw [getLast?_of_place?_join htableName hfound] at hlast
  revert hlast
  cases settings.model <;> decide

theorem finished_of_run (hrun : (settings.run entropy).run world = (.ok report, after)) :
    settings.Finished world.files after.files report := by
  obtain ⟨config, saved, hsaved, htrace, hepochs, hbest⟩ := stages_of_run hrun
  obtain ⟨found, hfound⟩ := htrace.exists_leadsTo
  have hconfig := htrace.keepsDirectories.place? hsaved.leads
  have hne : config ≠ found := configPlace_ne_tablePlace hconfig hfound
  refine ⟨⟨config, found, hconfig, hfound, ?_, ?_, ?_⟩, hepochs, hbest, ?_⟩
  · rw [htrace.content?_of_ne hfound hne, hsaved.content]
  · rw [← hsaved.content?_of_ne hne.symm]
    rcases htrace.table_cases hfound with hrows | ⟨hrows, hdirectory, hnone⟩
    · exact .inl hrows
    · have hzero : settings.epochs.toNat = 0 := by simpa [hrows] using hepochs
      exact .inr ⟨UInt64.toNat_inj.mp hzero, hdirectory, hnone⟩
  · intro other hother htable
    rw [htrace.content?_of_ne hfound htable, hsaved.content?_of_ne hother]
  · intro epoch hepoch
    rw [hbest] at hepoch
    obtain ⟨metrics, hchosen, rfl⟩ := Option.map_eq_some_iff.mp hepoch
    rw [hchosen]
    exact Metrics.getElem?_of_best? hchosen hepochs

theorem run_of_invalid {error : Error} (hinvalid : settings.validate = .error error) :
    (settings.run entropy).run world = (.error error, world) := by
  rw [run, run_bind, run_lift, hinvalid]

theorem run_of_problem {problem : FileProblem} (hvalid : settings.validate = .ok ())
    (hproblem : (Corpus.pools settings.dataDir).findSome? (Corpus.problem? world.files) =
      some problem) :
    ∃ after, (settings.run entropy).run world = (.error (.file problem), after) ∧
      after.files = world.files := by
  rw [run, run_bind_ok (run_lift_eq_ok.mpr ⟨hvalid, rfl⟩), info, run_bind_ok (run_note _ _ _)]
  apply (Corpus.loadsAll_load settings.dataDir).run_bind_of_problem
  exact hproblem

/--
A run that is turned away at its settings or its corpus leaves the files as they are.
A run that ends with a report has changed the saved settings and the metrics table, and
the content of no other file.
-/
theorem run_changes_two_files (settings : Settings) (entropy : Generator) (world : World) :
    (∀ error, settings.validate = .error error →
      (settings.run entropy).run world = (.error error, world)) ∧
    (∀ problem, settings.validate = .ok () →
      (Corpus.pools settings.dataDir).findSome? (Corpus.problem? world.files) = some problem →
      ∃ after, (settings.run entropy).run world = (.error (.file problem), after) ∧
        after.files = world.files) ∧
    ∀ report after, (settings.run entropy).run world = (.ok report, after) →
      settings.Finished world.files after.files report := by
  refine ⟨?_, ?_, ?_⟩
  · intro error hinvalid
    exact run_of_invalid hinvalid
  · intro problem hvalid hproblem
    exact run_of_problem hvalid hproblem
  · intro report after hrun
    exact finished_of_run hrun

def emptyPools : FileSystem where
  children :=
    let pools := [(ofString "pos", Entry.directory []), (ofString "neg", .directory [])]
    [(ofString "data", .directory
      [(ofString "train", .directory pools), (ofString "test", .directory pools)])]

def usedFiles : FileSystem where
  children := emptyPools.children ++
    [(ofString "runs", .directory [(ofString "mlp_metrics.csv", .file (pack (ofString "kept\n")))])]

def twoEpochs : Settings :=
  { default with dataDir := "data", model := .network, epochs := 2, batchSeed := some 1 }

theorem run_of_two_epochs :
    ∃ report after, (twoEpochs.run (.ofSeed 0)).run (.ofFiles usedFiles) = (.ok report, after) ∧
      twoEpochs.Finished usedFiles after.files report := by
  have hends : ((twoEpochs.run (.ofSeed 0)).run (.ofFiles usedFiles)).1.toOption.isSome = true := by
    decide +kernel
  rcases hrun : (twoEpochs.run (.ofSeed 0)).run (.ofFiles usedFiles) with ⟨error | report, after⟩
  · rw [hrun] at hends
    contradiction
  · have hfinished := (run_changes_two_files twoEpochs (.ofSeed 0) (.ofFiles usedFiles)).2.2
    exact ⟨report, after, rfl, hfinished report after hrun⟩

/-- The way to the run directory leads through the place of the table. -/
def windingSettings : Settings :=
  { default with
    dataDir := "data"
    runDir := "runs/logistic_metrics.csv/.."
    epochs := 0
    batchSeed := some 1 }

/-- The run makes a directory at the place of its table, and so the table has no header. -/
theorem run_without_table :
    let place := [ofString "runs", ofString "logistic_metrics.csv"]
    let ended := (windingSettings.run (.ofSeed 0)).run (.ofFiles emptyPools)
    ended.1.toOption.map Report.history = some [] ∧ emptyPools.look place = none ∧
      windingSettings.table.LeadsTo ended.2.files place ∧
      ended.2.files.content? place = none := by
  decide +kernel

end Settings

end Polarity
