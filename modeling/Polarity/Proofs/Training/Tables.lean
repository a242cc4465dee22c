import Mathlib
import Polarity.Proofs.FileSystem.Growth
import Polarity.Proofs.Json.Numeral
import Polarity.Proofs.Training.Settings
import Polarity.Training.Metrics

/-!
# Metrics tables only grow

Tables are started and rows are logged in any order, through any number of tables
that may lead to the same file, and any of these calls may fail.  A place is
followed through all of them: a file that is there keeps what it holds and gets the
rows logged to it, one after the other; a file that is not there comes with a header
when a table is first started at its place.

A directory counts as being there.  A table can be started where one stands, and
no row can be logged to it.
-/

namespace Polarity

open Text.Utf8 (Bytes ofString)
open FileSystem

/-! ## Lines -/

namespace Metrics

def IsField (text : String) : Prop := ∀ char ∈ text.toList, char ≠ ',' ∧ char ≠ '\n'

def IsLine (text : String) : Prop :=
  ∃ fields : List String, fields.length = 5 ∧ (∀ field ∈ fields, IsField field) ∧
    text = String.intercalate "," fields ++ "\n"

theorem IsField.append {left right : String} (hleft : IsField left) (hright : IsField right) :
    IsField (left ++ right) := by
  intro char hchar
  rw [String.toList_append] at hchar
  rcases List.mem_append.mp hchar with hchar | hchar
  · exact hleft char hchar
  · exact hright char hchar

private theorem isField_of_digits {digits : List Char}
    (hdigits : ∀ char ∈ digits, Decimal.isDigit char = true) :
    IsField (String.ofList digits) := by
  intro char hchar
  rw [String.toList_ofList] at hchar
  have hdigit := hdigits char hchar
  constructor <;> rintro rfl <;> contradiction

private theorem isField_toString (number : Nat) : IsField (toString number) := by
  have hdigits : toString number = String.ofList (Nat.toDigits 10 number) := rfl
  rw [hdigits]
  exact isField_of_digits fun _ => Json.isDigit_of_mem_toDigits

private theorem isField_signText (negative : Bool) : IsField (Decimal.signText negative) := by
  cases negative <;> simp [IsField, Decimal.signText]

private theorem isField_pointed (places value : Nat) : IsField (Decimal.pointed places value) := by
  have hdigits : ∀ char ∈ Decimal.digitsPadded (places + 1) value, Decimal.isDigit char = true :=
    fun _ => Json.isDigit_of_mem_digitsPadded
  have hpoint : IsField "." := by simp [IsField]
  unfold Decimal.pointed
  dsimp only
  split
  · exact isField_of_digits fun char hchar => hdigits char (List.mem_of_mem_take hchar)
  · refine (IsField.append ?_ hpoint).append ?_
    · exact isField_of_digits fun char hchar => hdigits char (List.mem_of_mem_take hchar)
    · exact isField_of_digits fun char hchar => hdigits char (List.mem_of_mem_drop hchar)

private theorem isField_fixed (places : Nat) (value : Float) :
    IsField (Decimal.fixed places value) := by
  unfold Decimal.fixed
  cases Decimal.Reading.ofFloat value with
  | notANumber => simp [IsField, Decimal.Reading.fixed]
  | infinite negative =>
      have hword : IsField "inf" := by simp [IsField]
      exact (isField_signText negative).append hword
  | finite negative magnitude => exact (isField_signText negative).append (isField_pointed _ _)

theorem isLine_line (metrics : Metrics Float) : IsLine (metrics.line .double) := by
  refine ⟨_, rfl, ?_, rfl⟩
  intro field hfield
  rcases List.mem_cons.mp hfield with rfl | hfield
  · exact isField_toString metrics.epoch
  · obtain ⟨value, -, rfl⟩ := List.mem_map.mp hfield
    exact isField_fixed 6 value

theorem isLine_header : IsLine MetricsTable.header := by
  refine ⟨fieldNames, rfl, ?_, by decide⟩
  simp [fieldNames, IsField]

end Metrics

/-! ## One call -/

theorem RunDirectory.run_make_cases (path : String) (world : World) :
    ∃ made, OnlyDirectories world.files made ∧
      ((RunDirectory.make path).run world = (.ok (), { world with files := made }) ∨
        ∃ error, (RunDirectory.make path).run world =
          (.error error, { world with files := made })) := by
  have hmade := onlyDirectories_makeDirectories world.files (ofString path)
  refine ⟨_, hmade, ?_⟩
  rw [RunDirectory.make, Session.run_bind_ok (Session.run_files world)]
  rcases world.files.makeDirectories (ofString path) with ⟨made, _ | _⟩
  · exact .inr ⟨_, rfl⟩
  · exact .inl rfl

namespace MetricsTable

def LeadsTo (files : FileSystem) (place : Place) (table : MetricsTable) : Prop :=
  files.place? (ofString table.path) = some place
  deriving Decidable

theorem LeadsTo.mono {before after : FileSystem} {place : Place} {table : MetricsTable}
    (hplace : table.LeadsTo before place) (hkeeps : KeepsDirectories before after) :
    table.LeadsTo after place := hkeeps.place? hplace

theorem LeadsTo.iff_eq {files : FileSystem} {place found : Place} {table : MetricsTable}
    (hfound : table.LeadsTo files found) : table.LeadsTo files place ↔ place = found := by
  rw [LeadsTo, hfound, Option.some.injEq, eq_comm]

/--
A table was started at a place.  What stood there or elsewhere is as before;
directories were made where nothing stood, and the file itself if nothing stood there.
-/
def Started (before after : FileSystem) (table : MetricsTable) : Prop :=
  ∃ place, table.LeadsTo after place ∧ ∀ other,
    (after.look other = before.look other ∧ (other = place → before.look other ≠ none)) ∨
    (before.look other = none ∧ after.look other = some none) ∨
    (other = place ∧ before.look other = none ∧
      after.look other = some (some (ofString header)))

def Logged (before after : FileSystem) (table : MetricsTable) (line : String) : Prop :=
  ∃ place old, table.LeadsTo before place ∧ before.content? place = some old ∧
    ∀ other, after.look other =
      if other = place then some (some (old ++ ofString line)) else before.look other

theorem Started.keepsDirectories {before after : FileSystem} {table : MetricsTable}
    (hstarted : Started before after table) : KeepsDirectories before after := by
  obtain ⟨place, -, hcases⟩ := hstarted
  intro other hother
  rw [isDirectory_iff] at hother ⊢
  rcases hcases other with ⟨hsame, -⟩ | ⟨-, hdirectory⟩ | ⟨-, hnone, -⟩
  · exact hsame.trans hother
  · exact hdirectory
  · rw [hother] at hnone
    contradiction

theorem Logged.keepsDirectories {before after : FileSystem} {table : MetricsTable} {line : String}
    (hlogged : Logged before after table line) : KeepsDirectories before after := by
  obtain ⟨place, old, -, hold, hlook⟩ := hlogged
  exact keepsDirectories_of_look (isDirectory_of_content? hold) hlook

private theorem started_of_exists? {before made : FileSystem} {table : MetricsTable}
    (hmade : OnlyDirectories before made) (hexists : made.exists? (ofString table.path) = true) :
    Started before made table := by
  rw [exists?_eq] at hexists
  obtain ⟨place, hplace, hthere⟩ := (Option.any_eq_true _ _).mp hexists
  refine ⟨place, hplace, fun other => ?_⟩
  rcases hmade other with hsame | hdirectory
  · refine .inl ⟨hsame, ?_⟩
    rintro rfl hnone
    simp [hsame.trans hnone] at hthere
  · exact .inr (.inl hdirectory)

private theorem started_of_write? {before made after : FileSystem} {table : MetricsTable}
    (hmade : OnlyDirectories before made) (hmissing : made.exists? (ofString table.path) = false)
    (hwrite : made.write? (ofString table.path) (ofString header) = some after) :
    Started before after table := by
  obtain ⟨place, hplace, -, hlook⟩ := look_of_write? hwrite
  have hnone : made.look place = none := by simpa [exists?_eq, hplace] using hmissing
  refine ⟨place, (place?_of_write? hwrite _).trans hplace, fun other => ?_⟩
  rw [hlook]
  by_cases hother : other = place
  · rw [if_pos hother, hother]
    rcases hmade place with hsame | ⟨-, hdirectory⟩
    · exact .inr (.inr ⟨rfl, hsame.symm.trans hnone, rfl⟩)
    · rw [hdirectory] at hnone
      contradiction
  · rw [if_neg hother]
    rcases hmade other with hsame | hdirectory
    · exact .inl ⟨hsame, fun hplace => absurd hplace hother⟩
    · exact .inr (.inl hdirectory)

theorem run_start (directory model : String) (world : World) :
    ∃ after,
      ((start directory model).run world = (.ok ⟨pathIn directory model⟩, after) ∧
        Started world.files after.files ⟨pathIn directory model⟩) ∨
      (∃ error, (start directory model).run world = (.error error, after) ∧
        OnlyDirectories world.files after.files) := by
  obtain ⟨made, hmade, hmake | ⟨error, hmake⟩⟩ := RunDirectory.run_make_cases directory world
  · rw [start, Session.run_bind_ok hmake]
    dsimp only
    rw [Session.run_bind_ok (Session.run_files _)]
    dsimp only
    cases hexists : made.exists? (ofString (pathIn directory model)) with
    | true => exact ⟨⟨made, _, _⟩, .inl ⟨rfl, started_of_exists? hmade hexists⟩⟩
    | false =>
        cases hwrite : made.write? (ofString (pathIn directory model)) (ofString header) with
        | none => exact ⟨⟨made, _, _⟩, .inr ⟨_, rfl, hmade⟩⟩
        | some written =>
            exact ⟨⟨written, _, _⟩, .inl ⟨rfl, started_of_write? hmade hexists hwrite⟩⟩
  · exact ⟨_, .inr ⟨error, by rw [start, Session.run_bind, hmake], hmade⟩⟩

theorem run_log {α : Type} (numerics : Numerics α) (table : MetricsTable) (metrics : Metrics α)
    (world : World) :
    (∃ after, (table.log numerics metrics).run world = (.ok (), after) ∧
        after.lines = world.lines ∧
        Logged world.files after.files table (metrics.line numerics)) ∨
      (table.log numerics metrics).run world =
        (.error (.file (.openTable table.path)), world) := by
  rw [log, Session.run_bind_ok (Session.run_files world)]
  cases happend : world.files.append? (ofString table.path)
      (ofString (metrics.line numerics)) with
  | none => exact .inr rfl
  | some written => exact .inl ⟨⟨written, _, _⟩, rfl, rfl, look_of_append? happend⟩

theorem started_of_run {directory model : String} {world after : World} {table : MetricsTable}
    (hrun : (start directory model).run world = (.ok table, after)) :
    table = ⟨pathIn directory model⟩ ∧ Started world.files after.files table := by
  obtain ⟨_, ⟨hstart, hstarted⟩ | ⟨error, hstart, -⟩⟩ := run_start directory model world
  · rw [hstart] at hrun
    cases hrun
    exact ⟨rfl, hstarted⟩
  · rw [hstart] at hrun
    cases hrun

theorem logged_of_run {α : Type} {numerics : Numerics α} {table : MetricsTable}
    {metrics : Metrics α} {world after : World}
    (hrun : (table.log numerics metrics).run world = (.ok (), after)) :
    after.lines = world.lines ∧ Logged world.files after.files table (metrics.line numerics) := by
  rcases run_log numerics table metrics world with ⟨_, hlog, hlogged⟩ | hlog
  · rw [hlog] at hrun
    cases hrun
    exact hlogged
  · rw [hlog] at hrun
    cases hrun

end MetricsTable

/-! ## Any number of calls -/

structure Recorder where
  world : World
  tables : List MetricsTable

namespace Recorder

inductive Call where
  | start (directory model : String)
  /-- Through the table at the given place among those started so far. -/
  | log (index : Nat) (metrics : Metrics Float)

inductive Event where
  | started (table : MetricsTable)
  | logged (table : MetricsTable) (metrics : Metrics Float)
  | failed
  deriving DecidableEq

def files (recorder : Recorder) : FileSystem := recorder.world.files

def perform (recorder : Recorder) : Call → Event × Recorder
  | .start directory model =>
      match (MetricsTable.start directory model).run recorder.world with
      | (.ok table, world) => (.started table, ⟨world, recorder.tables ++ [table]⟩)
      | (.error _, world) => (.failed, { recorder with world := world })
  | .log index metrics =>
      match recorder.tables[index]? with
      | none => (.failed, recorder)
      | some table =>
          match (table.log .double metrics).run recorder.world with
          | (.ok _, world) => (.logged table metrics, { recorder with world := world })
          | (.error _, world) => (.failed, { recorder with world := world })

def run (recorder : Recorder) : List Call → List Event × Recorder
  | [] => ([], recorder)
  | call :: rest =>
      let (event, next) := recorder.perform call
      let (events, last) := next.run rest
      (event :: events, last)

theorem run_cons (recorder : Recorder) (call : Call) (rest : List Call) :
    recorder.run (call :: rest) =
      ((recorder.perform call).1 :: ((recorder.perform call).2.run rest).1,
        ((recorder.perform call).2.run rest).2) := rfl

namespace Event

def linesAt (files : FileSystem) (place : Place) : Event → List String
  | .logged table metrics => if table.LeadsTo files place then [metrics.line .double] else []
  | .started _ | .failed => []

def startsAt (files : FileSystem) (place : Place) : Event → Bool
  | .started table => table.LeadsTo files place
  | .logged _ _ | .failed => false

def Effect (before after : FileSystem) : Event → Prop
  | .started table => table.Started before after
  | .logged table metrics => table.Logged before after (metrics.line .double)
  | .failed => OnlyDirectories before after

end Event

theorem effect_perform (recorder : Recorder) (call : Call) :
    (recorder.perform call).1.Effect recorder.files (recorder.perform call).2.files := by
  cases call with
  | start directory model =>
      obtain ⟨after, ⟨hrun, hstarted⟩ | ⟨error, hrun, hmade⟩⟩ :=
        MetricsTable.run_start directory model recorder.world
      · simp only [perform, hrun]
        exact hstarted
      · simp only [perform, hrun]
        exact hmade
  | log index metrics =>
      cases htable : recorder.tables[index]? with
      | none =>
          simp only [perform, htable]
          exact OnlyDirectories.refl _
      | some table =>
          rcases MetricsTable.run_log .double table metrics recorder.world with
            ⟨after, hrun, -, hlogged⟩ | hrun
          · simp only [perform, htable, hrun]
            exact hlogged
          · simp only [perform, htable, hrun]
            exact OnlyDirectories.refl _

/-! ## One place through one event -/

namespace Event

variable {before after last : FileSystem} {event : Event} {place : Place}

theorem Effect.keepsDirectories (heffect : event.Effect before after) :
    KeepsDirectories before after := by
  cases event with
  | started table => exact MetricsTable.Started.keepsDirectories heffect
  | logged table metrics => exact MetricsTable.Logged.keepsDirectories heffect
  | failed => exact OnlyDirectories.keepsDirectories heffect

theorem linesAt_logged {table : MetricsTable} {found : Place} (hfound : table.LeadsTo last found)
    (metrics : Metrics Float) (place : Place) :
    (logged table metrics).linesAt last place =
      if place = found then [metrics.line .double] else [] := by
  simp only [linesAt, hfound.iff_eq]

theorem startsAt_started {table : MetricsTable} {found : Place}
    (hfound : table.LeadsTo last found) (place : Place) :
    (started table).startsAt last place = decide (place = found) := by
  simp only [startsAt, hfound.iff_eq]

theorem Effect.content?_of_file (heffect : event.Effect before after)
    (hkeeps : KeepsDirectories after last) {old : Bytes}
    (hold : before.content? place = some old) :
    after.content? place = some (old ++ (event.linesAt last place).flatMap ofString) := by
  rw [content?_eq_some_iff] at hold ⊢
  cases event with
  | started table =>
      obtain ⟨found, -, hcases⟩ := heffect
      rcases hcases place with ⟨hsame, -⟩ | ⟨hnone, -⟩ | ⟨-, hnone, -⟩
      · simpa [linesAt, hold] using hsame
      · rw [hold] at hnone
        contradiction
      · rw [hold] at hnone
        contradiction
  | logged table metrics =>
      have hkeepsAll := (MetricsTable.Logged.keepsDirectories heffect).trans hkeeps
      obtain ⟨found, content, hfound, hcontent, hlook⟩ := heffect
      rw [hlook, linesAt_logged (hfound.mono hkeepsAll)]
      by_cases hplace : place = found
      · rw [hplace, content?_eq_some_iff.mp hcontent] at hold
        simp [hplace, Option.some.inj (Option.some.inj hold)]
      · simp [hplace, hold]
  | failed =>
      rcases heffect place with hsame | ⟨hnone, -⟩
      · simpa [linesAt, hold] using hsame
      · rw [hold] at hnone
        contradiction

theorem Effect.linesAt_eq_nil (heffect : event.Effect before after)
    (hkeeps : KeepsDirectories after last) (hfile : before.content? place = none) :
    event.linesAt last place = [] := by
  cases event with
  | started table => rfl
  | logged table metrics =>
      have hkeepsAll := (MetricsTable.Logged.keepsDirectories heffect).trans hkeeps
      obtain ⟨found, content, hfound, hcontent, -⟩ := heffect
      rw [linesAt_logged (hfound.mono hkeepsAll), if_neg]
      rintro rfl
      rw [hfile] at hcontent
      contradiction
  | failed => rfl

theorem Effect.cases_of_nothing (heffect : event.Effect before after)
    (hkeeps : KeepsDirectories after last) (hnone : before.look place = none) :
    (after.look place = none ∧ event.startsAt last place = false) ∨
      after.isDirectory place = true ∨
      (after.content? place = some (ofString MetricsTable.header) ∧
        event.startsAt last place = true) := by
  cases event with
  | started table =>
      obtain ⟨found, hfound, hcases⟩ := heffect
      rw [startsAt_started (hfound.mono hkeeps)]
      rcases hcases place with ⟨hsame, hother⟩ | ⟨-, hdirectory⟩ | ⟨hplace, -, hheader⟩
      · have hne : place ≠ found := fun hplace => hother hplace hnone
        exact .inl ⟨hsame.trans hnone, decide_eq_false hne⟩
      · exact .inr (.inl (isDirectory_iff.mpr hdirectory))
      · exact .inr (.inr ⟨content?_eq_some_iff.mpr hheader, decide_eq_true hplace⟩)
  | logged table metrics =>
      obtain ⟨found, content, -, hcontent, hlook⟩ := heffect
      have hne : place ≠ found := by
        rintro rfl
        rw [content?_eq_some_iff, hnone] at hcontent
        contradiction
      exact .inl ⟨by rw [hlook, if_neg hne, hnone], rfl⟩
  | failed =>
      rcases heffect place with hsame | ⟨-, hdirectory⟩
      · exact .inl ⟨hsame.trans hnone, rfl⟩
      · exact .inr (.inl (isDirectory_iff.mpr hdirectory))

end Event

/-! ## One place through a run -/

def linesAt (files : FileSystem) (place : Place) (events : List Event) : List String :=
  events.flatMap (Event.linesAt files place)

def startsAt (files : FileSystem) (place : Place) (events : List Event) : Bool :=
  events.any (Event.startsAt files place)

/-- The events lead from one file system to another, one after the other. -/
inductive Trace : FileSystem → List Event → FileSystem → Prop where
  | nil (files : FileSystem) : Trace files [] files
  | cons {before between last : FileSystem} {event : Event} {events : List Event}
      (heffect : event.Effect before between) (hrest : Trace between events last) :
      Trace before (event :: events) last

theorem trace_run (recorder : Recorder) (calls : List Call) :
    Trace recorder.files (recorder.run calls).1 (recorder.run calls).2.files := by
  induction calls generalizing recorder with
  | nil => exact .nil _
  | cons call rest ih =>
      rw [run_cons]
      exact .cons (recorder.effect_perform call) (ih _)

namespace Trace

variable {before last : FileSystem} {events : List Event} {place : Place}

theorem keepsDirectories (htrace : Trace before events last) : KeepsDirectories before last := by
  induction htrace with
  | nil files => exact .refl files
  | cons heffect _ ih => exact heffect.keepsDirectories.trans ih

theorem content?_of_file (htrace : Trace before events last) {old : Bytes}
    (hold : before.content? place = some old) :
    last.content? place = some (old ++ (linesAt last place events).flatMap ofString) := by
  induction htrace generalizing old with
  | nil files => simpa [linesAt] using hold
  | cons heffect hrest ih =>
      have hlast := ih (heffect.content?_of_file hrest.keepsDirectories hold)
      simpa [linesAt] using hlast

private theorem linesAt_of_directory (htrace : Trace before events last)
    (hplace : before.isDirectory place = true) : linesAt last place events = [] := by
  induction htrace with
  | nil files => rfl
  | cons heffect hrest ih =>
      have hfirst :=
        heffect.linesAt_eq_nil hrest.keepsDirectories (content?_eq_none_iff.mpr (.inr hplace))
      simpa [linesAt, hfirst] using ih (heffect.keepsDirectories place hplace)

theorem cases_of_nothing (htrace : Trace before events last) (hnone : before.look place = none) :
    (last.look place = none ∧ startsAt last place events = false) ∨
      (last.isDirectory place = true ∧ linesAt last place events = []) ∨
      (last.content? place = some (ofString MetricsTable.header ++
          (linesAt last place events).flatMap ofString) ∧ startsAt last place events = true) := by
  induction htrace with
  | nil files => exact .inl ⟨hnone, rfl⟩
  | cons heffect hrest ih =>
      have hfirst :=
        heffect.linesAt_eq_nil hrest.keepsDirectories (content?_eq_none_iff.mpr (.inl hnone))
      -- The first event decides: from then on the place is followed as what it has become.
      rcases heffect.cases_of_nothing hrest.keepsDirectories hnone with
        ⟨hnext, hstart⟩ | hdirectory | ⟨hheader, hstart⟩
      · simpa [linesAt, startsAt, hfirst, hstart] using ih hnext
      · have hlast := hrest.keepsDirectories _ hdirectory
        have hlines := hrest.linesAt_of_directory hdirectory
        exact .inr (.inl ⟨hlast, by simpa [linesAt, hfirst] using hlines⟩)
      · have hlast := hrest.content?_of_file hheader
        exact .inr (.inr ⟨by simpa [linesAt, hfirst] using hlast, by simp [startsAt, hstart]⟩)

theorem content?_eq_none (htrace : Trace before events last)
    (hcontent : before.content? place = none) (hstarts : startsAt last place events = false) :
    last.content? place = none := by
  rw [content?_eq_none_iff] at hcontent ⊢
  rcases hcontent with hnone | hplace
  · rcases htrace.cases_of_nothing hnone with ⟨hlast, -⟩ | ⟨hdirectory, -⟩ | ⟨-, hstarted⟩
    · exact .inl hlast
    · exact .inr hdirectory
    · rw [hstarts] at hstarted
      contradiction
  · exact .inr (htrace.keepsDirectories place hplace)

theorem linesAt_eq_nil (htrace : Trace before events last)
    (hdirectory : last.isDirectory place = true) : linesAt last place events = [] := by
  have hfile : last.content? place = none := content?_eq_none_iff.mpr (.inr hdirectory)
  cases hcontent : before.content? place with
  | none =>
      rcases content?_eq_none_iff.mp hcontent with hnone | hplace
      · rcases htrace.cases_of_nothing hnone with ⟨hlast, -⟩ | ⟨-, hlines⟩ | ⟨hlast, -⟩
        · rw [isDirectory_iff, hlast] at hdirectory
          contradiction
        · exact hlines
        · rw [hfile] at hlast
          contradiction
      · exact htrace.linesAt_of_directory hplace
  | some old =>
      have hlast := htrace.content?_of_file hcontent
      rw [hfile] at hlast
      contradiction

private theorem content?_of_started (htrace : Trace before events last)
    (hnone : before.look place = none) (hstarts : startsAt last place events = true)
    (hdirectory : last.isDirectory place = false) :
    last.content? place = some (ofString MetricsTable.header ++
      (linesAt last place events).flatMap ofString) := by
  rcases htrace.cases_of_nothing hnone with ⟨-, hstarted⟩ | ⟨hlast, -⟩ | ⟨hlast, -⟩
  · rw [hstarts] at hstarted
    contradiction
  · rw [hdirectory] at hlast
    contradiction
  · exact hlast

end Trace

private theorem isLine_of_mem_linesAt {files : FileSystem} {place : Place} {events : List Event}
    {line : String} (hline : line ∈ linesAt files place events) : Metrics.IsLine line := by
  obtain ⟨event, -, hline⟩ := List.mem_flatMap.mp hline
  cases event with
  | started table => cases hline
  | logged table metrics =>
      rw [Event.linesAt] at hline
      split at hline
      · obtain rfl := List.mem_singleton.mp hline
        exact Metrics.isLine_line metrics
      · cases hline
  | failed => cases hline

/-- What the given events have made of one place. -/
structure Follows (before last : FileSystem) (events : List Event) (place : Place) : Prop where
  kept : ∀ old, before.content? place = some old →
    last.content? place = some (old ++ (linesAt last place events).flatMap ofString)
  absent : before.look place = none → startsAt last place events = false →
    last.content? place = none
  begun : before.look place = none → startsAt last place events = true →
    last.isDirectory place = false →
    last.content? place = some (ofString MetricsTable.header ++
      (linesAt last place events).flatMap ofString)
  directory : last.isDirectory place = true → linesAt last place events = []
  untouched : startsAt last place events = false → linesAt last place events = [] →
    last.content? place = before.content? place
  lines : ∀ line ∈ linesAt last place events, Metrics.IsLine line

theorem Trace.follows {before last : FileSystem} {events : List Event}
    (htrace : Trace before events last) (place : Place) : Follows before last events place where
  kept old hold := htrace.content?_of_file hold
  absent hnone hstarts := htrace.content?_eq_none (content?_eq_none_iff.mpr (.inl hnone)) hstarts
  begun hnone hstarts hdirectory := htrace.content?_of_started hnone hstarts hdirectory
  directory hdirectory := htrace.linesAt_eq_nil hdirectory
  untouched hstarts hlines := by
    cases hcontent : before.content? place with
    | none => exact htrace.content?_eq_none hcontent hstarts
    | some old =>
        rw [htrace.content?_of_file hcontent, hlines, List.flatMap_nil, List.append_nil]
  lines line hline := isLine_of_mem_linesAt hline

/--
Every place is followed through every run of calls, and a call that fails leaves
the content of every file as it is.
-/
theorem tables_grow_by_rows (recorder : Recorder) (calls : List Call) :
    (∀ place, Follows recorder.files (recorder.run calls).2.files (recorder.run calls).1 place) ∧
      Metrics.IsLine MetricsTable.header ∧
      ∀ (before : Recorder) (call : Call), (before.perform call).1 = .failed →
        ∀ place, (before.perform call).2.files.content? place = before.files.content? place := by
  refine ⟨(recorder.trace_run calls).follows, Metrics.isLine_header, ?_⟩
  intro before call hfailed place
  have heffect := before.effect_perform call
  rw [hfailed] at heffect
  exact OnlyDirectories.content? heffect place

def level (epoch : Nat) (value : Float) : Metrics Float := ⟨epoch, value, value, value, value⟩

/-- Two tables at the same place, the second started after the first has its row. -/
def reopening : List Call :=
  [.start "runs" "logistic", .log 0 (level 1 0.5), .start "runs/." "logistic",
    .log 7 (level 2 0.25), .log 1 (level 2 0.25)]

def tablePlace : Place := [ofString "runs", ofString "logistic_metrics.csv"]

theorem reopened_table_grows :
    let last := (run ⟨.ofFiles .empty, []⟩ reopening).2.files
    last.content? tablePlace = some (ofString MetricsTable.header ++
      [(level 1 0.5).line .double, (level 2 0.25).line .double].flatMap ofString) := by
  have hlines : linesAt (run ⟨.ofFiles .empty, []⟩ reopening).2.files tablePlace
      (run ⟨.ofFiles .empty, []⟩ reopening).1 =
        [(level 1 0.5).line .double, (level 2 0.25).line .double] := by decide +kernel
  have hbegun := ((tables_grow_by_rows ⟨.ofFiles .empty, []⟩ reopening).1 tablePlace).begun
    rfl (by decide +kernel) (by decide +kernel)
  rw [hlines] at hbegun
  exact hbegun

/--
A table that is started where making another table's run directory has left a directory
has no header.
-/
theorem table_started_at_directory :
    let last := run ⟨.ofFiles .empty, []⟩
      [.start "runs/logistic_metrics.csv" "x/y", .start "runs" "logistic"]
    FileSystem.empty.look tablePlace = none ∧
      last.1 = [.failed, .started ⟨"runs/logistic_metrics.csv"⟩] ∧
      startsAt last.2.files tablePlace last.1 = true ∧
      last.2.files.content? tablePlace = none := by
  decide +kernel

end Recorder

end Polarity
