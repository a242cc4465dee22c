import Polarity.Session

/-!
# Running sessions

How the world moves through a session, one equation for each way of building
one.  Many sessions only take notes beside giving a value, and some print lines
as well; `OnlyNotes` and `OnlyReports` say so, and are kept by everything that is
built from such sessions.  `TakesNotes` says which notes are taken, also by a session
that fails.
-/

namespace Polarity.Session

variable {α β : Type}

/-! ## Equations -/

@[simp] theorem run_pure (value : α) (world : World) :
    (pure value : Session α).run world = (.ok value, world) := rfl

theorem run_bind (session : Session α) (next : α → Session β) (world : World) :
    (session >>= next).run world =
      match session.run world with
      | (.ok value, after) => (next value).run after
      | (.error error, after) => (.error error, after) := by
  have hrun : session.run world = ExceptT.run session world := rfl
  change (match ExceptT.run session world with
    | (outcome, after) => ExceptT.bindCont next outcome after) = _
  rw [hrun]
  rcases ExceptT.run session world with ⟨outcome, after⟩
  cases outcome <;> rfl

theorem run_bind_ok {session : Session α} {next : α → Session β} {world after : World} {value : α}
    (hsession : session.run world = (.ok value, after)) :
    (session >>= next).run world = (next value).run after := by
  rw [run_bind, hsession]

theorem run_bind_eq_ok {session : Session α} {next : α → Session β} {world after : World}
    {result : β} :
    (session >>= next).run world = (.ok result, after) ↔
      ∃ value between, session.run world = (.ok value, between) ∧
        (next value).run between = (.ok result, after) := by
  rw [run_bind]
  rcases session.run world with ⟨_ | value, between⟩
  · simp
  · constructor
    · exact fun hnext => ⟨value, between, rfl, hnext⟩
    · rintro ⟨_, _, hsession, hnext⟩
      cases hsession
      exact hnext

@[simp] theorem run_lift (outcome : Except Error α) (world : World) :
    (liftM outcome : Session α).run world = (outcome, world) := rfl

theorem run_lift_eq_ok {outcome : Except Error α} {world after : World} {value : α} :
    (liftM outcome : Session α).run world = (.ok value, after) ↔
      outcome = .ok value ∧ world = after := by
  rw [run_lift, Prod.mk.injEq]

@[simp] theorem run_note (level : Level) (text : String) (world : World) :
    (note level text).run world =
      (.ok (), { world with notes := world.notes.push ⟨level, text⟩ }) := rfl

@[simp] theorem run_printLine (text : String) (world : World) :
    (printLine text).run world = (.ok (), { world with lines := world.lines.push text }) := rfl

@[simp] theorem run_files (world : World) : files.run world = (.ok world.files, world) := rfl

@[simp] theorem run_setFiles (files : FileSystem) (world : World) :
    (setFiles files).run world = (.ok (), { world with files := files }) := rfl

/-! ## Sessions that only take notes -/

/-- The session gives the value in every world and changes nothing but the notes. -/
def OnlyNotes (session : Session α) (value : α) : Prop :=
  ∀ world, ∃ notes, session.run world = (.ok value, { world with notes := notes })

theorem OnlyNotes.pure (value : α) : OnlyNotes (Pure.pure value : Session α) value :=
  fun world => ⟨world.notes, rfl⟩

theorem OnlyNotes.files_eq {session : Session α} {value : α} {world after : World}
    {outcome : Except Error α} (hsession : OnlyNotes session value)
    (hrun : session.run world = (outcome, after)) : after.files = world.files := by
  obtain ⟨notes, hnotes⟩ := hsession world
  rw [hnotes] at hrun
  cases hrun
  rfl

theorem OnlyNotes.bind {session : Session α} {next : α → Session β} {value : α} {result : β}
    (hsession : OnlyNotes session value) (hnext : OnlyNotes (next value) result) :
    OnlyNotes (session >>= next) result := by
  intro world
  obtain ⟨notes, hrun⟩ := hsession world
  obtain ⟨later, hlater⟩ := hnext { world with notes := notes }
  exact ⟨later, (run_bind_ok hrun).trans hlater⟩

theorem onlyNotes_note (level : Level) (text : String) : OnlyNotes (note level text) () :=
  fun world => ⟨world.notes.push ⟨level, text⟩, rfl⟩

theorem onlyNotes_lift {outcome : Except Error α} {value : α} (houtcome : outcome = .ok value) :
    OnlyNotes (liftM outcome : Session α) value := by
  intro world
  exact ⟨world.notes, by rw [run_lift, houtcome]⟩

theorem OnlyNotes.ite {condition : Prop} [Decidable condition] {first second : Session α}
    {value : α} (hfirst : OnlyNotes first value) (hsecond : OnlyNotes second value) :
    OnlyNotes (if condition then first else second) value := by
  split
  · exact hfirst
  · exact hsecond

theorem onlyNotes_forIn (items : List β) {body : β → PUnit → Session (ForInStep PUnit)}
    (hbody : ∀ item, OnlyNotes (body item PUnit.unit) (.yield PUnit.unit)) :
    OnlyNotes (forIn items PUnit.unit body) PUnit.unit := by
  induction items with
  | nil => exact .pure _
  | cons item rest ih =>
      rw [List.forIn_cons]
      exact (hbody item).bind ih

/-- The session ends alike in every world and adds these notes to it, nothing else. -/
def TakesNotes (session : Session α) (outcome : Except Error α) (taken : List Note) : Prop :=
  ∀ world, session.run world = (outcome, { world with notes := world.notes ++ taken.toArray })

theorem TakesNotes.pure (value : α) : TakesNotes (Pure.pure value : Session α) (.ok value) [] := by
  intro world
  simp

theorem takesNotes_note (level : Level) (text : String) :
    TakesNotes (note level text) (.ok ()) [⟨level, text⟩] := by
  intro world
  simp

theorem takesNotes_fail (problem : FileProblem) :
    TakesNotes (fail problem : Session α) (.error (.file problem)) [] := by
  intro world
  rw [Array.append_empty]
  rfl

theorem TakesNotes.bind {session : Session α} {next : α → Session β} {value : α}
    {outcome : Except Error β} {taken later : List Note}
    (hsession : TakesNotes session (.ok value) taken) (hnext : TakesNotes (next value) outcome later) :
    TakesNotes (session >>= next) outcome (taken ++ later) := by
  intro world
  rw [run_bind_ok (hsession world), hnext]
  simp

theorem TakesNotes.bind_error {session : Session α} {error : Error} {taken : List Note}
    (hsession : TakesNotes session (.error error) taken) (next : α → Session β) :
    TakesNotes (session >>= next) (.error error) taken := by
  intro world
  rw [run_bind, hsession world]

/-- A note on the value at the end changes neither the value nor a failure. -/
theorem TakesNotes.exists_note {session : Session α} {outcome : Except Error α}
    {taken : List Note} (hsession : TakesNotes session outcome taken) (level : Level)
    (text : α → String) :
    ∃ notes, TakesNotes (session >>= fun value => note level (text value) >>= fun _ =>
      Pure.pure value) outcome notes := by
  cases outcome with
  | error error => exact ⟨taken, hsession.bind_error _⟩
  | ok value => exact ⟨_, hsession.bind ((takesNotes_note level (text value)).bind (.pure value))⟩

/-! ## Sessions that take notes and print lines -/

def OnlyReports (session : Session α) (value : α) : Prop :=
  ∀ world, ∃ notes lines,
    session.run world = (.ok value, { world with notes := notes, lines := lines })

theorem OnlyNotes.onlyReports {session : Session α} {value : α}
    (hsession : OnlyNotes session value) : OnlyReports session value := by
  intro world
  obtain ⟨notes, hrun⟩ := hsession world
  exact ⟨notes, world.lines, hrun⟩

theorem OnlyReports.bind {session : Session α} {next : α → Session β} {value : α} {result : β}
    (hsession : OnlyReports session value) (hnext : OnlyReports (next value) result) :
    OnlyReports (session >>= next) result := by
  intro world
  obtain ⟨notes, lines, hrun⟩ := hsession world
  obtain ⟨laterNotes, laterLines, hlater⟩ := hnext { world with notes := notes, lines := lines }
  exact ⟨laterNotes, laterLines, (run_bind_ok hrun).trans hlater⟩

theorem onlyReports_printLine (text : String) : OnlyReports (printLine text) () :=
  fun world => ⟨world.notes, world.lines.push text, rfl⟩

/-! ## Sessions that can fail -/

theorem exists_run_eq_ok {session : Session α} {world : World}
    (hsome : (session.run world).1.toOption.isSome = true) :
    ∃ value after, session.run world = (.ok value, after) := by
  rcases hrun : session.run world with ⟨error | value, after⟩
  · rw [hrun] at hsome
    contradiction
  · exact ⟨value, after, rfl⟩

def FailsOnly (session : Session α) (allowed : Error → Prop) : Prop :=
  ∀ world error after, session.run world = (.error error, after) → allowed error

theorem FailsOnly.pure (value : α) (allowed : Error → Prop) :
    FailsOnly (Pure.pure value : Session α) allowed := nofun

theorem FailsOnly.bind {session : Session α} {next : α → Session β} {allowed : Error → Prop}
    (hsession : FailsOnly session allowed) (hnext : ∀ value, FailsOnly (next value) allowed) :
    FailsOnly (session >>= next) allowed := by
  intro world error after hrun
  rw [run_bind] at hrun
  rcases hfirst : session.run world with ⟨first | value, between⟩
  · rw [hfirst] at hrun
    cases hrun
    exact hsession world _ _ hfirst
  · rw [hfirst] at hrun
    exact hnext value between error after hrun

theorem OnlyReports.failsOnly_bind {session : Session α} {next : α → Session β} {value : α}
    {allowed : Error → Prop} (hsession : OnlyReports session value)
    (hnext : FailsOnly (next value) allowed) : FailsOnly (session >>= next) allowed := by
  intro world error after hrun
  obtain ⟨notes, lines, hfirst⟩ := hsession world
  rw [run_bind_ok hfirst] at hrun
  exact hnext _ error after hrun

end Polarity.Session
