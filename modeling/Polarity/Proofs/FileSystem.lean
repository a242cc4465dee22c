import Polarity.FileSystem

/-!
# Files after writing

What a program sees of an entry is the content of a file, or that there is a
directory.  Putting an entry at a place in a directory changes what is seen at
that place and below it, and nowhere else.  So a file that is written holds what
was written, and directories that have been made are there when they are asked
for again.
-/

namespace Polarity

open Text.Utf8 (Bytes)

/-! ## Entries -/

namespace Entry

def content? : Entry → Option Bytes
  | .file content _ => some (unpack content)
  | .directory _ => none

def StandsIn : Entry → Place → Prop
  | _, [] => True
  | .file _ _, _ :: _ => False
  | .directory children, name :: rest =>
      rest = [] ∨ ∃ child, children.lookup name = some child ∧ child.StandsIn rest

private theorem standsIn_append {root : Entry} {front : Place} {children : List (Bytes × Entry)}
    (hfront : root.get? front = some (.directory children)) (name : Bytes) :
    root.StandsIn (front ++ [name]) := by
  induction front generalizing root with
  | nil =>
      obtain rfl := Option.some.inj hfront
      exact .inl rfl
  | cons first front ih =>
      cases root with
      | file content locked => contradiction
      | directory siblings =>
          obtain ⟨child, hchild, hget⟩ := Option.bind_eq_some_iff.mp hfront
          exact .inr ⟨child, hchild, ih hget⟩

private theorem standsIn_of_get? {root entry : Entry} {place : Place}
    (hplace : root.get? place = some entry) : root.StandsIn place := by
  induction place generalizing root with
  | nil => trivial
  | cons name rest ih =>
      cases root with
      | file content locked => contradiction
      | directory children =>
          obtain ⟨child, hchild, hget⟩ := Option.bind_eq_some_iff.mp hplace
          exact .inr ⟨child, hchild, ih hget⟩

theorem StandsIn.dropLast {root : Entry} {place : Place} (hplace : root.StandsIn place) :
    root.StandsIn place.dropLast := by
  induction place generalizing root with
  | nil => trivial
  | cons name rest ih =>
      cases root with
      | file content locked => contradiction
      | directory children =>
          rcases hplace with rfl | ⟨child, hchild, hrest⟩
          · trivial
          · cases rest with
            | nil => trivial
            | cons next rest => exact .inr ⟨child, hchild, ih hrest⟩

theorem get?_put_self (entry : Entry) {root : Entry} {place : Place}
    (hplace : root.StandsIn place) : (put entry root place).get? place = some entry := by
  induction place generalizing root with
  | nil => rfl
  | cons name rest ih =>
      cases root with
      | file content locked => contradiction
      | directory children =>
          rcases hplace with rfl | ⟨child, hchild, hrest⟩
          · simp [put, get?, lookup_putChild]
          · simp [put, get?, lookup_putChild, hchild, ih hrest]

private theorem look_put_of_not_prefix (entry : Entry) {root : Entry} {place other : Place}
    (hplace : root.StandsIn place) (hother : ¬place <+: other) :
    ((put entry root place).get? other).map content? = (root.get? other).map content? := by
  induction place generalizing root other with
  | nil => exact absurd List.nil_prefix hother
  | cons name rest ih =>
      cases root with
      | file content locked => contradiction
      | directory children =>
          cases other with
          | nil => rfl
          | cons first other =>
              simp only [put, get?, lookup_putChild, Option.bind_eq_bind]
              by_cases hfirst : first = name
              · rw [hfirst, List.cons_prefix_cons, not_and] at hother
                have hbelow := hother rfl
                rcases hplace with rfl | ⟨child, hchild, hrest⟩
                · exact absurd List.nil_prefix hbelow
                · simp [hfirst, hchild, ih hrest hbelow]
              · simp [hfirst]

end Entry

namespace FileSystem

/-! ## Places -/

/-- Nothing, a directory, or a file by its content. -/
def look (files : FileSystem) (place : Place) : Option (Option Bytes) :=
  (files.get? place).map Entry.content?

def isLocked (files : FileSystem) (place : Place) : Bool := (files.get? place).any Entry.isLocked

theorem isDirectory_iff {files : FileSystem} {place : Place} :
    files.isDirectory place = true ↔ files.look place = some none := by
  unfold isDirectory look
  rcases files.get? place with _ | ⟨content, locked⟩ | ⟨children⟩ <;>
    simp [Entry.isDirectory, Entry.content?]

theorem content?_eq (files : FileSystem) (place : Place) :
    files.content? place = (files.look place).join := by
  unfold content? look
  rcases files.get? place with _ | ⟨content, locked⟩ | ⟨children⟩ <;> rfl

theorem isDirectory_root (files : FileSystem) : files.isDirectory [] = true := rfl

theorem root_put {files : FileSystem} {place : Place} (entry : Entry) (hplace : place ≠ []) :
    (files.put place entry).root = Entry.put entry files.root place := by
  cases place with
  | nil => contradiction
  | cons name rest => rfl

/-- Putting what holds nothing where no directory stands is seen at that place alone. -/
theorem look_put {files : FileSystem} {place : Place} {entry : Entry}
    (hentry : ∀ name rest, entry.get? (name :: rest) = none)
    (hplace : files.isDirectory place = false) (hstands : files.root.StandsIn place)
    (other : Place) :
    (files.put place entry).look other =
      if other = place then some entry.content? else files.look other := by
  have hsome : place ≠ [] := by
    rintro rfl
    simp [isDirectory_root] at hplace
  simp only [look, get?, root_put entry hsome]
  split
  · next hsame => rw [hsame, Entry.get?_put_self entry hstands, Option.map_some]
  · next hother =>
      by_cases hbelow : place <+: other
      · -- Nothing stands below the entry, and nothing stood below what was there before.
        obtain ⟨rest, rfl⟩ := hbelow
        cases rest with
        | nil => simp at hother
        | cons name rest =>
            rw [Entry.get?_append, Entry.get?_put_self entry hstands, Option.bind_some, hentry,
              Entry.get?_append]
            rcases hget : files.root.get? place with _ | ⟨content, locked⟩ | ⟨children⟩
            · rfl
            · rfl
            · simp [isDirectory, get?, hget, Entry.isDirectory] at hplace
      · exact Entry.look_put_of_not_prefix entry hstands hbelow

private theorem standsIn_follow? {files : FileSystem} {place next : Place} {name : Bytes}
    (hplace : files.isDirectory place = true) (hfollow : Path.follow? place name = some next) :
    files.root.StandsIn next := by
  obtain ⟨entry, hget, hentry⟩ := (Option.any_eq_true _ _).mp hplace
  have hstands := Entry.standsIn_of_get? hget
  unfold Path.follow? at hfollow
  split at hfollow
  · exact Option.some.inj hfollow ▸ hstands
  · split at hfollow
    · split at hfollow
      · contradiction
      · exact Option.some.inj hfollow ▸ hstands.dropLast
    · split at hfollow
      · obtain rfl := Option.some.inj hfollow
        cases entry with
        | file content locked => contradiction
        | directory children => exact Entry.standsIn_append hget name
      · contradiction

/-! ## Paths -/

def locateFrom? (files : FileSystem) (place : Place) (names : List Bytes) : Option Place :=
  names.foldlM (fun place name =>
    if files.isDirectory place then Path.follow? place name else none) place

theorem locateFrom?_cons_eq_some {files : FileSystem} {place final : Place} {name : Bytes}
    {rest : List Bytes} :
    files.locateFrom? place (name :: rest) = some final ↔
      files.isDirectory place = true ∧
        ∃ next, Path.follow? place name = some next ∧ files.locateFrom? next rest = some final := by
  rw [locateFrom?, List.foldlM_cons]
  cases hplace : files.isDirectory place <;> simp [locateFrom?, Option.bind_eq_some_iff]

private theorem standsIn_locateFrom? {files : FileSystem} {place final : Place} {names : List Bytes}
    (hplace : files.root.StandsIn place) (hlocate : files.locateFrom? place names = some final) :
    files.root.StandsIn final := by
  induction names generalizing place with
  | nil => exact Option.some.inj hlocate ▸ hplace
  | cons name rest ih =>
      obtain ⟨hdirectory, next, hnext, hrest⟩ := locateFrom?_cons_eq_some.mp hlocate
      exact ih (standsIn_follow? hdirectory hnext) hrest

/-- The place that a path leads to, whether anything stands there or not. -/
def place? (files : FileSystem) (path : Bytes) : Option Place := do
  files.locate? (← Path.names? path)

theorem standsIn_place? {files : FileSystem} {path : Bytes} {place : Place}
    (hplace : files.place? path = some place) : files.root.StandsIn place := by
  obtain ⟨names, -, hlocate⟩ := Option.bind_eq_some_iff.mp hplace
  have hroot : files.root.StandsIn [] := by simp [Entry.StandsIn]
  exact standsIn_locateFrom? hroot hlocate

theorem follow?_cases (files : FileSystem) (path : Bytes) :
    (files.follow? path = none ∧ files.place? path = none) ∨
      ∃ walk, files.follow? path = some walk ∧ files.place? path = some walk.place ∧
        walk.current = files.get? walk.place := by
  unfold follow? place?
  cases Path.names? path with
  | none => exact .inl ⟨rfl, rfl⟩
  | some names =>
      have hwalk := walk?_eq files names
      simp only [Option.bind_eq_bind, Option.bind_some]
      cases hfound : files.walk? names <;> cases hlocate : files.locate? names <;> simp_all

theorem find?_eq (files : FileSystem) (path : Bytes) :
    files.find? path = do
      let place ← files.place? path
      let entry ← files.get? place
      return (place, entry) := by
  rcases follow?_cases files path with ⟨hfollow, hplace⟩ | ⟨walk, hfollow, hplace, hcurrent⟩
  · rw [find?, hfollow, hplace]
    rfl
  · simp only [find?, hfollow, hplace, hcurrent, Option.bind_eq_bind, Option.bind_some]

theorem isSome_list? (files : FileSystem) (path : Bytes) :
    (files.list? path).isSome = (files.place? path).any files.isDirectory := by
  rw [list?, find?_eq]
  cases files.place? path with
  | none => rfl
  | some place =>
      simp only [Option.bind_eq_bind, Option.bind_some, Option.any_some, isDirectory]
      rcases files.get? place with _ | ⟨content, locked⟩ | ⟨children⟩ <;> rfl

theorem read?_of_get? {files : FileSystem} {path : Bytes} {place : Place} {content : ByteArray}
    (hplace : files.place? path = some place) (hget : files.get? place = some (.file content)) :
    files.read? path = some (unpack content) := by
  simp [read?, find?_eq, hplace, hget]

theorem write?_eq (files : FileSystem) (path content : Bytes) :
    files.write? path content = do
      let place ← files.place? path
      if files.isDirectory place || files.isLocked place then none
      else return files.put place (.file (pack content)) := by
  rcases follow?_cases files path with ⟨hfollow, hplace⟩ | ⟨walk, hfollow, hplace, hcurrent⟩
  · rw [write?, hfollow, hplace]
    rfl
  · simp only [write?, hfollow, hplace, hcurrent, Option.bind_eq_bind, Option.bind_some]
    rcases hget : files.get? walk.place with _ | ⟨content, locked⟩ | ⟨children⟩ <;>
      simp [isDirectory, isLocked, hget, Entry.isDirectory, Entry.isLocked]

/-! ## Writing -/

theorem write?_eq_some_iff {files after : FileSystem} {path content : Bytes} :
    files.write? path content = some after ↔
      ∃ place, files.place? path = some place ∧ files.isDirectory place = false ∧
        files.isLocked place = false ∧ files.put place (.file (pack content)) = after := by
  rw [write?_eq]
  simp [Option.bind_eq_some_iff, and_assoc]

theorem look_of_write? {files after : FileSystem} {path content : Bytes}
    (hwrite : files.write? path content = some after) :
    ∃ place, files.place? path = some place ∧ files.isDirectory place = false ∧
      ∀ other, after.look other =
        if other = place then some (some content) else files.look other := by
  obtain ⟨place, hplace, hdirectory, -, rfl⟩ := write?_eq_some_iff.mp hwrite
  refine ⟨place, hplace, hdirectory, fun other => ?_⟩
  rw [look_put (fun _ _ => rfl) hdirectory (standsIn_place? hplace), Entry.content?, unpack_pack]

theorem get?_of_write? {files after : FileSystem} {path content : Bytes} {place : Place}
    (hwrite : files.write? path content = some after) (hplace : files.place? path = some place) :
    after.get? place = some (.file (pack content)) := by
  obtain ⟨same, hsame, hdirectory, -, rfl⟩ := write?_eq_some_iff.mp hwrite
  obtain rfl := Option.some.inj (hplace.symm.trans hsame)
  have hsome : place ≠ [] := by
    rintro rfl
    simp [isDirectory_root] at hdirectory
  rw [get?, root_put _ hsome, Entry.get?_put_self _ (standsIn_place? hplace)]

theorem isDirectory_of_write? {files after : FileSystem} {path content : Bytes}
    (hwrite : files.write? path content = some after) :
    after.isDirectory = files.isDirectory := by
  obtain ⟨written, -, hwritten, hlook⟩ := look_of_write? hwrite
  funext place
  rw [Bool.eq_iff_iff, isDirectory_iff, isDirectory_iff, hlook]
  split
  · next hsame =>
      rw [← Bool.not_eq_true, isDirectory_iff] at hwritten
      simp [hsame, hwritten]
  · rfl

theorem place?_of_write? {files after : FileSystem} {path content : Bytes}
    (hwrite : files.write? path content = some after) (other : Bytes) :
    after.place? other = files.place? other := by
  simp only [place?, locate?, isDirectory_of_write? hwrite]

theorem read?_of_write? {files after : FileSystem} {path content : Bytes}
    (hwrite : files.write? path content = some after) : after.read? path = some content := by
  obtain ⟨place, hplace, -⟩ := look_of_write? hwrite
  rw [read?_of_get? ((place?_of_write? hwrite path).trans hplace) (get?_of_write? hwrite hplace),
    unpack_pack]

theorem isSome_list?_of_write? {files after : FileSystem} {path content : Bytes}
    (hwrite : files.write? path content = some after) (other : Bytes) :
    (after.list? other).isSome = (files.list? other).isSome := by
  rw [isSome_list?, isSome_list?, place?_of_write? hwrite, isDirectory_of_write? hwrite]

theorem isSome_write?_of_write? {files after : FileSystem} {path content : Bytes}
    (hwrite : files.write? path content = some after) (later : Bytes) :
    (files.write? path later).isSome = true ∧ (after.write? path later).isSome = true := by
  obtain ⟨place, hplace, hdirectory, hlocked, -⟩ := write?_eq_some_iff.mp hwrite
  have hunlocked : after.isLocked place = false := by
    rw [isLocked, get?_of_write? hwrite hplace]
    rfl
  simp [write?_eq, place?_of_write? hwrite, hplace, isDirectory_of_write? hwrite, hdirectory,
    hlocked, hunlocked]

/-! ## Making directories -/

/-- Directories were made where nothing stood, and all else is seen as before. -/
def OnlyDirectories (before after : FileSystem) : Prop :=
  ∀ place, after.look place = before.look place ∨
    (before.look place = none ∧ after.look place = some none)

namespace OnlyDirectories

variable {before between after : FileSystem}

theorem refl (files : FileSystem) : OnlyDirectories files files := fun _ => .inl rfl

theorem trans (hfirst : OnlyDirectories before between) (hsecond : OnlyDirectories between after) :
    OnlyDirectories before after := by
  intro place
  rcases hfirst place with hsame | ⟨hnone, hmade⟩
  · rw [← hsame]
    exact hsecond place
  · rcases hsecond place with hkept | ⟨hmissing, -⟩
    · exact .inr ⟨hnone, hkept.trans hmade⟩
    · rw [hmade] at hmissing
      contradiction

theorem isDirectory (hmade : OnlyDirectories before after) {place : Place}
    (hplace : before.isDirectory place = true) : after.isDirectory place = true := by
  rw [isDirectory_iff] at hplace ⊢
  rcases hmade place with hsame | ⟨hnone, -⟩
  · exact hsame.trans hplace
  · rw [hplace] at hnone
    contradiction

theorem content? (hmade : OnlyDirectories before after) (place : Place) :
    after.content? place = before.content? place := by
  rw [content?_eq, content?_eq]
  rcases hmade place with hsame | ⟨hnone, hdirectory⟩
  · rw [hsame]
  · rw [hnone, hdirectory]
    rfl

end OnlyDirectories

theorem enter?_eq_some {files after : FileSystem} {place next : Place} {name : Bytes}
    (hplace : files.isDirectory place = true)
    (henter : files.enter? place name = some (after, next)) :
    Path.follow? place name = some next ∧ after.isDirectory next = true ∧
      OnlyDirectories files after := by
  obtain ⟨found, hfollow, henter⟩ := Option.bind_eq_some_iff.mp henter
  rcases hget : files.get? found with _ | ⟨content, locked⟩ | ⟨children⟩
  · simp only [hget, Option.pure_def, Option.some.injEq, Prod.mk.injEq] at henter
    obtain ⟨rfl, rfl⟩ := henter
    have hnone : files.look found = none := by rw [look, hget, Option.map_none]
    have hmissing : files.isDirectory found = false := by simp [isDirectory, hget]
    have hlook : ∀ other, (files.put found (.directory [])).look other =
        if other = found then some none else files.look other :=
      look_put (fun _ _ => rfl) hmissing (standsIn_follow? hplace hfollow)
    refine ⟨hfollow, ?_, fun other => ?_⟩
    · rw [isDirectory_iff, hlook, if_pos rfl]
    · by_cases hother : other = found
      · rw [hlook, if_pos hother, hother]
        exact .inr ⟨hnone, rfl⟩
      · rw [hlook, if_neg hother]
        exact .inl rfl
  · simp [hget] at henter
  · simp only [hget, Option.pure_def, Option.some.injEq, Prod.mk.injEq] at henter
    obtain ⟨rfl, rfl⟩ := henter
    exact ⟨hfollow, by simp [isDirectory, hget, Entry.isDirectory], .refl _⟩

private theorem onlyDirectories_enterAll {files : FileSystem} {place : Place} (names : List Bytes)
    (hplace : files.isDirectory place = true) :
    OnlyDirectories files (files.enterAll place names).1 := by
  induction names generalizing files place with
  | nil => exact .refl files
  | cons name rest ih =>
      rw [enterAll]
      split
      · next made next hstep =>
          obtain ⟨-, hnext, hmade⟩ := enter?_eq_some hplace hstep
          exact hmade.trans (ih hnext)
      · exact .refl files

theorem onlyDirectories_makeDirectories (files : FileSystem) (path : Bytes) :
    OnlyDirectories files (files.makeDirectories path).1 := by
  unfold makeDirectories
  split
  · exact .refl files
  · split
    · unfold makeNamed
      split <;> exact onlyDirectories_enterAll _ files.isDirectory_root
    · exact .refl files

private theorem enterAll_eq_true {files after : FileSystem} {place : Place} {names : List Bytes}
    (hplace : files.isDirectory place = true)
    (henter : files.enterAll place names = (after, true)) :
    ∃ final, after.locateFrom? place names = some final ∧ after.isDirectory final = true := by
  induction names generalizing files place with
  | nil =>
      obtain rfl := (Prod.mk.inj henter).1
      exact ⟨place, rfl, hplace⟩
  | cons name rest ih =>
      have hall := onlyDirectories_enterAll (name :: rest) hplace
      rw [henter] at hall
      rw [enterAll] at henter
      split at henter
      · next made next hstep =>
          obtain ⟨hfollow, hnext, -⟩ := enter?_eq_some hplace hstep
          obtain ⟨final, hlocate, hfinal⟩ := ih hnext henter
          refine ⟨final, ?_, hfinal⟩
          exact locateFrom?_cons_eq_some.mpr ⟨hall.isDirectory hplace, next, hfollow, hlocate⟩
      · cases henter

theorem isSome_list?_of_makeDirectories {files made : FileSystem} {path : Bytes} (hpath : path ≠ [])
    (hmade : files.makeDirectories path = (made, true)) : (made.list? path).isSome = true := by
  unfold makeDirectories at hmade
  split at hmade
  · next hthere =>
      obtain rfl := (Prod.mk.inj hmade).1
      exact hthere.resolve_left hpath
  · split at hmade
    · next names hnames =>
        rw [isSome_list?, place?, hnames]
        unfold makeNamed at hmade
        split at hmade
        · -- Whether the directory is there is asked in the end.
          obtain ⟨rfl, hthere⟩ := Prod.mk.inj hmade
          obtain ⟨walk, hwalk, hcurrent⟩ :=
            (Option.any_eq_true _ _).mp ((Bool.and_eq_true _ _).mp hthere).2
          have hend := walk?_eq (files.enterAll [] (Path.withoutTail names).dropLast).1 names
          rw [hwalk, Option.map_some, eq_comm, Option.map_eq_some_iff] at hend
          obtain ⟨place, hlocate, hplace⟩ := hend
          rw [← (Prod.mk.inj hplace).2] at hcurrent
          simp only [Option.bind_eq_bind, Option.bind_some, hlocate, Option.any_some]
          exact hcurrent
        · obtain ⟨final, hlocate, hfinal⟩ := enterAll_eq_true files.isDirectory_root hmade
          have hlocate : made.locate? names = some final := hlocate
          simp [hlocate, hfinal]
    · cases hmade

theorem makeDirectories_of_isSome_list? {files : FileSystem} {path : Bytes}
    (hpath : path = [] ∨ (files.list? path).isSome = true) :
    files.makeDirectories path = (files, true) := if_pos hpath

end FileSystem

end Polarity
