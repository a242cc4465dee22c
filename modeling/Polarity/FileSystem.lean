import Polarity.Text.Utf8

/-!
# File systems

A file system is a tree of directories and files below the working directory.  A
place in it is the list of names on the way there; the working directory itself
is the empty place.  Names are bytes, as are paths before they are split at
slashes.  The content of a file is packed, since files grow at their ends; it is
read and written as a list of bytes.

A path is followed name by name, and every name but the last must be that of a
directory.  A path that leads out of the tree, by a leading slash or by too many
`..`, finds nothing.  A walk follows the names once and keeps the directories on
the way; `walk?_eq` says that it ends at the place that the names lead to.
-/

namespace Polarity

open Text.Utf8 (Bytes)

abbrev Place := List Bytes

def pack (bytes : Bytes) : ByteArray := ⟨bytes.toArray⟩

def unpack (content : ByteArray) : Bytes := content.data.toList

@[simp] theorem unpack_pack (bytes : Bytes) : unpack (pack bytes) = bytes := by
  simp [pack, unpack]

@[simp] theorem unpack_append (left right : ByteArray) :
    unpack (left ++ right) = unpack left ++ unpack right := by
  simp [unpack]

/-- A file that is locked stands in its directory, but can be neither read nor written. -/
inductive Entry where
  | file (content : ByteArray) (locked : Bool := false)
  | directory (children : List (Bytes × Entry))

structure FileSystem where
  children : List (Bytes × Entry)

/-! ## Paths -/

namespace Path

def slash : UInt8 := 0x2F

def isAbsolute (path : String) : Bool := path.toList.head? == some '/'

/-- Puts a name after a directory; a name that begins with a slash stands on its own. -/
def join (directory name : String) : String :=
  if isAbsolute name || directory.isEmpty then name
  else if directory.toList.getLast? == some '/' then directory ++ name
  else directory ++ "/" ++ name

def ofChild (directory name : Bytes) : Bytes :=
  if directory.getLast? = some slash then directory ++ name else directory ++ slash :: name

def longest : Nat := 4095

/-- The names of a path; `none` for a path that the system cannot take. -/
def names? (path : Bytes) : Option (List Bytes) :=
  if path = [] ∨ path.head? = some slash ∨ 0 ∈ path ∨ longest < path.length then none
  else some (path.splitOnP (· == slash))

def here : Bytes := [0x2E]

def up : Bytes := [0x2E, 0x2E]

def withoutTail (names : List Bytes) : List Bytes :=
  (names.reverse.dropWhile fun name => name = [] ∨ name = here).reverse

def above (path : Bytes) : Bytes :=
  [slash].intercalate (withoutTail (path.splitOnP (· == slash)).dropLast)

def endsHere (names : List Bytes) : Bool :=
  (names.reverse.dropWhile (· = [])).head? = some here

def follow? (place : Place) (name : Bytes) : Option Place :=
  if name = [] ∨ name = here then some place
  else if name = up then (if place = [] then none else some place.dropLast)
  else if name.length ≤ 255 then some (place ++ [name])
  else none

end Path

namespace Entry

def isDirectory : Entry → Bool
  | .directory _ => true
  | .file _ _ => false

def isLocked : Entry → Bool
  | .directory _ => false
  | .file _ locked => locked

def get? : Entry → Place → Option Entry
  | entry, [] => some entry
  | .directory children, name :: rest => do
      let child ← children.lookup name
      child.get? rest
  | .file _ _, _ :: _ => none

theorem get?_append (entry : Entry) (place rest : Place) :
    entry.get? (place ++ rest) = (entry.get? place).bind (·.get? rest) := by
  induction place generalizing entry with
  | nil => rfl
  | cons name place ih =>
      cases entry with
      | file content locked => rfl
      | directory children =>
          simp only [List.cons_append, get?]
          cases children.lookup name with
          | none => rfl
          | some child => exact ih child

def putChild (name : Bytes) (child : Entry) : List (Bytes × Entry) → List (Bytes × Entry)
  | [] => [(name, child)]
  | (other, old) :: rest =>
      if other = name then (name, child) :: rest else (other, old) :: putChild name child rest

theorem lookup_putChild (name other : Bytes) (child : Entry) (children : List (Bytes × Entry)) :
    (putChild name child children).lookup other =
      if other = name then some child else children.lookup other := by
  induction children with
  | nil =>
      by_cases hother : other = name
      · simp [putChild, hother]
      · simp [putChild, List.lookup_cons, hother, beq_eq_false_iff_ne.mpr hother]
  | cons first rest ih =>
      obtain ⟨key, old⟩ := first
      by_cases hkey : key = name <;> by_cases hother : other = key
      · simp [putChild, hkey, hother]
      · simp [putChild, List.lookup_cons, hkey, hkey ▸ beq_eq_false_iff_ne.mpr hother, hkey ▸ hother]
      · simp [putChild, hkey, hother]
      · simp [putChild, List.lookup_cons, hkey, beq_eq_false_iff_ne.mpr hother, ih]

/--
Puts an entry at a place, in the stead of what stood there.  Directories missing
on the way are made; below a file nothing can be put.
-/
def put (entry : Entry) : Entry → Place → Entry
  | _, [] => entry
  | .directory children, name :: rest =>
      let child := (children.lookup name).getD (.directory [])
      .directory (putChild name (put entry child rest) children)
  | .file content locked, _ :: _ => .file content locked

mutual

def files : Entry → List (Place × Bytes)
  | .file content _ => [([], unpack content)]
  | .directory children => filesAmong children

def filesAmong : List (Bytes × Entry) → List (Place × Bytes)
  | [] => []
  | (name, child) :: rest =>
      child.files.map (fun (place, content) => (name :: place, content)) ++ filesAmong rest

end

end Entry

/-! ## Walks -/

/--
The names taken from the working directory on, last first, each with the directory
it was taken in; and what stands at the end, if anything does.
-/
structure Walk where
  taken : List (Bytes × Entry)
  current : Option Entry

namespace Walk

def place (walk : Walk) : Place := (walk.taken.map Prod.fst).reverse

def step? (walk : Walk) (name : Bytes) : Option Walk :=
  match walk.current with
  | some (.directory children) =>
      if name = [] ∨ name = Path.here then some walk
      else if name = Path.up then
        match walk.taken with
        | [] => none
        | (_, directory) :: rest => some ⟨rest, some directory⟩
      else if name.length ≤ 255 then
        some ⟨(name, .directory children) :: walk.taken, children.lookup name⟩
      else none
  | _ => none

/-- Whether a walk keeps to what stands below an entry. -/
def Below (root : Entry) : List (Bytes × Entry) → Option Entry → Prop
  | [], current => current = some root
  | (name, directory) :: rest, current =>
      Below root rest (some directory) ∧ current = directory.get? [name]

private theorem current_eq_get? {root : Entry} {taken : List (Bytes × Entry)}
    {current : Option Entry} (hbelow : Below root taken current) :
    current = root.get? (taken.map Prod.fst).reverse := by
  induction taken generalizing current with
  | nil => exact hbelow
  | cons first rest ih =>
      obtain ⟨name, directory⟩ := first
      obtain ⟨hrest, rfl⟩ := hbelow
      rw [List.map_cons, List.reverse_cons, Entry.get?_append, ← ih hrest]
      rfl

end Walk

namespace FileSystem

def empty : FileSystem := ⟨[]⟩

def root (files : FileSystem) : Entry := .directory files.children

def get? (files : FileSystem) (place : Place) : Option Entry := files.root.get? place

def isDirectory (files : FileSystem) (place : Place) : Bool :=
  (files.get? place).any Entry.isDirectory

def content? (files : FileSystem) (place : Place) : Option Bytes :=
  match files.get? place with
  | some (.file content _) => some (unpack content)
  | _ => none

def put (files : FileSystem) (place : Place) (entry : Entry) : FileSystem :=
  match Entry.put entry files.root place with
  | .directory children => ⟨children⟩
  | .file _ _ => files

def locate? (files : FileSystem) (names : List Bytes) : Option Place :=
  names.foldlM (fun place name =>
    if files.isDirectory place then Path.follow? place name else none) []

def walk? (files : FileSystem) (names : List Bytes) : Option Walk :=
  names.foldlM Walk.step? ⟨[], some files.root⟩

private theorem step?_eq {files : FileSystem} {walk : Walk} (name : Bytes)
    (hbelow : Walk.Below files.root walk.taken walk.current) :
    (walk.step? name).map Walk.place =
        (if files.isDirectory walk.place then Path.follow? walk.place name else none) ∧
      ∀ next, walk.step? name = some next → Walk.Below files.root next.taken next.current := by
  obtain ⟨taken, current⟩ := walk
  have hcurrent : current = files.get? (taken.map Prod.fst).reverse := Walk.current_eq_get? hbelow
  rcases current with _ | ⟨content, locked⟩ | ⟨children⟩
  · simp [Walk.step?, Walk.place, isDirectory, ← hcurrent]
  · simp [Walk.step?, Walk.place, isDirectory, Entry.isDirectory, ← hcurrent]
  · have hdirectory : files.isDirectory (taken.map Prod.fst).reverse = true := by
      simp [isDirectory, Entry.isDirectory, ← hcurrent]
    simp only [Walk.place, hdirectory, if_true, Walk.step?, Path.follow?]
    by_cases hstay : name = [] ∨ name = Path.here
    · simp only [if_pos hstay]
      exact ⟨rfl, fun next hnext => Option.some.inj hnext ▸ hbelow⟩
    · by_cases hup : name = Path.up
      · simp only [if_neg hstay, if_pos hup]
        cases taken with
        | nil => simp
        | cons first rest =>
            obtain ⟨last, directory⟩ := first
            refine ⟨by simp [Walk.place], fun next hnext => ?_⟩
            rw [← Option.some.inj hnext]
            exact hbelow.1
      · by_cases hlong : name.length ≤ 255
        · simp only [if_neg hstay, if_neg hup, if_pos hlong]
          refine ⟨by simp [Walk.place], fun next hnext => ?_⟩
          rw [← Option.some.inj hnext]
          refine ⟨hbelow, ?_⟩
          simp only [Entry.get?]
          cases children.lookup name <;> rfl
        · simp [if_neg hstay, if_neg hup, if_neg hlong]

private theorem foldlM_step?_eq {files : FileSystem} (names : List Bytes) {walk : Walk}
    (hbelow : Walk.Below files.root walk.taken walk.current) :
    (names.foldlM Walk.step? walk).map (fun walk => (walk.place, walk.current)) =
      (names.foldlM (fun place name =>
        if files.isDirectory place then Path.follow? place name else none) walk.place).map
        fun place => (place, files.get? place) := by
  induction names generalizing walk with
  | nil => exact congrArg (fun entry => some (walk.place, entry)) (Walk.current_eq_get? hbelow)
  | cons name rest ih =>
      obtain ⟨hplace, hnext⟩ := step?_eq name hbelow
      rw [List.foldlM_cons, List.foldlM_cons, ← hplace]
      cases hstep : walk.step? name with
      | none => rfl
      | some next => exact ih (hnext next hstep)

theorem walk?_eq (files : FileSystem) (names : List Bytes) :
    (files.walk? names).map (fun walk => (walk.place, walk.current)) =
      (files.locate? names).map fun place => (place, files.get? place) :=
  foldlM_step?_eq names rfl

def follow? (files : FileSystem) (path : Bytes) : Option Walk := do
  files.walk? (← Path.names? path)

def find? (files : FileSystem) (path : Bytes) : Option (Place × Entry) := do
  let walk ← files.follow? path
  let entry ← walk.current
  return (walk.place, entry)

/-! ## What programs ask of a file system -/

def exists? (files : FileSystem) (path : Bytes) : Bool := (files.find? path).isSome

def list? (files : FileSystem) (path : Bytes) : Option (List (Bytes × Entry)) :=
  match files.find? path with
  | some (_, .directory children) => some children
  | _ => none

def read? (files : FileSystem) (path : Bytes) : Option Bytes :=
  match files.find? path with
  | some (_, .file content false) => some (unpack content)
  | _ => none

def enter? (files : FileSystem) (place : Place) (name : Bytes) : Option (FileSystem × Place) := do
  let next ← Path.follow? place name
  match files.get? next with
  | none => return (files.put next (.directory []), next)
  | some (.directory _) => return (files, next)
  | some (.file _ _) => none

/--
Makes every missing directory of a path.  The second component says whether the
whole path is there in the end; directories made before a failure stay.
-/
def enterAll (files : FileSystem) (place : Place) : List Bytes → FileSystem × Bool
  | [] => (files, true)
  | name :: rest =>
      match files.enter? place name with
      | some (files, place) => enterAll files place rest
      | none => (files, false)

/--
Makes the directories that names lead through.  A path that ends in a dot does
not make the directory that it ends in, only those above.
-/
def makeNamed (files : FileSystem) (names : List Bytes) : FileSystem × Bool :=
  if Path.endsHere names then
    let (files, made) := files.enterAll [] (Path.withoutTail names).dropLast
    (files, made && (files.walk? names).any fun walk => walk.current.any Entry.isDirectory)
  else
    files.enterAll [] names

/-- The empty path names nothing that is missing, nor does the path of a directory. -/
def makeDirectories (files : FileSystem) (path : Bytes) : FileSystem × Bool :=
  if path = [] ∨ (files.list? path).isSome then (files, true)
  else match Path.names? path with
    | some names => files.makeNamed names
    | none => (files, false)

def write? (files : FileSystem) (path content : Bytes) : Option FileSystem := do
  let walk ← files.follow? path
  if walk.current.any fun entry => entry.isDirectory || entry.isLocked then none
  else return files.put walk.place (.file (pack content))

def append? (files : FileSystem) (path content : Bytes) : Option FileSystem :=
  match files.find? path with
  | some (place, .file old false) => some (files.put place (.file (old ++ pack content)))
  | _ => none

end FileSystem

end Polarity
