import Mathlib
import Polarity.Proofs.FileSystem.Growth

/-!
# Listings

A listing shows the names in a directory, each with the content of a file, or as that
of a directory or of a locked file.  The order of a listing is up to the file system,
but no name stands in it twice: putting an entry at a place keeps the names of every
directory distinct.
-/

namespace Polarity

open Text.Utf8 (Bytes)

/-! ## Entries with distinct names -/

namespace Entry

/-- No two children of a directory, here or below, have the same name. -/
inductive Distinct : Entry → Prop
  | file (content : ByteArray) (locked : Bool) : Distinct (.file content locked)
  | directory {children : List (Bytes × Entry)} (hnames : (children.map Prod.fst).Nodup)
      (hchildren : ∀ name child, (name, child) ∈ children → Distinct child) :
      Distinct (.directory children)

theorem distinct_directory_nil : (directory []).Distinct :=
  .directory List.nodup_nil fun _ _ hmem => absurd hmem List.not_mem_nil

private theorem mem_of_lookup {children : List (Bytes × Entry)} {name : Bytes} {child : Entry}
    (hchild : children.lookup name = some child) : (name, child) ∈ children := by
  obtain ⟨before, after, rfl, -⟩ := List.lookup_eq_some_iff.mp hchild
  simp

theorem Distinct.get? {entry below : Entry} {place : Place} (hentry : entry.Distinct)
    (hbelow : entry.get? place = some below) : below.Distinct := by
  induction place generalizing entry with
  | nil => exact Option.some.inj hbelow ▸ hentry
  | cons name rest ih =>
      cases hentry with
      | file content locked => contradiction
      | directory hnames hchildren =>
          obtain ⟨child, hchild, hrest⟩ := Option.bind_eq_some_iff.mp hbelow
          exact ih (hchildren name child (mem_of_lookup hchild)) hrest

theorem mem_putChild {name : Bytes} {child : Entry} {children : List (Bytes × Entry)}
    {pair : Bytes × Entry} (hpair : pair ∈ putChild name child children) :
    pair = (name, child) ∨ pair ∈ children := by
  induction children with
  | nil => exact .inl (List.mem_singleton.mp hpair)
  | cons first rest ih =>
      rw [putChild] at hpair
      split at hpair <;> grind

theorem nodup_putChild (name : Bytes) (child : Entry) {children : List (Bytes × Entry)}
    (hnames : (children.map Prod.fst).Nodup) :
    ((putChild name child children).map Prod.fst).Nodup := by
  induction children with
  | nil => simp [putChild]
  | cons first rest ih =>
      obtain ⟨other, old⟩ := first
      rw [List.map_cons, List.nodup_cons] at hnames
      rw [putChild]
      split
      · next hsame => simpa [← hsame] using hnames
      · next hother =>
          rw [List.map_cons, List.nodup_cons]
          refine ⟨fun hmem => ?_, ih hnames.2⟩
          obtain ⟨pair, hpair, hname⟩ := List.mem_map.mp hmem
          rcases mem_putChild hpair with rfl | hold
          · exact hother hname.symm
          · exact hnames.1 (List.mem_map.mpr ⟨pair, hold, hname⟩)

theorem Distinct.put {entry root : Entry} (hentry : entry.Distinct) (hroot : root.Distinct)
    (place : Place) : (put entry root place).Distinct := by
  induction place generalizing root with
  | nil => exact hentry
  | cons name rest ih =>
      cases hroot with
      | file content locked => exact .file content locked
      | @directory children hnames hchildren =>
          -- Only the child on the way to the place changes, and it may be a new directory.
          have hchild : ((children.lookup name).getD (.directory [])).Distinct := by
            cases hlookup : children.lookup name with
            | none => exact distinct_directory_nil
            | some child => exact hchildren name child (mem_of_lookup hlookup)
          refine .directory (nodup_putChild name _ hnames) fun other below hmem => ?_
          rcases mem_putChild hmem with hsame | hold
          · obtain ⟨-, rfl⟩ := Prod.mk.inj hsame
            exact ih hchild
          · exact hchildren other below hold

end Entry

namespace FileSystem

def Distinct (files : FileSystem) : Prop := files.root.Distinct

theorem distinct_empty : empty.Distinct := Entry.distinct_directory_nil

theorem Distinct.put {files : FileSystem} (hfiles : files.Distinct) (place : Place) {entry : Entry}
    (hentry : entry.Distinct) : (files.put place entry).Distinct := by
  have hroot := hentry.put hfiles place
  unfold FileSystem.put
  split
  · next children hchildren =>
      rw [hchildren] at hroot
      exact hroot
  · exact hfiles

/-! ## What a listing shows -/

inductive Shown where
  | directory
  | locked
  | file (content : Bytes)
  deriving DecidableEq

def shown : Entry → Shown
  | .directory _ => .directory
  | .file _ true => .locked
  | .file content false => .file (unpack content)

def listing? (files : FileSystem) (path : Bytes) : Option (List (Bytes × Shown)) :=
  (files.list? path).map fun entries => entries.map fun (name, entry) => (name, shown entry)

theorem Distinct.list? {files : FileSystem} (hfiles : files.Distinct) {path : Bytes}
    {entries : List (Bytes × Entry)} (hlist : files.list? path = some entries) :
    (entries.map Prod.fst).Nodup := by
  unfold FileSystem.list? at hlist
  split at hlist
  · next place children hfind =>
      obtain rfl := Option.some.inj hlist
      cases Entry.Distinct.get? hfiles (find?_eq_some hfind).2 with
      | directory hnames hchildren => exact hnames
  · contradiction

theorem Distinct.listing? {files : FileSystem} (hfiles : files.Distinct) {path : Bytes}
    {entries : List (Bytes × Shown)} (hlist : files.listing? path = some entries) :
    (entries.map Prod.fst).Nodup := by
  obtain ⟨entries, hentries, rfl⟩ := Option.map_eq_some_iff.mp hlist
  rw [List.map_map]
  exact hfiles.list? hentries

end FileSystem

end Polarity
