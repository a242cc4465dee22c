import Polarity.Proofs.FileSystem

/-!
# File systems that grow

As long as directories stay directories, a path that leads to a place goes on
leading there.  Making directories, writing a file and appending to one are all of
this kind, so a place can be followed through any number of them.
-/

namespace Polarity.FileSystem

open Text.Utf8 (Bytes)

/-! ## Paths keep their places -/

def KeepsDirectories (before after : FileSystem) : Prop :=
  ∀ place, before.isDirectory place = true → after.isDirectory place = true

namespace KeepsDirectories

variable {before between after : FileSystem}

theorem refl (files : FileSystem) : KeepsDirectories files files := fun _ hplace => hplace

theorem trans (hfirst : KeepsDirectories before between)
    (hsecond : KeepsDirectories between after) : KeepsDirectories before after :=
  fun place hplace => hsecond place (hfirst place hplace)

theorem locateFrom? (hkeeps : KeepsDirectories before after) {place final : Place}
    {names : List Bytes} (hlocate : before.locateFrom? place names = some final) :
    after.locateFrom? place names = some final := by
  induction names generalizing place with
  | nil => exact hlocate
  | cons name rest ih =>
      obtain ⟨hdirectory, next, hnext, hrest⟩ := locateFrom?_cons_eq_some.mp hlocate
      exact locateFrom?_cons_eq_some.mpr ⟨hkeeps place hdirectory, next, hnext, ih hrest⟩

theorem place? (hkeeps : KeepsDirectories before after) {path : Bytes} {place : Place}
    (hplace : before.place? path = some place) : after.place? path = some place := by
  obtain ⟨names, hnames, hlocate⟩ := Option.bind_eq_some_iff.mp hplace
  exact Option.bind_eq_some_iff.mpr ⟨names, hnames, hkeeps.locateFrom? hlocate⟩

end KeepsDirectories

theorem OnlyDirectories.keepsDirectories {before after : FileSystem}
    (hmade : OnlyDirectories before after) : KeepsDirectories before after :=
  fun _ => hmade.isDirectory

theorem keepsDirectories_of_look {before after : FileSystem} {place : Place}
    {entry : Option (Option Bytes)} (hplace : before.isDirectory place = false)
    (hlook : ∀ other, after.look other = if other = place then entry else before.look other) :
    KeepsDirectories before after := by
  intro other hother
  have hne : other ≠ place := by
    rintro rfl
    rw [hplace] at hother
    contradiction
  rw [isDirectory_iff] at hother ⊢
  rw [hlook, if_neg hne, hother]

theorem content?_eq_some_iff {files : FileSystem} {place : Place} {content : Bytes} :
    files.content? place = some content ↔ files.look place = some (some content) := by
  rw [content?_eq]
  exact Option.join_eq_some_iff

theorem content?_eq_none_iff {files : FileSystem} {place : Place} :
    files.content? place = none ↔ files.look place = none ∨ files.isDirectory place = true := by
  rw [content?_eq, isDirectory_iff]
  rcases files.look place with _ | _ | content <;> simp

theorem isDirectory_of_content? {files : FileSystem} {place : Place} {content : Bytes}
    (hcontent : files.content? place = some content) : files.isDirectory place = false := by
  rw [content?_eq_some_iff] at hcontent
  rw [← Bool.not_eq_true, isDirectory_iff, hcontent]
  nofun

/-! ## What is there, and appending to it -/

theorem exists?_eq (files : FileSystem) (path : Bytes) :
    files.exists? path = (files.place? path).any fun place => (files.look place).isSome := by
  rw [exists?, find?_eq]
  cases files.place? path with
  | none => rfl
  | some place =>
      simp only [Option.bind_eq_bind, Option.bind_some, Option.any_some, look, Option.isSome_map]
      cases files.get? place <;> rfl

theorem find?_eq_some {files : FileSystem} {path : Bytes} {place : Place} {entry : Entry}
    (hfind : files.find? path = some (place, entry)) :
    files.place? path = some place ∧ files.get? place = some entry := by
  rw [find?_eq] at hfind
  obtain ⟨found, hplace, hfind⟩ := Option.bind_eq_some_iff.mp hfind
  obtain ⟨there, hget, hfind⟩ := Option.bind_eq_some_iff.mp hfind
  obtain ⟨rfl, rfl⟩ := Prod.mk.inj (Option.some.inj hfind)
  exact ⟨hplace, hget⟩

theorem look_of_append? {files after : FileSystem} {path content : Bytes}
    (happend : files.append? path content = some after) :
    ∃ place old, files.place? path = some place ∧ files.content? place = some old ∧
      ∀ other, after.look other =
        if other = place then some (some (old ++ content)) else files.look other := by
  unfold append? at happend
  split at happend
  · next place old hfind =>
      obtain ⟨hplace, hget⟩ := find?_eq_some hfind
      obtain rfl := Option.some.inj happend
      have hcontent : files.content? place = some (unpack old) := by
        rw [FileSystem.content?, hget]
      refine ⟨place, unpack old, hplace, hcontent, fun other => ?_⟩
      rw [look_put (fun _ _ => rfl) (isDirectory_of_content? hcontent) (standsIn_place? hplace),
        Entry.content?, unpack_append, unpack_pack]
  · contradiction

end Polarity.FileSystem
