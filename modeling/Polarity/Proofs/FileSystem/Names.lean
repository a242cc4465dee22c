import Polarity.Proofs.FileSystem

/-!
# Names in a directory

A plain name that is put after the path of a directory is the last name of the place
that the whole path leads to, so two such names never lead to one place.
-/

namespace Polarity

open Text.Utf8 (Bytes ofString)

theorem Text.Utf8.ofString_append (left right : String) :
    ofString (left ++ right) = ofString left ++ ofString right := by
  simp [ofString, encode, String.toList_append]

namespace Path

/-- A name that leads to nothing but what it names. -/
def IsPlain (name : Bytes) : Prop := slash ∉ name ∧ name ≠ [] ∧ name ≠ here ∧ name ≠ up
  deriving Decidable

private theorem follow?_plain {place next : Place} {name : Bytes} (hplain : IsPlain name)
    (hfollow : follow? place name = some next) : next = place ++ [name] := by
  obtain ⟨-, hempty, hhere, hup⟩ := hplain
  simp only [follow?, hempty, hhere, hup, or_self, if_false] at hfollow
  split at hfollow
  · exact (Option.some.inj hfollow).symm
  · contradiction

private theorem ofString_join (directory name : String) :
    ofString (join directory name) = ofString name ∨
      ∃ above, ofString (join directory name) = above ++ slash :: ofString name := by
  unfold join
  split
  · exact .inl rfl
  · split
    · next hslash =>
        have hlast : directory.toList.getLast? = some '/' := by simpa using hslash
        obtain ⟨front, hfront⟩ := List.getLast?_eq_some_iff.mp hlast
        have hdirectory : ofString directory = Text.Utf8.encode front ++ [slash] := by
          rw [ofString, hfront, Text.Utf8.encode, List.flatMap_append]
          rfl
        exact .inr ⟨Text.Utf8.encode front, by simp [Text.Utf8.ofString_append, hdirectory]⟩
    · refine .inr ⟨ofString directory, ?_⟩
      rw [Text.Utf8.ofString_append, Text.Utf8.ofString_append, List.append_assoc]
      rfl

end Path

namespace FileSystem

private theorem locateFrom?_append_eq_some {files : FileSystem} {place final : Place}
    {names : List Bytes} {name : Bytes}
    (hlocate : files.locateFrom? place (names ++ [name]) = some final) :
    ∃ last, Path.follow? last name = some final := by
  induction names generalizing place with
  | nil =>
      obtain ⟨-, next, hnext, hrest⟩ := locateFrom?_cons_eq_some.mp hlocate
      exact ⟨place, Option.some.inj hrest ▸ hnext⟩
  | cons first rest ih =>
      obtain ⟨-, next, -, hrest⟩ := locateFrom?_cons_eq_some.mp hlocate
      exact ih hrest

theorem getLast?_of_place?_join {files : FileSystem} {directory name : String} {place : Place}
    (hplain : Path.IsPlain (ofString name))
    (hplace : files.place? (ofString (Path.join directory name)) = some place) :
    place.getLast? = some (ofString name) := by
  have hsingle : (ofString name).splitOnP (· == Path.slash) = [ofString name] := by
    refine List.splitOnP_eq_singleton fun byte hbyte => ?_
    simp only [beq_eq_false_iff_ne]
    rintro rfl
    exact hplain.1 hbyte
  have hnames : ∃ above, (ofString (Path.join directory name)).splitOnP (· == Path.slash) =
      above ++ [ofString name] := by
    rcases Path.ofString_join directory name with hjoin | ⟨above, hjoin⟩
    · exact ⟨[], by rw [hjoin, hsingle, List.nil_append]⟩
    · rw [hjoin, List.splitOnP_append_cons (p := (· == Path.slash)) _ _ (beq_self_eq_true _), hsingle]
      exact ⟨_, rfl⟩
  obtain ⟨names, hpath, hlocate⟩ := Option.bind_eq_some_iff.mp hplace
  obtain ⟨above, hnames⟩ := hnames
  rw [Path.names?, hnames] at hpath
  split at hpath
  · contradiction
  · obtain rfl := Option.some.inj hpath
    obtain ⟨last, hlast⟩ := locateFrom?_append_eq_some hlocate
    rw [Path.follow?_plain hplain hlast, List.getLast?_concat]

end FileSystem

end Polarity
