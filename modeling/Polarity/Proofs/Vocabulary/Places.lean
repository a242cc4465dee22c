import Polarity.Proofs.Vocabulary

/-!
# Words and their places

The words of a vocabulary are distinct, so a word and its place determine each
other.  A vocabulary that is cut short keeps the places and the counts of the
words that it keeps and forgets the others; in particular a small vocabulary of
some documents is the beginning of a large one.
-/

namespace Polarity.Vocabulary

theorem exists_word? {vocabulary : Vocabulary} {place : Nat} (hplace : place < vocabulary.size) :
    ∃ word, vocabulary.word? place = some word := by
  rw [word?_eq_getElem?]
  exact ⟨_, List.getElem?_eq_getElem (by simpa using hplace)⟩

/-! ## Counts -/

theorem count?_eq_some_iff {vocabulary : Vocabulary} {word : String} {count : Nat} :
    vocabulary.count? word = some count ↔ (word, count) ∈ vocabulary.entries := by
  rw [count?, List.lookup_eq_some_iff]
  constructor
  · rintro ⟨before, after, hentries, -⟩
    simp [hentries]
  · intro hentry
    obtain ⟨before, after, hentries⟩ := List.append_of_mem hentry
    refine ⟨before, after, hentries, fun earlier hearlier => ?_⟩
    have hnodup := vocabulary.nodup
    rw [hentries, List.map_append, List.nodup_append] at hnodup
    have hother := hnodup.2.2 earlier.1 (List.mem_map_of_mem hearlier) word (by simp)
    simpa using hother.symm

theorem count?_eq_none_iff {vocabulary : Vocabulary} {word : String} :
    vocabulary.count? word = none ↔ word ∉ vocabulary.words := by
  simp only [Option.eq_none_iff_forall_ne_some, ne_eq, count?_eq_some_iff, words, List.mem_map,
    Prod.exists, exists_and_right, exists_eq_right, not_exists]

/-! ## Cutting short -/

@[simp] theorem words_take (count : Nat) (vocabulary : Vocabulary) :
    (vocabulary.take count).words = vocabulary.words.take count := by
  simp [words, take]

@[simp] theorem size_take (count : Nat) (vocabulary : Vocabulary) :
    (vocabulary.take count).size = min count vocabulary.size := by
  simp [size, take]

theorem take_min_size (count : Nat) (vocabulary : Vocabulary) :
    vocabulary.take (min count vocabulary.size) = vocabulary.take count := by
  simp [take, size, ← List.take_eq_take_min]

theorem word?_take {count place : Nat} (hplace : place < count) (vocabulary : Vocabulary) :
    (vocabulary.take count).word? place = vocabulary.word? place := by
  simp [word?_eq_getElem?, hplace]

theorem place?_take {count : Nat} {vocabulary : Vocabulary} {word : String}
    (hword : word ∈ (vocabulary.take count).words) :
    (vocabulary.take count).place? word = vocabulary.place? word := by
  obtain ⟨place, hplace⟩ : ∃ place, (vocabulary.take count).place? word = some place :=
    Option.ne_none_iff_exists'.mp fun hnone => place?_eq_none_iff.mp hnone hword
  have hlt : place < count := by
    have := lt_size_of_place? hplace
    simp only [size_take] at this
    omega
  rw [hplace, eq_comm, place?_eq_some_iff, ← word?_take hlt, ← place?_eq_some_iff, hplace]

theorem count?_take {count : Nat} {vocabulary : Vocabulary} {word : String}
    (hword : word ∈ (vocabulary.take count).words) :
    (vocabulary.take count).count? word = vocabulary.count? word := by
  obtain ⟨number, hnumber⟩ : ∃ number, (vocabulary.take count).count? word = some number :=
    Option.ne_none_iff_exists'.mp fun hnone => count?_eq_none_iff.mp hnone hword
  have hentry : (word, number) ∈ vocabulary.entries :=
    List.mem_of_mem_take (count?_eq_some_iff.mp hnumber)
  rw [hnumber, count?_eq_some_iff.mpr hentry]

theorem build_eq_take {small large : Nat} (hsizes : small ≤ large) (documents : List Document) :
    build documents small = (build documents large).take small := by
  simp [build, ofWords, take, List.take_take, hsizes]

end Polarity.Vocabulary
