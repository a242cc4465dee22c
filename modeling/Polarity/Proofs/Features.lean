import Mathlib
import Polarity.Features
import Polarity.Proofs.Matrix
import Polarity.Proofs.Vocabulary.Places

/-!
# Features tell which words occur

A row of features is filled by scanning a document and looking every word up.
The result does not show the scan: there is a one exactly for the words of the
vocabulary that occur, whatever their order and number.  A vocabulary that is cut
short therefore cuts the rows.
-/

namespace Polarity.Featurizer

variable {α : Type} [One α]

/-! ## Scanning -/

private theorem getElem?_mark (featurizer : Featurizer) (row : Vector α featurizer.width)
    (word : String) (place : Nat) :
    (featurizer.mark row word)[place]? =
      if featurizer.places[word]? = some place then some 1 else row[place]? := by
  unfold mark
  split
  · next found hfound =>
      rw [Vector.getElem?_set]
      simp only [hfound, Option.some.injEq]
  · next hnone => simp [hnone]

private theorem getElem?_foldl_mark (featurizer : Featurizer) (words : List String)
    (row : Vector α featurizer.width) (place : Nat) :
    (words.foldl featurizer.mark row)[place]? =
      if ∃ word ∈ words, featurizer.places[word]? = some place then some 1 else row[place]? := by
  induction words generalizing row with
  | nil => simp
  | cons word rest ih =>
      rw [List.foldl_cons, ih, getElem?_mark]
      simp only [List.exists_mem_cons_iff]
      by_cases hword : featurizer.places[word]? = some place <;> simp [hword]

variable [Zero α]

theorem row_eq_map (vocabulary : Vocabulary) (document : Document) :
    ((ofVocabulary vocabulary).row document : List α) =
      vocabulary.words.map fun word => if word ∈ document.words then 1 else 0 := by
  apply List.ext_getElem?
  intro place
  have hwidth : (ofVocabulary vocabulary).width = vocabulary.size := rfl
  have hvocabulary : (ofVocabulary vocabulary).vocabulary = vocabulary := rfl
  rw [row, Vector.getElem?_toList, getElem?_foldl_mark, List.getElem?_map,
    ← Vocabulary.word?_eq_getElem?, Vector.getElem?_replicate, hwidth]
  simp only [getElem?_places, hvocabulary, Vocabulary.place?_eq_some_iff]
  by_cases hplace : place < vocabulary.size
  · obtain ⟨found, hfound⟩ := Vocabulary.exists_word? hplace
    simp only [hfound, hplace, Option.some.injEq, exists_eq_right', if_true, Option.map_some]
    split <;> rfl
  · have hnone : vocabulary.word? place = none := by
      rw [Vocabulary.word?_eq_getElem?, List.getElem?_eq_none_iff]
      simpa using hplace
    simp [hnone, hplace]

/-! ## Matrices -/

theorem rows_matrix (featurizer : Featurizer) (documents : List Document) :
    (featurizer.matrix documents : Matrix α).rows = documents.map featurizer.row :=
  Matrix.rows_ofRows _

theorem height_matrix (featurizer : Featurizer) (documents : List Document) :
    (featurizer.matrix documents : Matrix α).height = documents.length := by
  rw [← Matrix.length_rows, rows_matrix, List.length_map]

theorem hasShape_matrix (vocabulary : Vocabulary) (documents : List Document) :
    ((ofVocabulary vocabulary).matrix documents : Matrix α).HasShape documents.length
      vocabulary.size :=
  ⟨height_matrix _ documents, rfl⟩

example :
    ((ofVocabulary (.build [.ofWords ["good", "bad", "good"]] 2)).row
      (.ofWords ["good", "good", "ugly"]) : List Nat) = [1, 0] := by
  rw [row_eq_map]
  cbv

/-! ## Fewer words -/

theorem row_take (count : Nat) (vocabulary : Vocabulary) (document : Document) :
    ((ofVocabulary (vocabulary.take count)).row document : List α) =
      ((ofVocabulary vocabulary).row document).take count := by
  rw [row_eq_map, row_eq_map, Vocabulary.words_take, List.map_take]

theorem columns_take (count : Nat) (vocabulary : Vocabulary) (documents : List Document) :
    ((ofVocabulary (vocabulary.take count)).matrix documents : Matrix α).columns =
      ((ofVocabulary vocabulary).matrix documents).columns.take count := by
  rw [Matrix.columns, Matrix.columns, rows_matrix, rows_matrix, (hasShape_matrix _ _).width_eq,
    (hasShape_matrix _ _).width_eq, Vocabulary.size_take]
  induction documents with
  | nil => simp [Matrix.columnsOf]
  | cons document documents ih =>
      rw [List.map_cons, List.map_cons, Matrix.columnsOf_cons, Matrix.columnsOf_cons, ih, row_take,
        List.take_zipWith]

/--
The vocabulary of fewer words is the beginning of the vocabulary of more: the words
that are kept have the same places and counts and the others none, and the features
are the first columns.
-/
theorem smaller_vocabulary_drops_columns {small large : Nat} (hsizes : small ≤ large)
    (training documents : List Document) :
    let few := Vocabulary.build training small
    let many := Vocabulary.build training large
    few.size = min small many.size ∧
    few.entries = many.entries.take (min small many.size) ∧
    (∀ place < few.size, few.word? place = many.word? place) ∧
    (∀ word ∈ few.words,
      few.place? word = many.place? word ∧ few.count? word = many.count? word) ∧
    (∀ word, word ∉ few.words → few.place? word = none ∧ few.count? word = none) ∧
    ((ofVocabulary few).matrix documents : Matrix α).HasShape documents.length few.size ∧
    ((ofVocabulary few).matrix documents : Matrix α).columns =
      ((ofVocabulary many).matrix documents).columns.take few.size := by
  intro few many
  have hsmall : few = many.take small := Vocabulary.build_eq_take hsizes training
  have hsize : few.size = min small many.size := by rw [hsmall, Vocabulary.size_take]
  have hfew : few = many.take few.size := by rw [hsize, Vocabulary.take_min_size, hsmall]
  refine ⟨hsize, ?_, ?_, ?_, ?_, hasShape_matrix few documents, ?_⟩
  · rw [← hsize]
    exact congrArg Vocabulary.entries hfew
  · intro place hplace
    rw [hfew]
    exact Vocabulary.word?_take hplace many
  · intro word hword
    rw [hfew] at hword ⊢
    exact ⟨Vocabulary.place?_take hword, Vocabulary.count?_take hword⟩
  · intro word hword
    exact ⟨Vocabulary.place?_eq_none_iff.mpr hword, Vocabulary.count?_eq_none_iff.mpr hword⟩
  · rw [← columns_take, ← hfew]

def tiedReviews : List Document :=
  [.ofWords ["zebra", "apple"], .ofWords ["mango", "fig", "apple", "zebra", "mango"]]

theorem tied_words_drop_columns :
    (Vocabulary.build tiedReviews 1).words = ["zebra"] ∧
    (Vocabulary.build tiedReviews 3).words = ["zebra", "apple", "mango"] ∧
    (Vocabulary.build tiedReviews 1).place? "apple" = none ∧
    ((ofVocabulary (.build tiedReviews 1)).matrix tiedReviews : Matrix Nat).HasShape 2 1 ∧
    ((ofVocabulary (.build tiedReviews 1)).matrix tiedReviews : Matrix Nat).columns =
      ((ofVocabulary (.build tiedReviews 3)).matrix tiedReviews).columns.take 1 := by
  have hfew : (Vocabulary.build tiedReviews 1).words = ["zebra"] := by cbv
  have hmany : (Vocabulary.build tiedReviews 3).words = ["zebra", "apple", "mango"] := by cbv
  have hsize : (Vocabulary.build tiedReviews 1).size = 1 := by
    rw [← Vocabulary.length_words, hfew, List.length_singleton]
  obtain ⟨-, -, -, -, hcut, hshape, hcolumns⟩ :=
    smaller_vocabulary_drops_columns (α := Nat) (by decide : 1 ≤ 3) tiedReviews tiedReviews
  rw [hsize] at hshape hcolumns
  exact ⟨hfew, hmany, (hcut "apple" (by simp [hfew])).1, hshape, hcolumns⟩

end Polarity.Featurizer
