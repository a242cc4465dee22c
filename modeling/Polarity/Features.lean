import Polarity.Matrix
import Polarity.Vocabulary

/-!
# Features

The features of a document say which words of a vocabulary occur in it: one for
a word that does, zero for one that does not.  Counts and order are forgotten.
-/

namespace Polarity

structure Featurizer where
  vocabulary : Vocabulary
  places : Std.HashMap String Nat
  getElem?_places : ∀ word, places[word]? = vocabulary.place? word

namespace Featurizer

private theorem getElem?_ofList_zipIdx (vocabulary : Vocabulary) (word : String) :
    (Std.HashMap.ofList vocabulary.words.zipIdx)[word]? = vocabulary.place? word := by
  have hdistinct : vocabulary.words.zipIdx.Pairwise fun left right => (left.1 == right.1) = false := by
    have hnodup : (vocabulary.words.zipIdx.map Prod.fst).Nodup := by
      rw [List.zipIdx_map_fst]
      exact vocabulary.nodup
    exact (List.pairwise_map.mp hnodup).imp fun hne => beq_false_of_ne hne
  cases hplace : vocabulary.place? word with
  | none =>
      apply Std.HashMap.getElem?_ofList_of_contains_eq_false
      rw [List.zipIdx_map_fst]
      simpa using Vocabulary.place?_eq_none_iff.mp hplace
  | some place =>
      rw [Vocabulary.place?_eq_some_iff, Vocabulary.word?_eq_getElem?] at hplace
      exact Std.HashMap.getElem?_ofList_of_mem (beq_self_eq_true word) hdistinct
        (List.mk_mem_zipIdx_iff_getElem?.mpr hplace)

def ofVocabulary (vocabulary : Vocabulary) : Featurizer where
  vocabulary := vocabulary
  places := Std.HashMap.ofList vocabulary.words.zipIdx
  getElem?_places := getElem?_ofList_zipIdx vocabulary

def width (featurizer : Featurizer) : Nat := featurizer.vocabulary.size

theorem lt_width {featurizer : Featurizer} {word : String} {place : Nat}
    (hplace : featurizer.places[word]? = some place) : place < featurizer.width := by
  rw [featurizer.getElem?_places] at hplace
  exact Vocabulary.lt_size_of_place? hplace

variable {α : Type} [One α]

def mark (featurizer : Featurizer) (row : Vector α featurizer.width) (word : String) :
    Vector α featurizer.width :=
  match hplace : featurizer.places[word]? with
  | some place => row.set place 1 (lt_width hplace)
  | none => row

variable [Zero α]

def row (featurizer : Featurizer) (document : Document) : List α :=
  (document.words.foldl featurizer.mark (Vector.replicate featurizer.width 0)).toList

@[simp] theorem length_row (featurizer : Featurizer) (document : Document) :
    (featurizer.row document : List α).length = featurizer.width :=
  Vector.length_toList

def matrix (featurizer : Featurizer) (documents : List Document) : Matrix α :=
  .ofRows featurizer.width (documents.map featurizer.row) (by simp)

end Featurizer

end Polarity
