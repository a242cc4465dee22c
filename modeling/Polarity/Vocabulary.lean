import Polarity.Document
import Std.Data.HashMap
import Std.Data.HashSet

/-!
# Vocabularies

A vocabulary lists distinct words with their counts; the place of a word is the
column of its feature.  It is built from documents by counting all words and
keeping the most frequent ones.  Among words of one count, the one that occurs
first comes first.
-/

namespace Polarity

/-! ## Distinct words -/

/-- `seen` holds exactly the words kept so far; the last of them stands first. -/
def distinctFrom (seen : Std.HashSet String) (kept : List String) : List String → List String
  | [] => kept.reverse
  | word :: rest =>
      if seen.contains word then distinctFrom seen kept rest
      else distinctFrom (seen.insert word) (word :: kept) rest

def distinct (words : List String) : List String := distinctFrom ∅ [] words

private theorem nodup_distinctFrom {seen : Std.HashSet String} {kept words : List String}
    (hkept : kept.Nodup) (hseen : ∀ word ∈ kept, seen.contains word = true) :
    (distinctFrom seen kept words).Nodup := by
  induction words generalizing seen kept with
  | nil => exact (List.reverse_perm kept).nodup_iff.mpr hkept
  | cons word rest ih =>
      rw [distinctFrom]
      split
      · exact ih hkept hseen
      · rename_i hnew
        refine ih (List.nodup_cons.mpr ⟨fun hmem => hnew (hseen word hmem), hkept⟩) ?_
        intro other hother
        rcases List.mem_cons.mp hother with rfl | hother
        · simp
        · simp [hseen other hother]

theorem nodup_distinct (words : List String) : (distinct words).Nodup :=
  nodup_distinctFrom List.nodup_nil (by simp)

/-! ## The type -/

structure Vocabulary where
  entries : List (String × Nat)
  nodup : (entries.map Prod.fst).Nodup

namespace Vocabulary

def annotate (words : List String) (number : String → Nat) : Vocabulary where
  entries := (distinct words).map fun word => (word, number word)
  nodup := by simpa [List.map_map, Function.comp_def] using nodup_distinct words

def size (vocabulary : Vocabulary) : Nat := vocabulary.entries.length

def isEmpty (vocabulary : Vocabulary) : Bool := vocabulary.entries.isEmpty

def words (vocabulary : Vocabulary) : List String := vocabulary.entries.map Prod.fst

def word? (vocabulary : Vocabulary) (place : Nat) : Option String :=
  vocabulary.entries[place]?.map Prod.fst

def place? (vocabulary : Vocabulary) (word : String) : Option Nat :=
  vocabulary.words.findIdx? (· == word)

def count? (vocabulary : Vocabulary) (word : String) : Option Nat :=
  vocabulary.entries.lookup word

def contains (vocabulary : Vocabulary) (word : String) : Bool :=
  (vocabulary.count? word).isSome

/-! ## Places -/

@[simp] theorem length_words (vocabulary : Vocabulary) :
    vocabulary.words.length = vocabulary.size := by
  simp [words, size]

theorem word?_eq_getElem? (vocabulary : Vocabulary) (place : Nat) :
    vocabulary.word? place = vocabulary.words[place]? := by
  simp [word?, words]

theorem place?_eq_some_iff {vocabulary : Vocabulary} {word : String} {place : Nat} :
    vocabulary.place? word = some place ↔ vocabulary.word? place = some word := by
  have hnodup : vocabulary.words.Nodup := vocabulary.nodup
  rw [place?, word?_eq_getElem?, List.findIdx?_eq_some_iff_getElem]
  constructor
  · rintro ⟨hplace, hword, -⟩
    rw [List.getElem?_eq_getElem hplace, beq_iff_eq.mp hword]
  · intro hword
    obtain ⟨hplace, rfl⟩ := List.getElem?_eq_some_iff.mp hword
    refine ⟨hplace, beq_self_eq_true _, fun earlier hearlier => ?_⟩
    have hother := List.pairwise_iff_getElem.mp hnodup earlier place (by omega) hplace hearlier
    simpa using hother

theorem place?_eq_none_iff {vocabulary : Vocabulary} {word : String} :
    vocabulary.place? word = none ↔ word ∉ vocabulary.words := by
  rw [place?, List.findIdx?_eq_none_iff]
  constructor
  · intro hnone hmem
    simpa using hnone word hmem
  · intro hmem other hother
    exact beq_false_of_ne fun hequal => hmem (hequal ▸ hother)

theorem lt_size_of_place? {vocabulary : Vocabulary} {word : String} {place : Nat}
    (hplace : vocabulary.place? word = some place) : place < vocabulary.size := by
  rw [place?_eq_some_iff, word?_eq_getElem?] at hplace
  obtain ⟨hlt, -⟩ := List.getElem?_eq_some_iff.mp hplace
  simpa using hlt

/-! ## Building -/

def countWord (counts : Std.HashMap String Nat) (word : String) : Std.HashMap String Nat :=
  counts.insert word (counts.getD word 0 + 1)

def tally (words : List String) : Vocabulary :=
  let counts := words.foldl countWord ∅
  annotate words fun word => counts.getD word 0

/-- Higher counts first; the sort keeps the order of equal counts. -/
def ranked (vocabulary : Vocabulary) : Vocabulary where
  entries := vocabulary.entries.mergeSort fun left right => decide (right.2 ≤ left.2)
  nodup := ((List.mergeSort_perm _ _).map Prod.fst).nodup_iff.mpr vocabulary.nodup

def take (size : Nat) (vocabulary : Vocabulary) : Vocabulary where
  entries := vocabulary.entries.take size
  nodup := vocabulary.nodup.sublist ((List.take_sublist _ _).map Prod.fst)

def ofWords (words : List String) (size : Nat) : Vocabulary := (tally words).ranked.take size

def build (documents : List Document) (size : Nat) : Vocabulary :=
  ofWords (documents.flatMap Document.words) size

/-! ## JSON -/

/-- A word given twice keeps its first place and its last count. -/
def ofPairs (pairs : List (String × Nat)) : Vocabulary :=
  let counts := Std.HashMap.ofList pairs
  annotate (pairs.map Prod.fst) fun word => counts.getD word 0

def fieldNames : List String := ["word_counts"]

def pairToJson (pair : String × Nat) : Json.Value := .array [.ofText pair.1, .ofNat pair.2]

def toJson (vocabulary : Vocabulary) : Json.Value :=
  .record [("word_counts", .ofList pairToJson vocabulary.entries)]

def pairOfJson? : Json.Value → Option (String × Nat)
  | .array [word, count] => do return (← word.text?, ← count.nat?)
  | _ => none

def ofJson? (value : Json.Value) : Option Vocabulary := do
  match ← value.fields? fieldNames with
  | [some pairs] => return ofPairs (← pairs.list? pairOfJson?)
  | _ => none

end Vocabulary

end Polarity
