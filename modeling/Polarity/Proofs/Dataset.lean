import Polarity.Dataset
import Polarity.Proofs.Matrix.Picks

/-!
# Datasets as lists of labelled rows

`Dataset.pairs` forgets the matrix and keeps every row beside its label.  Each
operation on datasets is one operation on that list: a pick is a pick, a shuffle
is a shuffle, and joined pools are the rows of the two pools one after the other.
-/

namespace Polarity

open Polarity.Random

variable {α : Type}

theorem addressable_singleton (count : Nat) : addressable [count] = true ↔ count < 2 ^ 60 := by
  have hlimit : addressLimit = 2 ^ 63 - 1 := rfl
  by_cases hcount : count = 0
  · subst hcount
    decide
  · have hnonzero : (count != 0) = true := by simpa using hcount
    simp only [addressable, countable, List.filter_cons, List.filter_nil, hnonzero, if_true,
      List.foldl_cons, List.foldl_nil, Nat.one_mul, Bool.and_eq_true, decide_eq_true_eq, hlimit]
    omega

theorem requireRoom_singleton (count : Nat) : requireRoom [count] = .ok () ↔ count < 2 ^ 60 := by
  rw [requireRoom_eq_ok_iff, addressable_singleton]

namespace Dataset

def pairs (data : Dataset α) : List (List α × α) := data.features.rows.zip data.labels

@[simp] theorem map_fst_pairs (data : Dataset α) : data.pairs.map Prod.fst = data.features.rows :=
  List.map_fst_zip (Nat.le_of_eq data.length_rows_eq)

@[simp] theorem map_snd_pairs (data : Dataset α) : data.pairs.map Prod.snd = data.labels :=
  List.map_snd_zip (Nat.le_of_eq data.length_rows_eq.symm)

@[simp] theorem length_pairs (data : Dataset α) : data.pairs.length = data.size := by
  rw [← List.length_map Prod.snd, map_snd_pairs, size]

/-- The rows at those of the places that exist, each with its label. -/
def pick (places : List Nat) (data : Dataset α) : Dataset α where
  features := data.features.pick places
  labels := Polarity.pick data.labels places
  height_eq := length_pick_congr data.length_rows_eq places

theorem rowsAt_eq_pick {places : List Nat} {data : Dataset α}
    (hplaces : ∀ place ∈ places, place < data.size) : data.rowsAt places hplaces = data.pick places := by
  have hrows : ∀ place ∈ places, place < data.features.height := by
    rw [data.height_eq]
    exact hplaces
  ext1
  · exact Matrix.rowsAt_eq_pick hrows
  · exact itemsAt_eq_pick hplaces

theorem rowsAtEach_eq_map {groups : List (List Nat)} {data : Dataset α}
    (hgroups : ∀ places ∈ groups, ∀ place ∈ places, place < data.size) :
    data.rowsAtEach groups hgroups = groups.map fun places => data.pick places := by
  rw [rowsAtEach_eq_pmap, ← List.pmap_eq_map hgroups]
  exact List.pmap_congr_left groups fun _ _ hplaces _ => rowsAt_eq_pick hplaces

theorem pairs_pick (places : List Nat) (data : Dataset α) :
    (data.pick places).pairs = Polarity.pick data.pairs places := by
  rw [pairs, pairs, pick_zip data.length_rows_eq]
  simp [pick]

theorem size_pick {places : List Nat} {data : Dataset α}
    (hplaces : ∀ place ∈ places, place < data.size) :
    (data.pick places).size = places.length := by
  rw [← length_pairs, pairs_pick, length_pick (by simpa using hplaces)]

def ofPair (pair : List α × α) : Dataset α := ⟨.ofRow pair.1, [pair.2], rfl⟩

@[simp] theorem pairs_ofPair (pair : List α × α) : (ofPair pair).pairs = [pair] := by
  simp [pairs, ofPair, Matrix.rows_ofRow]

theorem pick_singleton {data : Dataset α} {place : Nat} {pair : List α × α}
    (hpair : data.pairs[place]? = some pair) : data.pick [place] = .ofPair pair := by
  obtain ⟨hrow, hlabel⟩ := List.getElem?_zip_eq_some.mp hpair
  ext1
  · exact Matrix.pick_singleton hrow
  · simp [pick, ofPair, Polarity.pick, hlabel]

theorem length_of_mem_pairs {data : Dataset α} {pair : List α × α} (hpair : pair ∈ data.pairs) :
    pair.1.length = data.width :=
  Matrix.length_of_mem_rows (List.of_mem_zip hpair).1

theorem shuffled_eq_pick (generator : Generator) (data : Dataset α) :
    data.shuffled generator =
      (data.pick (shuffle (List.range data.size) generator).1,
        (shuffle (List.range data.size) generator).2) := by
  rw [shuffled, rowsAt_eq_pick]

theorem pairs_shuffled (generator : Generator) (data : Dataset α) :
    ((data.shuffled generator).1.pairs, (data.shuffled generator).2) =
      shuffle data.pairs generator := by
  rw [shuffle_eq_pick, length_pairs, shuffled_eq_pick, pairs_pick]

private theorem zip_replicate_length {β γ : Type} (items : List β) (value : γ) :
    items.zip (List.replicate items.length value) = items.map (·, value) := by
  induction items with
  | nil => rfl
  | cons item rest ih =>
      simp only [List.length_cons, List.replicate_succ, List.zip_cons_cons, List.map_cons, ih]

theorem ofPools_eq_ok [Zero α] [One α] {positive negative : Matrix α}
    (hwidth : positive.width = negative.width)
    (hroom : positive.height + negative.height < 2 ^ 60) :
    ∃ data : Dataset α, ofPools positive negative = .ok data ∧ data.width = positive.width ∧
      data.pairs = positive.rows.map (·, 1) ++ negative.rows.map (·, 0) := by
  have hlabels : addressable [positive.height + negative.height] = true :=
    (addressable_singleton _).mpr hroom
  have hfit : positive.width = negative.width ∧
      countable [positive.height + negative.height] = true :=
    ⟨hwidth, (Bool.and_eq_true_iff.mp hlabels).1⟩
  refine ⟨_, by rw [ofPools, dif_pos hfit, (requireRoom_singleton _).mpr hroom]; rfl, rfl, ?_⟩
  have hpositive : positive.rows.length = (List.replicate positive.height (1 : α)).length := by simp
  rw [pairs, Matrix.rows_append, List.zip_append hpositive, ← positive.length_rows,
    ← negative.length_rows, zip_replicate_length, zip_replicate_length]

theorem fits_of_ofPools [Zero α] [One α] {positive negative : Matrix α} {data : Dataset α}
    (hdata : ofPools positive negative = .ok data) :
    positive.width = negative.width ∧ positive.height + negative.height < 2 ^ 60 := by
  rw [ofPools] at hdata
  split at hdata
  · next hfit =>
      obtain ⟨_, hroom, -⟩ := bind_eq_ok.mp hdata
      exact ⟨hfit.1, (requireRoom_singleton _).mp hroom⟩
  · contradiction

end Dataset

end Polarity
