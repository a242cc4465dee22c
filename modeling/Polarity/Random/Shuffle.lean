import Polarity.Random.Generator

/-!
# Shuffling

The last place is filled first: the item at place `i` changes places with the
item at a place drawn from `0, ..., i`, for `i` from the last place down to the
second.  Fewer than two items take no draw.
-/

namespace Polarity.Random

/-- Fills the places `place`, `place - 1`, ..., `1`. -/
def shuffleFrom {α : Type} :
    (place : Nat) → (items : Array α) → place ≤ items.size - 1 → Generator → Array α × Generator
  | 0, items, _, generator => (items, generator)
  | place + 1, items, hplace, generator =>
      let drawn := generator.below (place + 2)
      have hdrawn : drawn.1 < place + 2 := Generator.below_lt (by omega) generator
      shuffleFrom place (items.swap (place + 1) drawn.1 (by omega) (by omega))
        (by rw [Array.size_swap]; omega) drawn.2

def shuffle {α : Type} (items : List α) (generator : Generator) : List α × Generator :=
  let (shuffled, generator) :=
    shuffleFrom (items.length - 1) items.toArray (by simp) generator
  (shuffled.toList, generator)

private theorem shuffleFrom_perm {α : Type} {place : Nat} {items : Array α}
    (hplace : place ≤ items.size - 1) (generator : Generator) :
    (shuffleFrom place items hplace generator).1.Perm items := by
  induction place generalizing items generator with
  | zero => exact .refl items
  | succ place ih => exact (ih _ _).trans (Array.swap_perm _ _)

theorem shuffle_perm {α : Type} (items : List α) (generator : Generator) :
    (shuffle items generator).1.Perm items :=
  Array.perm_iff_toList_perm.mp (shuffleFrom_perm _ generator)

theorem lt_of_mem_shuffle_range {count place : Nat} {generator : Generator}
    (hplace : place ∈ (shuffle (List.range count) generator).1) : place < count :=
  List.mem_range.mp ((shuffle_perm _ generator).mem_iff.mp hplace)

end Polarity.Random
