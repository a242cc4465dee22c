import Mathlib.Data.List.Basic
import Mathlib.Data.Option.Basic
import Polarity.Random.Shuffle
import Polarity.Selection

/-!
# Picking and shuffling do not look at the items

`pick items places` are the items at those of the places that exist; at places that
all exist, they are the items at the places.  A shuffle commutes with every map of the
items.  It is therefore a pick along the shuffled places, and the generator after it
depends only on how many items there were.
-/

namespace Polarity

variable {α β : Type}

/-! ## Picking -/

def pick (items : List α) (places : List Nat) : List α :=
  places.filterMap fun place => items[place]?

theorem mem_of_mem_pick {items : List α} {places : List Nat} {item : α}
    (hitem : item ∈ pick items places) : item ∈ items := by
  obtain ⟨place, -, hplace⟩ := List.mem_filterMap.mp hitem
  exact List.mem_of_getElem? hplace

theorem length_pick_congr {items : List α} {others : List β}
    (hlength : items.length = others.length) (places : List Nat) :
    (pick items places).length = (pick others places).length := by
  unfold pick
  induction places with
  | nil => rfl
  | cons place rest ih =>
      by_cases hplace : place < items.length
      · simp [List.getElem?_eq_getElem hplace, List.getElem?_eq_getElem (hlength ▸ hplace), ih]
      · have hother : ¬ place < others.length := hlength ▸ hplace
        simp [List.getElem?_eq_none (Nat.le_of_not_lt hplace),
          List.getElem?_eq_none (Nat.le_of_not_lt hother), ih]

theorem itemsAt_eq_pick {items : List α} {places : List Nat}
    (hplaces : ∀ place ∈ places, place < items.toArray.size) :
    itemsAt items.toArray places hplaces = pick items places := by
  unfold itemsAt pick
  induction places with
  | nil => rfl
  | cons place rest ih =>
      have hplace : place < items.length := hplaces place List.mem_cons_self
      have hrest := ih fun place hplace => hplaces place (List.mem_cons_of_mem _ hplace)
      rw [List.pmap_cons, hrest, List.filterMap_cons, List.getElem?_eq_getElem hplace]
      rfl

theorem pick_flatten (items : List α) (groups : List (List Nat)) :
    pick items groups.flatten = (groups.map (pick items)).flatten := by
  induction groups with
  | nil => rfl
  | cons places groups ih =>
      rw [List.flatten_cons, List.map_cons, List.flatten_cons, ← ih]
      simp only [pick, List.filterMap_append]

theorem map_some_pick {items : List α} {places : List Nat}
    (hplaces : ∀ place ∈ places, place < items.length) :
    (pick items places).map some = places.map fun place => items[place]? := by
  unfold pick
  induction places with
  | nil => rfl
  | cons place rest ih =>
      have hplace : place < items.length := hplaces place List.mem_cons_self
      have hrest := ih fun place hplace => hplaces place (List.mem_cons_of_mem _ hplace)
      rw [List.filterMap_cons, List.getElem?_eq_getElem hplace]
      simp only [List.map_cons, hrest, List.getElem?_eq_getElem hplace]

theorem length_pick {items : List α} {places : List Nat}
    (hplaces : ∀ place ∈ places, place < items.length) :
    (pick items places).length = places.length := by
  have hlength := congrArg List.length (map_some_pick hplaces)
  simpa using hlength

theorem map_getElem?_range (items : List α) :
    (List.range items.length).map (fun place => items[place]?) = items.map some := by
  apply List.ext_getElem
  · simp
  · intro place hplace _
    have hplace : place < items.length := by simpa using hplace
    simp [hplace]

theorem pick_perm {items : List α} {order : List Nat}
    (horder : order.Perm (List.range items.length)) : (pick items order).Perm items := by
  have hrange : pick items (List.range items.length) = items := by
    apply List.map_injective_iff.mpr (Option.some_injective α)
    rw [map_some_pick fun place => List.mem_range.mp, map_getElem?_range]
  have hpicked : (pick items order).Perm (pick items (List.range items.length)) :=
    horder.filterMap fun place => items[place]?
  rwa [hrange] at hpicked

theorem pick_zip {items : List α} {others : List β} (hlength : items.length = others.length)
    (places : List Nat) :
    pick (items.zip others) places = (pick items places).zip (pick others places) := by
  unfold pick
  induction places with
  | nil => rfl
  | cons place rest ih =>
      by_cases hplace : place < items.length
      · have hother : place < others.length := hlength ▸ hplace
        have hboth : place < (items.zip others).length := by
          rw [List.length_zip]
          omega
        simp [List.getElem?_eq_getElem hplace, List.getElem?_eq_getElem hother,
          List.getElem?_eq_getElem hboth, ih]
      · have hother : ¬ place < others.length := hlength ▸ hplace
        have hboth : ¬ place < (items.zip others).length := by
          rw [List.length_zip]
          omega
        simp [List.getElem?_eq_none (Nat.le_of_not_lt hplace),
          List.getElem?_eq_none (Nat.le_of_not_lt hother),
          List.getElem?_eq_none (Nat.le_of_not_lt hboth), ih]

theorem pick_map (f : α → β) (items : List α) (places : List Nat) :
    pick (items.map f) places = (pick items places).map f := by
  simp [pick, List.map_filterMap]

theorem pick_zipWith {γ : Type} (f : α → β → γ) {items : List α} {others : List β}
    (hlength : items.length = others.length) (places : List Nat) :
    pick (List.zipWith f items others) places =
      List.zipWith f (pick items places) (pick others places) := by
  rw [← List.map_uncurry_zip_eq_zipWith, pick_map, pick_zip hlength,
    List.map_uncurry_zip_eq_zipWith]

/-! ## Shuffling -/

namespace Random

private theorem swap_map (f : α → β) {items : Array α} {i j : Nat} (hi : i < (items.map f).size)
    (hj : j < (items.map f).size) :
    (items.map f).swap i j hi hj =
      (items.swap i j (by rwa [Array.size_map] at hi) (by rwa [Array.size_map] at hj)).map f := by
  ext place hplace
  · simp
  · simp only [Array.getElem_map, Array.getElem_swap]
    split
    · rfl
    · split <;> rfl

private theorem shuffleFrom_map (f : α → β) {place : Nat} {items : Array α}
    (hplace : place ≤ items.size - 1) (generator : Generator) :
    shuffleFrom place (items.map f) (by rwa [Array.size_map]) generator =
      ((shuffleFrom place items hplace generator).1.map f,
        (shuffleFrom place items hplace generator).2) := by
  induction place generalizing items generator with
  | zero => rfl
  | succ place ih =>
      simp only [shuffleFrom, ← ih, swap_map]

theorem shuffle_map (f : α → β) (items : List α) (generator : Generator) :
    shuffle (items.map f) generator =
      ((shuffle items generator).1.map f, (shuffle items generator).2) := by
  have hmap := shuffleFrom_map f (by simp : items.length - 1 ≤ items.toArray.size - 1) generator
  simp only [List.map_toArray] at hmap
  simp [shuffle, hmap]

theorem shuffle_eq_pick (items : List α) (generator : Generator) :
    shuffle items generator =
      (pick items (shuffle (List.range items.length) generator).1,
        (shuffle (List.range items.length) generator).2) := by
  have hplaces : ∀ place ∈ (shuffle (List.range items.length) generator).1,
      place < items.length := by
    intro place hplace
    exact List.mem_range.mp ((shuffle_perm _ generator).mem_iff.mp hplace)
  -- both shuffles are the shuffle of the list of `some item`, seen through a map
  have hitems := shuffle_map some items generator
  have hrange := shuffle_map (fun place => items[place]?) (List.range items.length) generator
  rw [map_getElem?_range, hitems, Prod.mk.injEq] at hrange
  obtain ⟨hpicked, hgenerator⟩ := hrange
  rw [← map_some_pick hplaces] at hpicked
  have hpicked := List.map_injective_iff.mpr (Option.some_injective α) hpicked
  rw [← hpicked, ← hgenerator]

end Random

end Polarity
