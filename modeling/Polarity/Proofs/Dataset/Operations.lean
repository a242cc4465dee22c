import Polarity.Proofs.Dataset

/-!
# Rows keep their labels

A dataset is shuffled, cut down to some of its rows and put together again from its
parts, in any order and any number of times.  Its rows are always rows of the dataset
at the start, and each stands beside the label that it had there.  An operation that
fails leaves the dataset as it was.
-/

namespace Polarity.Dataset

open Polarity.Random

variable {α : Type}

/-! ## Sources -/

inductive Source (α : Type) where
  | parts (features : Matrix α) (labels : List α)
  | pools (positive negative : Matrix α)

namespace Source

def width : Source α → Nat
  | .parts features _ => features.width
  | .pools positive _ => positive.width

variable [Zero α] [One α]

def build : Source α → Except Error (Dataset α)
  | .parts features labels => new features labels
  | .pools positive negative => ofPools positive negative

def pairs : Source α → List (List α × α)
  | .parts features labels => features.rows.zip labels
  | .pools positive negative => positive.rows.map (·, 1) ++ negative.rows.map (·, 0)

end Source

/-! ## One operation -/

inductive Operation where
  | shuffle (generator : Generator)
  | select (places : List Nat)
  | rebuild

def apply (data : Dataset α) : Operation → Except Error (Dataset α)
  | .shuffle generator => .ok (data.shuffled generator).1
  | .select places => data.select places
  | .rebuild => new data.features data.labels

/-- The data after an operation; if it fails, they are as they were. -/
def attempt (data : Dataset α) (operation : Operation) : Dataset α :=
  (data.apply operation).toOption.getD data

def attempts (data : Dataset α) (operations : List Operation) : Dataset α :=
  operations.foldl attempt data

private theorem new_parts (data : Dataset α) : new data.features data.labels = .ok data :=
  dif_pos data.height_eq

theorem select_cases (data : Dataset α) (places : List Nat) :
    (∀ place ∈ places, place < data.size) ∧ data.select places = .ok (data.pick places) ∨
      (∃ place ∈ places, data.size ≤ place) ∧
        data.select places = .error (.violation .index) := by
  by_cases hplaces : ∀ place ∈ places, place < data.size
  · exact .inl ⟨hplaces, by rw [select, dif_pos hplaces, rowsAt_eq_pick]⟩
  · exact .inr ⟨by simpa using hplaces, dif_neg hplaces⟩

/-- An operation can leave nothing but the data themselves or a pick of their rows. -/
theorem attempt_cases (data : Dataset α) (operation : Operation) :
    data.attempt operation = data ∨ ∃ places, data.attempt operation = data.pick places := by
  cases operation with
  | shuffle generator => exact .inr ⟨_, congrArg Prod.fst (data.shuffled_eq_pick generator)⟩
  | select places =>
      rcases data.select_cases places with ⟨-, hselect⟩ | ⟨-, hselect⟩
      · exact .inr ⟨places, by simp [attempt, apply, hselect, Except.toOption]⟩
      · exact .inl (by simp [attempt, apply, hselect, Except.toOption])
  | rebuild => exact .inl (by simp [attempt, apply, new_parts, Except.toOption])

/-- Rows of the width, each with its label: the given pairs at the given places. -/
structure DrawnFrom (width : Nat) (pairs : List (List α × α)) (places : List Nat)
    (data : Dataset α) : Prop where
  width_eq : data.width = width
  pairs_eq : data.pairs.map some = places.map fun place => pairs[place]?

variable {width : Nat} {pairs : List (List α × α)} {places : List Nat} {data : Dataset α}

theorem DrawnFrom.pick (hdrawn : data.DrawnFrom width pairs places) (chosen : List Nat) :
    (data.pick chosen).DrawnFrom width pairs (Polarity.pick places chosen) where
  width_eq := hdrawn.width_eq
  pairs_eq := by rw [pairs_pick, ← pick_map, hdrawn.pairs_eq, pick_map]

theorem DrawnFrom.attempt (hdrawn : data.DrawnFrom width pairs places) (operation : Operation) :
    ∃ others, (data.attempt operation).DrawnFrom width pairs others := by
  rcases data.attempt_cases operation with hsame | ⟨chosen, hpick⟩
  · rw [hsame]
    exact ⟨places, hdrawn⟩
  · rw [hpick]
    exact ⟨_, hdrawn.pick chosen⟩

theorem DrawnFrom.attempts (hdrawn : data.DrawnFrom width pairs places)
    (operations : List Operation) :
    ∃ others, (data.attempts operations).DrawnFrom width pairs others := by
  induction operations generalizing data places with
  | nil => exact ⟨places, hdrawn⟩
  | cons operation operations ih =>
      obtain ⟨others, hothers⟩ := hdrawn.attempt operation
      exact ih hothers

end Polarity.Dataset
