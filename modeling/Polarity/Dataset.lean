import Polarity.Matrix
import Polarity.Random.Shuffle

/-!
# Labelled rows

A dataset has one label per feature row.  Positive rows are labelled one and
negative rows zero.
-/

namespace Polarity

open Polarity.Random

@[ext]
structure Dataset (α : Type) where
  features : Matrix α
  labels : List α
  height_eq : features.height = labels.length

namespace Dataset

variable {α : Type}

def new (features : Matrix α) (labels : List α) : Except Error (Dataset α) :=
  if hsize : features.height = labels.length then .ok ⟨features, labels, hsize⟩
  else .error (.sizeMismatch features.height labels.length)

def size (data : Dataset α) : Nat := data.labels.length

def isEmpty (data : Dataset α) : Bool := data.labels.isEmpty

theorem length_rows_eq (data : Dataset α) : data.features.rows.length = data.labels.length :=
  data.features.length_rows.trans data.height_eq

def width (data : Dataset α) : Nat := data.features.width

/--
The positive rows followed by the negative rows.  The rows must be of one width, and
so many that they can be counted together and that there is room for their labels.
-/
def ofPools [Zero α] [One α] (positive negative : Matrix α) : Except Error (Dataset α) := do
  let height := positive.height + negative.height
  if hfit : positive.width = negative.width ∧ countable [height] then
    requireRoom [height]
    return {
      features := positive.append negative hfit.1
      labels := List.replicate positive.height 1 ++ List.replicate negative.height 0
      height_eq := by simp [Matrix.append] }
  else
    .error (.violation .poolWidth)

def rowsAt (places : List Nat) (data : Dataset α) (hplaces : ∀ place ∈ places, place < data.size) :
    Dataset α where
  features := data.features.rowsAt places fun place hplace =>
    Nat.lt_of_lt_of_eq (hplaces place hplace) data.height_eq.symm
  labels := itemsAt data.labels.toArray places hplaces
  height_eq := (length_itemsAt _).trans (length_itemsAt _).symm

/-- The rows of several lists of places, from one table of the data. -/
def rowsAtEach (groups : List (List Nat)) (data : Dataset α)
    (hgroups : ∀ places ∈ groups, ∀ place ∈ places, place < data.size) : List (Dataset α) :=
  let rows := data.features.rows.toArray
  let labels := data.labels.toArray
  groups.pmap (fun places hplaces => {
    features := .ofRows data.features.width
      (itemsAt rows places fun place hplace =>
        Nat.lt_of_lt_of_eq (hplaces place hplace) data.length_rows_eq.symm)
      fun _ hrow => Matrix.length_of_mem_rows (mem_of_mem_itemsAt hrow)
    labels := itemsAt labels places hplaces
    height_eq := (length_itemsAt _).trans (length_itemsAt _).symm }) hgroups

theorem rowsAtEach_eq_pmap {groups : List (List Nat)} {data : Dataset α}
    (hgroups : ∀ places ∈ groups, ∀ place ∈ places, place < data.size) :
    data.rowsAtEach groups hgroups = groups.pmap (fun places => data.rowsAt places) hgroups := rfl

def select (places : List Nat) (data : Dataset α) : Except Error (Dataset α) :=
  let size := data.size
  if hplaces : ∀ place ∈ places, place < size then .ok (data.rowsAt places hplaces)
  else .error (.violation .index)

def shuffled (generator : Generator) (data : Dataset α) : Dataset α × Generator :=
  let order := shuffle (List.range data.size) generator
  (data.rowsAt order.1 fun _ => lt_of_mem_shuffle_range, order.2)

def positives [One α] [BEq α] (data : Dataset α) : Nat := data.labels.countP (· == 1)

def negatives [Zero α] [BEq α] (data : Dataset α) : Nat := data.labels.countP (· == 0)

end Dataset

end Polarity
