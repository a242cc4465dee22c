import Polarity.Dataset

/-!
# Batches

Every epoch shuffles the order left by the epoch before it and cuts it into
runs of `size` places, the last of which may be shorter.  The order is fixed
when the epoch starts, whether or not its batches are taken.
-/

namespace Polarity

open Polarity.Random

def chunks {α : Type} (size : Nat) (items : List α) : List (List α) :=
  if _hstop : items = [] ∨ size = 0 then []
  else items.take size :: chunks size (items.drop size)
termination_by items.length
decreasing_by
  obtain ⟨hitems, hsize⟩ := not_or.mp _hstop
  have := List.length_pos_iff.mpr hitems
  simp only [List.length_drop]
  omega

@[ext]
structure Batches (α : Type) where
  data : Dataset α
  size : Nat
  order : List Nat
  inRange : ∀ place ∈ order, place < data.size

/-- The batches of one pass that are still to come, as places in the data. -/
structure Epoch (α : Type) where
  data : Dataset α
  pending : List (List Nat)
  inRange : ∀ places ∈ pending, ∀ place ∈ places, place < data.size

private theorem mem_of_mem_chunks {α : Type} {size : Nat} {items run : List α} {item : α}
    (hrun : run ∈ chunks size items) (hitem : item ∈ run) : item ∈ items := by
  fun_induction chunks size items with
  | case1 => simp at hrun
  | case2 items hstop ih =>
      rcases List.mem_cons.mp hrun with rfl | hrun
      · exact List.mem_of_mem_take hitem
      · exact List.mem_of_mem_drop (ih hrun)

namespace Batches

variable {α : Type}

def unshuffled (data : Dataset α) (size : Nat) : Batches α :=
  ⟨data, size, List.range data.size, fun _ => List.mem_range.mp⟩

/-- Sizes are compared before the batch size is looked at. -/
def new (features : Matrix α) (labels : List α) (size : Nat) : Except Error (Batches α) := do
  let data ← Dataset.new features labels
  if size = 0 then .error .zeroBatchSize
  return unshuffled data size

def ofDataset (data : Dataset α) (size : Nat) : Except Error (Batches α) :=
  new data.features data.labels size

def count (batches : Batches α) : Nat := (batches.data.size + batches.size - 1) / batches.size

def epoch (batches : Batches α) (generator : Generator) : Epoch α × Batches α × Generator :=
  let order := shuffle batches.order generator
  have hrange : ∀ place ∈ order.1, place < batches.data.size := fun place hplace =>
    batches.inRange place ((shuffle_perm _ _).mem_iff.mp hplace)
  ({ data := batches.data
     pending := chunks batches.size order.1
     inRange := fun _ hplaces place hplace => hrange place (mem_of_mem_chunks hplaces hplace) },
    { batches with order := order.1, inRange := hrange }, order.2)

end Batches

namespace Epoch

variable {α : Type}

def remaining (epoch : Epoch α) : Nat := epoch.pending.length

def drop (count : Nat) (epoch : Epoch α) : Epoch α where
  data := epoch.data
  pending := epoch.pending.drop count
  inRange := fun places hplaces => epoch.inRange places (List.mem_of_mem_drop hplaces)

@[simp] theorem data_drop (count : Nat) (epoch : Epoch α) : (epoch.drop count).data = epoch.data :=
  rfl

@[simp] theorem pending_drop (count : Nat) (epoch : Epoch α) :
    (epoch.drop count).pending = epoch.pending.drop count := rfl

@[simp] theorem drop_drop (count more : Nat) (epoch : Epoch α) :
    (epoch.drop count).drop more = epoch.drop (count + more) := by
  simp [drop]

def next? (epoch : Epoch α) : Option (Dataset α × Epoch α) :=
  match hpending : epoch.pending with
  | [] => none
  | places :: _ =>
      some (epoch.data.rowsAt places (epoch.inRange places (by simp [hpending])), epoch.drop 1)

def toList (epoch : Epoch α) : List (Dataset α) :=
  epoch.data.rowsAtEach epoch.pending epoch.inRange

end Epoch

end Polarity
