import Mathlib.Algebra.Order.Archimedean.Basic
import Mathlib.Algebra.Order.Floor.Semiring
import Mathlib.Data.Rat.Floor
import Polarity.Dataset.Batches
import Polarity.Proofs.Dataset

/-!
# Every epoch covers the data once

A consumer starts epochs and takes batches in any order it likes, and may leave
an epoch before its last batch.  Whatever it did before, the batches taken from
the current epoch together with those still to come are the runs of one
permutation of all rows.
-/

namespace Polarity

open Polarity.Random

variable {α : Type}

/-! ## Runs -/

theorem flatten_chunks {size : Nat} (hsize : 0 < size) (items : List α) :
    (chunks size items).flatten = items := by
  fun_induction chunks size items with
  | case1 items hstop =>
      rcases hstop with hitems | hzero
      · rw [hitems, List.flatten_nil]
      · omega
  | case2 items hstop ih =>
      rw [List.flatten_cons, ih, List.take_append_drop]

theorem length_chunks {size : Nat} (hsize : 0 < size) (items : List α) :
    (chunks size items).length = (items.length + size - 1) / size := by
  fun_induction chunks size items with
  | case1 items hstop =>
      rcases hstop with hitems | hzero
      · rw [hitems, List.length_nil, List.length_nil, Nat.div_eq_of_lt (by omega)]
      · omega
  | case2 items hstop ih =>
      have hpos : 0 < items.length := List.length_pos_iff.mpr (not_or.mp hstop).1
      rw [List.length_cons, ih, List.length_drop]
      by_cases hshort : items.length ≤ size
      · rw [show items.length - size + size - 1 = size - 1 by omega,
          show items.length + size - 1 = (items.length - 1) + size by omega,
          Nat.add_div_right _ hsize, Nat.div_eq_of_lt (by omega),
          Nat.div_eq_of_lt (by omega)]
      · rw [show items.length - size + size - 1 = items.length - 1 by omega,
          show items.length + size - 1 = (items.length - 1) + size by omega,
          Nat.add_div_right _ hsize]

private theorem chunks_of_length_le {size : Nat} {items : List α} (hitems : items ≠ [])
    (hlength : items.length ≤ size) : chunks size items = [items] := by
  have hpos : 0 < items.length := List.length_pos_iff.mpr hitems
  rw [chunks, dif_neg (not_or.mpr ⟨hitems, by omega⟩), List.take_of_length_le hlength,
    List.drop_of_length_le hlength, chunks, dif_pos (Or.inl rfl)]

private theorem length_of_mem_chunks {size : Nat} {items run : List α}
    (hrun : run ∈ chunks size items) :
    0 < run.length ∧ run.length ≤ size := by
  fun_induction chunks size items with
  | case1 => simp at hrun
  | case2 items hstop ih =>
      obtain ⟨hitems, hsize⟩ := not_or.mp hstop
      have hpos : 0 < items.length := List.length_pos_iff.mpr hitems
      rcases List.mem_cons.mp hrun with rfl | hrun
      · rw [List.length_take]
        omega
      · exact ih hrun

private theorem length_of_mem_dropLast_chunks {size : Nat} {items run : List α}
    (hrun : run ∈ (chunks size items).dropLast) : run.length = size := by
  fun_induction chunks size items with
  | case1 => simp at hrun
  | case2 items hstop ih =>
      -- a run with another one behind it was cut from more than `size` items
      by_cases hrest : items.drop size = []
      · have hnone : chunks size (items.drop size) = [] := by
          rw [hrest, chunks, dif_pos (Or.inl rfl)]
        simp [hnone] at hrun
      · have hlong : size < items.length := by simpa using hrest
        have hmore : chunks size (items.drop size) ≠ [] := by
          rw [chunks, dif_neg (not_or.mpr ⟨hrest, (not_or.mp hstop).2⟩)]
          exact List.cons_ne_nil _ _
        rw [List.dropLast_cons_of_ne_nil hmore] at hrun
        rcases List.mem_cons.mp hrun with rfl | hrun
        · rw [List.length_take]
          omega
        · exact ih hrun

theorem Batches.count_eq_ceil {batches : Batches α} (hsize : 0 < batches.size) :
    batches.count = ⌈(batches.data.size / batches.size : ℚ)⌉₊ := by
  apply eq_of_forall_ge_iff
  intro bound
  have hpos : (0 : ℚ) < batches.size := by exact_mod_cast hsize
  rw [Nat.ceil_le, div_le_iff₀ hpos, Batches.count, Nat.div_le_iff_le_mul_add_pred hsize,
    Nat.mul_comm]
  norm_cast
  omega

theorem Batches.ofDataset_eq (data : Dataset α) (size : Nat) :
    ofDataset data size = if size = 0 then .error .zeroBatchSize
      else .ok (unshuffled data size) := by
  rw [ofDataset, new, Dataset.new, dif_pos data.height_eq, ok_bind]
  split
  · rfl
  · rfl

theorem Batches.ofDataset_eq_ok (data : Dataset α) {size : Nat} (hsize : size ≠ 0) :
    ofDataset data size = .ok (unshuffled data size) :=
  (ofDataset_eq data size).trans (if_neg hsize)

theorem Epoch.toList_eq_map (epoch : Epoch α) :
    epoch.toList = epoch.pending.map fun places => epoch.data.pick places :=
  Dataset.rowsAtEach_eq_map epoch.inRange

/-! ## Consumers -/

inductive Request where
  | epoch
  | batch
  deriving DecidableEq, Repr

structure Consumer (α : Type) where
  batches : Batches α
  generator : Generator
  current : Epoch α
  taken : List (Dataset α)

namespace Consumer

def start (batches : Batches α) (generator : Generator) : Consumer α where
  batches := batches
  generator := generator
  current := ⟨batches.data, [], List.forall_mem_nil _⟩
  taken := []

def step (consumer : Consumer α) : Request → Consumer α
  | .epoch =>
      let (epoch, batches, generator) := consumer.batches.epoch consumer.generator
      ⟨batches, generator, epoch, []⟩
  | .batch =>
      match consumer.current.next? with
      | none => consumer
      | some (batch, rest) => { consumer with current := rest, taken := consumer.taken ++ [batch] }

def run (consumer : Consumer α) (requests : List Request) : Consumer α :=
  requests.foldl step consumer

def epochBatches (consumer : Consumer α) : List (Dataset α) :=
  consumer.taken ++ consumer.current.toList

@[simp] theorem run_nil (consumer : Consumer α) : consumer.run [] = consumer := rfl

@[simp] theorem run_cons (consumer : Consumer α) (request : Request) (requests : List Request) :
    consumer.run (request :: requests) = (consumer.step request).run requests := rfl

theorem run_append (consumer : Consumer α) (earlier later : List Request) :
    consumer.run (earlier ++ later) = (consumer.run earlier).run later :=
  List.foldl_append

/-- The batches are always cut from one dataset, along an order of all its rows. -/
structure Ordered (data : Dataset α) (size : Nat) (consumer : Consumer α) : Prop where
  data_eq : consumer.batches.data = data
  size_eq : consumer.batches.size = size
  order_perm : consumer.batches.order.Perm (List.range data.size)

/-- Within an epoch, the batches are the runs of the order. -/
structure InEpoch (data : Dataset α) (size : Nat) (consumer : Consumer α) : Prop
    extends Ordered data size consumer where
  current_data : consumer.current.data = data
  epochBatches_eq : consumer.epochBatches =
    (chunks size consumer.batches.order).map fun places => data.pick places

variable {data : Dataset α} {size : Nat} {consumer : Consumer α}

private theorem step_batch (consumer : Consumer α) :
    consumer.step .batch =
      { consumer with
        current := consumer.current.drop 1
        taken := consumer.taken ++
          (consumer.current.pending.take 1).map fun places => consumer.current.data.pick places } := by
  obtain ⟨batches, generator, ⟨data, pending, hrange⟩, taken⟩ := consumer
  cases pending with
  | nil => simp [step, Epoch.next?, Epoch.drop]
  | cons places rest => simp [step, Epoch.next?, Dataset.rowsAt_eq_pick]

private theorem run_batches (consumer : Consumer α) (count : Nat) :
    consumer.run (List.replicate count .batch) =
      { consumer with
        current := consumer.current.drop count
        taken := consumer.taken ++
          (consumer.current.pending.take count).map
            fun places => consumer.current.data.pick places } := by
  induction count generalizing consumer with
  | zero => simp [Epoch.drop]
  | succ count ih =>
      rw [List.replicate_succ, run_cons, ih, step_batch]
      simp only [Epoch.drop_drop, Epoch.data_drop, Epoch.pending_drop, List.append_assoc,
        ← List.map_append]
      rw [Nat.add_comm 1 count, Nat.add_comm count 1, List.take_add]

theorem Ordered.step (hordered : consumer.Ordered data size) (request : Request) :
    (consumer.step request).Ordered data size := by
  cases request with
  | epoch =>
      refine ⟨hordered.data_eq, hordered.size_eq, ?_⟩
      exact (shuffle_perm _ _).trans hordered.order_perm
  | batch =>
      rw [step_batch]
      exact ⟨hordered.data_eq, hordered.size_eq, hordered.order_perm⟩

theorem Ordered.run (hordered : consumer.Ordered data size) (requests : List Request) :
    (consumer.run requests).Ordered data size := by
  induction requests generalizing consumer with
  | nil => exact hordered
  | cons request requests ih => exact ih (hordered.step request)

theorem Ordered.inEpoch_step (hordered : consumer.Ordered data size) :
    (consumer.step .epoch).InEpoch data size := by
  refine ⟨hordered.step .epoch, hordered.data_eq, ?_⟩
  obtain ⟨rfl, rfl, -⟩ := hordered
  rw [epochBatches, Epoch.toList_eq_map]
  rfl

theorem InEpoch.step (hepoch : consumer.InEpoch data size) (request : Request) :
    (consumer.step request).InEpoch data size := by
  cases request with
  | epoch => exact hepoch.toOrdered.inEpoch_step
  | batch =>
      have hordered := hepoch.toOrdered.step .batch
      have hbatches := hepoch.epochBatches_eq
      rw [epochBatches, Epoch.toList_eq_map] at hbatches
      rw [step_batch] at hordered ⊢
      refine ⟨hordered, hepoch.current_data, ?_⟩
      rw [epochBatches, Epoch.toList_eq_map, Epoch.data_drop, Epoch.pending_drop, List.append_assoc,
        ← List.map_append, List.take_append_drop, hbatches]

theorem InEpoch.run (hepoch : consumer.InEpoch data size) (requests : List Request) :
    (consumer.run requests).InEpoch data size := by
  induction requests generalizing consumer with
  | nil => exact hepoch
  | cons request requests ih => exact ih (hepoch.step request)

theorem Ordered.inEpoch_run (hordered : consumer.Ordered data size) {requests : List Request}
    (hrequests : .epoch ∈ requests) : (consumer.run requests).InEpoch data size := by
  obtain ⟨earlier, later, rfl⟩ := List.append_of_mem hrequests
  rw [run_append, run_cons]
  exact (hordered.run earlier).inEpoch_step.run later

/-! ## What holds within an epoch -/

theorem InEpoch.pairs_eq (hepoch : consumer.InEpoch data size) (hsize : 0 < size) :
    consumer.epochBatches.flatMap Dataset.pairs = pick data.pairs consumer.batches.order := by
  rw [hepoch.epochBatches_eq, List.flatMap_map]
  simp only [Dataset.pairs_pick]
  rw [List.flatMap_def, ← pick_flatten, flatten_chunks hsize]

theorem InEpoch.size_pick (hepoch : consumer.InEpoch data size) (hsize : 0 < size)
    {places : List Nat} (hplaces : places ∈ chunks size consumer.batches.order) :
    (data.pick places).size = places.length := by
  apply Dataset.size_pick
  intro place hplace
  have hmem : place ∈ (chunks size consumer.batches.order).flatten :=
    List.mem_flatten.mpr ⟨places, hplaces, hplace⟩
  rw [flatten_chunks hsize] at hmem
  exact List.mem_range.mp (hepoch.order_perm.mem_iff.mp hmem)

theorem InEpoch.batch_bounds (hepoch : consumer.InEpoch data size) (hsize : 0 < size)
    {batch : Dataset α} (hbatch : batch ∈ consumer.epochBatches) :
    batch.width = data.width ∧ 0 < batch.size ∧ batch.size ≤ size := by
  rw [hepoch.epochBatches_eq] at hbatch
  obtain ⟨places, hplaces, rfl⟩ := List.mem_map.mp hbatch
  rw [hepoch.size_pick hsize hplaces]
  exact ⟨rfl, length_of_mem_chunks hplaces⟩

theorem InEpoch.full_batch (hepoch : consumer.InEpoch data size) (hsize : 0 < size)
    {batch : Dataset α} (hbatch : batch ∈ consumer.epochBatches.dropLast) :
    batch.size = size := by
  rw [hepoch.epochBatches_eq, ← List.map_dropLast] at hbatch
  obtain ⟨places, hplaces, rfl⟩ := List.mem_map.mp hbatch
  rw [hepoch.size_pick hsize (List.dropLast_subset _ hplaces)]
  exact length_of_mem_dropLast_chunks hplaces

theorem InEpoch.length_epochBatches (hepoch : consumer.InEpoch data size) (hsize : 0 < size) :
    consumer.epochBatches.length = (data.size + size - 1) / size := by
  have hlength := hepoch.order_perm.length_eq
  rw [List.length_range] at hlength
  rw [hepoch.epochBatches_eq, List.length_map, length_chunks hsize, hlength]

theorem InEpoch.epochBatches_of_size_le (hepoch : consumer.InEpoch data size)
    (hrows : data.size ≠ 0) (hsize : data.size ≤ size) :
    consumer.epochBatches = [data.pick consumer.batches.order] := by
  have hlength : consumer.batches.order.length = data.size := by
    rw [hepoch.order_perm.length_eq, List.length_range]
  have horder : consumer.batches.order ≠ [] := by
    rw [← List.length_pos_iff, hlength]
    omega
  rw [hepoch.epochBatches_eq, chunks_of_length_le horder (by omega), List.map_singleton]

private theorem length_taken_run_batches (consumer : Consumer α) (count : Nat) :
    (consumer.run (List.replicate count .batch)).taken.length =
      consumer.taken.length + min count consumer.current.remaining := by
  rw [run_batches]
  simp [Epoch.remaining]

private theorem taken_run_batches (consumer : Consumer α) (count : Nat) :
    (consumer.run (List.replicate count .batch)).taken =
      consumer.epochBatches.take (consumer.taken.length + count) := by
  rw [run_batches]
  rw [epochBatches, Epoch.toList_eq_map, List.take_length_add_append, List.map_take]

/-! ## What is left for later epochs -/

/-- Only the requests for an epoch move the order and the generator. -/
theorem order_run (consumer : Consumer α) (requests : List Request) :
    ((consumer.run requests).batches, (consumer.run requests).generator) =
      (fun state : Batches α × Generator => (state.1.epoch state.2).2)^[requests.count .epoch]
        (consumer.batches, consumer.generator) := by
  induction requests generalizing consumer with
  | nil => rfl
  | cons request requests ih =>
      rw [run_cons, ih]
      cases request with
      | epoch => rw [List.count_cons_self, Function.iterate_succ_apply]; rfl
      | batch => rw [step_batch, List.count_cons_of_ne (by decide)]

/--
Whatever a consumer asked for, once it has asked for an epoch: the batches of the
current epoch hold every row once, with its label; all are full but the last, which
is not empty; and later epochs do not depend on how many batches were taken.
-/
theorem epoch_covers_data (features : Matrix α) (labels : List α) (size : Nat)
    (hlabels : features.height = labels.length) (hsize : 0 < size) :
    ∃ batches, Batches.new features labels size = .ok batches ∧
      batches.count = ⌈(labels.length / size : ℚ)⌉₊ ∧
      ∀ (generator : Generator) (requests : List Request), .epoch ∈ requests →
        let consumer := (start batches generator).run requests
        (∃ order : List Nat, order.Perm (List.range labels.length) ∧
          (consumer.epochBatches.flatMap Dataset.pairs).map some =
            order.map fun place => (features.rows.zip labels)[place]?) ∧
        consumer.epochBatches.length = batches.count ∧
        (∀ batch ∈ consumer.epochBatches,
          batch.width = features.width ∧ 0 < batch.size ∧ batch.size ≤ size) ∧
        (∀ batch ∈ consumer.epochBatches.dropLast, batch.size = size) ∧
        (∀ more, (consumer.run (List.replicate more .batch)).taken =
          consumer.epochBatches.take (consumer.taken.length + more)) ∧
        (∀ more, (consumer.run (List.replicate more .batch)).taken.length =
          consumer.taken.length + min more consumer.current.remaining) ∧
        ∀ others : List Request, others.count .epoch = requests.count .epoch →
          ((start batches generator).run others).batches.order = consumer.batches.order ∧
            ((start batches generator).run others).generator = consumer.generator := by
  let data : Dataset α := ⟨features, labels, hlabels⟩
  let batches : Batches α := .unshuffled data size
  have hnew : Batches.new features labels size = .ok batches := by
    simp only [Batches.new, Dataset.new, dif_pos hlabels, ok_bind, if_neg (Nat.ne_of_gt hsize)]
    rfl
  refine ⟨batches, hnew, Batches.count_eq_ceil hsize, ?_⟩
  intro generator requests hrequests consumer
  have hstart : (start batches generator).Ordered data size := ⟨rfl, rfl, .refl _⟩
  have hepoch : consumer.InEpoch data size := hstart.inEpoch_run hrequests
  refine ⟨⟨consumer.batches.order, hepoch.order_perm, ?_⟩, hepoch.length_epochBatches hsize,
    fun batch => hepoch.batch_bounds hsize, fun batch => hepoch.full_batch hsize,
    taken_run_batches consumer, length_taken_run_batches consumer, ?_⟩
  · have horder : ∀ place ∈ consumer.batches.order, place < data.pairs.length := by
      intro place hplace
      rw [Dataset.length_pairs]
      exact List.mem_range.mp (hepoch.order_perm.mem_iff.mp hplace)
    rw [hepoch.pairs_eq hsize, map_some_pick horder]
    rfl
  · intro others hcount
    have hothers := order_run (start batches generator) others
    rw [hcount, ← order_run (start batches generator) requests, Prod.mk.injEq] at hothers
    exact ⟨congrArg Batches.order hothers.1, hothers.2⟩

/-- Three rows in batches of two, with the first epoch left after one batch. -/
theorem epoch_covers_three_rows :
    ∃ batches, Batches.new (⟨3, 2, [1, 2, 3, 4, 5, 6], rfl⟩ : Matrix Nat) [1, 0, 1] 2 = .ok batches ∧
      ∀ generator, ((start batches generator).run [.epoch, .batch, .epoch]).epochBatches.length = 2 := by
  obtain ⟨batches, hnew, hcount, hrun⟩ :=
    epoch_covers_data (⟨3, 2, [1, 2, 3, 4, 5, 6], rfl⟩ : Matrix Nat) [1, 0, 1] 2 rfl (by decide)
  refine ⟨batches, hnew, fun generator => ?_⟩
  obtain ⟨-, hlength, -⟩ := hrun generator [.epoch, .batch, .epoch] (by decide)
  rw [hlength, hcount]
  norm_num [Nat.ceil_eq_iff]

end Consumer

end Polarity
