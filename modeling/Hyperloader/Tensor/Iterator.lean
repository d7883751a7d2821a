/-
Module: Hyperloader.Tensor.Iterator
Purpose: The tensor iterator, tensor/iterator.py: what it asks of a dataset tensor for each
  batch, from any resume cursor.
Trusted boundary: indexing the dataset tensor returns a value.
Main exports: Selection, TensorIterator, TensorIterator.machine, tensor_procession
-/
import Hyperloader.InProcess.Iterator

namespace Hyperloader.Tensor

open Foundations State Distributed

/-- What the dataset tensor is indexed with: a row, a range of rows, or a list of rows. -/
inductive Selection where
  | row (index : Nat)
  | slice (start stop : Nat)
  | rows (indices : List Nat)

/-- The loader of a tensor iterator. -/
structure TensorLoader where
  length : Nat
  batchSize : Option Nat
  sized : batchSize ≠ some 0
  shuffle : Bool
  identity : Bool
  mapIndex : Nat → Nat

namespace TensorLoader

variable (loader : TensorLoader)

def width : Nat := loader.batchSize.getD 1

theorem width_pos : 0 < loader.width := by
  have sized := loader.sized
  unfold width
  cases batchSize : loader.batchSize with
  | none => exact Nat.one_pos
  | some size =>
      rw [batchSize] at sized
      exact Nat.pos_of_ne_zero fun zero => sized (congrArg some zero)

/-- The batches of the epoch. -/
def batching : Batching := ⟨loader.length, loader.width, loader.width_pos⟩

/-- The selection for the positions from `start` up to `stop`. -/
def selection (start stop : Nat) : Selection :=
  match loader.batchSize with
  | none => .row (loader.mapIndex start)
  | some _ =>
      if !loader.shuffle && loader.identity then .slice start stop
      else .rows ((List.range' start (stop - start)).map loader.mapIndex)

end TensorLoader

/-- What one call to `__next__` returns to the consumer. -/
inductive Pull where
  | selected (selection : Selection)
  | exhausted
  | raised (error : Raised)

namespace Pull

def selection : Pull → Option Selection
  | .selected selection => some selection
  | _ => none

def Failed : Pull → Prop
  | .raised _ => True
  | _ => False

def Finished : Pull → Prop
  | .exhausted => True
  | _ => False

end Pull

structure TensorIterator where
  position : Nat
  complete : Bool
  valid : Bool

namespace TensorIterator

variable (loader : TensorLoader)

/-- `TensorIterator.__init__` -/
def start (cursor : Nat) : Except Raised TensorIterator := do
  let position ← (resumeSamplePosition cursor loader.width loader.length).mapError
    Raised.valueError
  .ok ⟨position, false, true⟩

def INACTIVE : String := "tensor iterator is no longer active"

/-- `_next_value` -/
def next (iterator : TensorIterator) : Pull × TensorIterator :=
  if !iterator.valid then (.raised (.runtimeError INACTIVE), iterator)
  else if loader.length ≤ iterator.position then
    (.exhausted, { iterator with complete := true })
  else
    let stop :=
      match loader.batchSize with
      | none => iterator.position + 1
      | some size => min (iterator.position + size) loader.length
    (.selected (loader.selection iterator.position stop), { iterator with position := stop })

/-- `_batch_ordinal` of the position. -/
def deliveredBatches (iterator : TensorIterator) : Nat :=
  (iterator.position + loader.width - 1) / loader.width

def machine : Machine TensorIterator Unit Pull where
  step iterator _ := some (next loader iterator)

end TensorIterator

/-- The iterator has delivered `done` batches. -/
structure Serial (loader : TensorLoader) (done : Nat) (iterator : TensorIterator) : Prop where
  valid : iterator.valid = true
  counted : done ≤ loader.batching.count
  position : iterator.position = min loader.length (done * loader.width)

section Steps

variable {loader : TensorLoader} {done : Nat} {iterator : TensorIterator}

theorem Serial.deliveredBatches (serial : Serial loader done iterator) :
    iterator.deliveredBatches loader = done := by
  rw [TensorIterator.deliveredBatches, serial.position]
  exact Batching.count_of_boundary serial.counted

/-- The next batch is selected. -/
theorem Serial.early (serial : Serial loader done iterator) (early : done < loader.batching.count) :
    ∃ after, TensorIterator.next loader iterator =
        (.selected (loader.selection (done * loader.width)
          (min (done * loader.width + loader.width) loader.length)), after) ∧
      Serial loader (done + 1) after ∧ iterator.position < loader.length ∧
      iterator.position < after.position := by
  have low : done * loader.width < loader.length := Batching.lt_count_iff.mp early
  have here : iterator.position = done * loader.width :=
    serial.position.trans (Nat.min_eq_right (Nat.le_of_lt low))
  have positive := loader.width_pos
  have stop : (match loader.batchSize with
      | none => iterator.position + 1
      | some size => min (iterator.position + size) loader.length) =
      min (done * loader.width + loader.width) loader.length := by
    cases batchSize : loader.batchSize with
    | none =>
        have single : loader.width = 1 := by rw [TensorLoader.width, batchSize]; rfl
        show iterator.position + 1 = _
        omega
    | some size =>
        have same : loader.width = size := by rw [TensorLoader.width, batchSize]; rfl
        show min (iterator.position + size) loader.length = _
        rw [here, same]
  refine ⟨{ iterator with
    position := min (done * loader.width + loader.width) loader.length }, ?_,
    ⟨serial.valid, early, ?_⟩, here ▸ low, ?_⟩
  · have notLate : ¬ loader.length ≤ iterator.position := here ▸ Nat.not_le.mpr low
    simp only [TensorIterator.next, serial.valid, Bool.not_true, Bool.false_eq_true, if_false,
      if_neg notLate, stop]
    rw [here]
  · show min (done * loader.width + loader.width) loader.length = _
    rw [Nat.succ_mul, Nat.min_comm]
  · show iterator.position < min (done * loader.width + loader.width) loader.length
    omega

/-- Past the last batch a pull ends the iterator. -/
theorem Serial.late (serial : Serial loader done iterator) (late : ¬ done < loader.batching.count) :
    TensorIterator.next loader iterator = (.exhausted, { iterator with complete := true }) := by
  have past : loader.length ≤ iterator.position := by
    have high : ¬ done * loader.width < loader.length := fun low =>
      late (Batching.lt_count_iff.mpr low)
    rw [serial.position]
    omega
  simp only [TensorIterator.next, serial.valid, Bool.not_true, Bool.false_eq_true, if_false,
    if_pos past]

end Steps

/-- An iterator starts at any cursor up to the number of batches. -/
theorem TensorIterator.start_spec (loader : TensorLoader) {cursor : Nat}
    (inside : cursor ≤ loader.batching.count) :
    ∃ iterator, TensorIterator.start loader cursor = .ok iterator ∧
      Serial loader cursor iterator := by
  have resumed : (resumeSamplePosition cursor loader.width loader.length).mapError
      Raised.valueError = .ok (min loader.length (cursor * loader.width)) := by
    rw [resumeSamplePosition]
    exact congrArg (Except.mapError Raised.valueError) (if_neg (Nat.not_lt.mpr inside))
  refine ⟨⟨min loader.length (cursor * loader.width), false, true⟩, ?_, rfl, inside, rfl⟩
  rw [TensorIterator.start, resumed]
  rfl

end Hyperloader.Tensor
