/-
Module: Hyperloader.InProcess.Iterator
Purpose: The in-process iterator, inprocess/iterator.py: one batch after the other from a
  resume cursor, without a user sampler.
Trusted boundary: a dataset call returns a value.
Main exports:
  InProcessIterator, InProcessIterator.start, InProcessIterator.machine, inProcess_handout,
  inProcess_procession
-/
import Hyperloader.Foundations.Procession
import Hyperloader.Process.Completion

namespace Hyperloader.InProcess

open Foundations State Distributed
open Hyperloader.Process (Yield)

structure InProcessLoader where
  length : Nat
  batchSize : Option Nat
  sized : batchSize ≠ some 0

namespace InProcessLoader

variable (loader : InProcessLoader)

/-- `batch_size or 1` -/
def width : Nat := loader.batchSize.getD 1

theorem width_pos : 0 < loader.width := by
  have sized := loader.sized
  unfold width
  cases batchSize : loader.batchSize with
  | none => exact Nat.one_pos
  | some size =>
      rw [batchSize] at sized
      exact Nat.pos_of_ne_zero fun zero => sized (congrArg some zero)

/-- The batches of the epoch. -/
def batching : Batching := ⟨loader.length, loader.width, loader.width_pos⟩

end InProcessLoader

/-- `InProcessIterator`, which counts the batches it has delivered. -/
structure InProcessIterator where
  position : Nat
  delivered : Nat
  complete : Bool
  valid : Bool

namespace InProcessIterator

variable (loader : InProcessLoader)

/-- `InProcessIterator.__init__`; it does not read a bitmap. -/
def start (cursor : Nat) : Except Raised InProcessIterator := do
  let position ← (resumeSamplePosition cursor loader.width loader.length).mapError
    Raised.valueError
  .ok ⟨position, cursor, false, true⟩

def INACTIVE : String := "in-process iterator is no longer active"

/-- `__next__` -/
def next (iterator : InProcessIterator) : Yield × InProcessIterator :=
  if !iterator.valid then (.raised (.runtimeError INACTIVE), iterator)
  else if loader.length ≤ iterator.position then
    (.exhausted, { iterator with complete := true })
  else
    let stop := min loader.length (iterator.position + loader.width)
    let positions := List.range' iterator.position (stop - iterator.position)
    (.delivered positions,
      { iterator with
        position := iterator.position + positions.length
        delivered := iterator.delivered + 1 })

def machine : Machine InProcessIterator Unit Yield where
  step iterator _ := some (next loader iterator)

end InProcessIterator

/-- The iterator stands at the boundary of the batches it has counted. -/
structure Serial (loader : InProcessLoader) (iterator : InProcessIterator) : Prop where
  valid : iterator.valid = true
  counted : iterator.delivered ≤ loader.batching.count
  position : iterator.position = min loader.length (iterator.delivered * loader.width)

section Steps

variable {loader : InProcessLoader} {iterator : InProcessIterator}

section

variable (serial : Serial loader iterator)

include serial

theorem Serial.early_iff :
    iterator.position < loader.length ↔ iterator.delivered < loader.batching.count := by
  rw [Batching.lt_count_iff, serial.position]
  show _ ↔ iterator.delivered * loader.width < loader.length
  omega

theorem Serial.late (late : loader.length ≤ iterator.position) :
    InProcessIterator.next loader iterator =
        (.exhausted, { iterator with complete := true }) ∧
      iterator.delivered = loader.batching.count := by
  constructor
  · rw [InProcessIterator.next, serial.valid, if_pos late]
    rfl
  · have past := serial.early_iff.not.mp (Nat.not_lt.mpr late)
    exact Nat.le_antisymm serial.counted (Nat.le_of_not_lt past)

/-- The batch after those counted is delivered. -/
theorem Serial.early (early : iterator.position < loader.length) :
    ∃ after, InProcessIterator.next loader iterator =
        (.delivered (loader.batching.batch iterator.delivered), after) ∧
      Serial loader after ∧ after.delivered = iterator.delivered + 1 ∧
      iterator.position < after.position := by
  have real := serial.early_iff.mp early
  have low : iterator.delivered * loader.width < loader.length := by
    rwa [Batching.lt_count_iff] at real
  have here : iterator.position = iterator.delivered * loader.width :=
    serial.position.trans (Nat.min_eq_right (Nat.le_of_lt low))
  have positive := loader.width_pos
  have size : min loader.length (iterator.position + loader.width) - iterator.position =
      loader.batching.size iterator.delivered := by
    show _ = min loader.width (loader.length - iterator.delivered * loader.width)
    omega
  refine ⟨{ iterator with
      position := iterator.position + loader.batching.size iterator.delivered
      delivered := iterator.delivered + 1 }, ?_, ⟨serial.valid, real, ?_⟩, rfl, ?_⟩
  · have batch : List.range' iterator.position (loader.batching.size iterator.delivered) =
        loader.batching.batch iterator.delivered := congrArg (List.range' · _) here
    simp only [InProcessIterator.next, serial.valid, Bool.not_true, Bool.false_eq_true,
      if_false, if_neg (Nat.not_le.mpr early), size, batch, Batching.length_batch]
  · show iterator.position + min loader.width (loader.length - iterator.delivered * loader.width) =
      min loader.length ((iterator.delivered + 1) * loader.width)
    rw [Nat.succ_mul]
    omega
  · show iterator.position < iterator.position + loader.batching.size iterator.delivered
    exact Nat.lt_add_of_pos_right (Batching.size_pos_iff.mpr real)

end

/-- The iterator hands out the batches from its cursor on, each once. -/
theorem inProcess_handout :
    Handout (InProcessIterator.machine loader) Yield.batch Yield.Failed Yield.Finished
      loader.batching.everything (Serial loader)
      (fun iterator => loader.batching.contents (Finset.range iterator.delivered))
      (fun iterator => loader.length - iterator.position) := by
  apply Handout.of_moves
  · intro iterator serial
    refine Batching.contents_subset fun ordinal member => ?_
    exact Nat.lt_of_lt_of_le (Finset.mem_range.mp member) serial.counted
  · intro iterator label event after serial stepEq
    replace stepEq := Option.some.inj stepEq
    by_cases early : iterator.position < loader.length
    · obtain ⟨other, nextEq, kept, counted, -⟩ := serial.early early
      obtain ⟨rfl, rfl⟩ := Prod.mk.inj (nextEq.symm.trans stepEq)
      have real := serial.early_iff.mp early
      refine ⟨kept, fun failed => failed, Or.inr ⟨_, rfl, fun member => ?_, ?_⟩,
        fun ended => False.elim ended⟩
      · exact Finset.notMem_range_self ((Batching.batch_mem_contents real).mp member)
      · rw [counted, Finset.range_add_one, Batching.contents_insert]
    · obtain ⟨nextEq, whole⟩ := serial.late (Nat.le_of_not_lt early)
      obtain ⟨rfl, rfl⟩ := Prod.mk.inj (nextEq.symm.trans stepEq)
      refine ⟨⟨serial.valid, serial.counted, serial.position⟩, fun failed => failed,
        Or.inl ⟨rfl, rfl⟩, fun _ => ?_⟩
      rw [whole, Batching.everything]
  · intro iterator serial
    by_cases early : iterator.position < loader.length
    · obtain ⟨after, nextEq, -, -, further⟩ := serial.early early
      exact ⟨(), _, after, congrArg some nextEq, Or.inr (by omega)⟩
    · obtain ⟨nextEq, -⟩ := serial.late (Nat.le_of_not_lt early)
      exact ⟨(), .exhausted, _, congrArg some nextEq, Or.inl trivial⟩

end Steps

theorem InProcessIterator.start_spec (loader : InProcessLoader) {cursor : Nat}
    (inside : cursor ≤ loader.batching.count) :
    ∃ iterator, InProcessIterator.start loader cursor = .ok iterator ∧
      Serial loader iterator ∧ iterator.delivered = cursor := by
  have resumed : (resumeSamplePosition cursor loader.width loader.length).mapError
      Raised.valueError = .ok (min loader.length (cursor * loader.width)) := by
    rw [resumeSamplePosition]
    exact congrArg (Except.mapError Raised.valueError) (if_neg (Nat.not_lt.mpr inside))
  refine ⟨⟨min loader.length (cursor * loader.width), cursor, false, true⟩, ?_,
    ⟨rfl, inside, rfl⟩, rfl⟩
  rw [InProcessIterator.start, resumed]
  rfl

end Hyperloader.InProcess
