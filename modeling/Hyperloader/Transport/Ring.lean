/-
Module: Hyperloader.Transport.Ring
Purpose: The bounded queues of exec/transport/ring.rs in shared memory: a view and its wrapping
  counters, the layout its capacities pass, what every interleaving of pushes and pops keeps,
  and when a call that runs alone returns.
Trusted boundary: none
Main exports: QueueView, QueueView.counting, initializeQueue, ring_serves, ring_returns_iff
-/
import Hyperloader.Foundations.TicketAlone
import Hyperloader.Transport.Message

namespace Hyperloader.Transport

open Foundations

inductive LayoutError where
  | invalidCapacity (capacity : Nat)
  | layoutOverflow
  | headerMismatch (field : String)
deriving DecidableEq

def validateCapacity (capacity : Nat) : Except LayoutError Unit :=
  if capacity < 2 ∨ ¬ capacity.isPowerOfTwo ∨ 2 ^ 32 ≤ capacity then
    .error (.invalidCapacity capacity)
  else .ok ()

/-- A ring's capacity and the mask of its positions. -/
structure QueueView where
  capacity : UInt64
  mask : UInt64

def QueueView.new (capacity : Nat) : QueueView :=
  ⟨UInt64.ofNat capacity, UInt64.ofNat capacity - 1⟩

/-- The arithmetic of `try_push` and `try_pop`: the slot of a position by the mask, a
sequence against a position by the sign of their difference. -/
def QueueView.counting (view : QueueView) : Counting UInt64 where
  next position := position + 1
  lap position := position + view.capacity
  place position := (position &&& view.mask).toNat
  difference sequence position := compare (sequence - position).toInt64 0

abbrev Ring (Party : Type*) := TicketQueue Party UInt64 CommandFrame

def initializeQueue (Party : Type*) : Ring Party where
  enqueue := 0
  dequeue := 0
  slots index := ⟨UInt64.ofNat index, Frame.zeros FRAME_SIZE⟩
  phase _ := .idle

/-- The calls of any parties on one view, an access at a time. -/
abbrev QueueView.machine {Party : Type*} [DecidableEq Party] (view : QueueView) :
    Machine (Ring Party) (Party × TicketAction CommandFrame) (TicketEvent CommandFrame) :=
  TicketQueue.machine view.counting

/-! ### Counters -/

/-- Capacities are powers of two from 2 on, below `2^32`. -/
theorem validateCapacity_ok_iff {capacity : Nat} :
    validateCapacity capacity = .ok () ↔
      2 ≤ capacity ∧ capacity < 2 ^ 32 ∧ ∃ power, capacity = 2 ^ power := by
  unfold validateCapacity
  split
  · rename_i refused
    refine iff_of_false nofun fun ⟨wide, small, power⟩ => ?_
    rcases refused with narrow | odd | large
    · exact Nat.not_le.mpr narrow wide
    · exact odd power
    · exact Nat.not_le.mpr small large
  · rename_i accepted
    rw [not_or, not_or, Nat.not_lt, Nat.not_le, Decidable.not_not] at accepted
    exact iff_of_true rfl ⟨accepted.1, accepted.2.2, accepted.2.1⟩

theorem toInt64_eq_zero {word : UInt64} : word.toInt64 = 0 ↔ word = 0 :=
  ⟨congrArg Int64.toUInt64, congrArg UInt64.toInt64⟩

theorem toInt64_neg {word : UInt64} (high : 2 ^ 63 ≤ word.toNat) : word.toInt64 < 0 := by
  rw [Int64.lt_iff_toInt_lt]
  show word.toBitVec.toInt < 0
  have small := word.toNat_lt
  have same : word.toBitVec.toNat = word.toNat := rfl
  rw [BitVec.toInt_eq_toNat_cond, same, if_neg (by omega)]
  omega

/-- The words of a ring wrap the natural numbers; 2^63 positions and two laps fit in the
counter. -/
def QueueView.wrapping {capacity : Nat} (accepted : validateCapacity capacity = .ok ()) :
    Wrapping capacity (2 ^ 63) (QueueView.new capacity).counting where
  wrap := UInt64.ofNat
  next ticket := (UInt64.ofNat_add ticket 1).symm
  lap ticket := (UInt64.ofNat_add ticket capacity).symm
  place ticket := by
    obtain ⟨wide, small, power, rfl⟩ := validateCapacity_ok_iff.mp accepted
    have fits : 2 ^ power < 2 ^ 64 := Nat.lt_trans small (by decide)
    have mask : (UInt64.ofNat (2 ^ power) - 1).toNat = 2 ^ power - 1 := by
      rw [UInt64.toNat_sub_of_le _ _ (by
        rw [UInt64.le_iff_toNat_le, UInt64.toNat_ofNat', Nat.mod_eq_of_lt fits]
        exact Nat.one_le_of_lt wide), UInt64.toNat_ofNat', Nat.mod_eq_of_lt fits]
      rfl
    show (UInt64.ofNat ticket &&& (UInt64.ofNat (2 ^ power) - 1)).toNat = _
    rw [UInt64.toNat_and, mask, Nat.and_two_pow_sub_one_eq_mod, UInt64.toNat_ofNat']
    apply Nat.mod_mod_of_dvd
    exact Nat.pow_dvd_pow 2 (Nat.le_of_lt ((Nat.pow_lt_pow_iff_right (by decide)).mp fits))
  difference one two := by
    show compare (UInt64.ofNat one - UInt64.ofNat two).toInt64 0 = .eq ↔ _
    rw [Std.compare_eq_iff_eq, toInt64_eq_zero, UInt64.sub_eq_iff_eq_add, UInt64.zero_add]
  apart one two near close same := by
    obtain ⟨-, small, -⟩ := validateCapacity_ok_iff.mp accepted
    have words := congrArg UInt64.toNat same
    rw [UInt64.toNat_ofNat', UInt64.toNat_ofNat'] at words
    exact ticket_eq_of_place (by omega) (by omega) words
  late one two less lap := by
    obtain ⟨-, small, -⟩ := validateCapacity_ok_iff.mp accepted
    show compare (UInt64.ofNat one - UInt64.ofNat two).toInt64 0 = .lt
    refine Std.compare_eq_lt.mpr (toInt64_neg ?_)
    rw [UInt64.toNat_sub, UInt64.toNat_ofNat', UInt64.toNat_ofNat']
    omega

/-! ### Safety -/

section Safety

variable {Party : Type*} [DecidableEq Party]

omit [DecidableEq Party] in
theorem initializeQueue_eq {capacity : Nat} (accepted : validateCapacity capacity = .ok ()) :
    initializeQueue Party = (TicketQueue.vacantQueue (Frame.zeros FRAME_SIZE)).map
      (QueueView.wrapping accepted).wrap := rfl

/-- In every run of a ring during whose calls fewer than 2^63 positions are claimed, the
parties are served as by a queue that hands out tickets in order. -/
theorem ring_serves {capacity : Nat} (accepted : validateCapacity capacity = .ok ())
    {labels : List (Party × TicketAction CommandFrame)} {final : Ring Party}
    {trace : List ((Party × TicketAction CommandFrame) × TicketEvent CommandFrame)}
    (reached : (QueueView.new capacity).machine.run (initializeQueue Party) labels =
      some (trace, final)) (paced : TicketQueue.Paced (2 ^ 63) trace) :
    ∃ ledger, TicketQueue.Serves capacity (QueueView.new capacity).counting UInt64.ofNat trace
      final ledger := by
  have wide := (validateCapacity_ok_iff.mp accepted).1
  rw [initializeQueue_eq accepted] at reached
  exact (TicketQueue.mirrored wide reached paced).serves wide paced

/-- A push, a pop that meets it half done, and the pop done once it is. -/
def meeting : List (Bool × TicketAction CommandFrame) :=
  [(true, .push (Frame.zeros FRAME_SIZE)), (true, .step), (true, .step), (true, .step),
    (false, .pop), (false, .step), (false, .step), (false, .step), (true, .step), (true, .step),
    (false, .step), (false, .step), (false, .step), (false, .step), (false, .step)]

theorem ring_serves_meeting :
    ∃ trace final ledger,
      (QueueView.new 2).machine.run (initializeQueue Bool) meeting = some (trace, final) ∧
      TicketQueue.Serves 2 (QueueView.new 2).counting UInt64.ofNat trace final ledger := by
  have ends : ((QueueView.new 2).machine.run (initializeQueue Bool) meeting).isSome = true := by
    decide +kernel
  obtain ⟨⟨trace, final⟩, reached⟩ := Option.isSome_iff_exists.mp ends
  have short : trace.length < 2 ^ 63 := by
    rw [← List.length_map, Machine.labels_run _ reached]
    decide
  obtain ⟨ledger, serves⟩ := ring_serves (by decide) reached (TicketQueue.paced_of_length short)
  exact ⟨trace, final, ledger, reached, serves⟩

end Safety

/-! ### Stopped parties -/

/-- A call that runs alone from a reachable state returns where its slot is ready, or the
ring full or empty; while fewer than 2^63 positions are claimed during any call, that is
unless a stopped party has won the exchange for the slot it needs and not stored the slot's
sequence. -/
theorem ring_returns_iff {Party : Type*} [DecidableEq Party] {capacity : Nat}
    (accepted : validateCapacity capacity = .ok ())
    {labels : List (Party × TicketAction CommandFrame)} {final : Ring Party}
    {trace : List ((Party × TicketAction CommandFrame) × TicketEvent CommandFrame)}
    (reached : (QueueView.new capacity).machine.run (initializeQueue Party) labels =
      some (trace, final)) (party : Party) :
    (final.Returns (QueueView.new capacity).counting party ↔
      final.Ready (QueueView.new capacity).counting (final.phase party)) ∧
    (TicketQueue.Paced (2 ^ 63) trace →
      (final.Returns (QueueView.new capacity).counting party ↔
        ¬ final.Stuck (QueueView.new capacity).counting (final.phase party))) := by
  refine ⟨TicketQueue.returns_iff_ready, fun paced => TicketQueue.returns_iff_ready.trans ?_⟩
  have wide := (validateCapacity_ok_iff.mp accepted).1
  rw [initializeQueue_eq accepted] at reached
  exact (TicketQueue.mirrored wide reached paced).ready_iff wide paced party

/-- A producer killed between its exchange and its store, and a pop that runs alone. -/
def killed : List (Bool × TicketAction CommandFrame) :=
  [(true, .push (Frame.zeros FRAME_SIZE)), (true, .step), (true, .step), (true, .step),
    (false, .pop)]

theorem ring_returns_iff_killed :
    ∃ trace final,
      (QueueView.new 2).machine.run (initializeQueue Bool) killed = some (trace, final) ∧
      (final.Returns (QueueView.new 2).counting false ↔
        ¬ final.Stuck (QueueView.new 2).counting (final.phase false)) := by
  have ends : ((QueueView.new 2).machine.run (initializeQueue Bool) killed).isSome = true := by
    decide +kernel
  obtain ⟨⟨trace, final⟩, reached⟩ := Option.isSome_iff_exists.mp ends
  have short : trace.length < 2 ^ 63 := by
    rw [← List.length_map, Machine.labels_run _ reached]
    decide
  exact ⟨trace, final, reached,
    (ring_returns_iff (by decide) reached false).2 (TicketQueue.paced_of_length short)⟩

theorem ring_waits_for_killed :
    ¬ ∀ (capacity : Nat), validateCapacity capacity = .ok () →
      ∀ (labels : List (Bool × TicketAction CommandFrame))
        (trace : List ((Bool × TicketAction CommandFrame) × TicketEvent CommandFrame))
        (final : Ring Bool),
        (QueueView.new capacity).machine.run (initializeQueue Bool) labels =
          some (trace, final) →
        ∀ party, final.Returns (QueueView.new capacity).counting party := by
  intro returns
  have ready := TicketQueue.returns_iff_ready.mp (returns 2 (by decide) killed _ _ rfl false)
  have drained : (1 : UInt64) = 0 := ready
  exact absurd drained (by decide)

end Hyperloader.Transport
