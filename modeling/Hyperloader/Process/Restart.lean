/-
Module: Hyperloader.Process.Restart
Purpose: The process iterator under in-order delivery when its pool restarts dead workers,
  process/recovery.py with process/iterator.py: what a WorkerDied raised by `next` leaves of
  the batch being assembled and of the commands in flight, and when the epoch goes on.
Trusted boundary: a worker that takes a command answers it with a value, or dies before it
  answers; the transport of a replacement takes the commands sent again.
Main exports:
  RestartIterator, RestartIterator.machine, Harmless, Continues, restart_continues_iff
-/
import Hyperloader.Foundations.Fallible
import Hyperloader.Process.Liveness

namespace Hyperloader.Process

open Foundations Schedule Schedule.Native
open State Distributed

/-! ### Positions that never leave the iterator -/

/-- A position that is neither committed nor received nor in the pool. -/
structure Frontier.Untouched (position : Nat) (frontier : Frontier) : Prop where
  uncommitted : ¬ frontier.Committed position
  unready : position ∉ frontier.ready
  idle : ∀ dispatch ∈ frontier.running ++ frontier.finished, dispatch.position ≠ position

section Untouched

variable {start stop workers position : Nat} {frontier after : Frontier}

theorem Still.untouched (same : Still frontier after)
    (untouched : frontier.Untouched position) : after.Untouched position := by
  refine ⟨fun committed => untouched.uncommitted ((same.waited.committed position).mp committed),
    same.ready ▸ untouched.unready, ?_⟩
  rw [same.running, same.finished]
  exact untouched.idle

theorem Arrived.untouched {dispatch : Dispatch} (arrival : Arrived dispatch frontier after)
    (untouched : frontier.Untouched position) : after.Untouched position := by
  refine ⟨fun committed => untouched.uncommitted
    ((arrival.waited.committed position).mp committed), ?_, fun other member => ?_⟩
  · rw [arrival.ready, Finset.mem_insert]
    rintro (same | old)
    · exact untouched.idle dispatch (List.mem_append_right _ arrival.held) same.symm
    · exact untouched.unready old
  · rw [arrival.running, arrival.finished] at member
    refine untouched.idle other ?_
    rcases List.mem_append.mp member with running | finished
    · exact List.mem_append_left _ running
    · exact List.mem_append_right _ (List.mem_of_mem_erase finished)

theorem Popped.untouched {expected : Nat} (popped : Popped expected frontier after)
    (untouched : frontier.Untouched position) : after.Untouched position := by
  refine ⟨?_, fun held => ?_, ?_⟩
  · rw [popped.committed]
    rintro (old | same)
    · exact untouched.uncommitted old
    · exact untouched.unready (same ▸ popped.held)
  · rw [popped.ready] at held
    exact untouched.unready (Finset.mem_of_mem_erase held)
  · rw [popped.running, popped.finished]
    exact untouched.idle

theorem Linked.work_untouched (linked : Linked start stop workers frontier)
    {dispatch : Dispatch} (worked : frontier.work dispatch = some after)
    (untouched : frontier.Untouched position) : after.Untouched position := by
  obtain ⟨-, member, rfl⟩ := linked.work worked
  refine ⟨untouched.uncommitted, untouched.unready, fun other inside => untouched.idle other ?_⟩
  rcases List.mem_append.mp inside with running | finished
  · exact List.mem_append_left _ (List.mem_of_mem_erase running)
  · rcases List.mem_append.mp finished with old | same
    · exact List.mem_append_right _ old
    · exact List.mem_append_left _ (List.mem_singleton.mp same ▸ member)

/-- Dispatches that raise nothing send no command that would be refused. -/
theorem Linked.fill_untouched {refusal : Nat → Option Raised} (refused : refusal position ≠ none)
    (order : List Nat) (room : Nat) (linked : Linked start stop workers frontier)
    (unrefused : frontier.refused refusal order room = none)
    (filled : frontier.fill order room = .ok after) (untouched : frontier.Untouched position) :
    after.Untouched position := by
  induction order generalizing room frontier with
  | nil =>
      cases filled
      exact untouched
  | cons selected order ih =>
      rw [Frontier.refused] at unrefused
      rw [Frontier.fill] at filled
      cases eligible : frontier.schedule.dispatchAt selected with
      | none =>
          simp only [eligible] at unrefused filled
          exact ih room linked unrefused filled untouched
      | some dispatch =>
          simp only [eligible] at unrefused filled
          cases fits : refusal dispatch.position with
          | some failure =>
              simp only [fits] at unrefused
              cases unrefused
          | none =>
              cases room with
              | zero =>
                  cases filled
                  exact untouched
              | succ room =>
                  obtain ⟨schedule, marked, admitted, same, -⟩ := linked.markDispatched eligible
                  simp only [fits, marked] at unrefused filled
                  refine ih room admitted unrefused filled ⟨?_, ?_, ?_⟩
                  · exact fun committed => untouched.uncommitted
                      ((same.waited.committed position).mp committed)
                  · exact untouched.unready
                  · intro other member
                    rcases List.mem_append.mp member with running | finished
                    · rcases List.mem_append.mp running with old | new
                      · exact untouched.idle other (List.mem_append_left _ old)
                      · intro equal
                        obtain rfl := List.mem_singleton.mp new
                        rw [equal] at fits
                        exact refused fits
                    · exact untouched.idle other (List.mem_append_right _ finished)

/-- Polling keeps what every arrival keeps. -/
theorem Linked.poll_keeps {motive : Frontier → Prop}
    (arrives : ∀ dispatch here there, motive here → Arrived dispatch here there → motive there)
    (polled : List Nat) (linked : Linked start stop workers frontier) (holds : motive frontier)
    {came : Bool} (pollEq : OrderedIterator.poll polled frontier = .ok (came, after)) :
    motive after := by
  induction polled generalizing frontier came with
  | nil =>
      cases pollEq
      exact holds
  | cons worker polled ih =>
      rw [OrderedIterator.poll] at pollEq
      rcases linked.receive worker with ⟨nothing, -⟩ | ⟨dispatch, next, received, kept, arrival⟩
      · simp only [nothing] at pollEq
        exact ih linked holds pollEq
      · simp only [received] at pollEq
        split at pollEq
        · cases pollEq
        · rename_i rest
          cases pollEq
          exact ih kept (arrives dispatch frontier next holds arrival) rest

/-- A poll that nothing comes of leaves the frontier as it is. -/
theorem poll_nothing (polled : List Nat)
    (pollEq : OrderedIterator.poll polled frontier = .ok (false, after)) : after = frontier := by
  induction polled with
  | nil =>
      cases pollEq
      rfl
  | cons worker polled ih =>
      rw [OrderedIterator.poll] at pollEq
      split at pollEq
      · cases pollEq
      · rename_i nothing
        unfold Frontier.receive at nothing
        split at nothing
        · cases nothing
          exact ih pollEq
        · split at nothing <;> cases nothing
      · split at pollEq <;> cases pollEq

end Untouched

/-! ### Refused and other steps -/

namespace CollatedLoader

variable (loader : CollatedLoader)

/-- The loader over a transport that every command fits. -/
def fitted : CollatedLoader := { loader with commandLength := fun _ => 0 }

theorem fits_fitted : loader.fitted.Fits := fun _ _ =>
  if_neg fun both => absurd both.2 (Nat.not_lt_zero _)

/-- Every command from a batch on fits its slot. -/
def FitsFrom (cursor : Nat) : Prop :=
  ∀ position, cursor * loader.perBatch ≤ position → position < loader.scheduleLength →
    loader.refusal position = none

theorem fitsFrom_of_plain (plain : loader.userCollation = false) (cursor : Nat) :
    loader.FitsFrom cursor := fun position _ inside => fits_of_plain loader plain position inside

end CollatedLoader

namespace OrderedIterator

variable (loader : CollatedLoader)

/-- What the dispatches of a step raise. -/
def refusalOf (iterator : OrderedIterator) : ProcessIterator.Label → Option Raised
  | .next order room =>
      match iterator.frontier with
      | none => none
      | some frontier =>
          if iterator.valid ∧ iterator.position < loader.length ∧
              order.Perm frontier.schedule.dispatchCandidates then
            frontier.refused loader.refusal order room
          else none
  | .fill order room =>
      match iterator.frontier with
      | none => none
      | some frontier =>
          if iterator.valid ∧ order.Perm frontier.schedule.dispatchCandidates then
            frontier.refused loader.refusal order room
          else none
  | _ => none

end OrderedIterator

section Refusals

variable {loader : CollatedLoader} {iterator : OrderedIterator} {label : ProcessIterator.Label}

theorem Frontier.refused_fitted (frontier : Frontier) (order : List Nat) (room : Nat) :
    frontier.refused loader.fitted.refusal order room = none := by
  induction order generalizing frontier room with
  | nil => rfl
  | cons selected order ih =>
      rw [Frontier.refused]
      have fits : ∀ position, loader.fitted.refusal position = none := fun _ =>
        if_neg fun both => absurd both.2 (Nat.not_lt_zero _)
      cases frontier.schedule.dispatchAt selected with
      | none => exact ih frontier room
      | some dispatch =>
          simp only [fits]
          cases room with
          | zero => rfl
          | succ room =>
              dsimp only
              split
              · exact ih _ room
              · rfl

/-- A step raises the refusal of its dispatches, or it is the step over a transport that
every command fits. -/
theorem OrderedIterator.step_eq :
    OrderedIterator.step loader iterator label =
      match OrderedIterator.refusalOf loader iterator label with
      | some failure => some (iterator.fail failure)
      | none => OrderedIterator.step loader.fitted iterator label := by
  cases label with
  | next order room =>
      simp only [OrderedIterator.step, OrderedIterator.next, OrderedIterator.refusalOf]
      cases here : iterator.frontier with
      | none => rfl
      | some frontier =>
          by_cases reaches : iterator.valid = true ∧ iterator.position < loader.length ∧
              order.Perm frontier.schedule.dispatchCandidates
          · obtain ⟨valid, early, ordering⟩ := reaches
            have late : ¬ loader.fitted.length ≤ iterator.position := Nat.not_le.mpr early
            simp only [valid, early, ordering, late, Nat.not_le.mpr early, and_self, if_true,
              Bool.not_true, Bool.false_eq_true, if_false, Frontier.refused_fitted]
            cases frontier.refused loader.refusal order room with
            | some failure | none => rfl
          · simp only [if_neg reaches]
            split
            · rfl
            · rename_i valid
              by_cases late : loader.length ≤ iterator.position
              · exact (if_pos late).trans (if_pos late).symm
              · have other : ¬ order.Perm frontier.schedule.dispatchCandidates := fun ordering =>
                  reaches ⟨by simpa using valid, Nat.lt_of_not_le late, ordering⟩
                exact ((if_neg late).trans (if_neg other)).trans
                  ((if_neg late).trans (if_neg other)).symm
  | fill order room =>
      simp only [OrderedIterator.step, OrderedIterator.refusalOf]
      cases iterator.frontier with
      | none => rfl
      | some frontier =>
          by_cases reaches : iterator.valid = true ∧
              order.Perm frontier.schedule.dispatchCandidates
          · simp only [if_pos reaches, Frontier.refused_fitted]
            cases frontier.refused loader.refusal order room with
            | some failure | none => rfl
          · simp only [if_neg reaches]
  | work dispatch | adapt width => rfl

end Refusals

/-! ### What one step does to the frontier -/

/-- Commits stay, and a position whose command is refused does not enter the pool. -/
structure Onward (refusal : Nat → Option Raised) (before after : Frontier) : Prop where
  committed : ∀ position, before.Committed position → after.Committed position
  untouched : ∀ position, refusal position ≠ none → before.Untouched position →
    after.Untouched position

section Onward

variable {refusal : Nat → Option Raised} {start stop workers : Nat} {frontier after : Frontier}

theorem Onward.refl (frontier : Frontier) : Onward refusal frontier frontier :=
  ⟨fun _ old => old, fun _ _ old => old⟩

theorem Onward.trans {one two three : Frontier} (first : Onward refusal one two)
    (second : Onward refusal two three) : Onward refusal one three :=
  ⟨fun position old => second.committed position (first.committed position old),
    fun position refused old =>
      second.untouched position refused (first.untouched position refused old)⟩

theorem Still.onward (same : Still frontier after) : Onward refusal frontier after :=
  ⟨fun position old => (same.waited.committed position).mpr old,
    fun _ _ old => same.untouched old⟩

theorem Popped.onward {position : Nat} (popped : Popped position frontier after) :
    Onward refusal frontier after :=
  ⟨fun other old => (popped.committed other).mpr (Or.inl old),
    fun _ _ old => popped.untouched old⟩

section

variable (linked : Linked start stop workers frontier)

include linked

theorem Linked.work_onward {dispatch : Dispatch} (worked : frontier.work dispatch = some after) :
    Onward refusal frontier after := by
  refine ⟨fun position old => ?_, fun _ _ old => linked.work_untouched worked old⟩
  obtain ⟨-, -, rfl⟩ := linked.work worked
  exact old

theorem Linked.fill_onward {order : List Nat} {room : Nat}
    (unrefused : frontier.refused refusal order room = none)
    (filled : frontier.fill order room = .ok after) (same : Filled frontier after) :
    Onward refusal frontier after :=
  ⟨fun position old => (same.waited.committed position).mpr old,
    fun _ refused old => linked.fill_untouched refused order room unrefused filled old⟩

theorem Linked.poll_onward {polled : List Nat} {came : Bool}
    (pollEq : OrderedIterator.poll polled frontier = .ok (came, after))
    (waited : Waited frontier after) : Onward refusal frontier after :=
  ⟨fun position old => (waited.committed position).mpr old,
    fun _ _ old => linked.poll_keeps (fun _ _ _ unread arrival => arrival.untouched unread)
      polled old pollEq⟩

end

end Onward

/-- What a step that does not fail leaves of an iterator: it moves the frontier on, and
unless the payload expected is there nothing is delivered. -/
structure Kept (loader : CollatedLoader) (start : Nat) (iterator : OrderedIterator)
    (frontier : Frontier) (event : Yield) (after : OrderedIterator) : Prop where
  moved : ∃ next, after.frontier = some next ∧
    Linked start loader.scheduleLength loader.workers next ∧ Onward loader.refusal frontier next
  outcome : iterator.expected loader ∈ frontier.ready ∨
    (after.position = iterator.position ∧ after.samples = iterator.samples ∧
      event.batch = none ∧ (event.Finished → loader.length ≤ iterator.position))

section Kept

variable {loader : CollatedLoader} {start : Nat} {iterator after : OrderedIterator}
  {frontier next : Frontier} {event : Yield}

/-- A step that only moves the frontier. -/
theorem Kept.silent (silent : event = .quiet ∨ event = .waiting)
    (linked : Linked start loader.scheduleLength loader.workers next)
    (onward : Onward loader.refusal frontier next) :
    Kept loader start iterator frontier event { iterator with frontier := some next } := by
  refine ⟨⟨next, rfl, linked, onward⟩, Or.inr ⟨rfl, rfl, ?_, fun ended => ?_⟩⟩
  · rcases silent with rfl | rfl <;> rfl
  · rcases silent with rfl | rfl <;> exact ended.elim

/-- Where the iterator goes, its frontier is the one that has committed the position. -/
theorem OrderedIterator.frontier_nextCompletion
    (commitEq : frontier.commitNext (iterator.expected loader) = .ok (some next))
    (passEq : OrderedIterator.nextCompletion loader iterator frontier = (event, after))
    (sound : ¬ event.Failed) : after.frontier = some next := by
  rw [OrderedIterator.nextCompletion, commitEq] at passEq
  dsimp only at passEq
  split at passEq
  · cases passEq
    rfl
  · unfold OrderedIterator.deliver at passEq
    dsimp only at passEq
    split at passEq
    · split at passEq
      · cases passEq
        exact absurd trivial sound
      · cases passEq
        rfl
    · cases passEq
      rfl

/-- A pass behind its dispatches. -/
theorem Linked.nextCompletion {before : Frontier}
    (linked : Linked start loader.scheduleLength loader.workers frontier)
    (ready : frontier.ready = before.ready) (onward : Onward loader.refusal before frontier)
    (passEq : OrderedIterator.nextCompletion loader iterator frontier = (event, after))
    (sound : ¬ event.Failed) : Kept loader start iterator before event after := by
  rcases linked.commitNext (iterator.expected loader) with
    ⟨-, nothing⟩ | ⟨-, -, refused⟩ | ⟨-, committed, commitEq, kept, popped⟩
  · obtain ⟨came, polled, pollEq, still, waited, -, -, -⟩ :=
      poll_spec linked (List.range loader.workers)
    have further := onward.trans (linked.poll_onward pollEq waited)
    rw [OrderedIterator.nextCompletion, nothing] at passEq
    simp only [OrderedIterator.await, pollEq] at passEq
    cases came with
    | true =>
        cases passEq
        exact .silent (Or.inl rfl) still further
    | false =>
        obtain ⟨grown, growEq, deeper, same⟩ := still.recordWait
        simp only [growEq] at passEq
        cases passEq
        exact .silent (Or.inr rfl) deeper (further.trans same.onward)
  · rw [OrderedIterator.nextCompletion, refused] at passEq
    cases passEq
    exact absurd trivial sound
  · exact ⟨⟨committed, OrderedIterator.frontier_nextCompletion commitEq passEq sound, kept,
      onward.trans popped.onward⟩, Or.inl (ready ▸ popped.held)⟩

/-- Every step that does not fail. -/
theorem Linked.step (linked : Linked start loader.scheduleLength loader.workers frontier)
    (here : iterator.frontier = some frontier) {label : ProcessIterator.Label}
    (stepEq : OrderedIterator.step loader iterator label = some (event, after))
    (sound : ¬ event.Failed) : Kept loader start iterator frontier event after := by
  cases label with
  | next order room =>
      simp only [OrderedIterator.step, OrderedIterator.next, here] at stepEq
      split at stepEq
      · cases stepEq
        exact absurd trivial sound
      · split at stepEq
        · rename_i late
          cases stepEq
          exact ⟨⟨frontier, rfl, linked, .refl frontier⟩, Or.inr ⟨rfl, rfl, rfl, fun _ => late⟩⟩
        · split at stepEq
          · obtain ⟨filled, fillEq, kept, same⟩ := linked.fill order room
            cases unrefused : frontier.refused loader.refusal order room with
            | some failure =>
                simp only [unrefused] at stepEq
                cases stepEq
                exact absurd trivial sound
            | none =>
                simp only [unrefused, fillEq] at stepEq
                exact kept.nextCompletion same.ready (linked.fill_onward unrefused fillEq same)
                  (Option.some.inj stepEq) sound
          · cases stepEq
  | fill order room =>
      simp only [OrderedIterator.step, here] at stepEq
      split at stepEq
      · obtain ⟨filled, fillEq, kept, same⟩ := linked.fill order room
        cases unrefused : frontier.refused loader.refusal order room with
        | some failure =>
            simp only [unrefused] at stepEq
            cases stepEq
            exact absurd trivial sound
        | none =>
            simp only [unrefused, fillEq] at stepEq
            cases stepEq
            exact .silent (Or.inl rfl) kept (linked.fill_onward unrefused fillEq same)
      · cases stepEq
  | work dispatch =>
      simp only [OrderedIterator.step, here] at stepEq
      obtain ⟨worked, workEq, pair⟩ := Option.map_eq_some_iff.mp stepEq
      cases pair
      exact .silent (Or.inl rfl) (linked.work workEq).1 (linked.work_onward workEq)
  | adapt width =>
      simp only [OrderedIterator.step, here] at stepEq
      split at stepEq
      · rename_i decided
        obtain ⟨adapted, adaptEq, kept, same⟩ := linked.adapt decided.2.1 decided.2.2
        simp only [adaptEq] at stepEq
        cases stepEq
        exact .silent (Or.inl rfl) kept same.onward
      · cases stepEq

end Kept

/-! ### The iterator under the restart policy -/

/-- `ProcessIterator` of an in-order loader over a pool with `on_worker_death="restart"`.
`recovered` are the positions of the user collations that `restart_worker` sent again. -/
structure RestartIterator where
  iterator : OrderedIterator
  recovered : Finset Nat

namespace RestartIterator

variable (loader : CollatedLoader)

/-- A step of the iterator or of its workers, or a pass of `__next__` that finds `worker`
dead when it comes to wait. -/
inductive Label where
  | call (label : ProcessIterator.Label)
  | die (worker : Nat) (order : List Nat) (room : Nat)
deriving DecidableEq

/-- What a step shows: what the iterator does, the default collation of samples in place of
a user collation, or a WorkerDied. -/
inductive Outcome where
  | yielded (event : Yield)
  | replaced (samples : List Nat)
  | died (worker : Nat)
deriving DecidableEq

namespace Outcome

def batch : Outcome → Option (List Nat)
  | .yielded event => event.batch
  | _ => none

def Failed : Outcome → Prop
  | .yielded event => event.Failed
  | .replaced _ => True
  | .died _ => False

def Finished : Outcome → Prop
  | .yielded event => event.Finished
  | _ => False

end Outcome

/-- The commands in flight on a worker behind the dispatches of a pass. -/
def inFlight (frontier : Frontier) (worker : Nat) (order : List Nat) (room : Nat) : List Nat :=
  match frontier.fill order room with
  | .error _ => []
  | .ok filled =>
      (filled.running.filter fun dispatch => dispatch.worker == worker).map (·.position)

/-- The frontier of a pass that comes to `check_workers`: behind its dispatches there is
nothing to commit and nothing to receive. -/
def waits (iterator : OrderedIterator) (frontier : Frontier) (order : List Nat) (room : Nat) :
    Option Frontier :=
  match frontier.fill order room with
  | .error _ => none
  | .ok filled =>
      match filled.commitNext (iterator.expected loader) with
      | .ok none =>
          match OrderedIterator.poll (List.range loader.workers) filled with
          | .ok (false, waiting) => some waiting
          | _ => none
      | _ => none

/-- `check_worker` of a dead worker.  `restart_worker` sends its commands again, a user
collation as the black-box command of its first samples; the values that `_next_batch` has
decoded go with its frame. -/
def die (state : RestartIterator) (worker : Nat) (order : List Nat) (room : Nat) :
    Option (Outcome × RestartIterator) :=
  match state.iterator.frontier with
  | none => none
  | some frontier =>
      if state.iterator.valid ∧ state.iterator.position < loader.length ∧
          worker < loader.workers ∧ order.Perm frontier.schedule.dispatchCandidates ∧
          frontier.refused loader.refusal order room = none then
        (waits loader state.iterator frontier order room).map fun waiting =>
          (.died worker,
            { iterator := { state.iterator with samples := [], frontier := some waiting }
              recovered :=
                if loader.userCollation then
                  state.recovered ∪ (inFlight frontier worker order room).toFinset
                else state.recovered })
      else none

/-- What the consumer is handed at a delivery: for a command sent again as a black-box one,
`evaluate_dispatch` collates the samples from index 0 on. -/
def outcome (state : RestartIterator) : Yield → Outcome
  | .delivered batch =>
      if state.iterator.expected loader ∈ state.recovered then
        .replaced (List.range batch.length)
      else .yielded (.delivered batch)
  | event => .yielded event

def step (state : RestartIterator) : Label → Option (Outcome × RestartIterator)
  | .call label =>
      (OrderedIterator.step loader state.iterator label).map fun (event, after) =>
        (outcome loader state event, { state with iterator := after })
  | .die worker order room => die loader state worker order room

def machine : Machine RestartIterator Label Outcome where
  step := step loader

/-- A WorkerDied surfaces before the batch being assembled has a sample, and from a worker
without a user collation in flight. -/
def Harmless (state : RestartIterator) : Label → Prop
  | .call _ => True
  | .die worker order room =>
      state.iterator.samples = [] ∧
        (loader.userCollation = true → ∀ frontier ∈ state.iterator.frontier,
          inFlight frontier worker order room = [])

instance (state : RestartIterator) : (label : Label) → Decidable (Harmless loader state label)
  | .call _ => inferInstanceAs (Decidable True)
  | .die worker order room =>
      inferInstanceAs (Decidable (state.iterator.samples = [] ∧
        (loader.userCollation = true → ∀ frontier ∈ state.iterator.frontier,
          inFlight frontier worker order room = [])))

/-- After a run that began behind `cursor` batches, the calls of `next` hand out the batches
that are due, each once, whole and in order, and raise nothing; and some of them bring the
epoch to its end. -/
structure Continues (cursor : Nat) (trace : List (Label × Outcome)) (state : RestartIterator) :
    Prop where
  later : ∀ (calls : List ProcessIterator.Label) more final,
    (machine loader).run state (calls.map Label.call) = some (more, final) →
    handed Outcome.batch (trace ++ more) <+: loader.batching.batches.drop cursor ∧
      ∀ entry ∈ trace ++ more, ¬ entry.2.Failed
  ends : ∃ (calls : List ProcessIterator.Label) (more : List (Label × Outcome)) (final : _),
    (machine loader).run state (calls.map Label.call) = some (more, final) ∧
      (∃ entry ∈ more, entry.2.Finished) ∧
      handed Outcome.batch (trace ++ more) = loader.batching.batches.drop cursor

end RestartIterator

/-! ### Steps of an ordered iterator -/

section Steps

variable {loader : CollatedLoader} {cursor done start : Nat} {iterator : OrderedIterator}

theorem Ordered.fitted (ordered : Ordered loader done iterator) :
    Ordered loader.fitted done iterator :=
  ⟨ordered.valid, ordered.counted, ordered.position, ordered.marked, ordered.taken,
    ordered.short, ordered.linked, ordered.open_⟩

theorem Ordered.of_fitted (ordered : Ordered loader.fitted done iterator) :
    Ordered loader done iterator :=
  ⟨ordered.valid, ordered.counted, ordered.position, ordered.marked, ordered.taken,
    ordered.short, ordered.linked, ordered.open_⟩

section

variable (ordered : Ordered loader done iterator)

include ordered

/-- Whatever commands fit, a step that does not fail keeps the order of delivery. -/
theorem Ordered.call {label : ProcessIterator.Label} {event : Yield} {after : OrderedIterator}
    (stepEq : OrderedIterator.step loader iterator label = some (event, after))
    (sound : ¬ event.Failed) : Turned loader done event after := by
  rw [OrderedIterator.step_eq] at stepEq
  cases refused : OrderedIterator.refusalOf loader iterator label with
  | some failure =>
      rw [refused] at stepEq
      cases stepEq
      exact absurd trivial sound
  | none =>
      rw [refused] at stepEq
      have turned := ordered.fitted.step loader.fits_fitted stepEq
      refine ⟨turned.sound, ?_, turned.ended⟩
      rcases turned.outcome with ⟨silent, kept⟩ | ⟨delivered, kept⟩
      · exact Or.inl ⟨silent, kept.of_fitted⟩
      · exact Or.inr ⟨delivered, kept.of_fitted⟩

/-- Where the positions before `first` are committed and every command from it on fits, no
step is refused. -/
theorem Ordered.refusalOf_none {first : Nat}
    (fits : ∀ position, first ≤ position → position < loader.scheduleLength →
      loader.refusal position = none)
    (past : ∀ frontier, iterator.frontier = some frontier →
      ∀ position < first, frontier.Committed position)
    (label : ProcessIterator.Label) : OrderedIterator.refusalOf loader iterator label = none := by
  cases here : iterator.frontier with
  | none => cases label <;> simp only [OrderedIterator.refusalOf, here]
  | some frontier =>
      obtain ⟨start, linked⟩ := ordered.linked frontier here
      have unrefused : ∀ order room, frontier.refused loader.refusal order room = none := by
        refine linked.unrefused fun position uncommitted inside => fits position ?_ inside
        by_contra before
        exact uncommitted (past frontier here position (Nat.lt_of_not_le before))
      cases label <;> simp only [OrderedIterator.refusalOf, here, unrefused, ite_self]

/-- The epoch goes on from any state where nothing is refused. -/
theorem Ordered.nearer_from
    (unrefused : ∀ label, OrderedIterator.refusalOf loader iterator label = none) :
    ∃ label event after, OrderedIterator.step loader iterator label = some (event, after) ∧
      (event.Finished ∨ after.remaining loader < iterator.remaining loader) := by
  obtain ⟨label, event, after, stepEq, near⟩ := ordered.fitted.nearer loader.fits_fitted
  refine ⟨label, event, after, ?_, near⟩
  rw [OrderedIterator.step_eq, unrefused]
  exact stepEq

/-- Without the samples it has taken an iterator expects the first position of its batch. -/
theorem Ordered.expected_reset (early : done < loader.batching.count) (frontier : Option Frontier) :
    ({ iterator with samples := [], frontier := frontier } : OrderedIterator).expected loader =
      done * loader.perBatch := by
  obtain ⟨-, position⟩ := ordered.expected early
  rw [OrderedIterator.expected]
  cases transport : loader.transportBatchSize with
  | none =>
      show iterator.position + 0 = _
      rw [position, Nat.add_zero, ProcessLoader.perBatch, transport]
  | some size =>
      show iterator.position / size = _
      rw [position, ProcessLoader.perBatch_of_transport transport,
        ← ProcessLoader.width_of_transport transport, Nat.mul_div_cancel _ loader.width_pos,
        Nat.mul_one]

/-- Between two batches nothing is lost with the samples taken. -/
theorem Ordered.reset (fresh : iterator.samples = []) {frontier after : Frontier}
    (here : iterator.frontier = some frontier)
    (linked : Linked start loader.scheduleLength loader.workers after)
    (waited : Waited frontier after) :
    Ordered loader done { iterator with samples := [], frontier := some after } := by
  have same : ({ iterator with samples := [], frontier := some after } : OrderedIterator) =
      { iterator with frontier := some after } := by rw [fresh]
  rw [same]
  exact ordered.refront here linked waited

/-- A batch with one schedule position is never partly taken. -/
theorem Ordered.samples_nil (early : done < loader.batching.count) (single : loader.perBatch = 1) :
    iterator.samples = [] := by
  have short := ordered.short early
  have size : loader.grid.size done ≤ loader.perBatch := Nat.min_le_left _ _
  exact List.eq_nil_of_length_eq_zero (by omega)

end

end Steps

/-! ### What a death leaves -/

section Deaths

open RestartIterator

variable {loader : CollatedLoader} {cursor done start : Nat} {state after : RestartIterator}
  {worker room : Nat} {order : List Nat} {event : Outcome}

/-- What a death leaves: the dispatches of its pass, without the samples taken. -/
structure Died (loader : CollatedLoader) (start : Nat) (state : RestartIterator)
    (worker : Nat) (order : List Nat) (room : Nat) (after : RestartIterator) : Prop where
  valid : state.iterator.valid = true
  early : state.iterator.position < loader.length
  left : ∃ frontier filled, state.iterator.frontier = some frontier ∧
    frontier.fill order room = .ok filled ∧
    Linked start loader.scheduleLength loader.workers filled ∧ Waited frontier filled ∧
    Onward loader.refusal frontier filled ∧
    after.iterator = { state.iterator with samples := [], frontier := some filled } ∧
    after.recovered =
      if loader.userCollation then
        state.recovered ∪ (inFlight frontier worker order room).toFinset
      else state.recovered

theorem died_of_die (linked : ∀ frontier, state.iterator.frontier = some frontier →
      Linked start loader.scheduleLength loader.workers frontier)
    (dieEq : die loader state worker order room = some (event, after)) :
    event = .died worker ∧ Died loader start state worker order room after := by
  unfold die at dieEq
  cases here : state.iterator.frontier with
  | none =>
      rw [here] at dieEq
      cases dieEq
  | some frontier =>
      simp only [here] at dieEq
      split at dieEq
      · rename_i guard
        obtain ⟨valid, early, -, -, unrefused⟩ := guard
        obtain ⟨waiting, waitsEq, pair⟩ := Option.map_eq_some_iff.mp dieEq
        cases pair
        obtain ⟨filled, fillEq, kept, same⟩ := (linked frontier here).fill order room
        have still : waiting = filled := by
          unfold waits at waitsEq
          rw [fillEq] at waitsEq
          dsimp only at waitsEq
          split at waitsEq
          · split at waitsEq
            · rename_i pollEq
              cases waitsEq
              exact poll_nothing (List.range loader.workers) pollEq
            · cases waitsEq
          · cases waitsEq
        subst still
        exact ⟨rfl, valid, early, frontier, waiting, here, fillEq, kept, same.waited,
          (linked frontier here).fill_onward unrefused fillEq same, rfl, rfl⟩
      · cases dieEq

/-- A step that is a death is one. -/
theorem died_of_step (linked : ∀ frontier, state.iterator.frontier = some frontier →
      ∃ start, Linked start loader.scheduleLength loader.workers frontier)
    (stepEq : RestartIterator.step loader state (.die worker order room) = some (event, after)) :
    event = .died worker ∧ ∃ start, Died loader start state worker order room after := by
  change die loader state worker order room = _ at stepEq
  cases here : state.iterator.frontier with
  | none =>
      rw [die, here] at stepEq
      cases stepEq
  | some frontier =>
      obtain ⟨start, known⟩ := linked frontier here
      obtain ⟨same, died⟩ := died_of_die
        (fun other there => Option.some.inj (here.symm.trans there) ▸ known) stepEq
      exact ⟨same, start, died⟩

end Deaths

/-! ### Runs in which no death costs anything -/

section Whole

open RestartIterator

variable {loader : CollatedLoader} {cursor done : Nat} {state next : RestartIterator}
  {label : RestartIterator.Label} {event : Outcome}

variable {yielded : Yield}

theorem RestartIterator.outcome_of_silent (silent : yielded.batch = none) :
    outcome loader state yielded = .yielded yielded := by
  cases yielded <;> first | rfl | cases silent

theorem RestartIterator.outcome_of_nothing (nothing : state.recovered = ∅) (yielded : Yield) :
    outcome loader state yielded = .yielded yielded := by
  cases yielded <;> first | rfl | skip
  exact if_neg (nothing ▸ Finset.notMem_empty _)

theorem RestartIterator.failed_outcome (failed : yielded.Failed) :
    (outcome loader state yielded).Failed := by
  cases yielded with
  | raised failure => trivial
  | _ => exact failed.elim

variable {iterator after : OrderedIterator}

/-- An iterator without a schedule never gets one. -/
theorem OrderedIterator.frontier_none {label : ProcessIterator.Label}
    (here : iterator.frontier = none)
    (stepEq : OrderedIterator.step loader iterator label = some (yielded, after)) :
    after.frontier = none := by
  cases label with
  | next order room =>
      simp only [OrderedIterator.step, OrderedIterator.next, here] at stepEq
      split at stepEq
      · cases stepEq
        exact here
      · split at stepEq
        · cases stepEq
          rfl
        · cases stepEq
  | fill order room | work dispatch | adapt width =>
      simp only [OrderedIterator.step, here] at stepEq
      cases stepEq

/-- Short of the end of its sampler an iterator has a batch to deliver. -/
theorem Ordered.early {iterator : OrderedIterator} (ordered : Ordered loader done iterator)
    (unfinished : iterator.position < loader.length) : done < loader.batching.count := by
  by_contra past
  have whole : ¬ done * loader.sizing.width < loader.length := fun low =>
    past (Batching.lt_count_iff.mpr low)
  have position := ordered.position
  omega

/-- The positions before `first` are committed. -/
def Past (first : Nat) (iterator : OrderedIterator) : Prop :=
  ∀ frontier, iterator.frontier = some frontier →
    ∀ position < first, frontier.Committed position

theorem Past.call {first : Nat} (past : Past first iterator)
    (ordered : Ordered loader done iterator) {label : ProcessIterator.Label}
    (stepEq : OrderedIterator.step loader iterator label = some (yielded, after))
    (sound : ¬ yielded.Failed) : Past first after := by
  intro frontier there
  cases here : iterator.frontier with
  | none =>
      rw [OrderedIterator.frontier_none here stepEq] at there
      cases there
  | some before =>
      obtain ⟨start, linked⟩ := ordered.linked before here
      obtain ⟨moved, movedEq, -, onward⟩ := (linked.step here stepEq sound).moved
      obtain rfl := Option.some.inj (movedEq.symm.trans there)
      exact fun position low => onward.committed position (past before here position low)

/-- The iterator behind `done` batches, after a run that began behind `cursor` and in which
no death cost anything. -/
structure Whole (loader : CollatedLoader) (cursor done : Nat) (state : RestartIterator) :
    Prop where
  ordered : Ordered loader done state.iterator
  past : Past (cursor * loader.perBatch) state.iterator
  recovered : state.recovered = ∅

/-- An iterator that has a batch to deliver is whole as it begins. -/
theorem Ordered.wholly {iterator : OrderedIterator} (ordered : Ordered loader cursor iterator)
    (early : cursor < loader.batching.count) : Whole loader cursor cursor ⟨iterator, ∅⟩ := by
  refine ⟨ordered, fun frontier here position low => ?_, rfl⟩
  obtain ⟨same, sameEq, committed, -⟩ := ordered.open_ early
  obtain rfl := Option.some.inj (here.symm.trans sameEq)
  exact (committed position).mpr (Nat.lt_of_lt_of_le low (Nat.le_add_right _ _))

/-- What a harmless step that does not fail does. -/
theorem Whole.step (whole : Whole loader cursor done state)
    (harmless : Harmless loader state label)
    (stepEq : RestartIterator.step loader state label = some (event, next))
    (sound : ¬ event.Failed) :
    ((event.batch = none ∧ Whole loader cursor done next) ∨
      (event.batch = some (loader.batching.batch done) ∧ Whole loader cursor (done + 1) next)) ∧
    (event.Finished → done = loader.batching.count) := by
  cases label with
  | call label =>
      obtain ⟨⟨yielded, after⟩, callEq, pair⟩ := Option.map_eq_some_iff.mp stepEq
      cases pair
      rw [outcome_of_nothing whole.recovered] at sound ⊢
      have turned := whole.ordered.call callEq sound
      have past := whole.past.call whole.ordered callEq sound
      refine ⟨?_, turned.ended⟩
      rcases turned.outcome with ⟨silent, kept⟩ | ⟨rfl, kept⟩
      · exact Or.inl ⟨silent, kept, past, whole.recovered⟩
      · exact Or.inr ⟨rfl, kept, past, whole.recovered⟩
  | die worker order room =>
      obtain ⟨fresh, clear⟩ := harmless
      obtain ⟨rfl, start, died⟩ := died_of_step whole.ordered.linked stepEq
      obtain ⟨frontier, filled, here, -, kept, waited, onward, left, recovered⟩ := died.left
      refine ⟨Or.inl ⟨rfl, ?_, fun other there => ?_, ?_⟩, fun ended => ended.elim⟩
      · rw [left]
        exact whole.ordered.reset fresh here kept waited
      · rw [left] at there
        obtain rfl := Option.some.inj there
        exact fun position low => onward.committed position
          (whole.past frontier here position low)
      · rw [recovered, whole.recovered]
        split
        · rename_i collated
          rw [clear collated frontier here]
          rfl
        · rfl

section

variable (fits : loader.FitsFrom cursor)

include fits

/-- Where every command from the cursor on fits, no harmless step fails. -/
theorem Whole.sound (whole : Whole loader cursor done state)
    (stepEq : RestartIterator.step loader state label = some (event, next)) : ¬ event.Failed := by
  cases label with
  | call label =>
      obtain ⟨⟨yielded, after⟩, callEq, pair⟩ := Option.map_eq_some_iff.mp stepEq
      cases pair
      rw [outcome_of_nothing whole.recovered]
      rw [OrderedIterator.step_eq,
        whole.ordered.refusalOf_none fits whole.past label] at callEq
      exact (whole.ordered.fitted.step loader.fits_fitted callEq).sound
  | die worker order room =>
      obtain ⟨rfl, -⟩ := died_of_step whole.ordered.linked stepEq
      exact fun failed => failed

/-- Some call always ends the epoch or brings its end nearer. -/
theorem Whole.nearer (whole : Whole loader cursor done state) :
    ∃ call event next, RestartIterator.step loader state (.call call) = some (event, next) ∧
      (event.Finished ∨
        next.iterator.remaining loader < state.iterator.remaining loader) := by
  obtain ⟨label, yielded, after, callEq, near⟩ :=
    whole.ordered.nearer_from (whole.ordered.refusalOf_none fits whole.past)
  refine ⟨label, .yielded yielded, { state with iterator := after }, ?_, near⟩
  rw [← outcome_of_nothing whole.recovered]
  exact Option.map_eq_some_iff.mpr ⟨_, callEq, rfl⟩

/-- While every death is harmless the batches of the epoch are handed out in order. -/
theorem whole_procession :
    Procession ((RestartIterator.machine loader).guarded (Harmless loader)) Outcome.batch
      Outcome.Failed Outcome.Finished loader.batching.batches
      (fun state => ∃ done, Whole loader cursor done state)
      (fun state => state.iterator.deliveredBatches loader)
      (fun state => state.iterator.remaining loader) where
  within state := by
    rintro ⟨done, whole⟩
    rw [whole.ordered.deliveredBatches, Batching.length_batches]
    exact whole.ordered.counted
  moves state label event next := by
    rintro ⟨done, whole⟩ stepEq
    obtain ⟨harmless, moved⟩ := (RestartIterator.machine loader).guarded_step_eq_some.mp stepEq
    have sound := whole.sound fits moved
    obtain ⟨outcome, ended⟩ := whole.step harmless moved sound
    have length := @Batching.length_batches loader.batching
    have given := whole.ordered.deliveredBatches
    rcases outcome with ⟨silent, kept⟩ | ⟨handed, kept⟩
    · refine ⟨⟨_, kept⟩, sound, Or.inl ⟨silent, ?_⟩, fun spent => ?_⟩
      · exact kept.ordered.deliveredBatches.trans given.symm
      · exact given.trans ((ended spent).trans length.symm)
    · refine ⟨⟨_, kept⟩, sound, Or.inr ⟨_, handed, ?_, ?_⟩, fun spent => ?_⟩
      · rw [given]
        exact Batching.getElem?_batches kept.ordered.counted
      · rw [given]
        exact kept.ordered.deliveredBatches
      · exact given.trans ((ended spent).trans length.symm)
  nearer state := by
    rintro ⟨done, whole⟩
    obtain ⟨label, event, next, stepEq, near⟩ := whole.nearer fits
    exact ⟨.call label, event, next,
      (RestartIterator.machine loader).guarded_step_eq_some.mpr ⟨trivial, stepEq⟩, near⟩

end

end Whole

/-! ### Runs that have lost a batch -/

section Lost

open RestartIterator

variable {loader : CollatedLoader} {cursor done : Nat} {state next : RestartIterator}
  {label : RestartIterator.Label} {event : Outcome}

/-- A batch that no step delivers any more: the schedule has committed the position that the
iterator expects, or a user collation was sent again as another command, or it is never
sent. -/
inductive Lost (loader : CollatedLoader) (state : RestartIterator) : Prop
  | overtaken (early : state.iterator.position < loader.length)
      (fresh : state.iterator.samples = []) (frontier : Frontier) (start : Nat)
      (here : state.iterator.frontier = some frontier)
      (linked : Linked start loader.scheduleLength loader.workers frontier)
      (committed : frontier.Committed (state.iterator.expected loader))
  | spoilt (done ordinal : Nat) (ordered : Ordered loader done state.iterator)
      (collated : loader.userCollation = true) (due : done ≤ ordinal)
      (inside : ordinal < loader.batching.count)
      (never : ordinal ∈ state.recovered ∨ (loader.refusal ordinal ≠ none ∧
        ∀ frontier, state.iterator.frontier = some frontier → frontier.Untouched ordinal))

/-- An iterator that expects a position already committed stays with it. -/
theorem lost_of_overtaken {frontier : Frontier} {start : Nat}
    (early : state.iterator.position < loader.length) (fresh : state.iterator.samples = [])
    (here : state.iterator.frontier = some frontier)
    (linked : Linked start loader.scheduleLength loader.workers frontier)
    (committed : frontier.Committed (state.iterator.expected loader))
    (stepEq : RestartIterator.step loader state label = some (event, next))
    (sound : ¬ event.Failed) : Lost loader next ∧ ¬ event.Finished := by
  cases label with
  | call label =>
      obtain ⟨⟨yielded, after⟩, callEq, pair⟩ := Option.map_eq_some_iff.mp stepEq
      cases pair
      have soundly : ¬ yielded.Failed := fun failed => sound (failed_outcome failed)
      obtain ⟨⟨moved, movedEq, kept, onward⟩, outcome⟩ := linked.step here callEq soundly
      rcases outcome with ready | ⟨position, samples, silent, ended⟩
      · exact absurd committed (linked.held ready).2
      · have same : after.expected loader = state.iterator.expected loader := by
          rw [OrderedIterator.expected, OrderedIterator.expected, position, samples]
        refine ⟨.overtaken (position ▸ early) (samples.trans fresh) moved start movedEq kept
          (same ▸ onward.committed _ committed), ?_⟩
        rw [outcome_of_silent silent]
        exact fun spent => Nat.not_le.mpr early (ended spent)
  | die worker order room =>
      obtain ⟨rfl, died⟩ := died_of_die
        (fun other same => Option.some.inj (here.symm.trans same) ▸ linked) stepEq
      obtain ⟨before, filled, same, -, kept, -, onward, left, -⟩ := died.left
      obtain rfl := Option.some.inj (here.symm.trans same)
      have expected : next.iterator.expected loader = state.iterator.expected loader := by
        rw [OrderedIterator.expected, OrderedIterator.expected, left, fresh]
      refine ⟨.overtaken ?_ ?_ filled start ?_ kept (expected ▸ onward.committed _ committed),
        fun spent => spent⟩
      · rw [left]
        exact early
      · rw [left]
      · rw [left]

/-- A user collation that no step delivers stays undelivered. -/
theorem lost_of_spoilt {ordinal : Nat} (ordered : Ordered loader done state.iterator)
    (collated : loader.userCollation = true) (due : done ≤ ordinal)
    (inside : ordinal < loader.batching.count)
    (never : ordinal ∈ state.recovered ∨ (loader.refusal ordinal ≠ none ∧
      ∀ frontier, state.iterator.frontier = some frontier → frontier.Untouched ordinal))
    (stepEq : RestartIterator.step loader state label = some (event, next))
    (sound : ¬ event.Failed) : Lost loader next ∧ ¬ event.Finished := by
  have early : done < loader.batching.count := Nat.lt_of_le_of_lt due inside
  have single : loader.perBatch = 1 := perBatch_of_collated collated
  have fresh := ordered.samples_nil early single
  obtain ⟨frontier, here, -⟩ := ordered.open_ early
  obtain ⟨start, linked⟩ := ordered.linked frontier here
  have untouched : ∀ {moved : Frontier}, Onward loader.refusal frontier moved →
      ordinal ∉ state.recovered → loader.refusal ordinal ≠ none ∧ moved.Untouched ordinal := by
    intro moved onward absent
    obtain ⟨refused, old⟩ := never.resolve_left absent
    exact ⟨refused, onward.untouched ordinal refused (old frontier here)⟩
  cases label with
  | call label =>
      obtain ⟨⟨yielded, after⟩, callEq, pair⟩ := Option.map_eq_some_iff.mp stepEq
      cases pair
      have soundly : ¬ yielded.Failed := fun failed => sound (failed_outcome failed)
      obtain ⟨⟨moved, movedEq, -, onward⟩, outcome⟩ := linked.step here callEq soundly
      have turned := ordered.call callEq soundly
      have later : ∀ frontier, after.frontier = some frontier → ordinal ∉ state.recovered →
          loader.refusal ordinal ≠ none ∧ frontier.Untouched ordinal := by
        intro other same absent
        obtain rfl := Option.some.inj (movedEq.symm.trans same)
        exact untouched onward absent
      have still : ordinal ∈ state.recovered ∨ (loader.refusal ordinal ≠ none ∧
          ∀ frontier, after.frontier = some frontier → frontier.Untouched ordinal) := by
        by_cases member : ordinal ∈ state.recovered
        · exact Or.inl member
        · exact Or.inr ⟨(later moved movedEq member).1, fun other same =>
            (later other same member).2⟩
      rcases turned.outcome with ⟨silent, kept⟩ | ⟨rfl, kept⟩
      · refine ⟨.spoilt done ordinal kept collated due inside still, ?_⟩
        rw [outcome_of_silent silent]
        exact fun spent => Nat.ne_of_lt early (turned.ended spent)
      · -- the batch delivered is another one, or it would be the one that never is
        have expected : state.iterator.expected loader = done := by
          rw [(ordered.expected early).1, single, fresh, Nat.mul_one]
          rfl
        have apart : done ≠ ordinal := by
          rintro rfl
          rcases never with member | ⟨-, old⟩
          · refine sound ?_
            rw [RestartIterator.outcome, if_pos (expected.symm ▸ member)]
            trivial
          · rcases outcome with ready | ⟨-, -, silent, -⟩
            · exact (old frontier here).unready (expected ▸ ready)
            · cases silent
        refine ⟨.spoilt (done + 1) ordinal kept collated
          (Nat.lt_of_le_of_ne due apart) inside still, ?_⟩
        unfold RestartIterator.outcome
        dsimp only
        split <;> exact fun spent => spent
  | die worker order room =>
      obtain ⟨rfl, died⟩ := died_of_die
        (fun other same => Option.some.inj (here.symm.trans same) ▸ linked) stepEq
      obtain ⟨before, filled, same, -, kept, waited, onward, left, recovered⟩ := died.left
      obtain rfl := Option.some.inj (here.symm.trans same)
      refine ⟨.spoilt done ordinal ?_ collated due inside ?_, fun spent => spent⟩
      · rw [left]
        exact ordered.reset fresh here kept waited
      · rw [recovered, if_pos collated, Finset.mem_union]
        by_cases member : ordinal ∈ state.recovered
        · exact Or.inl (Or.inl member)
        · refine Or.inr ⟨(untouched onward member).1, fun other there => ?_⟩
          rw [left] at there
          obtain rfl := Option.some.inj there
          exact (untouched onward member).2

/-- What is lost stays lost, and the epoch does not end. -/
theorem Lost.step (lost : Lost loader state)
    (stepEq : RestartIterator.step loader state label = some (event, next))
    (sound : ¬ event.Failed) : Lost loader next ∧ ¬ event.Finished := by
  cases lost with
  | overtaken early fresh frontier start here linked committed =>
      exact lost_of_overtaken early fresh here linked committed stepEq sound
  | spoilt done ordinal ordered collated due inside never =>
      exact lost_of_spoilt ordered collated due inside never stepEq sound

/-- A death that is not harmless loses a batch. -/
theorem Whole.harmed (whole : Whole loader cursor done state)
    (harmful : ¬ Harmless loader state label)
    (stepEq : RestartIterator.step loader state label = some (event, next)) : Lost loader next := by
  cases label with
  | call label => exact absurd trivial harmful
  | die worker order room =>
      obtain ⟨rfl, start, died⟩ := died_of_step whole.ordered.linked stepEq
      obtain ⟨frontier, filled, here, fillEq, kept, waited, onward, left, recovered⟩ := died.left
      have early := whole.ordered.early died.early
      obtain ⟨old, oldEq, committed, -⟩ := whole.ordered.open_ early
      obtain rfl := Option.some.inj (here.symm.trans oldEq)
      by_cases fresh : state.iterator.samples = []
      · -- a user collation was in flight on the worker
        obtain ⟨collated, flying⟩ : loader.userCollation = true ∧
            inFlight frontier worker order room ≠ [] := by
          by_contra clear
          refine harmful ⟨fresh, fun collated other same => ?_⟩
          obtain rfl := Option.some.inj (here.symm.trans same)
          by_contra some
          exact clear ⟨collated, some⟩
        obtain ⟨ordinal, member⟩ := List.exists_mem_of_ne_nil _ flying
        have single : loader.perBatch = 1 := perBatch_of_collated collated
        have lostly := member
        rw [inFlight, fillEq] at lostly
        obtain ⟨dispatch, found, rfl⟩ := List.mem_map.mp lostly
        obtain ⟨inside, uncommitted, -⟩ := kept.inFlight
          (List.mem_append_left _ (List.mem_filter.mp found).1)
        refine .spoilt done dispatch.position (left ▸ whole.ordered.reset fresh here kept
          waited) collated ?_ ?_ (Or.inl ?_)
        · by_contra before
          refine uncommitted ((waited.committed _).mpr ((committed _).mpr ?_))
          rw [single, fresh, Nat.mul_one]
          exact Nat.lt_of_not_le before
        · rw [← ProcessLoader.grid_count, Batching.lt_count_iff]
          show dispatch.position * loader.perBatch < loader.scheduleLength
          rw [single, Nat.mul_one]
          exact inside
        · rw [recovered, if_pos collated, Finset.mem_union, List.mem_toFinset]
          exact Or.inr member
      · -- the samples taken are committed, and their values are gone
        have expected : next.iterator.expected loader = done * loader.perBatch := by
          rw [left]
          exact whole.ordered.expected_reset early _
        refine .overtaken ?_ ?_ filled start ?_ kept ?_
        · rw [left]
          exact died.early
        · rw [left]
        · rw [left]
        · rw [expected]
          refine onward.committed _ ((committed _).mpr ?_)
          have taken := List.length_pos_iff.mpr fresh
          omega

end Lost

/-! ### Where a run begins -/

section Start

variable {loader : CollatedLoader} {cursor : Nat} {iterator : OrderedIterator}

/-- A loader accepts no cursor behind its last batch. -/
theorem OrderedIterator.start_inside
    (started : OrderedIterator.start loader cursor = .ok iterator) :
    cursor ≤ loader.batching.count := by
  unfold OrderedIterator.start at started
  obtain ⟨base, baseEq, -⟩ := bind_ok_iff.mp started
  unfold ProcessIterator.start at baseEq
  obtain ⟨position, positionEq, -⟩ := bind_ok_iff.mp baseEq
  have resumed := mapError_ok_iff.mp positionEq
  unfold resumeSamplePosition at resumed
  dsimp only at resumed
  split at resumed
  · cases resumed
  · rename_i within
    exact Nat.le_of_not_lt within

/-- An iterator that has its samples delivered stays where it is. -/
theorem OrderedIterator.late_step {after : OrderedIterator}
    {label : ProcessIterator.Label} {event : Yield} (late : loader.length ≤ iterator.position)
    (stepEq : OrderedIterator.step loader iterator label = some (event, after)) :
    loader.length ≤ after.position := by
  cases label with
  | next order room =>
      simp only [OrderedIterator.step, OrderedIterator.next, if_pos late] at stepEq
      split at stepEq <;> cases stepEq <;> exact late
  | fill order room =>
      simp only [OrderedIterator.step] at stepEq
      split at stepEq
      · cases stepEq
      · split at stepEq
        · split at stepEq <;> cases stepEq <;> exact late
        · cases stepEq
  | work dispatch =>
      simp only [OrderedIterator.step] at stepEq
      split at stepEq
      · cases stepEq
      · obtain ⟨worked, -, pair⟩ := Option.map_eq_some_iff.mp stepEq
        cases pair
        exact late
  | adapt width =>
      simp only [OrderedIterator.step] at stepEq
      split at stepEq
      · cases stepEq
      · split at stepEq
        · split at stepEq <;> cases stepEq <;> exact late
        · cases stepEq

end Start

/-! ### When the epoch goes on -/

section Runs

open RestartIterator

variable {loader : CollatedLoader} {cursor : Nat} {state : RestartIterator}
  {labels : List RestartIterator.Label} {trace : List (RestartIterator.Label × Outcome)}

/-- The iterator as constructed, before any worker has died. -/
def RestartIterator.start (loader : CollatedLoader) (cursor : Nat) :
    Except Raised RestartIterator :=
  (OrderedIterator.start loader cursor).map fun iterator => ⟨iterator, ∅⟩

variable {begun : RestartIterator}

/-- A WorkerDied can only surface before the last batch. -/
theorem cursor_lt_of_died {worker : Nat} {label : RestartIterator.Label}
    (ordered : Ordered loader cursor begun.iterator)
    (ran : (RestartIterator.machine loader).run begun labels = some (trace, state))
    (surfaced : (label, Outcome.died worker) ∈ trace) : cursor < loader.batching.count := by
  by_contra whole
  have all : cursor = loader.batching.count :=
    Nat.le_antisymm ordered.counted (Nat.le_of_not_lt whole)
  have late : loader.length ≤ begun.iterator.position := by
    have past : ¬ cursor * loader.sizing.width < loader.length := fun low =>
      whole (Batching.lt_count_iff.mpr low)
    rw [ordered.position]
    omega
  -- a pass that has no batch to deliver does not come to look at the workers
  have notDied : ∀ {state : RestartIterator} {worker : Nat} {order : List Nat} {room : Nat}
      {result : Outcome × RestartIterator}, loader.length ≤ state.iterator.position →
      die loader state worker order room ≠ some result := by
    intro state worker order room result late dieEq
    unfold die at dieEq
    split at dieEq
    · cases dieEq
    · split at dieEq
      · rename_i guard
        exact Nat.not_le.mpr guard.2.1 late
      · cases dieEq
  have keeps : ∀ state label event next, loader.length ≤ state.iterator.position →
      (RestartIterator.machine loader).step state label = some (event, next) → True →
      loader.length ≤ next.iterator.position := by
    intro state label event next late stepEq _
    cases label with
    | call label =>
        obtain ⟨⟨yielded, after⟩, callEq, pair⟩ := Option.map_eq_some_iff.mp stepEq
        cases pair
        exact OrderedIterator.late_step late callEq
    | die worker order room => exact absurd stepEq (notDied late)
  have shows : ∀ state label event next, loader.length ≤ state.iterator.position →
      (RestartIterator.machine loader).step state label = some (event, next) → True →
      event ≠ Outcome.died worker := by
    rintro state label event next late stepEq - rfl
    cases label with
    | call label =>
        obtain ⟨⟨yielded, after⟩, -, pair⟩ := Option.map_eq_some_iff.mp stepEq
        cases yielded <;> try cases pair
        simp only [RestartIterator.outcome] at pair
        split at pair <;> cases pair
    | die worker order room => exact notDied late stepEq
  exact (RestartIterator.machine loader).run_shows keeps shows late ran (fun _ _ => trivial) _
    surfaced rfl

/-- The calls of `next` go on to the end of the epoch from any state that is whole. -/
theorem calls_procession (fits : loader.FitsFrom cursor) :
    Procession ((RestartIterator.machine loader).relabel RestartIterator.Label.call)
      Outcome.batch Outcome.Failed Outcome.Finished loader.batching.batches
      (fun state => ∃ done, Whole loader cursor done state)
      (fun state => state.iterator.deliveredBatches loader)
      (fun state => state.iterator.remaining loader) where
  within := (whole_procession fits).within
  moves state label event next whole stepEq :=
    (whole_procession fits).moves state (.call label) event next whole
      ((RestartIterator.machine loader).guarded_step_eq_some.mpr ⟨trivial, stepEq⟩)
  nearer state := by
    rintro ⟨done, whole⟩
    exact whole.nearer fits

theorem harmless_calls (state : RestartIterator) (calls : List ProcessIterator.Label) :
    (RestartIterator.machine loader).Along (Harmless loader) state
      (calls.map RestartIterator.Label.call) := by
  induction calls generalizing state with
  | nil => trivial
  | cons call calls ih =>
      exact ⟨trivial, fun _ next _ => ih next⟩

/-- Where no death has cost anything the epoch goes on. -/
theorem continues_of_harmless (fits : loader.FitsFrom cursor)
    (whole : Whole loader cursor cursor begun)
    (along : (RestartIterator.machine loader).Along (Harmless loader) begun labels)
    (ran : (RestartIterator.machine loader).run begun labels = some (trace, state)) :
    Continues loader cursor trace state := by
  have given := whole.ordered.deliveredBatches
  have delivers := (whole_procession fits).delivers ⟨cursor, whole⟩
  rw [given] at delivers
  have further : ∀ (calls : List ProcessIterator.Label) more final,
      (RestartIterator.machine loader).run state (calls.map RestartIterator.Label.call) =
        some (more, final) →
      handed Outcome.batch (trace ++ more) <+: loader.batching.batches.drop cursor ∧
        (∀ entry ∈ trace ++ more, ¬ entry.2.Failed) ∧
        ((∃ entry ∈ trace ++ more, entry.2.Finished) →
          handed Outcome.batch (trace ++ more) = loader.batching.batches.drop cursor) := by
    intro calls more final reached
    exact delivers.runs _ _ _ ((RestartIterator.machine loader).run_guarded
      ((RestartIterator.machine loader).along_append ran along (harmless_calls state calls))
      ((RestartIterator.machine loader).run_append ran reached))
  constructor
  · intro calls more final reached
    obtain ⟨part, sound, -⟩ := further calls more final reached
    exact ⟨part, sound⟩
  · have now := ((whole_procession fits).run ⟨cursor, whole⟩
      ((RestartIterator.machine loader).run_guarded along ran)).1
    obtain ⟨calls, more, final, reached, entry, member, spent⟩ :=
      (calls_procession fits).completes now
    have whole := (RestartIterator.machine loader).run_relabel reached
    have last : Prod.map RestartIterator.Label.call id entry ∈
        more.map (Prod.map RestartIterator.Label.call id) := List.mem_map_of_mem member
    exact ⟨calls, _, final, whole, ⟨_, last, spent⟩,
      (further calls _ final whole).2.2 ⟨_, List.mem_append_right _ last, spent⟩⟩

/-- Where a batch is lost the epoch does not go on. -/
theorem Lost.not_continues (lost : Lost loader state) : ¬ Continues loader cursor trace state := by
  intro continues
  obtain ⟨calls, more, final, reached, ⟨entry, member, spent⟩, -⟩ := continues.ends
  obtain ⟨-, sound⟩ := continues.later calls more final reached
  have shows := (RestartIterator.machine loader).run_shows
    (fun state label event next lost stepEq sound => (lost.step stepEq sound).1)
    (fun state label event next lost stepEq sound => (lost.step stepEq sound).2) lost reached
    fun entry member => sound entry (List.mem_append_right _ member)
  exact shows entry member spent

/-- A command that does not fit is never sent, so its batch is lost from the beginning. -/
theorem lost_of_refused (whole : Whole loader cursor cursor begun)
    (early : cursor < loader.batching.count)
    (opened : ∀ frontier, begun.iterator.frontier = some frontier →
      Opened loader.toProcessLoader (resumedState cursor) frontier)
    {position : Nat} (low : cursor * loader.perBatch ≤ position)
    (inside : position < loader.scheduleLength) (refused : loader.refusal position ≠ none) :
    Lost loader begun := by
  have collated : loader.userCollation = true := by
    by_contra plain
    exact refused (if_neg fun both => plain both.1)
  have single : loader.perBatch = 1 := perBatch_of_collated collated
  have fresh := whole.ordered.samples_nil early single
  obtain ⟨frontier, here, committed, -⟩ := whole.ordered.open_ early
  rw [single, Nat.mul_one] at low
  have real : position < loader.batching.count := by
    rw [← ProcessLoader.grid_count, Batching.lt_count_iff]
    show position * loader.perBatch < loader.scheduleLength
    rw [single, Nat.mul_one]
    exact inside
  refine .spoilt cursor position whole.ordered collated low real
    (Or.inr ⟨refused, fun other there => ?_⟩)
  obtain rfl := Option.some.inj (here.symm.trans there)
  refine ⟨fun old => ?_, ?_, ?_⟩
  · have below := (committed position).mp old
    rw [single, fresh, Nat.mul_one, List.length_nil, Nat.add_zero] at below
    exact Nat.not_lt.mpr low below
  · rw [(opened frontier here).ready]
    exact Finset.notMem_empty position
  · rw [(opened frontier here).idle]
    exact fun _ member => absurd member List.not_mem_nil

/-- Under the restart policy an in-order epoch in which a WorkerDied surfaced goes on, every
batch delivered once, whole and in order, exactly if every command from the cursor on fits
its slot and every WorkerDied surfaced while the batch being assembled had no sample yet, and
from a worker without a user collation in flight. -/
theorem restart_continues_iff {loader : CollatedLoader} {cursor : Nat}
    {begun state : RestartIterator} {labels : List RestartIterator.Label}
    {trace : List (RestartIterator.Label × Outcome)} {label : RestartIterator.Label}
    {worker : Nat} (started : RestartIterator.start loader cursor = .ok begun)
    (ran : (RestartIterator.machine loader).run begun labels = some (trace, state))
    (surfaced : (label, Outcome.died worker) ∈ trace) :
    Continues loader cursor trace state ↔ loader.FitsFrom cursor ∧
      (RestartIterator.machine loader).Along (Harmless loader) begun labels := by
  obtain ⟨iterator, startEq, rfl⟩ : ∃ iterator,
      OrderedIterator.start loader cursor = .ok iterator ∧ begun = ⟨iterator, ∅⟩ := by
    unfold RestartIterator.start at started
    cases outcome : OrderedIterator.start loader cursor with
    | error failure =>
        rw [outcome] at started
        cases started
    | ok iterator =>
        rw [outcome] at started
        cases started
        exact ⟨iterator, rfl, rfl⟩
  obtain ⟨other, otherEq, ordered, opened, -⟩ :=
    OrderedIterator.start_spec loader (OrderedIterator.start_inside startEq)
  obtain rfl := Except.ok.inj (startEq.symm.trans otherEq)
  have early := cursor_lt_of_died ordered ran surfaced
  have whole := ordered.wholly early
  constructor
  · intro continues
    have sound : ∀ entry ∈ trace, ¬ entry.2.Failed := by
      have here := (continues.later [] [] state rfl).2
      rwa [List.append_nil] at here
    have notLost : ¬ Lost loader state := fun lost => lost.not_continues continues
    constructor
    · intro position low below
      by_contra refused
      exact notLost ((RestartIterator.machine loader).run_invariant_of_events
        (fun state label event next lost stepEq sound => (lost.step stepEq sound).1)
        (lost_of_refused whole early opened low below refused) ran sound)
    · have keeps : ∀ here label event next, (∃ done, Whole loader cursor done here) →
          Harmless loader here label →
          (RestartIterator.machine loader).step here label = some (event, next) →
          ¬ event.Failed → ∃ done, Whole loader cursor done next := by
        rintro here label event next ⟨done, whole⟩ harmless stepEq soundly
        rcases (whole.step harmless stepEq soundly).1 with ⟨-, kept⟩ | ⟨-, kept⟩
        · exact ⟨done, kept⟩
        · exact ⟨done + 1, kept⟩
      have strays : ∀ here label event next, (∃ done, Whole loader cursor done here) →
          ¬ Harmless loader here label →
          (RestartIterator.machine loader).step here label = some (event, next) →
          ¬ event.Failed → Lost loader next := by
        rintro here label event next ⟨done, whole⟩ harmful stepEq _
        exact whole.harmed harmful stepEq
      have outcome := (RestartIterator.machine loader).along_or_lost keeps strays
        (fun here label event next lost stepEq soundly => (lost.step stepEq soundly).1)
        ⟨cursor, whole⟩ ran sound
      exact outcome.resolve_right notLost
  · rintro ⟨fits, along⟩
    exact continues_of_harmless fits whole along ran

end Runs

section Example

open RestartIterator

/-- A loader of one batch of two samples, with one worker. -/
def splitPair : CollatedLoader :=
  { collatedPair with
    sizing := ⟨some 2, none, none, 8, none⟩
    userCollation := false
    sized := by decide
    batched := Or.inl rfl
    depthWord := by decide
    ceilingWord := by decide }

/-- The worker dies with both samples in flight, before one is received. -/
def recovering : List RestartIterator.Label :=
  [.call (.next [0, 1] 2), .die 0 [] 0, .call (.work ⟨0, 0⟩), .call (.work ⟨1, 0⟩)]

theorem restart_continues_pair :
    ∃ begun trace state, RestartIterator.start splitPair 0 = .ok begun ∧
      (RestartIterator.machine splitPair).run begun recovering = some (trace, state) ∧
      (RestartIterator.Label.die 0 [] 0, Outcome.died 0) ∈ trace ∧
      (Continues splitPair 0 trace state ↔ splitPair.FitsFrom 0 ∧
        (RestartIterator.machine splitPair).Along (Harmless splitPair) begun recovering) ∧
      Continues splitPair 0 trace state := by
  have evaluated : ((RestartIterator.start splitPair 0).toOption.bind fun begun =>
      ((RestartIterator.machine splitPair).run begun recovering).map fun reached =>
        decide ((RestartIterator.Label.die 0 [] 0, Outcome.died 0) ∈ reached.1) &&
          decide ((RestartIterator.machine splitPair).Along (Harmless splitPair) begun
            recovering)) = some true := by
    decide +kernel
  cases started : RestartIterator.start splitPair 0 with
  | error failure =>
      rw [started] at evaluated
      cases evaluated
  | ok begun =>
      rw [started] at evaluated
      obtain ⟨⟨trace, state⟩, ran, held⟩ := Option.map_eq_some_iff.mp evaluated
      simp only [Bool.and_eq_true, decide_eq_true_eq] at held
      have settled := restart_continues_iff started ran held.1
      exact ⟨begun, trace, state, rfl, ran, held.1, settled,
        settled.mpr ⟨splitPair.fitsFrom_of_plain rfl 0, held.2⟩⟩

/-- The first sample is received and committed, and the worker dies before it answers with the
second one. -/
def interrupted : List RestartIterator.Label :=
  [.call (.next [0, 1] 2), .call (.work ⟨0, 0⟩), .call (.next [] 0), .call (.next [] 0),
    .die 0 [] 0]

/-- The second sample arrives after the restart. -/
def resumed : List ProcessIterator.Label := [.work ⟨1, 0⟩, .next [] 0, .next [] 0]

/-- The next call commits the second sample where it expects the first one. -/
theorem interrupted_batch_lost :
    ∃ begun trace state, RestartIterator.start splitPair 0 = .ok begun ∧
      (RestartIterator.machine splitPair).run begun interrupted = some (trace, state) ∧
      (RestartIterator.Label.die 0 [] 0, Outcome.died 0) ∈ trace ∧
      ¬ Continues splitPair 0 trace state := by
  have evaluated : ((RestartIterator.start splitPair 0).toOption.bind fun begun =>
      ((RestartIterator.machine splitPair).run begun interrupted).bind fun reached =>
        ((RestartIterator.machine splitPair).run reached.2
            (resumed.map RestartIterator.Label.call)).map fun more =>
          decide ((RestartIterator.Label.die 0 [] 0, Outcome.died 0) ∈ reached.1) &&
            decide ((RestartIterator.Label.call (.next [] 0),
              Outcome.yielded (.raised (.runtimeError Frontier.NONCONTIGUOUS))) ∈ more.1)) =
      some true := by
    decide +kernel
  cases started : RestartIterator.start splitPair 0 with
  | error failure =>
      rw [started] at evaluated
      cases evaluated
  | ok begun =>
      rw [started] at evaluated
      change ((RestartIterator.machine splitPair).run begun interrupted).bind _ = _ at evaluated
      obtain ⟨⟨trace, state⟩, ran, rest⟩ := Option.bind_eq_some_iff.mp evaluated
      obtain ⟨⟨more, final⟩, reached, held⟩ := Option.map_eq_some_iff.mp rest
      simp only [Bool.and_eq_true, decide_eq_true_eq] at held
      refine ⟨begun, trace, state, rfl, ran, held.1, fun continues => ?_⟩
      exact (continues.later resumed more final reached).2 _
        (List.mem_append_right _ held.2) trivial

end Example

end Hyperloader.Process
