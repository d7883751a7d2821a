/-
Module: Hyperloader.Process.Submission
Purpose: The process iterator under on-completion delivery over a transport that refuses the
  user collations which do not fit, process/iterator.py with process/pool.py: its runs are runs
  without a refusal up to the first one, and a command that does not fit is never delivered.
Trusted boundary: a worker that takes a command answers it with a value.
Main exports:
  Mirrored, run_mirrored, run_of_sound, Linked.submit, Delivering.run_submitting,
  Delivering.unfit
-/
import Hyperloader.Process.Resume
import Hyperloader.Process.Restart

namespace Hyperloader.Process

open Foundations Schedule Schedule.Native
open State Distributed

variable {loader : CollatedLoader} {iterator after : ProcessIterator}
  {label : ProcessIterator.Label} {event : Yield}

/-! ### Runs up to a refusal -/

/-- So over the transport: a closed iterator sends nothing. -/
theorem ProcessIterator.submit_of_closed (closed : iterator.valid = false)
    (stepEq : iterator.submit loader label = some (event, after)) :
    after.valid = false ∧ after.delivered = iterator.delivered ∧
      after.complete = iterator.complete ∧ event.batch = none ∧ ¬ event.Finished := by
  have unrefused : ProcessIterator.refusalOf loader iterator label = none := by
    cases label <;> simp [ProcessIterator.refusalOf, closed] <;> split <;> rfl
  rw [ProcessIterator.submit, unrefused] at stepEq
  exact ProcessIterator.step_of_closed closed stepEq

/-- A run over the transport as a run over one that takes every command, and what comes behind
it: nothing, or a refusal that closes the iterator. -/
structure Mirrored (loader : CollatedLoader) (iterator : ProcessIterator)
    (trace : List (ProcessIterator.Label × Yield)) (final : ProcessIterator) : Prop where
  mirror : ∃ labels before rest last,
    (ProcessIterator.machine loader.toProcessLoader).run iterator labels = some (before, last) ∧
    trace = before ++ rest ∧ final.delivered = last.delivered ∧ final.complete = last.complete ∧
    (∀ entry ∈ rest, entry.2.batch = none ∧ ¬ entry.2.Finished) ∧
    (rest = [] ∧ final = last ∨ final.valid = false ∧ ∃ entry ∈ rest, entry.2.Failed)

variable {labels : List ProcessIterator.Label} {trace : List (ProcessIterator.Label × Yield)}
  {final : ProcessIterator}

theorem run_mirrored
    (ran : (ProcessIterator.submitting loader).run iterator labels = some (trace, final)) :
    Mirrored loader iterator trace final := by
  refine (ProcessIterator.submitting loader).run_induction
    (motive := fun trace state => Mirrored loader iterator trace state) ?_ []
    ⟨[], [], [], iterator, rfl, rfl, rfl, rfl, fun _ member => absurd member List.not_mem_nil,
      Or.inl ⟨rfl, rfl⟩⟩ ((ProcessIterator.submitting loader).along_true iterator labels) ran
  rintro trace state label event next ⟨labels, before, rest, last, runEq, rfl, delivered, complete,
    quiet, ends⟩ - stepEq
  have stepEq : state.submit loader label = some (event, next) := stepEq
  rcases ends with ⟨rfl, rfl⟩ | ⟨closed, failed⟩
  · rw [ProcessIterator.submit] at stepEq
    cases refused : ProcessIterator.refusalOf loader state label with
    | some failure =>
        rw [refused] at stepEq
        cases stepEq
        refine ⟨labels, before, [(label, .raised failure)], state, runEq, by simp, rfl, rfl, ?_,
          Or.inr ⟨rfl, _, List.mem_singleton_self _, trivial⟩⟩
        intro entry member
        rw [List.mem_singleton.mp member]
        exact ⟨rfl, fun ended => ended⟩
    | none =>
        rw [refused] at stepEq
        have single : (ProcessIterator.machine loader.toProcessLoader).run state [label] =
            some ([(label, event)], next) := by
          rw [Machine.run_cons_eq_some]
          exact ⟨event, next, [], stepEq, rfl, rfl⟩
        exact ⟨labels ++ [label], before ++ [(label, event)], [], next,
          (ProcessIterator.machine loader.toProcessLoader).run_append runEq single, by simp, rfl,
          rfl, fun _ member => absurd member List.not_mem_nil, Or.inl ⟨rfl, rfl⟩⟩
  · obtain ⟨still, same, sameComplete, silent, open_⟩ := state.submit_of_closed closed stepEq
    refine ⟨labels, before, rest ++ [(label, event)], last, runEq, by simp, same.trans delivered,
      sameComplete.trans complete, ?_, Or.inr ⟨still, ?_⟩⟩
    · intro entry member
      rcases List.mem_append.mp member with old | new
      · exact quiet entry old
      · rw [List.mem_singleton.mp new]
        exact ⟨silent, open_⟩
    · obtain ⟨entry, member, raised⟩ := failed
      exact ⟨entry, List.mem_append_left _ member, raised⟩

/-- A run without failures is a run over a transport that takes every command. -/
theorem run_of_sound
    (ran : (ProcessIterator.submitting loader).run iterator labels = some (trace, final))
    (sound : ∀ entry ∈ trace, ¬ entry.2.Failed) :
    ∃ labels, (ProcessIterator.machine loader.toProcessLoader).run iterator labels =
      some (trace, final) := by
  obtain ⟨labels, before, rest, last, runEq, rfl, -, -, -, ends⟩ := (run_mirrored ran).mirror
  rcases ends with ⟨rfl, rfl⟩ | ⟨-, entry, member, failed⟩
  · exact ⟨labels, by rwa [List.append_nil]⟩
  · exact absurd failed (sound entry (List.mem_append_right _ member))

/-! ### What one step does to the frontier -/

/-- Polling moves the frontier as it does under in-order delivery. -/
theorem ProcessIterator.poll_ok {loader : ProcessLoader} (polled : List Nat) {frontier : Frontier}
    {iterator state : ProcessIterator} {came : Bool}
    (pollEq : ProcessIterator.poll loader polled frontier iterator = .ok (came, state)) :
    ∃ next, OrderedIterator.poll polled frontier = .ok (came, next) ∧
      state.frontier = some next ∧ state.delivered = iterator.delivered := by
  induction polled generalizing frontier iterator state came with
  | nil =>
      cases pollEq
      exact ⟨frontier, rfl, rfl, rfl⟩
  | cons worker polled ih =>
      rw [ProcessIterator.poll] at pollEq
      rw [OrderedIterator.poll]
      cases received : frontier.receive worker with
      | error failure => simp only [received, reduceCtorEq] at pollEq
      | ok pair =>
          obtain ⟨arrived, next⟩ := pair
          simp only [received] at pollEq ⊢
          cases arrived with
          | none => exact ih pollEq
          | some position =>
              simp only at pollEq ⊢
              split at pollEq
              · cases pollEq
              · rename_i more there rest
                cases pollEq
                obtain ⟨last, lastEq, frontierEq, same⟩ := ih rest
                refine ⟨last, ?_, frontierEq, same.trans (observe_same _ _ _).2.1⟩
                simp only [lastEq]

/-- What a step that does not fail leaves of the frontier and of the batches delivered. -/
structure Advanced (loader : CollatedLoader) (start : Nat) (iterator : ProcessIterator)
    (frontier : Frontier) (after : ProcessIterator) : Prop where
  moved : ∃ next, after.frontier = some next ∧
    Linked start loader.scheduleLength loader.workers next ∧ Onward loader.refusal frontier next
  kept : ∀ position, loader.refusal position ≠ none → frontier.Untouched position →
    position ∉ iterator.delivered.delivered → position ∉ after.delivered.delivered

section Advanced

variable {start : Nat} {frontier next : Frontier}

theorem Advanced.of_same (nextEq : after.frontier = some next)
    (linked : Linked start loader.scheduleLength loader.workers next)
    (onward : Onward loader.refusal frontier next) (same : after.delivered = iterator.delivered) :
    Advanced loader start iterator frontier after :=
  ⟨⟨next, nextEq, linked, onward⟩, fun _ _ _ fresh => same ▸ fresh⟩

/-- A pass of `_next_user_batch` behind its dispatches. -/
theorem Linked.nextUserBatch {before : Frontier}
    (linked : Linked start loader.scheduleLength loader.workers frontier)
    (onward : Onward loader.refusal before frontier)
    (passEq : ProcessIterator.nextUserBatch loader.toProcessLoader iterator frontier =
      (event, after)) (sound : ¬ event.Failed) : Advanced loader start iterator before after := by
  rw [ProcessIterator.nextUserBatch] at passEq
  rcases linked.commitNext (iterator.position / loader.sizing.width) with
    ⟨-, nothing⟩ | ⟨-, -, refused⟩ | ⟨-, committed, commitEq, kept, popped⟩
  · obtain ⟨came, polled, pollEq, still, waited, -, -, -⟩ :=
      poll_spec linked (List.range loader.workers)
    have further := onward.trans (linked.poll_onward pollEq waited)
    simp only [nothing, ProcessIterator.await] at passEq
    split at passEq
    · cases passEq
      exact absurd trivial sound
    · rename_i state polling
      cases passEq
      obtain ⟨last, lastEq, frontierEq, same⟩ := ProcessIterator.poll_ok _ polling
      cases pollEq.symm.trans lastEq
      exact .of_same frontierEq still further same
    · rename_i state polling
      obtain ⟨last, lastEq, frontierEq, same⟩ := ProcessIterator.poll_ok _ polling
      obtain ⟨grown, growEq, deeper, unchanged⟩ := linked.recordWait
      simp only [growEq] at passEq
      cases passEq
      exact .of_same rfl deeper (onward.trans unchanged.onward) same
  · simp only [refused] at passEq
    cases passEq
    exact absurd trivial sound
  · simp only [commitEq] at passEq
    split at passEq
    · cases passEq
      exact absurd trivial sound
    · rename_i marked markEq
      cases passEq
      refine ⟨⟨committed, rfl, kept, onward.trans popped.onward⟩,
        fun position refused untouched fresh => ?_⟩
      rw [(DeliveredBatchState.delivered_of_mark markEq).2, Finset.mem_insert, not_or]
      refine ⟨?_, fresh⟩
      rintro rfl
      exact (onward.untouched _ refused untouched).unready popped.held

/-- Every step of a user collation that does not fail. -/
theorem Linked.submit (collated : loader.userCollation = true)
    (linked : Linked start loader.scheduleLength loader.workers frontier)
    (here : iterator.frontier = some frontier)
    (stepEq : iterator.submit loader label = some (event, after)) (sound : ¬ event.Failed) :
    Advanced loader start iterator frontier after := by
  rw [ProcessIterator.submit] at stepEq
  cases refused : ProcessIterator.refusalOf loader iterator label with
  | some failure =>
      rw [refused] at stepEq
      cases stepEq
      exact absurd trivial sound
  | none =>
      rw [refused] at stepEq
      cases label with
      | next order room =>
          simp only [ProcessIterator.step, ProcessIterator.next, here] at stepEq
          simp only [ProcessIterator.refusalOf, here] at refused
          split at stepEq
          · cases stepEq
            exact absurd trivial sound
          · rename_i valid
            split at stepEq
            · cases stepEq
              exact .of_same rfl linked (.refl frontier) rfl
            · rename_i early
              split at stepEq
              · rename_i ordered
                rw [if_pos ⟨by simpa using valid, Nat.lt_of_not_le early, ordered⟩] at refused
                obtain ⟨filled, fillEq, kept, same⟩ := linked.fill order room
                simp only [fillEq] at stepEq
                exact kept.nextUserBatch (linked.fill_onward refused fillEq same)
                  (Option.some.inj stepEq) sound
              · cases stepEq
      | fill order room =>
          simp only [ProcessIterator.step, here] at stepEq
          simp only [ProcessIterator.refusalOf, here] at refused
          split at stepEq
          · rename_i able
            rw [if_pos able] at refused
            obtain ⟨filled, fillEq, kept, same⟩ := linked.fill order room
            simp only [fillEq] at stepEq
            cases stepEq
            exact .of_same rfl kept (linked.fill_onward refused fillEq same) rfl
          · cases stepEq
      | work dispatch =>
          simp only [ProcessIterator.step, here] at stepEq
          obtain ⟨worked, workEq, pair⟩ := Option.map_eq_some_iff.mp stepEq
          cases pair
          exact .of_same rfl (linked.work workEq).1 (linked.work_onward workEq) rfl
      | adapt width =>
          simp only [ProcessIterator.step, here] at stepEq
          split at stepEq
          · rename_i decided
            obtain ⟨adapted, adaptEq, kept, same⟩ := linked.adapt decided.2.1 decided.2.2
            simp only [adaptEq] at stepEq
            cases stepEq
            exact .of_same rfl kept same.onward rfl
          · cases stepEq

end Advanced

/-! ### Commands that fit -/

section Sendable

variable {keeps : Finset Nat → List Nat → Finset Nat → Prop} {fits : DeliveredBatchState → Prop}
  {able : ProcessIterator → Frontier → Prop}

/-- An iterator without a frontier opens none. -/
theorem ProcessIterator.frontier_none (here : iterator.frontier = none)
    (stepEq : ProcessIterator.step loader.toProcessLoader iterator label = some (event, after)) :
    after.frontier = none := by
  cases label with
  | next order room =>
      simp only [ProcessIterator.step, ProcessIterator.next, here] at stepEq
      split at stepEq
      · cases stepEq
        exact here
      · split at stepEq
        · cases stepEq
          rfl
        · cases stepEq
  | fill order room | work dispatch | adapt width =>
      simp only [ProcessIterator.step, here, reduceCtorEq] at stepEq

/-- What fits stays so, as commits stay. -/
theorem ProcessIterator.Sendable.step (sendable : iterator.Sendable loader)
    (passes : Passes loader.toProcessLoader keeps fits able)
    (delivering : Delivering loader.toProcessLoader keeps fits iterator)
    (stepEq : ProcessIterator.step loader.toProcessLoader iterator label = some (event, after)) :
    after.Sendable loader := by
  cases collation : loader.userCollation with
  | false => exact fun _ _ position _ inside => loader.fits_of_plain collation position inside
  | true =>
      have submitted : iterator.submit loader label = some (event, after) := by
        rw [ProcessIterator.submit, delivering.unrefused sendable]
        exact stepEq
      intro next nextEq position open_ inside
      cases here : iterator.frontier with
      | none =>
          rw [ProcessIterator.frontier_none here stepEq] at nextEq
          cases nextEq
      | some frontier =>
          obtain ⟨start, linked⟩ := delivering.linked frontier here
          obtain ⟨moved, movedEq, -, onward⟩ :=
            (linked.submit collation here submitted (passes.step delivering stepEq).sound).moved
          obtain rfl := Option.some.inj (movedEq.symm.trans nextEq)
          exact sendable frontier here position
            (fun old => open_ (onward.committed position old)) inside

/-- Where every command still to be committed fits, the transport might take any. -/
theorem Delivering.run_submitting (passes : Passes loader.toProcessLoader keeps fits able)
    (delivering : Delivering loader.toProcessLoader keeps fits iterator)
    (sendable : iterator.Sendable loader)
    (ran : (ProcessIterator.machine loader.toProcessLoader).run iterator labels =
      some (trace, final)) (more : List ProcessIterator.Label) :
    (ProcessIterator.submitting loader).run final more =
      (ProcessIterator.machine loader.toProcessLoader).run final more := by
  have kept : ∀ state label event next,
      (Delivering loader.toProcessLoader keeps fits state ∧ state.Sendable loader) →
      (ProcessIterator.machine loader.toProcessLoader).step state label = some (event, next) →
      Delivering loader.toProcessLoader keeps fits next ∧ next.Sendable loader :=
    fun state label event next holds stepEq =>
      ⟨(passes.step holds.1 stepEq).kept, holds.2.step passes holds.1 stepEq⟩
  refine (ProcessIterator.machine loader.toProcessLoader).run_congr kept ?_ ?_ more
  · rintro state label ⟨holds, able⟩
    show ProcessIterator.submit loader state label = _
    rw [ProcessIterator.submit, holds.unrefused able]
    rfl
  · exact (ProcessIterator.machine loader.toProcessLoader).run_invariant
      (fun state label event next holds _ stepEq => kept state label event next holds stepEq)
      ⟨delivering, sendable⟩
      ((ProcessIterator.machine loader.toProcessLoader).along_true iterator labels) ran

/-! ### A command that does not fit -/

variable {start position : Nat} {frontier : Frontier} {labels : List ProcessIterator.Label}
  {trace : List (ProcessIterator.Label × Yield)} {final : ProcessIterator}

/-- A run without a failure does not deliver a batch whose command does not fit. -/
theorem Linked.never_delivered (collated : loader.userCollation = true)
    (refused : loader.refusal position ≠ none)
    (linked : Linked start loader.scheduleLength loader.workers frontier)
    (here : iterator.frontier = some frontier) (untouched : frontier.Untouched position)
    (fresh : position ∉ iterator.delivered.delivered)
    (ran : (ProcessIterator.submitting loader).run iterator labels = some (trace, final))
    (sound : ∀ entry ∈ trace, ¬ entry.2.Failed) : position ∉ final.delivered.delivered := by
  have kept := @Machine.run_invariant_of_events _ _ _ (ProcessIterator.submitting loader)
    (fun state => ∃ current, state.frontier = some current ∧
      Linked start loader.scheduleLength loader.workers current ∧
      current.Untouched position ∧ position ∉ state.delivered.delivered)
    (fun event => ¬ event.Failed)
    (fun state label event next holds stepEq sound => by
      obtain ⟨current, here, linked, untouched, fresh⟩ := holds
      obtain ⟨⟨moved, movedEq, still, onward⟩, kept⟩ := linked.submit collated here stepEq sound
      exact ⟨moved, movedEq, still, onward.untouched position refused untouched,
        kept position refused untouched fresh⟩)
    iterator final labels trace ⟨frontier, here, linked, untouched, fresh⟩ ran sound
  obtain ⟨-, -, -, -, absent⟩ := kept
  exact absent

/-- A candidate whose command does not fit fails dispatches that begin with it. -/
theorem Linked.refuses {stop workers : Nat} {refusal : Nat → Option Raised} {failure : Raised}
    (linked : Linked start stop workers frontier)
    (idle : frontier.running ++ frontier.finished = [])
    (low : frontier.schedule.nextCommit ≤ position) (high : position < frontier.schedule.stop)
    (fresh : position ∉ frontier.schedule.delivered) (unready : position ∉ frontier.ready)
    (refused : refusal position = some failure) :
    ∃ order, order.Perm frontier.schedule.dispatchCandidates ∧
      frontier.refused refusal order 1 = some failure := by
  obtain ⟨candidate, eligible⟩ := linked.eligible idle low high fresh unready
  refine ⟨position :: frontier.schedule.dispatchCandidates.erase position,
    (List.perm_cons_erase candidate).symm, ?_⟩
  simp only [Frontier.refused, eligible, refused]

/-- From a state one of whose commands does not fit a run fails, or none that does not fail
ends. -/
theorem Delivering.unfit (passes : Passes loader.toProcessLoader keeps fits able)
    (delivering : Delivering loader.toProcessLoader keeps fits iterator)
    {state : DeliveredBatchState} (delivered : iterator.delivered = state)
    (begun : ∀ frontier, iterator.frontier = some frontier →
      Opened loader.toProcessLoader state frontier)
    (open_ : loader.length ≠ 0 → ∃ frontier, iterator.frontier = some frontier)
    (low : loader.scheduleStart (min loader.length (state.base * loader.sizing.width)) ≤ position)
    (high : position < loader.scheduleLength) (apart : position ∉ state.ahead)
    (refused : loader.refusal position ≠ none) :
    (∃ labels trace final,
      (ProcessIterator.submitting loader).run iterator labels = some (trace, final) ∧
        ∃ entry ∈ trace, entry.2.Failed) ∨
    ∀ labels trace final,
      (ProcessIterator.submitting loader).run iterator labels = some (trace, final) →
        (∀ entry ∈ trace, ¬ entry.2.Failed) → ∀ entry ∈ trace, ¬ entry.2.Finished := by
  have collated : loader.userCollation = true := by
    by_contra plain
    exact refused (loader.fits_of_plain (Bool.eq_false_of_not_eq_true plain) position high)
  have single := perBatch_of_collated collated
  have shorter := scheduleLength_le loader.toProcessLoader
  obtain ⟨frontier, here⟩ := open_ (by omega)
  have opened := begun frontier here
  have uncommitted : ¬ frontier.Committed position := by
    rintro (before | beyond)
    · rw [opened.nextCommit] at before
      omega
    · have ahead := ((opened.delivered position).mp beyond).2
      rw [single, Nat.div_one] at ahead
      exact apart ahead
  have unready : position ∉ frontier.ready := by
    rw [opened.ready]
    exact Finset.notMem_empty position
  by_cases missing : position ∈ state.delivered
  · -- the last batch is sent again although nothing is left to deliver
    left
    have before := (DeliveredBatchState.mem_delivered.mp missing).resolve_right apart
    have late : loader.batching.count ≤ state.base := by
      by_contra early
      rw [scheduleStart_of_lt loader.toProcessLoader (Nat.lt_of_not_le early), single,
        Nat.mul_one] at low
      omega
    have last := scheduleLength_le_start loader.toProcessLoader late
    have next : frontier.schedule.nextCommit = position := by
      rw [opened.nextCommit]
      omega
    obtain ⟨failure, isFailure⟩ := Option.ne_none_iff_exists'.mp refused
    obtain ⟨order, permuted, fails⟩ := opened.linked.refuses opened.idle (Nat.le_of_eq next)
      (next ▸ opened.linked.nextCommit_lt_stop (next.symm ▸ high))
      (next ▸ opened.linked.framed.not_delivered_nextCommit) unready isFailure
    have submitted : iterator.submit loader (.fill order 1) = some (iterator.fail failure) := by
      have refusal : ProcessIterator.refusalOf loader iterator (.fill order 1) = some failure := by
        simp only [ProcessIterator.refusalOf, here, if_pos (And.intro delivering.valid permuted),
          fails]
      rw [ProcessIterator.submit, refusal]
    exact ⟨[.fill order 1], _, _, (ProcessIterator.submitting loader).run_cons_eq_some.mpr
      ⟨_, _, [], submitted, rfl, rfl⟩, _, List.mem_cons_self, trivial⟩
  · right
    intro labels trace final ran sound entry member finished
    have untouched : frontier.Untouched position := by
      refine ⟨uncommitted, unready, fun dispatch inPool => ?_⟩
      rw [opened.idle] at inPool
      cases inPool
    have absent := opened.linked.never_delivered collated refused here untouched
      (delivered ▸ missing) ran sound
    obtain ⟨others, runEq⟩ := run_of_sound ran sound
    obtain ⟨-, outcome⟩ := passes.handout.run delivering runEq
    have all : loader.batching.contents final.delivered.delivered = loader.batching.everything :=
      outcome.ended ⟨entry, member, finished⟩
    have real : position < loader.batching.count := by
      rw [← ProcessLoader.grid_count, Batching.lt_count_iff]
      show position * loader.perBatch < loader.scheduleLength
      rwa [single, Nat.mul_one]
    have within : loader.batching.batch position ∈ loader.batching.everything :=
      Batching.mem_everything.mpr (Batching.mem_batches.mpr ⟨position, real, rfl⟩)
    rw [← all] at within
    exact absent ((Batching.batch_mem_contents real).mp within)

end Sendable

end Hyperloader.Process
