/-
Module: Hyperloader.Iterable.Call
Purpose: One call of `__next__`, iterable/iterator.py, step by step, and the batches behind a
  checkpoint captured between two calls or inside one.
Trusted boundary: the source's methods and the installed streams are parameters.
Main exports:
  standing, hand, serveDelivered_standing, Calling, Calling.remaining, Calling.fails,
  completes, standing_moves
-/
import Mathlib.Data.List.Nodup
import Mathlib.Logic.Relation
import Hyperloader.Iterable.Resume

namespace Hyperloader.Iterable

open Foundations State

variable {Object Value Stream : Type} {loader : IterableLoader Object Value Stream}

/-! ### The lanes with a batch left -/

/-- Whether a lane hands out another batch behind an arrival. -/
def Lasts (loader : IterableLoader Object Value Stream) (identity : Fin loader.laneCount)
    (arrival : Nat) : Prop :=
  ¬((loader.upcoming identity arrival).length < loader.width ∧
    Skips loader (loader.upcoming identity arrival))

instance (identity : Fin loader.laneCount) (arrival : Nat) :
    Decidable (Lasts loader identity arrival) :=
  inferInstanceAs (Decidable ¬_)

/-- The lanes of a queue that have a batch left, in their order and each with its delivered
arrival. -/
def standing (loader : IterableLoader Object Value Stream) (queue : List (Fin loader.laneCount))
    (delivered : Fin loader.laneCount → Nat) : List (Fin loader.laneCount × Nat) :=
  (queue.map fun identity => (identity, delivered identity)).filter fun entry =>
    Lasts loader entry.1 entry.2

/-- The round robin on the lanes with a batch left: the first hands out a batch and comes back
behind the others if it has another one. -/
def hand (loader : IterableLoader Object Value Stream) :
    List (Fin loader.laneCount × Nat) →
      Option (Handed Value) × List (Fin loader.laneCount × Nat)
  | [] => (none, [])
  | (identity, arrival) :: rest =>
      let values := loader.upcoming identity arrival
      let again := [(identity, arrival + values.length)].filter fun entry =>
        loader.width ≤ values.length ∧ Lasts loader entry.1 entry.2
      (Runtime.handed loader values, rest ++ again)

variable {identity : Fin loader.laneCount} {rest : List (Fin loader.laneCount)}

theorem standing_cons_of_lasts {delivered : Fin loader.laneCount → Nat}
    (lasts : Lasts loader identity (delivered identity)) :
    standing loader (identity :: rest) delivered =
      (identity, delivered identity) :: standing loader rest delivered :=
  List.filter_cons_of_pos (decide_eq_true lasts)

theorem standing_cons_of_spent {delivered : Fin loader.laneCount → Nat}
    (spent : ¬Lasts loader identity (delivered identity)) :
    standing loader (identity :: rest) delivered = standing loader rest delivered :=
  List.filter_cons_of_neg fun lasts => spent (of_decide_eq_true lasts)

/-- A lane outside the queue does not count. -/
theorem standing_update (outside : identity ∉ rest) (delivered : Fin loader.laneCount → Nat)
    (arrival : Nat) :
    standing loader rest (Function.update delivered identity arrival) =
      standing loader rest delivered := by
  rw [standing, standing]
  congr 1
  apply List.map_congr_left
  intro other member
  have different : other ≠ identity := fun same => outside (same ▸ member)
  rw [Function.update_of_ne different]

/-- The lanes with a batch left are all that serving depends on, so two checkpoints that agree on
them resume with the same batches to the end. -/
theorem serveDelivered_standing {queue : List (Fin loader.laneCount)}
    (delivered : Fin loader.laneCount → Nat) (distinct : queue.Nodup) :
    let served := serveDelivered loader queue delivered
    (served.1, standing loader served.2.1 served.2.2) =
      hand loader (standing loader queue delivered) := by
  induction queue with
  | nil => rfl
  | cons identity rest ih =>
      obtain ⟨outside, others⟩ := List.nodup_cons.mp distinct
      rw [serveDelivered]
      dsimp only
      split
      · rename_i short
        split
        · rename_i skips
          rw [standing_cons_of_spent fun lasts => lasts ⟨short, skips⟩]
          exact ih others
        · rename_i keeps
          rw [standing_cons_of_lasts fun both => keeps both.2, hand, standing_update outside]
          have gone : ¬loader.width ≤
              (loader.upcoming identity (delivered identity)).length := Nat.not_le_of_lt short
          simp [gone]
      · rename_i full
        rw [standing_cons_of_lasts fun both => full both.1, hand]
        have long : loader.width ≤
            (loader.upcoming identity (delivered identity)).length := Nat.le_of_not_lt full
        dsimp only
        rw [standing, List.map_append, List.filter_append, ← standing,
          standing_update outside, List.map_cons, List.map_nil, Function.update_self]
        simp [long]

/-- Where a call of `__next__` is: before the condition of the loop, in the source of the lane it
took from the queue, behind the source, with the lane back in the queue if it goes on, and with
the batch counted. The queue is kept beside the runtime, as in `serve`. -/
inductive Calling (loader : IterableLoader Object Value Stream) where
  | looking (queue : List (Fin loader.laneCount)) (runtime : Runtime Object loader.laneCount)
  | drawing (identity : Fin loader.laneCount) (rest : List (Fin loader.laneCount))
      (runtime : Runtime Object loader.laneCount)
  | drawn (identity : Fin loader.laneCount) (rest : List (Fin loader.laneCount))
      (values : List Value) (exhausted : Bool) (runtime : Runtime Object loader.laneCount)
  | queued (identity : Fin loader.laneCount) (queue : List (Fin loader.laneCount))
      (values : List Value) (exhausted : Bool) (runtime : Runtime Object loader.laneCount)
  | counted (queue : List (Fin loader.laneCount)) (values : List Value)
      (runtime : Runtime Object loader.laneCount)

namespace Calling

/-- The lanes in the queue. -/
def lanes : Calling loader → List (Fin loader.laneCount)
  | looking queue _ | queued _ queue _ _ _ | counted queue _ _ => queue
  | drawing _ rest _ | drawn _ rest _ _ _ => rest

def runtime : Calling loader → Runtime Object loader.laneCount
  | looking _ runtime | drawing _ _ runtime | drawn _ _ _ _ runtime | queued _ _ _ _ runtime
  | counted _ _ runtime => runtime

/-- Whether a draw hands out nothing: the two `continue` statements. -/
def Passes (loader : IterableLoader Object Value Stream) (values : List Value)
    (exhausted : Bool) : Prop :=
  values = [] ∨
    exhausted ∧ (loader.batchSize.any (values.length < ·) ∧ loader.dropLast)

instance (values : List Value) (exhausted : Bool) : Decidable (Passes loader values exhausted) :=
  decidable_of_iff (values.isEmpty ∨
    exhausted ∧ (loader.batchSize.any (values.length < ·) ∧ loader.dropLast))
    (by rw [Passes, List.isEmpty_iff])

/-- The next step of a call that goes on. -/
def step : Calling loader → Option (Calling loader)
  | looking [] _ | counted _ _ _ => none
  | looking (identity :: rest) runtime => some (drawing identity rest runtime)
  | drawing identity rest runtime =>
      let (values, exhausted, runtime) := runtime.nextBatch loader identity
      some (drawn identity rest values exhausted runtime)
  | drawn identity rest values exhausted runtime =>
      let queue := if exhausted then rest else rest ++ [identity]
      some (queued identity queue values exhausted runtime)
  | queued identity queue values exhausted runtime =>
      if Passes loader values exhausted then some (looking queue runtime)
      else some (counted queue values (runtime.markDelivered loader identity))

/-- The last step of a call that comes to a batch or to the end. -/
def finishes : Calling loader → Option (Option (Handed Value) × Runtime Object loader.laneCount)
  | looking [] runtime => some (none, { runtime with lanes := [] })
  | counted queue values runtime =>
      some (Runtime.handed loader values, { runtime with lanes := queue })
  | _ => none

/-- What an exception leaves: the source raises with its lane out of the queue, or the collation of
a batch that is already counted. -/
def fails : Calling loader → Runtime Object loader.laneCount → Prop
  | drawing identity rest runtime, after => ∃ lane,
      after =
        { runtime.put loader identity { runtime.held identity with lane } with lanes := rest }
  | counted queue _ runtime, after => after = { runtime with lanes := queue }
  | _, _ => False

/-- What the rest of a call comes to where nothing raises. -/
def remaining : Calling loader → Option (Handed Value) × Runtime Object loader.laneCount
  | looking queue runtime => Runtime.serve loader queue runtime
  | drawing identity rest runtime => Runtime.serve loader (identity :: rest) runtime
  | drawn identity rest values exhausted runtime =>
      let queue := if exhausted then rest else rest ++ [identity]
      if Passes loader values exhausted then Runtime.serve loader queue runtime
      else (Runtime.handed loader values,
        { runtime.markDelivered loader identity with lanes := queue })
  | queued identity queue values exhausted runtime =>
      if Passes loader values exhausted then Runtime.serve loader queue runtime
      else (Runtime.handed loader values,
        { runtime.markDelivered loader identity with lanes := queue })
  | counted queue values runtime =>
      (Runtime.handed loader values, { runtime with lanes := queue })

end Calling

/-! ### What a call comes to -/

theorem length_advance {rootSeed epoch count : Nat} {lane : Lane Object}
    (goesOn : (loader.advance rootSeed epoch identity count lane).2.1 = false) :
    (loader.advance rootSeed epoch identity count lane).1.length = count := by
  induction count generalizing lane with
  | zero => rfl
  | succ count ih =>
      rw [IterableLoader.advance] at goesOn ⊢
      split at goesOn
      · exact absurd goesOn.symm Bool.false_ne_true
      · exact congrArg Nat.succ (ih goesOn)

/-- A lane that is not exhausted fills its batch. -/
theorem nextBatch_ne_nil {runtime : Runtime Object loader.laneCount}
    {identity : Fin loader.laneCount} (goesOn : (runtime.nextBatch loader identity).2.1 = false) :
    (runtime.nextBatch loader identity).1 ≠ [] := by
  intro nothing
  have length : (runtime.nextBatch loader identity).1.length = loader.width := by
    rw [Runtime.nextBatch] at goesOn ⊢
    dsimp only at goesOn ⊢
    split at goesOn
    · rename_i none
      rw [if_pos none]
      exact length_advance goesOn
    · rename_i some
      rw [if_neg some]
      exact length_advance goesOn
  rw [nothing] at length
  exact absurd length (Nat.ne_of_lt (width_pos loader))

/-- Behind its source a lane is served as `serve` serves it. -/
theorem remaining_drawn (identity : Fin loader.laneCount) (rest : List (Fin loader.laneCount))
    (runtime : Runtime Object loader.laneCount) :
    let (values, exhausted, after) := runtime.nextBatch loader identity
    (Calling.drawn identity rest values exhausted after).remaining =
      Runtime.serve loader (identity :: rest) runtime := by
  have filled := @nextBatch_ne_nil _ _ _ loader runtime identity
  rw [Runtime.serve]
  cases drawn : runtime.nextBatch loader identity with
  | mk values pair =>
      obtain ⟨exhausted, after⟩ := pair
      rw [drawn] at filled
      cases exhausted with
      | true => simp only [Calling.remaining, Calling.Passes, if_true, true_and]
      | false =>
          have goesOn : ¬Calling.Passes loader values false := by
            rintro (nothing | ⟨impossible, -⟩)
            · exact filled rfl nothing
            · cases impossible
          simp only [Calling.remaining, if_neg goesOn, Bool.false_eq_true, if_false]

/-- A step leaves what the call comes to as it is. -/
theorem remaining_step {call next : Calling loader} (step : call.step = some next) :
    next.remaining = call.remaining := by
  cases call with
  | looking queue runtime =>
      cases queue with
      | nil => cases step
      | cons identity rest =>
          cases step
          rfl
  | drawing identity rest runtime =>
      cases step
      exact remaining_drawn identity rest runtime
  | drawn identity rest values exhausted runtime =>
      cases step
      rfl
  | queued identity queue values exhausted runtime =>
      rw [Calling.step] at step
      rw [Calling.remaining]
      split at step
      · cases step
        rename_i passes
        rw [if_pos passes, Calling.remaining]
      · cases step
        rename_i counts
        rw [if_neg counts, Calling.remaining]
  | counted queue values runtime => cases step

/-- The steps of a call. -/
abbrev Goes (loader : IterableLoader Object Value Stream) :
    Calling loader → Calling loader → Prop :=
  Relation.ReflTransGen fun call next => call.step = some next

theorem remaining_reached {first call : Calling loader}
    (path : Goes loader first call) : call.remaining = first.remaining := by
  induction path with
  | refl => rfl
  | tail _ step ih => exact (remaining_step step).trans ih

theorem remaining_finishes {call : Calling loader}
    {outcome : Option (Handed Value) × Runtime Object loader.laneCount}
    (finishes : call.finishes = some outcome) : call.remaining = outcome := by
  cases call with
  | looking queue runtime =>
      cases queue with
      | nil => exact Option.some.inj finishes
      | cons => cases finishes
  | counted => exact Option.some.inj finishes
  | drawing | drawn | queued => cases finishes

/-- Every call comes to an end. -/
theorem ends (queue : List (Fin loader.laneCount)) (runtime : Runtime Object loader.laneCount) :
    ∃ call : Calling loader, Goes loader (.looking queue runtime) call ∧ call.finishes.isSome := by
  induction queue generalizing runtime with
  | nil => exact ⟨.looking [] runtime, .refl, rfl⟩
  | cons identity rest ih =>
      have filled := @nextBatch_ne_nil _ _ _ loader runtime identity
      have path : Goes loader (.looking (identity :: rest) runtime)
          (.drawn identity rest (runtime.nextBatch loader identity).1
            (runtime.nextBatch loader identity).2.1 (runtime.nextBatch loader identity).2.2) :=
        .tail (.tail .refl rfl) rfl
      generalize runtime.nextBatch loader identity = drawn at filled path
      obtain ⟨values, exhausted, after⟩ := drawn
      have behind := path.tail (rfl : Calling.step _ = some _)
      by_cases passes : Calling.Passes loader values exhausted
      · have spent : exhausted = true := by
          rcases passes with nothing | ⟨spent, -⟩
          · exact Bool.of_not_eq_false fun goesOn => filled goesOn nothing
          · exact spent
        subst spent
        obtain ⟨call, later, finishes⟩ := ih after
        exact ⟨call, (behind.tail (if_pos passes)).trans later, finishes⟩
      · exact ⟨_, behind.tail (if_neg passes), rfl⟩

/-- Where nothing raises a call takes its steps to the end, and it comes to what `serve`
computes. -/
theorem completes (queue : List (Fin loader.laneCount))
    (runtime : Runtime Object loader.laneCount) :
    ∃ call : Calling loader, Goes loader (.looking queue runtime) call ∧
      call.finishes = some (Runtime.serve loader queue runtime) := by
  obtain ⟨call, path, finished⟩ := ends queue runtime
  obtain ⟨outcome, finishes⟩ := Option.isSome_iff_exists.mp finished
  refine ⟨call, path, finishes.trans ?_⟩
  rw [← remaining_finishes finishes, remaining_reached path, Calling.remaining]

/-! ### Lanes inside a call -/

/-- What holds of the lanes at each step: a lane in the hands of the call comes from a queue of
sound lanes. -/
def Calling.Sound : Calling loader → Prop
  | looking queue runtime | counted queue _ runtime => Iterable.Sound loader runtime queue
  | drawing identity rest runtime => Iterable.Sound loader runtime (identity :: rest)
  | drawn identity rest values exhausted runtime => ∃ before,
      Iterable.Sound loader before (identity :: rest) ∧
      before.nextBatch loader identity = (values, exhausted, runtime)
  | queued identity queue values exhausted runtime => ∃ before rest,
      Iterable.Sound loader before (identity :: rest) ∧
      before.nextBatch loader identity = (values, exhausted, runtime) ∧
      queue = if exhausted then rest else rest ++ [identity]

/-- A step keeps the lanes sound. -/
theorem Calling.Sound.step (contract : StateContract loader.source) {call next : Calling loader}
    (sound : call.Sound) (step : call.step = some next) : next.Sound := by
  cases call with
  | looking queue runtime =>
      cases queue with
      | nil => cases step
      | cons identity rest =>
          cases step
          exact sound
  | drawing identity rest runtime =>
      cases step
      exact ⟨runtime, sound, rfl⟩
  | drawn identity rest values exhausted runtime =>
      obtain ⟨before, behind, batched⟩ := sound
      cases step
      exact ⟨before, rest, behind, batched, rfl⟩
  | queued identity queue values exhausted runtime =>
      obtain ⟨before, rest, behind, batched, rfl⟩ := sound
      have left := (sound_drawn behind).1
      have counts := sound_counted behind
      have requeues := fun full => sound_requeued contract behind full
      have filled := @nextBatch_ne_nil _ _ _ loader before identity
      obtain ⟨held, drawn, -⟩ :=
        nextBatch_spec behind.rootSeed behind.epoch (sound_active behind)
      rw [batched, Prod.mk.injEq, Prod.mk.injEq] at drawn
      obtain ⟨rfl, short, -⟩ := drawn
      rw [batched] at left counts requeues filled
      rw [Calling.step] at step
      cases exhausted with
      | true =>
          split at step
          · cases step
            exact left
          · cases step
            exact counts
      | false =>
          rw [if_neg] at step
          · cases step
            exact requeues (of_decide_eq_false short.symm)
          · rintro (nothing | ⟨impossible, -⟩)
            · exact filled rfl nothing
            · exact nomatch impossible
  | counted => cases step

/-- An exception leaves sound lanes as well. -/
theorem Calling.Sound.fails {call : Calling loader} (sound : call.Sound)
    {after : Runtime Object loader.laneCount} (fails : call.fails after) :
    Iterable.Sound loader after after.lanes := by
  cases call with
  | drawing identity rest runtime =>
      obtain ⟨lane, rfl⟩ := fails
      have active := sound_active sound
      have idle : LaneSound loader identity False { runtime.held identity with lane } :=
        ⟨active.stateful, active.reached, nofun, nofun, fun entry member =>
          .inl ((active.entries entry member).resolve_right fun past => past.1 trivial)⟩
      exact sound_left sound idle rfl ⟨rfl, rfl⟩
  | counted queue values runtime =>
      cases fails
      exact ⟨sound.rootSeed, sound.epoch, sound.distinct, sound.lanes⟩
  | looking | drawn | queued => exact fails.elim

/-- Whatever a call reaches is sound. -/
theorem sound_reached (contract : StateContract loader.source) {first call : Calling loader}
    (sound : first.Sound) (path : Goes loader first call) : call.Sound := by
  induction path with
  | refl => exact sound
  | tail _ step ih => exact ih.step contract step

end Hyperloader.Iterable
