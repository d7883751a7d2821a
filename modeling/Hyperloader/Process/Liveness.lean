/-
Module: Hyperloader.Process.Liveness
Purpose: When a process iterator, process/iterator.py with process/frontier.py and
  process/completion.py, always has a batch to deliver, a command in flight, or a command an
  empty transport would take, under both delivery modes.
Trusted boundary: a worker that takes a command answers it with a value.
Main exports:
  ProcessIterator.submit, DeliveryIterator, DeliveryIterator.machine, DeliveryIterator.Live,
  DeliveryIterator.Windowed, no_dead_state
-/
import Hyperloader.Process.InOrder

namespace Hyperloader.Process

open Foundations Schedule Schedule.Native
open State Distributed

/-! ### What a frontier can go on with -/

namespace Frontier

/-- A command is in flight: its worker runs it, or its answer is not yet received. -/
def InFlight (frontier : Frontier) : Prop := frontier.running ++ frontier.finished ≠ []

/-- A candidate of the window that the dispatches send through a transport with room for
one command. -/
def Dispatchable (refusal : Nat → Option Raised) (frontier : Frontier) : Prop :=
  ∃ position ∈ frontier.schedule.dispatchCandidates, ∃ dispatch after,
    frontier.schedule.dispatchAt position = some dispatch ∧
    frontier.refused refusal [position] 1 = none ∧
    frontier.fill [position] 1 = .ok after ∧ after.running = frontier.running ++ [dispatch]

/-- The payloads of all positions of the next batch that are not committed are there. -/
def HoldsBatch (loader : ProcessLoader) (frontier : Frontier) : Prop :=
  ∀ position < loader.scheduleLength, frontier.schedule.nextCommit ≤ position →
    position / loader.perBatch = frontier.schedule.nextCommit / loader.perBatch →
    position ∈ frontier.ready

end Frontier

section Frontier

variable {start stop workers : Nat} {frontier : Frontier}

/-- While nothing is in the pool, an open position of the window is next to be sent. -/
theorem Linked.eligible (linked : Linked start stop workers frontier)
    (idle : frontier.running ++ frontier.finished = []) {position : Nat}
    (low : frontier.schedule.nextCommit ≤ position) (high : position < frontier.schedule.stop)
    (fresh : position ∉ frontier.schedule.delivered) (unready : position ∉ frontier.ready) :
    position ∈ frontier.schedule.dispatchCandidates ∧
      frontier.schedule.dispatchAt position =
        some ⟨position,
          (frontier.schedule.dispatchOrdinal % frontier.schedule.workerCount) % 2 ^ 32⟩ := by
  obtain ⟨candidate, inactive⟩ := linked.candidate idle low high fresh unready
  refine ⟨candidate, if_neg ?_⟩
  rintro (below | above | active | delivered)
  · omega
  · omega
  · exact inactive active
  · exact fresh delivered

/-- An open position of the window is in flight with others, or it can be dispatched. -/
theorem Linked.alive (linked : Linked start stop workers frontier) {refusal : Nat → Option Raised}
    (fits : ∀ position < stop, refusal position = none) {position : Nat}
    (low : frontier.schedule.nextCommit ≤ position) (high : position < frontier.schedule.stop)
    (fresh : position ∉ frontier.schedule.delivered) (unready : position ∉ frontier.ready) :
    frontier.InFlight ∨ frontier.Dispatchable refusal := by
  by_cases idle : frontier.running ++ frontier.finished = []
  · right
    obtain ⟨candidate, eligible⟩ := linked.eligible idle low high fresh unready
    obtain ⟨schedule, marked, -⟩ := linked.markDispatched eligible
    refine ⟨position, candidate, _,
      { frontier with schedule := schedule, running := frontier.running ++ [_] }, eligible,
      Frontier.refused_of_fits fits [position] 1 linked, ?_, rfl⟩
    simp only [Frontier.fill, eligible, marked]
  · exact Or.inl idle

end Frontier

/-! ### On-completion delivery over a transport -/

namespace ProcessIterator

variable (loader : CollatedLoader)

/-- What the dispatches of a step raise. -/
def refusalOf (iterator : ProcessIterator) : Label → Option Raised
  | .next order room =>
      match iterator.frontier with
      | none => none
      | some frontier =>
          if iterator.valid ∧ iterator.position < loader.length ∧
              order.Perm frontier.schedule.dispatchCandidates then
            frontier.refused loader.refusal order room
          else none
  | .fill order room =>
      match iterator.frontier with
      | none => none
      | some frontier =>
          if iterator.valid ∧ order.Perm frontier.schedule.dispatchCandidates then
            frontier.refused loader.refusal order room
          else none
  | _ => none

/-- One step over a transport that refuses the commands which do not fit. -/
def submit (iterator : ProcessIterator) (label : Label) : Option (Yield × ProcessIterator) :=
  match refusalOf loader iterator label with
  | some failure => some (iterator.fail failure)
  | none => step loader.toProcessLoader iterator label

def submitting : Machine ProcessIterator Label Yield where
  step := submit loader

end ProcessIterator

/-! ### Both delivery modes -/

inductive Delivery where
  | inOrder
  | onCompletion

/-- `ProcessIterator` under one of the delivery modes. -/
inductive DeliveryIterator where
  | inOrder (iterator : OrderedIterator)
  | onCompletion (iterator : ProcessIterator)

namespace DeliveryIterator

variable (loader : CollatedLoader)

def start (delivery : Delivery) (cursor : Nat) (bitmap : List UInt8) :
    Except Raised DeliveryIterator :=
  match delivery with
  | .inOrder => (OrderedIterator.start loader cursor).map .inOrder
  | .onCompletion => (ProcessIterator.start loader.toProcessLoader cursor bitmap).map .onCompletion

def step : DeliveryIterator → ProcessIterator.Label → Option (Yield × DeliveryIterator)
  | .inOrder iterator, label =>
      (OrderedIterator.step loader iterator label).map fun (event, after) =>
        (event, .inOrder after)
  | .onCompletion iterator, label =>
      (ProcessIterator.submit loader iterator label).map fun (event, after) =>
        (event, .onCompletion after)

def machine : Machine DeliveryIterator ProcessIterator.Label Yield where
  step := step loader

/-- A batch ready for delivery, a command in flight, or a command to dispatch. -/
structure Alive (valid : Bool) (frontier : Option Frontier) (ready : Frontier → Prop) :
    Prop where
  valid : valid = true
  goes : ∃ current, frontier = some current ∧
    (ready current ∨ current.InFlight ∨ current.Dispatchable loader.refusal)

/-- Until the epoch is delivered the iterator can go on. -/
def Live : DeliveryIterator → Prop
  | .inOrder iterator =>
      iterator.position < loader.length →
        Alive loader iterator.valid iterator.frontier
          (Frontier.HoldsBatch loader.toProcessLoader)
  | .onCompletion iterator =>
      iterator.position < loader.length →
        Alive loader iterator.valid iterator.frontier fun frontier =>
          if loader.userCollation then frontier.HoldsBatch loader.toProcessLoader
          else iterator.readyBatches ≠ []

/-- Under on-completion delivery the lowest batch not delivered lies in the window. -/
def Windowed : DeliveryIterator → Prop
  | .inOrder _ => True
  | .onCompletion iterator =>
      iterator.position < loader.length →
        ∃ frontier ordinal, iterator.frontier = some frontier ∧
          ordinal < loader.batching.count ∧ ordinal ∉ iterator.delivered.delivered ∧
          (∀ other < ordinal, other ∈ iterator.delivered.delivered) ∧
          ∀ position ∈ loader.positionsOf ordinal,
            frontier.schedule.nextCommit ≤ position ∧ position < frontier.schedule.stop

end DeliveryIterator

section Live

variable {loader : CollatedLoader}

/-- The positions of the next batch are in the window. -/
theorem Linked.window {start workers : Nat} {frontier : Frontier}
    (linked : Linked start loader.scheduleLength workers frontier)
    (deep : loader.perBatch ≤ frontier.depth) {ordinal position : Nat}
    (head : ordinal * loader.perBatch ≤ frontier.schedule.nextCommit)
    (inside : position < loader.scheduleLength) (own : position / loader.perBatch = ordinal) :
    position < frontier.schedule.stop := by
  have positive : 0 < loader.perBatch := ProcessLoader.perBatch_pos
  have high : position < ordinal * loader.perBatch + loader.perBatch := by
    have bound := Nat.lt_succ_self (position / loader.perBatch)
    rw [Nat.div_lt_iff_lt_mul positive, Nat.succ_mul, own] at bound
    exact bound
  have depth := linked.depth
  have ends := linked.framed.endPosition
  have bounded := linked.bounded
  unfold StaticSchedule.stop saturatingAdd
  omega

/-- An iterator that delivers in order can go on. -/
theorem Ordered.alive (fits : loader.Fits) {done : Nat} {iterator : OrderedIterator}
    (ordered : Ordered loader done iterator) : DeliveryIterator.Live loader (.inOrder iterator) := by
  intro unfinished
  have early : done < loader.batching.count := by
    by_contra past
    have whole : ¬ done * loader.sizing.width < loader.length := fun low =>
      past (Batching.lt_count_iff.mpr low)
    have position := ordered.position
    omega
  obtain ⟨frontier, here, committed, deep⟩ := ordered.open_ early
  obtain ⟨start, linked⟩ := ordered.linked frontier here
  obtain ⟨head, -⟩ := ordered.head early here linked
  have short : iterator.samples.length < loader.perBatch :=
    Nat.lt_of_lt_of_le (ordered.short early) (Nat.min_le_left _ _)
  refine ⟨ordered.valid, frontier, here, ?_⟩
  by_cases holds : frontier.HoldsBatch loader.toProcessLoader
  · exact Or.inl holds
  · right
    simp only [Frontier.HoldsBatch, not_forall] at holds
    obtain ⟨position, inside, low, own, unready⟩ := holds
    have first : frontier.schedule.nextCommit / loader.perBatch = done := by
      rw [head]
      exact (Nat.div_mod_unique ProcessLoader.perBatch_pos).mpr
        ⟨by rw [Nat.mul_comm, Nat.add_comm], short⟩ |>.1
    have high := linked.window deep (by omega) inside (own.trans first)
    refine linked.alive fits low high (fun beyond => ?_) unready
    have past := (committed position).mp (Or.inr beyond)
    omega

/-- While a batch is missing, the lowest one lies in the window. -/
theorem Tracked.windowed {delivered : Finset Nat} {frontier : Frontier}
    (tracked : Tracked loader.toProcessLoader delivered frontier)
    (missing : ∃ ordinal < loader.batching.count, ordinal ∉ delivered) :
    ∃ ordinal < loader.batching.count, ordinal ∉ delivered ∧
      (∀ other < ordinal, other ∈ delivered) ∧
      ∀ position ∈ loader.positionsOf ordinal,
        frontier.schedule.nextCommit ≤ position ∧ position < frontier.schedule.stop := by
  obtain ⟨start, linked⟩ := tracked.linked
  obtain ⟨ordinal, real, absent, head, lowest⟩ := tracked.nextCommit missing
  refine ⟨ordinal, real, absent, lowest, fun position member => ?_⟩
  rw [ProcessLoader.positionsOf_eq real] at member
  obtain ⟨inside, own⟩ := Batching.mem_batch.mp member
  refine ⟨?_, linked.window tracked.deep (Nat.le_of_eq head.symm) inside own⟩
  rw [head, ← own]
  exact Nat.div_mul_le_self position loader.perBatch

end Live

section Completion

variable {loader : CollatedLoader} {keeps : Finset Nat → List Nat → Finset Nat → Prop}
  {holds : DeliveredBatchState → Prop} {iterator : ProcessIterator}

/-- Every command still to be committed fits its slot. -/
def ProcessIterator.Sendable (loader : CollatedLoader) (iterator : ProcessIterator) : Prop :=
  ∀ frontier, iterator.frontier = some frontier → ∀ position, ¬ frontier.Committed position →
    position < loader.scheduleLength → loader.refusal position = none

/-- Where every command still to be committed fits, no step is refused. -/
theorem Delivering.unrefused (sendable : iterator.Sendable loader)
    (delivering : Delivering loader.toProcessLoader keeps holds iterator)
    (label : ProcessIterator.Label) : ProcessIterator.refusalOf loader iterator label = none := by
  cases here : iterator.frontier with
  | none => cases label <;> simp only [ProcessIterator.refusalOf, here]
  | some frontier =>
      obtain ⟨start, linked⟩ := delivering.linked frontier here
      have unrefused : ∀ order room, frontier.refused loader.refusal order room = none :=
        fun order room => linked.unrefused (sendable frontier here) order room
      cases label <;> simp only [ProcessIterator.refusalOf, here, unrefused, ite_self]

/-- An iterator between two steps can go on, and its lowest batch is in the window. -/
theorem Delivering.alive (fits : loader.Fits) {able : ProcessIterator → Frontier → Prop}
    (passes : Passes loader.toProcessLoader keeps holds able)
    (ready : ∀ frontier, able iterator frontier →
      (if loader.userCollation then frontier.HoldsBatch loader.toProcessLoader
        else iterator.readyBatches ≠ []) ∨ frontier.InFlight)
    (delivering : Delivering loader.toProcessLoader keeps holds iterator) :
    DeliveryIterator.Live loader (.onCompletion iterator) ∧
      DeliveryIterator.Windowed loader (.onCompletion iterator) := by
  constructor
  · intro unfinished
    obtain ⟨frontier, here, tracked, -⟩ := delivering.open_ unfinished
    obtain ⟨start, linked⟩ := tracked.linked
    refine ⟨delivering.valid, frontier, here, ?_⟩
    by_cases moves : able iterator frontier
    · rcases ready frontier moves with batch | flying
      · exact Or.inl batch
      · exact Or.inr (Or.inl flying)
    · obtain ⟨position, low, high, fresh, unready⟩ :=
        passes.open_ iterator frontier delivering unfinished here moves
      exact Or.inr (linked.alive fits low high fresh unready)
  · intro unfinished
    obtain ⟨frontier, here, tracked, -⟩ := delivering.open_ unfinished
    have missing : ∃ ordinal < loader.batching.count, ordinal ∉ iterator.delivered.delivered := by
      apply Batching.exists_missing
      rw [← delivering.position]
      exact unfinished
    obtain ⟨ordinal, real, absent, lowest, inside⟩ := tracked.windowed missing
    exact ⟨frontier, ordinal, here, real, absent, lowest, inside⟩

/-- Every state a run reaches can go on. -/
theorem Passes.run_alive (fits : loader.Fits) {able : ProcessIterator → Frontier → Prop}
    (passes : Passes loader.toProcessLoader keeps holds able)
    (ready : ∀ iterator frontier, able iterator frontier →
      (if loader.userCollation then frontier.HoldsBatch loader.toProcessLoader
        else iterator.readyBatches ≠ []) ∨ frontier.InFlight)
    (delivering : Delivering loader.toProcessLoader keeps holds iterator)
    {labels : List ProcessIterator.Label} {trace : List (ProcessIterator.Label × Yield)}
    {final : DeliveryIterator}
    (reached : (DeliveryIterator.machine loader).run (.onCompletion iterator) labels =
      some (trace, final)) :
    DeliveryIterator.Live loader final ∧ DeliveryIterator.Windowed loader final := by
  have keeps : ∀ state label event next, (∃ here, state = .onCompletion here ∧
      Delivering loader.toProcessLoader keeps holds here) → True →
      (DeliveryIterator.machine loader).step state label = some (event, next) →
      ∃ after, next = .onCompletion after ∧
        Delivering loader.toProcessLoader keeps holds after := by
    rintro _ label event next ⟨here, rfl, holding⟩ _ stepEq
    have unrefused := holding.unrefused (fun _ _ position _ inside => fits position inside) label
    change DeliveryIterator.step loader (.onCompletion here) label = some (event, next) at stepEq
    simp only [DeliveryIterator.step, ProcessIterator.submit, unrefused] at stepEq
    obtain ⟨⟨yielded, after⟩, moved, same⟩ := Option.map_eq_some_iff.mp stepEq
    cases same
    exact ⟨after, rfl, (passes.step holding moved).kept⟩
  have kept := (DeliveryIterator.machine loader).run_invariant keeps ⟨iterator, rfl, delivering⟩
    ((DeliveryIterator.machine loader).along_true _ labels) reached
  obtain ⟨after, rfl, holding⟩ := kept
  exact holding.alive fits passes (ready after)

end Completion

/-! ### No dead state -/

section Dead

open DeliveryIterator

/-- What a loader accepts of a state: under in-order delivery there is no bitmap. -/
def Accepted (loader : CollatedLoader) (delivery : Delivery) (cursor : Nat)
    (bitmap : List UInt8) (state : DeliveredBatchState) : Prop :=
  restoreDelivered cursor bitmap loader.batching.count = .ok state ∧
    (delivery = .inOrder → bitmap = [])

/-- The batches of a restored state are batches of the epoch. -/
theorem restoreDelivered_inside {cursor totalBatches : Nat} {bitmap : List UInt8}
    {state : DeliveredBatchState}
    (restored : restoreDelivered cursor bitmap totalBatches = .ok state) :
    state.base = cursor ∧ cursor ≤ totalBatches ∧
      ∀ ordinal ∈ state.delivered, ordinal < totalBatches := by
  unfold restoreDelivered at restored
  split at restored
  · cases restored
  · rename_i ahead decoded
    cases restored
    obtain ⟨-, bound, inside⟩ := decodeDeliveredBitmap_ok decoded
    refine ⟨rfl, bound, fun ordinal member => ?_⟩
    rcases DeliveredBatchState.mem_delivered.mp member with before | beyond
    · exact Nat.lt_of_lt_of_le before bound
    · exact (inside ordinal beyond).2

/-- From every coordinate a loader accepts, every state reached has a batch ready for
delivery, a command in flight, or a command an empty transport takes, until the epoch is
delivered; unless a user collation does not fit the transport, or on-completion delivery of
a user collation resumes with a whole batch of samples ahead. -/
theorem no_dead_state (loader : CollatedLoader) (delivery : Delivery) {cursor : Nat}
    {bitmap : List UInt8} {state : DeliveredBatchState}
    (accepted : Accepted loader delivery cursor bitmap state) (fits : loader.Fits)
    (behind : delivery = .onCompletion → loader.userCollation = true →
      loader.batching.samples state.ahead < loader.sizing.width) :
    ∃ iterator, start loader delivery cursor bitmap = .ok iterator ∧
      ∀ labels trace final, (machine loader).run iterator labels = some (trace, final) →
        Live loader final ∧ Windowed loader final := by
  obtain ⟨restored, empty⟩ := accepted
  obtain ⟨base, bound, inside⟩ := restoreDelivered_inside restored
  cases delivery with
  | inOrder =>
      obtain ⟨iterator, startEq, ordered, -⟩ := OrderedIterator.start_spec loader bound
      refine ⟨.inOrder iterator, ?_, fun labels trace final reached => ?_⟩
      · rw [start, startEq]
        rfl
      · have keeps : ∀ state label event next, (∃ here done, state = .inOrder here ∧
            Ordered loader done here) → True →
            (machine loader).step state label = some (event, next) →
            ∃ after done, next = .inOrder after ∧ Ordered loader done after := by
          rintro _ label event next ⟨here, done, rfl, holding⟩ _ stepEq
          obtain ⟨⟨yielded, after⟩, moved, same⟩ := Option.map_eq_some_iff.mp stepEq
          cases same
          rcases (holding.step fits moved).outcome with ⟨-, kept⟩ | ⟨-, kept⟩
          · exact ⟨after, done, rfl, kept⟩
          · exact ⟨after, done + 1, rfl, kept⟩
        have kept := (machine loader).run_invariant keeps ⟨iterator, cursor, rfl, ordered⟩
          ((machine loader).along_true _ labels) reached
        obtain ⟨after, done, rfl, holding⟩ := kept
        exact ⟨holding.alive fits, trivial⟩
  | onCompletion =>
      have begin_ : ∀ (keeps : Finset Nat → List Nat → Finset Nat → Prop)
          (holds : DeliveredBatchState → Prop), keeps ∅ [] ∅ → holds state →
          ∃ iterator, ProcessIterator.start loader.toProcessLoader cursor bitmap = .ok iterator ∧
            Delivering loader.toProcessLoader keeps holds iterator := by
        intro keeps holds nothing holding
        obtain ⟨iterator, startEq, delivering, -⟩ :=
          ProcessIterator.start_spec loader.toProcessLoader inside nothing holding
        refine ⟨iterator, ?_, delivering⟩
        have canonical : restoreDelivered state.base state.bitmap loader.batching.count =
            .ok state := restoreDelivered_bitmap state inside
        rw [base] at startEq canonical
        rw [← startEq]
        unfold ProcessIterator.start
        show _ = _
        have same : restoreDelivered cursor bitmap
              ((loader.length + loader.sizing.width - 1) / loader.sizing.width) =
            restoreDelivered cursor state.bitmap
              ((loader.length + loader.sizing.width - 1) / loader.sizing.width) :=
          restored.trans canonical.symm
        simp only [same]
      by_cases collated : loader.userCollation = true
      · obtain ⟨iterator, startEq, delivering⟩ := begin_ (fun _ _ _ => True)
          (fun state => loader.batching.samples state.ahead < loader.sizing.width) trivial
          (behind rfl collated)
        refine ⟨.onCompletion iterator, ?_, fun labels trace final reached =>
          (collated_passes collated).run_alive fits (fun here frontier moves => ?_) delivering
            reached⟩
        · rw [start, startEq]
          rfl
        · rw [if_pos collated]
          rcases moves with ready | answered
          · left
            intro position _ _ own
            have single := perBatch_of_collated collated
            rw [single, Nat.div_one, Nat.div_one] at own
            exact own ▸ ready
          · right
            exact fun none => answered (List.append_eq_nil_iff.mp none).2
      · have plain : loader.userCollation = false := by simpa using collated
        obtain ⟨iterator, startEq, delivering⟩ := begin_ (Queued loader.toProcessLoader)
          (fun _ => True) (queued_nothing _) trivial
        refine ⟨.onCompletion iterator, ?_, fun labels trace final reached =>
          (plain_passes plain).run_alive fits (fun here frontier moves => ?_) delivering
            reached⟩
        · rw [start, startEq]
          rfl
        · rw [if_neg collated]
          rcases moves with ready | answered
          · exact Or.inl ready
          · exact Or.inr fun none => answered (List.append_eq_nil_iff.mp none).2

end Dead

section Example

open DeliveryIterator

/-- A user-collating loader of two batches of one sample, with one worker. -/
def collatedPair : CollatedLoader :=
  { length := 2
    sizing := ⟨some 1, none, none, 8, none⟩
    poolBatchSize := none
    userCollation := true
    workers := 1
    controllerWidth := 1
    growthMultiplier := 2
    sized := by decide
    batched := Or.inl rfl
    words := by decide
    depthWord := by decide
    ceilingWord := by decide
    spawned := Nat.one_pos
    controlled := by decide
    growing := by decide
    commandLength := fun _ => 64
    payloadCapacity := 262144 }

/-- The first batch is dispatched, answered, received, and refused. -/
def refusing : List ProcessIterator.Label :=
  [.fill [0] 1, .work ⟨0, 0⟩, .next [] 0, .next [] 0]

/-- Whether an iterator is closed before its epoch is delivered. -/
def closedEarly : DeliveryIterator → Bool
  | .inOrder iterator => decide (iterator.position < collatedPair.length) && !iterator.valid
  | .onCompletion iterator => decide (iterator.position < collatedPair.length) && !iterator.valid

theorem not_live_of_closedEarly {iterator : DeliveryIterator}
    (closed : closedEarly iterator = true) : ¬ Live collatedPair iterator := by
  cases iterator with
  | inOrder iterator | onCompletion iterator =>
      simp only [closedEarly, Bool.and_eq_true, decide_eq_true_eq] at closed
      intro live
      simp [(live closed.1).valid] at closed

/-- A resume with the second batch delivered ends in a state with nothing to go on with. -/
theorem resumed_collation_dead :
    ∃ state iterator trace final,
      Accepted collatedPair .onCompletion 0 [2] state ∧
      start collatedPair .onCompletion 0 [2] = .ok iterator ∧
      (machine collatedPair).run iterator refusing = some (trace, final) ∧
      ¬ Live collatedPair final := by
  have accepted : (restoreDelivered 0 [2] collatedPair.batching.count).isOk = true := by
    decide +kernel
  have evaluated : ((start collatedPair .onCompletion 0 [2]).toOption.bind fun iterator =>
      ((machine collatedPair).run iterator refusing).map fun reached =>
        closedEarly reached.2) = some true := by
    decide +kernel
  obtain ⟨state, restored⟩ : ∃ state,
      restoreDelivered 0 [2] collatedPair.batching.count = .ok state := by
    cases outcome : restoreDelivered 0 [2] collatedPair.batching.count with
    | error failure => rw [outcome] at accepted; cases accepted
    | ok state => exact ⟨state, rfl⟩
  cases started : start collatedPair .onCompletion 0 [2] with
  | error failure =>
      rw [started] at evaluated
      cases evaluated
  | ok iterator =>
      rw [started] at evaluated
      obtain ⟨⟨trace, final⟩, reached, closed⟩ := Option.map_eq_some_iff.mp evaluated
      exact ⟨state, iterator, trace, final, ⟨restored, nofun⟩, rfl, reached,
        not_live_of_closedEarly closed⟩

/-- From the beginning of its epoch the same loader can always go on. -/
theorem no_dead_state_pair :
    ∃ iterator, start collatedPair .onCompletion 0 [] = .ok iterator ∧
      ∀ labels trace final, (machine collatedPair).run iterator labels = some (trace, final) →
        Live collatedPair final ∧ Windowed collatedPair final := by
  have restored : restoreDelivered 0 [] collatedPair.batching.count =
      .ok DeliveredBatchState.new :=
    restoreDelivered_bitmap .new fun _ member => absurd member (Finset.notMem_empty _)
  have fits : collatedPair.Fits := fun _ _ =>
    if_neg fun both => absurd both.2 (show ¬ 262144 < 64 by decide)
  exact no_dead_state collatedPair .onCompletion ⟨restored, nofun⟩ fits fun _ _ => by decide

end Example

end Hyperloader.Process
