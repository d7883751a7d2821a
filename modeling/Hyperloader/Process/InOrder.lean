/-
Module: Hyperloader.Process.InOrder
Purpose: The process iterator under in-order delivery, process/iterator.py: samples, batches
  a worker evaluates whole, and user-collated batches, committed in sampler order, with the
  user collations whose command does not fit the transport.
Trusted boundary: a worker that takes a command answers it with a value.
Main exports:
  CollatedLoader, Frontier.refused, OrderedIterator, OrderedIterator.machine, Ordered,
  OrderedIterator.start_spec
-/
import Hyperloader.Foundations.Procession
import Hyperloader.Process.Resume

namespace Hyperloader.Process

open Foundations Schedule Schedule.Native
open State Distributed

/-! ### Commands that do not fit -/

/-- A process loader with the bytes of its pickled user-collation commands, and the bytes
of a payload slot. -/
structure CollatedLoader extends ProcessLoader where
  commandLength : Nat → Nat
  payloadCapacity : Nat

namespace CollatedLoader

variable (loader : CollatedLoader)

def TOO_LONG (length capacity : Nat) : String :=
  s!"command payload is {length} bytes but capacity is {capacity} bytes"

/-- What `try_submit_command` raises for a command. -/
def refusal (position : Nat) : Option Raised :=
  if loader.userCollation ∧ loader.payloadCapacity < loader.commandLength position then
    some (.valueError (TOO_LONG (loader.commandLength position) loader.payloadCapacity))
  else none

/-- Every command of the epoch fits its slot. -/
def Fits : Prop := ∀ position < loader.scheduleLength, loader.refusal position = none

theorem fits_of_plain (plain : loader.userCollation = false) : loader.Fits := by
  intro position _
  rw [refusal, plain]
  exact if_neg fun both => nomatch both.1

end CollatedLoader

/-- What the dispatches of `_fill_frontier` raise: the refusal of the first command they
reach. -/
def Frontier.refused (refusal : Nat → Option Raised) : List Nat → Nat → Frontier → Option Raised
  | [], _, _ => none
  | selected :: order, room, frontier =>
      match frontier.schedule.dispatchAt selected with
      | none => refused refusal order room frontier
      | some dispatch =>
          match refusal dispatch.position, room with
          | some failure, _ => some failure
          | none, 0 => none
          | none, room + 1 =>
              match frontier.schedule.markDispatched dispatch with
              | some (.ok (), schedule) =>
                  refused refusal order room
                    { frontier with
                      schedule := schedule
                      running := frontier.running ++ [dispatch] }
              | _ => none

variable {refusal : Nat → Option Raised} {frontier : Frontier}

/-- Where every command still to be sent fits, nothing is refused. -/
theorem Linked.unrefused {start stop workers : Nat} (linked : Linked start stop workers frontier)
    (fits : ∀ position, ¬ frontier.Committed position → position < stop →
      refusal position = none) (order : List Nat) (room : Nat) :
    frontier.refused refusal order room = none := by
  induction order generalizing room frontier with
  | nil => rfl
  | cons selected order ih =>
      rw [Frontier.refused]
      cases eligible : frontier.schedule.dispatchAt selected with
      | none => exact ih linked fits room
      | some dispatch =>
          obtain ⟨same, low, below, -, fresh⟩ := dispatchAt_eq_some eligible
          have inside : dispatch.position < stop := by
            have stops := stop_le frontier.schedule
            have ends := linked.framed.endPosition
            omega
          have uncommitted : ¬ frontier.Committed dispatch.position := by
            rw [same]
            rintro (before | beyond)
            · exact Nat.not_le.mpr before low
            · exact fresh beyond
          simp only [fits dispatch.position uncommitted inside]
          cases room with
          | zero => rfl
          | succ room =>
              obtain ⟨schedule, marked, admitted, filled, -⟩ := linked.markDispatched eligible
              simp only [marked]
              refine ih admitted (fun position open_ => fits position ?_) room
              intro committed
              apply open_
              rw [Frontier.Committed, filled.nextCommit, filled.delivered]
              exact committed

theorem Frontier.refused_of_fits {stop : Nat} (fits : ∀ position < stop, refusal position = none)
    (order : List Nat) (room : Nat) {start workers : Nat}
    (linked : Linked start stop workers frontier) : frontier.refused refusal order room = none :=
  linked.unrefused (fun position _ inside => fits position inside) order room

/-! ### The iterator -/

/-- `ProcessIterator` of an in-order loader.  `samples` are the positions whose values the
batch being assembled has. -/
structure OrderedIterator where
  position : Nat
  samples : List Nat
  complete : Bool
  valid : Bool
  delivered : DeliveredBatchState
  frontier : Option Frontier

namespace OrderedIterator

variable (loader : CollatedLoader)

/-- `ProcessIterator.__init__`, up to the first dispatch; in-order delivery restores no
batches beyond the cursor. -/
def start (cursor : Nat) : Except Raised OrderedIterator := do
  let iterator ← ProcessIterator.start loader.toProcessLoader cursor []
  .ok
    { position := iterator.position
      samples := []
      complete := iterator.complete
      valid := iterator.valid
      delivered := iterator.delivered
      frontier := iterator.frontier }

/-- `delivered_batches` -/
def deliveredBatches (iterator : OrderedIterator) : Nat :=
  (iterator.position + loader.sizing.width - 1) / loader.sizing.width

/-- The schedule position that is committed next. -/
def expected (iterator : OrderedIterator) : Nat :=
  match loader.transportBatchSize with
  | none => iterator.position + iterator.samples.length
  | some size => iterator.position / size

/-- `_poll_completions` over the workers given: whether one had a completion. -/
def poll : List Nat → Frontier → Except Raised (Bool × Frontier)
  | [], frontier => .ok (false, frontier)
  | worker :: workers, frontier =>
      match frontier.receive worker with
      | .error failure => .error failure
      | .ok (none, frontier) => poll workers frontier
      | .ok (some _, frontier) =>
          match poll workers frontier with
          | .error failure => .error failure
          | .ok (_, frontier) => .ok (true, frontier)

/-- `loader.close()` before the exception is raised again. -/
def fail (iterator : OrderedIterator) (failure : Raised) : Yield × OrderedIterator :=
  (.raised failure, { iterator with valid := false })

/-- Wait for completions: poll, or record a wait. -/
def await (iterator : OrderedIterator) (frontier : Frontier) : Yield × OrderedIterator :=
  match poll (List.range loader.workers) frontier with
  | .error failure => iterator.fail failure
  | .ok (true, frontier) => (.quiet, { iterator with frontier := some frontier })
  | .ok (false, frontier) =>
      match frontier.recordWait with
      | .error failure => iterator.fail failure
      | .ok frontier => (.waiting, { iterator with frontier := some frontier })

/-- The delivery of the batch whose samples are there; only a user collation is marked. -/
def deliver (iterator : OrderedIterator) (samples : List Nat) (stop : Nat)
    (frontier : Frontier) : Yield × OrderedIterator :=
  let after : OrderedIterator :=
    { iterator with position := stop, samples := [], frontier := some frontier }
  if loader.userCollation then
    match iterator.delivered.mark (iterator.position / loader.sizing.width) with
    | .error failure => iterator.fail failure
    | .ok delivered => (.delivered samples, { after with delivered := delivered })
  else (.delivered samples, after)

/-- One pass of `_next_completion` behind the dispatches: commit the next position, which
may complete the batch, or wait. -/
def nextCompletion (iterator : OrderedIterator) (frontier : Frontier) :
    Yield × OrderedIterator :=
  let stop := min (iterator.position + loader.sizing.width) loader.length
  match frontier.commitNext (iterator.expected loader) with
  | .error failure => iterator.fail failure
  | .ok none => await loader iterator frontier
  | .ok (some frontier) =>
      let samples := iterator.samples ++ loader.command (iterator.expected loader)
      if samples.length < stop - iterator.position then
        (.quiet, { iterator with samples := samples, frontier := some frontier })
      else deliver loader iterator samples stop frontier

/-- One pass of `__next__`. -/
def next (iterator : OrderedIterator) (order : List Nat) (room : Nat) :
    Option (Yield × OrderedIterator) :=
  if !iterator.valid then
    some (.raised (.runtimeError ProcessIterator.INACTIVE), iterator)
  else if loader.length ≤ iterator.position then
    some (.exhausted, { iterator with complete := true })
  else
    match iterator.frontier with
    | none => none
    | some frontier =>
        if order.Perm frontier.schedule.dispatchCandidates then
          match frontier.refused loader.refusal order room, frontier.fill order room with
          | some failure, _ => some (iterator.fail failure)
          | none, .error failure => some (iterator.fail failure)
          | none, .ok frontier => some (nextCompletion loader iterator frontier)
        else none

def step (iterator : OrderedIterator) :
    ProcessIterator.Label → Option (Yield × OrderedIterator)
  | .next order room => next loader iterator order room
  | .fill order room =>
      match iterator.frontier with
      | none => none
      | some frontier =>
          if iterator.valid ∧ order.Perm frontier.schedule.dispatchCandidates then
            match frontier.refused loader.refusal order room, frontier.fill order room with
            | some failure, _ => some (iterator.fail failure)
            | none, .error failure => some (iterator.fail failure)
            | none, .ok frontier => some (.quiet, { iterator with frontier := some frontier })
          else none
  | .work dispatch =>
      match iterator.frontier with
      | none => none
      | some frontier =>
          (frontier.work dispatch).map fun frontier =>
            (.quiet, { iterator with frontier := some frontier })
  | .adapt width =>
      match iterator.frontier with
      | none => none
      | some frontier =>
          if iterator.valid ∧ 0 < width ∧ width ≤ loader.workers then
            match frontier.adapt width with
            | .error failure => some (iterator.fail failure)
            | .ok frontier => some (.quiet, { iterator with frontier := some frontier })
          else none

def machine : Machine OrderedIterator ProcessIterator.Label Yield where
  step := step loader

end OrderedIterator

/-! ### The order of delivery -/

/-- The iterator has delivered `done` batches, and of the next one it has the samples taken:
the frontier has committed exactly the positions before the next one. -/
structure Ordered (loader : CollatedLoader) (done : Nat) (iterator : OrderedIterator) :
    Prop where
  valid : iterator.valid = true
  counted : done ≤ loader.batching.count
  position : iterator.position = min loader.length (done * loader.sizing.width)
  marked : loader.userCollation = true → iterator.delivered.base = done ∧
    iterator.delivered.ahead = ∅
  taken : iterator.samples =
    List.range' (done * loader.sizing.width) iterator.samples.length
  short : done < loader.batching.count → iterator.samples.length < loader.grid.size done
  linked : ∀ frontier, iterator.frontier = some frontier →
    ∃ start, Linked start loader.scheduleLength loader.workers frontier
  open_ : done < loader.batching.count → ∃ frontier, iterator.frontier = some frontier ∧
    (∀ position, frontier.Committed position ↔
      position < done * loader.perBatch + iterator.samples.length) ∧
    loader.perBatch ≤ frontier.depth

/-! ### Passes -/

section Passes

variable {start stop workers : Nat} {frontier after : Frontier}

/-- A frontier that has committed exactly the positions below `head` commits `head` next. -/
theorem Linked.nextCommit_eq (linked : Linked start stop workers frontier) {head : Nat}
    (committed : ∀ position, frontier.Committed position ↔ position < head) :
    frontier.schedule.nextCommit = head := by
  have open_ : ¬ frontier.Committed frontier.schedule.nextCommit := by
    rintro (below | beyond)
    · exact Nat.lt_irrefl _ below
    · exact linked.framed.not_delivered_nextCommit beyond
  apply Nat.le_antisymm
  · by_contra above
    exact Nat.lt_irrefl head ((committed head).mp (Or.inl (Nat.lt_of_not_le above)))
  · by_contra below
    exact open_ ((committed _).mpr (Nat.lt_of_not_le below))

/-- A position whose payload waits is in the range and not committed. -/
theorem Linked.held (linked : Linked start stop workers frontier) {position : Nat}
    (ready : position ∈ frontier.ready) : position < stop ∧ ¬ frontier.Committed position := by
  obtain ⟨worker, found⟩ := (linked.received position).mp ready
  obtain ⟨low, high, fresh⟩ := linked.framed.active position (mem_of_lookup found)
  have ends := linked.framed.endPosition
  refine ⟨by omega, ?_⟩
  rintro (below | beyond)
  · omega
  · exact fresh beyond

/-- Committing a position takes it from those that remain. -/
theorem Popped.remaining {position : Nat} (popped : Popped position frontier after)
    (linked : Linked start stop workers frontier) :
    after.remaining stop < frontier.remaining stop := by
  obtain ⟨inside, uncommitted⟩ := linked.held popped.held
  have gone : after.weight position = 0 :=
    if_pos ((popped.committed position).mpr (Or.inr rfl))
  have waiting : frontier.weight position = 1 :=
    Frontier.weight_ready uncommitted popped.held
  refine remaining_lt (fun other _ => ?_) inside (by rw [gone, waiting]; decide)
  by_cases same : other = position
  · rw [same, gone]
    exact Nat.zero_le _
  · have open_ : after.Committed other ↔ frontier.Committed other := by
      rw [popped.committed]
      exact or_iff_left same
    have kept : other ∈ after.ready ↔ other ∈ frontier.ready := by
      rw [popped.ready, Finset.mem_erase]
      exact and_iff_right same
    simp only [Frontier.Committed] at open_
    simp only [Frontier.weight, open_, kept, popped.running, popped.finished]
    exact Nat.le_refl _

/-- What polling and waiting leave of a frontier: nothing is committed by them. -/
structure Waited (before after : Frontier) : Prop where
  committed : ∀ position, after.Committed position ↔ before.Committed position
  deeper : before.depth ≤ after.depth

theorem Waited.refl (frontier : Frontier) : Waited frontier frontier :=
  ⟨fun _ => Iff.rfl, Nat.le_refl _⟩

theorem Waited.trans {one two three : Frontier} (first : Waited one two)
    (second : Waited two three) : Waited one three :=
  ⟨fun position => (second.committed position).trans (first.committed position),
    Nat.le_trans first.deeper second.deeper⟩

theorem Filled.waited (same : Filled frontier after) : Waited frontier after := by
  refine ⟨fun position => ?_, Nat.le_of_eq same.depth.symm⟩
  rw [Frontier.Committed, Frontier.Committed, same.nextCommit, same.delivered]

theorem Still.waited (same : Still frontier after) : Waited frontier after := by
  refine ⟨fun position => ?_, same.deeper⟩
  rw [Frontier.Committed, Frontier.Committed, same.nextCommit, same.delivered]

theorem Arrived.waited {dispatch : Dispatch} (arrival : Arrived dispatch frontier after) :
    Waited frontier after := by
  refine ⟨fun position => ?_, Nat.le_of_eq arrival.depth.symm⟩
  rw [Frontier.Committed, Frontier.Committed, arrival.nextCommit, arrival.delivered]

/-- Polling receives from every worker that has answered. -/
theorem poll_spec (linked : Linked start stop workers frontier) (polled : List Nat) :
    ∃ came after, OrderedIterator.poll polled frontier = .ok (came, after) ∧
      Linked start stop workers after ∧ Waited frontier after ∧
      after.remaining stop ≤ frontier.remaining stop ∧
      (came = true → after.remaining stop < frontier.remaining stop) ∧
      (came = false → ∀ dispatch ∈ frontier.finished, dispatch.worker ∉ polled) := by
  induction polled generalizing frontier with
  | nil =>
      exact ⟨false, frontier, rfl, linked, .refl frontier, Nat.le_refl _, nofun,
        fun _ _ _ => List.not_mem_nil⟩
  | cons worker polled ih =>
      rcases linked.receive worker with ⟨nothing, clear⟩ | ⟨dispatch, next, came, kept, arrival⟩
      · obtain ⟨came, after, pollEq, last, waited, less, strictly, quiet⟩ :=
          ih linked
        refine ⟨came, after, ?_, last, waited, less, strictly, fun none dispatch member => ?_⟩
        · rw [OrderedIterator.poll, nothing]
          exact pollEq
        · rw [List.mem_cons, not_or]
          exact ⟨clear dispatch member, quiet none dispatch member⟩
      · obtain ⟨more, after, pollEq, last, waited, less, -, -⟩ := ih kept
        have nearer := linked.arrived_remaining arrival
        refine ⟨true, after, ?_, last, arrival.waited.trans waited,
          Nat.le_trans less (Nat.le_of_lt nearer), fun _ => Nat.lt_of_le_of_lt less nearer,
          nofun⟩
        rw [OrderedIterator.poll, came]
        simp only [pollEq]

end Passes

section Steps

variable {loader : CollatedLoader} {done : Nat} {iterator : OrderedIterator}
  {frontier after : Frontier}

/-- The iterator stands at the next commit of its frontier. -/
theorem Ordered.expected (ordered : Ordered loader done iterator)
    (early : done < loader.batching.count) :
    iterator.expected loader = done * loader.perBatch + iterator.samples.length ∧
      iterator.position = done * loader.sizing.width := by
  have low : done * loader.sizing.width < loader.length := Batching.lt_count_iff.mp early
  have position : iterator.position = done * loader.sizing.width :=
    ordered.position.trans (Nat.min_eq_right (Nat.le_of_lt low))
  refine ⟨?_, position⟩
  rw [OrderedIterator.expected]
  cases transport : loader.transportBatchSize with
  | none =>
      dsimp only
      rw [position, ProcessLoader.perBatch, transport]
  | some size =>
      have width := ProcessLoader.width_of_transport transport
      have positive := loader.width_pos
      have short := ordered.short early
      have single : loader.grid.size done ≤ 1 := by
        show min loader.perBatch _ ≤ 1
        rw [ProcessLoader.perBatch_of_transport transport]
        exact Nat.min_le_left _ _
      dsimp only
      rw [position, ProcessLoader.perBatch_of_transport transport, ← width,
        Nat.mul_div_cancel _ positive]
      omega

/-- A step of the frontier that commits nothing. -/
theorem Ordered.refront (ordered : Ordered loader done iterator)
    (here : iterator.frontier = some frontier) {start : Nat}
    (linked : Linked start loader.scheduleLength loader.workers after)
    (waited : Waited frontier after) :
    Ordered loader done { iterator with frontier := some after } := by
  refine ⟨ordered.valid, ordered.counted, ordered.position, ordered.marked, ordered.taken,
    ordered.short, fun other same => Option.some.inj same ▸ ⟨start, linked⟩, fun early => ?_⟩
  obtain ⟨old, same, committed, deep⟩ := ordered.open_ early
  obtain rfl := Option.some.inj (here.symm.trans same)
  exact ⟨after, rfl, fun position => (waited.committed position).trans (committed position),
    Nat.le_trans deep waited.deeper⟩

/-- What one step of the iterator does. -/
structure Turned (loader : CollatedLoader) (done : Nat) (event : Yield)
    (after : OrderedIterator) : Prop where
  sound : ¬ event.Failed
  outcome : (event.batch = none ∧ Ordered loader done after) ∨
    (event = .delivered (loader.batching.batch done) ∧ Ordered loader (done + 1) after)
  ended : event.Finished → done = loader.batching.count

theorem Turned.silent {event : Yield} {after : OrderedIterator}
    (silent : event = .quiet ∨ event = .waiting) (ordered : Ordered loader done after) :
    Turned loader done event after := by
  rcases silent with rfl | rfl
  · exact ⟨fun failed => failed, Or.inl ⟨rfl, ordered⟩, fun ended => False.elim ended⟩
  · exact ⟨fun failed => failed, Or.inl ⟨rfl, ordered⟩, fun ended => False.elim ended⟩

/-- Waiting behind the dispatches. -/
theorem Ordered.await (ordered : Ordered loader done iterator) {before : Frontier}
    (here : iterator.frontier = some before) {start : Nat}
    (linked : Linked start loader.scheduleLength loader.workers frontier)
    (waited : Waited before frontier) :
    ∃ event after, OrderedIterator.await loader iterator frontier = (event, after) ∧
      Turned loader done event after ∧ ∃ next, after.frontier = some next ∧
        next.remaining loader.scheduleLength ≤ frontier.remaining loader.scheduleLength ∧
        (frontier.finished ≠ [] → next.remaining loader.scheduleLength <
          frontier.remaining loader.scheduleLength) := by
  obtain ⟨came, polled, pollEq, kept, still, less, strictly, quiet⟩ :=
    poll_spec linked (List.range loader.workers)
  rw [OrderedIterator.await, pollEq]
  cases came with
  | true =>
      exact ⟨.quiet, _, rfl, .silent (Or.inl rfl) (ordered.refront here kept
        (waited.trans still)), polled, rfl, less, fun _ => strictly rfl⟩
  | false =>
      obtain ⟨grown, growEq, deeper, same⟩ := kept.recordWait
      refine ⟨.waiting, { iterator with frontier := some grown }, ?_,
        .silent (Or.inr rfl) (ordered.refront here deeper
          (waited.trans (still.trans same.waited))), grown, rfl, ?_, fun answered => ?_⟩
      · simp only [growEq]
      · rw [same.remaining]
        exact less
      · obtain ⟨dispatch, member⟩ := List.exists_mem_of_ne_nil _ answered
        have known := linked.known dispatch (List.mem_append_right _ member)
        exact absurd (List.mem_range.mpr known) (quiet rfl dispatch member)

/-- The samples of a batch, once the command of its last schedule position is there. -/
theorem Ordered.whole (ordered : Ordered loader done iterator)
    (early : done < loader.batching.count) :
    (iterator.samples.length + 1 < loader.grid.size done →
      iterator.samples ++ loader.command (iterator.expected loader) =
          List.range' (done * loader.sizing.width) (iterator.samples.length + 1) ∧
        iterator.samples.length + 1 < loader.batching.size done) ∧
    (loader.grid.size done ≤ iterator.samples.length + 1 →
      iterator.samples ++ loader.command (iterator.expected loader) =
        loader.batching.batch done) := by
  obtain ⟨named, -⟩ := ordered.expected early
  have short := ordered.short early
  cases transport : loader.transportBatchSize with
  | none =>
      have grid := ProcessLoader.grid_of_samples transport
      have command : loader.command (iterator.expected loader) =
          [done * loader.sizing.width + iterator.samples.length] := by
        rw [ProcessLoader.command, transport, named, ProcessLoader.perBatch, transport]
      have grown : iterator.samples ++ loader.command (iterator.expected loader) =
          List.range' (done * loader.sizing.width) (iterator.samples.length + 1) := by
        have next : List.range' (done * loader.sizing.width) (iterator.samples.length + 1) =
            List.range' (done * loader.sizing.width) iterator.samples.length ++
              [done * loader.sizing.width + iterator.samples.length] := by
          rw [List.range'_concat, Nat.one_mul]
        rw [command, next, ← ordered.taken]
      rw [grid] at short ⊢
      refine ⟨fun more => ⟨grown, more⟩, fun last => ?_⟩
      have exactly : iterator.samples.length + 1 = loader.batching.size done := by omega
      rw [grown, exactly]
      rfl
  | some size =>
      have one : loader.grid.size done ≤ 1 := by
        show min loader.perBatch _ ≤ 1
        rw [ProcessLoader.perBatch_of_transport transport]
        exact Nat.min_le_left _ _
      have none : iterator.samples = [] := List.eq_nil_of_length_eq_zero (by omega)
      refine ⟨fun more => absurd more (by omega), fun _ => ?_⟩
      have alone := ProcessLoader.flatMap_command early
      rw [ProcessLoader.grid_batch_of_transport transport early, List.flatMap_singleton] at alone
      rw [named, none, ProcessLoader.perBatch_of_transport transport, List.nil_append,
        List.length_nil, Nat.mul_one, Nat.add_zero]
      exact alone

/-- Marking the batch that is due, with nothing delivered beyond it. -/
theorem mark_due {state : DeliveredBatchState} (base : state.base = done)
    (ahead : state.ahead = ∅) :
    ∃ marked, state.mark done = .ok marked ∧ marked.base = done + 1 ∧ marked.ahead = ∅ := by
  have fresh : done ∉ state.delivered := base ▸ DeliveredBatchState.base_notMem
  obtain ⟨marked, markEq⟩ := DeliveredBatchState.exists_mark fresh
  have grown := (DeliveredBatchState.delivered_of_mark markEq).2
  have members : ∀ ordinal, ordinal ∈ marked.delivered ↔ ordinal < done + 1 := by
    intro ordinal
    rw [grown, Finset.mem_insert, DeliveredBatchState.mem_delivered, ahead, base]
    have empty := Finset.notMem_empty ordinal
    simp only [empty, or_false]
    omega
  have above : ¬ marked.base < done + 1 := fun less =>
    DeliveredBatchState.base_notMem ((members _).mpr less)
  have below : ¬ done + 1 < marked.base := fun less =>
    Nat.lt_irrefl _ ((members _).mp (DeliveredBatchState.mem_delivered.mpr (Or.inl less)))
  refine ⟨marked, markEq, by omega, ?_⟩
  apply Finset.eq_empty_of_forall_notMem
  intro ordinal member
  have beyond := marked.beyond ordinal member
  have inside := (members ordinal).mp (DeliveredBatchState.mem_delivered.mpr (Or.inr member))
  omega

/-- The next position is committed behind the dispatches. -/
theorem Ordered.commit (ordered : Ordered loader done iterator)
    (early : done < loader.batching.count) {start : Nat}
    (committed : ∀ position, frontier.Committed position ↔
      position < done * loader.perBatch + iterator.samples.length)
    (deep : loader.perBatch ≤ frontier.depth)
    (popped : Popped (iterator.expected loader) frontier after)
    (kept : Linked start loader.scheduleLength loader.workers after)
    (commitEq : frontier.commitNext (iterator.expected loader) = .ok (some after)) :
    ∃ event state, OrderedIterator.nextCompletion loader iterator frontier = (event, state) ∧
      Turned loader done event state ∧ state.frontier = some after := by
  obtain ⟨named, position⟩ := ordered.expected early
  obtain ⟨further, last⟩ := ordered.whole early
  have low : done * loader.sizing.width < loader.length := Batching.lt_count_iff.mp early
  have size : min (iterator.position + loader.sizing.width) loader.length -
      iterator.position = loader.batching.size done := by
    show _ = min loader.sizing.width (loader.length - done * loader.sizing.width)
    omega
  have next : ∀ other, after.Committed other ↔
      other < done * loader.perBatch + iterator.samples.length + 1 := by
    intro other
    rw [popped.committed, committed, named]
    omega
  have behind : iterator.samples.length < loader.grid.size done := ordered.short early
  by_cases more : iterator.samples.length + 1 < loader.grid.size done
  · obtain ⟨grown, unfinished⟩ := further more
    have length : (iterator.samples ++ loader.command (iterator.expected loader)).length =
        iterator.samples.length + 1 := by rw [grown, List.length_range']
    refine ⟨.quiet, { iterator with
        samples := iterator.samples ++ loader.command (iterator.expected loader)
        frontier := some after }, ?_, .silent (Or.inl rfl) ?_, rfl⟩
    · rw [OrderedIterator.nextCompletion]
      simp only [commitEq, size, length, if_pos unfinished]
    · refine ⟨ordered.valid, ordered.counted, ordered.position, ordered.marked, ?_,
        fun _ => length ▸ more, fun other same => Option.some.inj same ▸ ⟨start, kept⟩,
        fun _ => ⟨after, rfl, fun other => ?_, popped.depth ▸ deep⟩⟩
      · show iterator.samples ++ _ = List.range' _ (iterator.samples ++ _).length
        rw [length]
        exact grown
      · show after.Committed other ↔ other < _ + (iterator.samples ++ _).length
        rw [length]
        exact next other
  · have all := last (Nat.le_of_not_lt more)
    have length : (iterator.samples ++ loader.command (iterator.expected loader)).length =
        loader.batching.size done := by rw [all, Batching.length_batch]
    have spent : ¬ (iterator.samples ++ loader.command (iterator.expected loader)).length <
        min (iterator.position + loader.sizing.width) loader.length - iterator.position := by
      rw [size, length]
      exact Nat.lt_irrefl _
    have stop : min (iterator.position + loader.sizing.width) loader.length =
        min loader.length ((done + 1) * loader.sizing.width) := by
      rw [position, Nat.min_comm, Nat.succ_mul]
    -- the next batch begins where the commits have come to
    have head : done + 1 < loader.batching.count →
        done * loader.perBatch + iterator.samples.length + 1 =
          (done + 1) * loader.perBatch := by
      intro later
      rw [← ProcessLoader.grid_count, Batching.lt_count_iff] at later
      have within : (done + 1) * loader.perBatch < loader.grid.length := later
      have full : loader.grid.size done =
          min loader.perBatch (loader.grid.length - done * loader.perBatch) := rfl
      rw [Nat.succ_mul] at within ⊢
      omega
    have advanced : ∀ state : OrderedIterator, state.valid = true →
        state.position = min (iterator.position + loader.sizing.width) loader.length →
        state.samples = [] → state.frontier = some after →
        (loader.userCollation = true → state.delivered.base = done + 1 ∧
          state.delivered.ahead = ∅) →
        Ordered loader (done + 1) state := by
      intro state valid moved empty front marked
      refine ⟨valid, early, moved.trans stop, marked, ?_, fun later => ?_, fun other same => ?_,
        fun later => ⟨after, front, fun other => ?_, popped.depth ▸ deep⟩⟩
      · rw [empty]
        rfl
      · rw [empty]
        rw [← ProcessLoader.grid_count] at later
        exact Batching.size_pos_iff.mpr later
      · exact Option.some.inj (front.symm.trans same) ▸ ⟨start, kept⟩
      · rw [next other, head later, empty]
        exact Iff.rfl
    by_cases collated : loader.userCollation = true
    · obtain ⟨base, ahead⟩ := ordered.marked collated
      have ordinal : iterator.position / loader.sizing.width = done := by
        rw [position, Nat.mul_div_cancel _ loader.width_pos]
      obtain ⟨marked, markEq, nextBase, nextAhead⟩ := mark_due base ahead
      refine ⟨.delivered (loader.batching.batch done),
        { iterator with
          position := min (iterator.position + loader.sizing.width) loader.length
          samples := []
          frontier := some after
          delivered := marked }, ?_, ⟨fun failed => failed, Or.inr ⟨rfl, ?_⟩,
        fun ended => False.elim ended⟩, rfl⟩
      · rw [OrderedIterator.nextCompletion, commitEq]
        dsimp only
        rw [if_neg spent, all, OrderedIterator.deliver]
        simp only [collated, if_true, ordinal, markEq]
      · exact advanced _ ordered.valid rfl rfl rfl fun _ => ⟨nextBase, nextAhead⟩
    · refine ⟨.delivered (loader.batching.batch done),
        { iterator with
          position := min (iterator.position + loader.sizing.width) loader.length
          samples := []
          frontier := some after }, ?_, ⟨fun failed => failed, Or.inr ⟨rfl, ?_⟩,
        fun ended => False.elim ended⟩, rfl⟩
      · rw [OrderedIterator.nextCompletion, commitEq]
        dsimp only
        rw [if_neg spent, all, OrderedIterator.deliver]
        simp only [if_neg collated]
      · exact advanced _ ordered.valid rfl rfl rfl fun yes => absurd yes collated

variable (fits : loader.Fits)

include fits

/-- One pass of the consumer. -/
theorem Ordered.pass (ordered : Ordered loader done iterator) (early : done < loader.batching.count)
    (here : iterator.frontier = some frontier) {order : List Nat}
    (ordering : order.Perm frontier.schedule.dispatchCandidates) (room : Nat) :
    ∃ event state, OrderedIterator.next loader iterator order room = some (event, state) ∧
      Turned loader done event state ∧ ∃ next, state.frontier = some next ∧
        (frontier.schedule.nextCommit ∈ frontier.ready ∨ frontier.finished ≠ [] →
          next.remaining loader.scheduleLength < frontier.remaining loader.scheduleLength) := by
  obtain ⟨_, same, committed, deep⟩ := ordered.open_ early
  obtain rfl := Option.some.inj (here.symm.trans same)
  obtain ⟨start, linked⟩ := ordered.linked _ here
  obtain ⟨filled, fillEq, kept, filling⟩ := linked.fill order room
  have unrefused := Frontier.refused_of_fits fits order room linked
  have low : done * loader.sizing.width < loader.length := Batching.lt_count_iff.mp early
  have notLate : ¬ loader.length ≤ iterator.position := by
    rw [(ordered.expected early).2]
    exact Nat.not_le.mpr low
  have nextEq : OrderedIterator.next loader iterator order room =
      some (OrderedIterator.nextCompletion loader iterator filled) := by
    simp only [OrderedIterator.next, ordered.valid, Bool.not_true, Bool.false_eq_true, if_false,
      if_neg notLate, here, if_pos ordering, unrefused, fillEq]
  have lighter : filled.remaining loader.scheduleLength ≤
      frontier.remaining loader.scheduleLength :=
    remaining_le fun position _ => filling.weight_le position
  have now : ∀ position, filled.Committed position ↔
      position < done * loader.perBatch + iterator.samples.length := fun position =>
    (filling.waited.committed position).trans (committed position)
  have head : filled.schedule.nextCommit = iterator.expected loader :=
    (kept.nextCommit_eq now).trans (ordered.expected early).1.symm
  rw [nextEq]
  rcases kept.commitNext (iterator.expected loader) with
    ⟨unready, commitEq⟩ | ⟨-, different, -⟩ | ⟨-, after, commitEq, last, popped⟩
  · obtain ⟨event, state, awaitEq, turned, next, front, less, strictly⟩ :=
      ordered.await here kept filling.waited
    refine ⟨event, state, ?_, turned, next, front, fun moves => ?_⟩
    · rw [OrderedIterator.nextCompletion, commitEq]
      exact congrArg some awaitEq
    · have answered : filled.finished ≠ [] := by
        rw [filling.finished]
        refine moves.resolve_left fun ready => unready ?_
        rw [filling.nextCommit, filling.ready]
        exact ready
      exact Nat.lt_of_lt_of_le (strictly answered) lighter
  · exact absurd head different
  · obtain ⟨event, state, passEq, turned, front⟩ :=
      ordered.commit early now (filling.depth.symm ▸ deep) popped last commitEq
    exact ⟨event, state, congrArg some passEq, turned, after, front, fun _ =>
      Nat.lt_of_lt_of_le (popped.remaining kept) lighter⟩

/-- Every step keeps the order of delivery. -/
theorem Ordered.step (ordered : Ordered loader done iterator) {label : ProcessIterator.Label}
    {event : Yield} {state : OrderedIterator}
    (stepEq : OrderedIterator.step loader iterator label = some (event, state)) :
    Turned loader done event state := by
  cases label with
  | next order room =>
      by_cases early : done < loader.batching.count
      · obtain ⟨frontier, here, -⟩ := ordered.open_ early
        by_cases ordering : order.Perm frontier.schedule.dispatchCandidates
        · obtain ⟨_, _, nextEq, turned, -⟩ := ordered.pass fits early here ordering room
          obtain ⟨rfl, rfl⟩ := Prod.mk.inj (Option.some.inj (nextEq.symm.trans stepEq))
          exact turned
        · have low : done * loader.sizing.width < loader.length := Batching.lt_count_iff.mp early
          have notLate : ¬ loader.length ≤ iterator.position := by
            rw [(ordered.expected early).2]
            exact Nat.not_le.mpr low
          simp only [OrderedIterator.step, OrderedIterator.next, ordered.valid, Bool.not_true,
            Bool.false_eq_true, if_false, if_neg notLate, here, if_neg ordering] at stepEq
          cases stepEq
      · have all : done = loader.batching.count :=
          Nat.le_antisymm ordered.counted (Nat.le_of_not_lt early)
        have late : loader.length ≤ iterator.position := by
          have past : ¬ done * loader.sizing.width < loader.length := fun low =>
            early (Batching.lt_count_iff.mpr low)
          rw [ordered.position]
          omega
        simp only [OrderedIterator.step, OrderedIterator.next, ordered.valid, Bool.not_true,
          Bool.false_eq_true, if_false, if_pos late] at stepEq
        cases stepEq
        refine ⟨fun failed => failed, Or.inl ⟨rfl, ?_⟩, fun _ => all⟩
        exact ⟨rfl, ordered.counted, ordered.position, ordered.marked, ordered.taken,
          ordered.short, ordered.linked, ordered.open_⟩
  | fill order room =>
      cases here : iterator.frontier with
      | none =>
          simp only [OrderedIterator.step, here] at stepEq
          cases stepEq
      | some frontier =>
          obtain ⟨start, linked⟩ := ordered.linked frontier here
          obtain ⟨filled, fillEq, kept, filling⟩ := linked.fill order room
          have unrefused := Frontier.refused_of_fits fits order room linked
          simp only [OrderedIterator.step, here, unrefused, fillEq] at stepEq
          split at stepEq
          · cases stepEq
            exact .silent (Or.inl rfl) (ordered.refront here kept filling.waited)
          · cases stepEq
  | work dispatch =>
      cases here : iterator.frontier with
      | none =>
          simp only [OrderedIterator.step, here] at stepEq
          cases stepEq
      | some frontier =>
          obtain ⟨start, linked⟩ := ordered.linked frontier here
          simp only [OrderedIterator.step, here] at stepEq
          obtain ⟨worked, workEq, pair⟩ := Option.map_eq_some_iff.mp stepEq
          cases pair
          obtain ⟨kept, -, rfl⟩ := linked.work workEq
          exact .silent (Or.inl rfl) (ordered.refront here kept ⟨fun _ => Iff.rfl, Nat.le_refl _⟩)
  | adapt width =>
      cases here : iterator.frontier with
      | none =>
          simp only [OrderedIterator.step, here] at stepEq
          cases stepEq
      | some frontier =>
          obtain ⟨start, linked⟩ := ordered.linked frontier here
          simp only [OrderedIterator.step, here] at stepEq
          split at stepEq
          · rename_i decided
            obtain ⟨adapted, adaptEq, kept, same⟩ := linked.adapt decided.2.1 decided.2.2
            simp only [adaptEq] at stepEq
            cases stepEq
            exact .silent (Or.inl rfl) (ordered.refront here kept same.waited)
          · cases stepEq

end Steps

/-! ### Runs -/

section Runs

variable {loader : CollatedLoader} {done : Nat} {iterator : OrderedIterator}

theorem Ordered.deliveredBatches (ordered : Ordered loader done iterator) :
    iterator.deliveredBatches loader = done := by
  rw [OrderedIterator.deliveredBatches, ordered.position]
  exact Batching.count_of_boundary ordered.counted

/-- How far an iterator is from its end. -/
def OrderedIterator.remaining (loader : CollatedLoader) (iterator : OrderedIterator) : Nat :=
  match iterator.frontier with
  | none => 0
  | some frontier => frontier.remaining loader.scheduleLength

/-- While a batch is missing, the position committed next is in the window. -/
theorem Ordered.head (ordered : Ordered loader done iterator) (early : done < loader.batching.count)
    (here : iterator.frontier = some frontier) {start : Nat}
    (linked : Linked start loader.scheduleLength loader.workers frontier) :
    frontier.schedule.nextCommit = done * loader.perBatch + iterator.samples.length ∧
      frontier.schedule.nextCommit < frontier.schedule.stop := by
  obtain ⟨_, same, committed, -⟩ := ordered.open_ early
  obtain rfl := Option.some.inj (here.symm.trans same)
  have head := linked.nextCommit_eq committed
  refine ⟨head, linked.nextCommit_lt_stop ?_⟩
  have short := ordered.short early
  have size : loader.grid.size done =
      min loader.perBatch (loader.scheduleLength - done * loader.perBatch) := rfl
  omega

/-- Some step always ends the run or brings its end nearer. -/
theorem Ordered.nearer (fits : loader.Fits) (ordered : Ordered loader done iterator) :
    ∃ label event after, OrderedIterator.step loader iterator label = some (event, after) ∧
      (event.Finished ∨ after.remaining loader < iterator.remaining loader) := by
  by_cases early : done < loader.batching.count
  · obtain ⟨frontier, here, -⟩ := ordered.open_ early
    obtain ⟨start, linked⟩ := ordered.linked frontier here
    obtain ⟨-, inside⟩ := ordered.head early here linked
    have measure : iterator.remaining loader =
        frontier.remaining loader.scheduleLength := by
      rw [OrderedIterator.remaining, here]
    by_cases moves : frontier.schedule.nextCommit ∈ frontier.ready ∨ frontier.finished ≠ []
    · obtain ⟨event, after, nextEq, -, next, front, less⟩ :=
        ordered.pass fits early here (List.Perm.refl _) 0
      refine ⟨.next frontier.schedule.dispatchCandidates 0, event, after, nextEq, Or.inr ?_⟩
      rw [measure, OrderedIterator.remaining, front]
      exact less moves
    · rw [not_or, not_not] at moves
      cases running : frontier.running with
      | cons dispatch dispatches =>
          have member : dispatch ∈ frontier.running := running ▸ List.mem_cons_self
          obtain ⟨worked, workEq⟩ : ∃ worked, frontier.work dispatch = some worked :=
            ⟨_, if_pos member⟩
          refine ⟨.work dispatch, .quiet, { iterator with frontier := some worked }, ?_,
            Or.inr ?_⟩
          · simp only [OrderedIterator.step, here, workEq, Option.map_some]
          · rw [measure]
            exact linked.work_remaining workEq
      | nil =>
          have idle : frontier.running ++ frontier.finished = [] := by
            rw [running, moves.2]
            rfl
          obtain ⟨filled, fillEq, less⟩ := linked.fill_nearer idle (Nat.le_refl _) inside
            linked.framed.not_delivered_nextCommit moves.1
          have unrefused := Frontier.refused_of_fits fits frontier.schedule.dispatchCandidates
            frontier.schedule.dispatchCandidates.length linked
          refine ⟨.fill frontier.schedule.dispatchCandidates
            frontier.schedule.dispatchCandidates.length, .quiet,
            { iterator with frontier := some filled }, ?_, Or.inr ?_⟩
          · simp only [OrderedIterator.step, here, unrefused, fillEq]
            rw [if_pos ⟨ordered.valid, List.Perm.refl _⟩]
          · rw [measure]
            exact less
  · have past : ¬ done * loader.sizing.width < loader.length := fun low =>
      early (Batching.lt_count_iff.mpr low)
    have late : loader.length ≤ iterator.position := by
      rw [ordered.position]
      omega
    refine ⟨.next [] 0, .exhausted, { iterator with complete := true }, ?_, Or.inl trivial⟩
    simp only [OrderedIterator.step, OrderedIterator.next, ordered.valid, Bool.not_true,
      Bool.false_eq_true, if_false, if_pos late]

theorem none_ahead (cursor : Nat) : ∀ ordinal ∈ (∅ : Finset Nat), cursor < ordinal :=
  fun _ member => absurd member (Finset.notMem_empty _)

/-- The delivered state of an in-order loader: the batches before its cursor. -/
def resumedState (cursor : Nat) : DeliveredBatchState := ⟨cursor, ∅, none_ahead cursor⟩

/-- From a cursor within the epoch the iterator starts behind the batches before it. -/
theorem OrderedIterator.start_spec (loader : CollatedLoader) {cursor : Nat}
    (inside : cursor ≤ loader.batching.count) :
    ∃ iterator, OrderedIterator.start loader cursor = .ok iterator ∧
      Ordered loader cursor iterator ∧
      (∀ frontier, iterator.frontier = some frontier →
        Opened loader.toProcessLoader (resumedState cursor) frontier) ∧
      (loader.length ≠ 0 → ∃ frontier, iterator.frontier = some frontier) := by
  have members : ∀ ordinal, ordinal ∈ (resumedState cursor).delivered ↔ ordinal < cursor :=
    fun ordinal =>
      DeliveredBatchState.mem_delivered.trans (or_iff_left (Finset.notMem_empty ordinal))
  have below : ∀ ordinal ∈ (resumedState cursor).delivered,
      ordinal < loader.batching.count :=
    fun ordinal member => Nat.lt_of_lt_of_le ((members ordinal).mp member) inside
  obtain ⟨started, startEq, delivering, same, opened, present⟩ :=
    @ProcessIterator.start_spec loader.toProcessLoader (resumedState cursor) (fun _ _ _ => True)
      (fun _ => True) below trivial trivial
  have position : started.position = min loader.length (cursor * loader.sizing.width) := by
    have range : (resumedState cursor).delivered = Finset.range cursor := by
      ext ordinal
      rw [members, Finset.mem_range]
    have counted := delivering.position
    rw [same, range, Batching.samples_range] at counted
    exact counted
  have empty : (resumedState cursor).bitmap = [] := if_pos rfl
  refine ⟨⟨started.position, [], started.complete, started.valid, started.delivered,
    started.frontier⟩, ?_, ⟨delivering.valid, inside, position, fun _ => ?_, rfl,
    fun early => ?_, delivering.linked, fun early => ?_⟩, opened, present⟩
  · have begun : ProcessIterator.start loader.toProcessLoader cursor [] = .ok started := by
      rw [← empty]
      exact startEq
    rw [OrderedIterator.start, begun]
    rfl
  · exact ⟨congrArg DeliveredBatchState.base same, congrArg DeliveredBatchState.ahead same⟩
  · rw [← ProcessLoader.grid_count] at early
    exact Batching.size_pos_iff.mpr early
  · have low : cursor * loader.sizing.width < loader.length := Batching.lt_count_iff.mp early
    obtain ⟨frontier, front, tracked, -⟩ := delivering.open_ (by rw [position]; omega)
    obtain ⟨start, linked⟩ := tracked.linked
    rw [same] at tracked
    refine ⟨frontier, front, fun other => ?_, tracked.deep⟩
    have real := early
    rw [← ProcessLoader.grid_count, Batching.lt_count_iff] at real
    have within : cursor * loader.perBatch < loader.scheduleLength := real
    have positive : 0 < loader.perBatch := ProcessLoader.perBatch_pos
    show frontier.Committed other ↔ other < cursor * loader.perBatch + 0
    rw [Nat.add_zero]
    by_cases known : other < loader.scheduleLength
    · rw [tracked.committed other known, members, Nat.div_lt_iff_lt_mul positive]
    · have framed := linked.framed
      constructor
      · rintro (before | beyond)
        · have ended := framed.ended
          omega
        · have bound := (framed.beyond other beyond).2
          omega
      · intro less
        omega

end Runs

end Hyperloader.Process
