/-
Module: Hyperloader.Process.Frontier
Purpose: The frontier of a process iterator: the schedule, the commands in its pool, and
  the payloads received, with the parts of process/iterator.py and process/frontier.py
  that fill it, poll it and commit from it.
Trusted boundary: a worker that takes a command answers it.
Main exports:
  Frontier, Frontier.fill, Frontier.receive, Frontier.pop, Frontier.commitNext, Linked,
  Linked.fill, Linked.receive, Linked.pop, Linked.commitNext
-/
import Mathlib.Algebra.BigOperators.Group.Finset.Basic
import Mathlib.Algebra.Order.BigOperators.Group.Finset
import Hyperloader.Schedule.Invariant
import Hyperloader.State.Delivery

namespace Hyperloader.Process

open Foundations Schedule Schedule.Native
open State

/-- A schedule with its depth growth, the commands its workers have not answered, the
answers not yet received, the oldest first, and the positions of `_ready`. -/
structure Frontier where
  schedule : StaticSchedule
  depth : Nat
  ceiling : Nat
  growthMultiplier : Nat
  running : List Dispatch
  finished : List Dispatch
  ready : Finset Nat

namespace Frontier

/-- A frontier over the positions `[start, stop)`, before anything is dispatched. -/
def new (start stop depth ceiling workers growthMultiplier : Nat) : Except Raised Frontier :=
  match StaticSchedule.new start stop depth workers with
  | .error failure => .error (.valueError failure.text)
  | .ok schedule =>
      .ok
        { schedule := schedule
          depth := depth
          ceiling := ceiling
          growthMultiplier := growthMultiplier
          running := []
          finished := []
          ready := ∅ }

/-- `seed_delivered` of one position after the other. -/
def seed : List Nat → Frontier → Except Raised Frontier
  | [], frontier => .ok frontier
  | position :: positions, frontier =>
      match frontier.schedule.seedDelivered position with
      | (.error failure, _) => .error (.valueError failure.text)
      | (.ok (), schedule) => seed positions { frontier with schedule := schedule }

/-- `_fill_frontier` in the dispatch order given, through a pool that admits `room`
commands and refuses the next. -/
def fill : List Nat → Nat → Frontier → Except Raised Frontier
  | [], _, frontier => .ok frontier
  | selected :: order, room, frontier =>
      match frontier.schedule.dispatchAt selected with
      | none => fill order room frontier
      | some dispatch =>
          match room with
          | 0 => .ok frontier
          | room + 1 =>
              match frontier.schedule.markDispatched dispatch with
              | none => .error .panic
              | some (.error failure, _) => .error (.valueError failure.text)
              | some (.ok (), schedule) =>
                  fill order room
                    { frontier with
                      schedule := schedule
                      running := frontier.running ++ [dispatch] }

/-- A worker answers one of its commands. -/
def work (dispatch : Dispatch) (frontier : Frontier) : Option Frontier :=
  if dispatch ∈ frontier.running then
    some
      { frontier with
        running := frontier.running.erase dispatch
        finished := frontier.finished ++ [dispatch] }
  else none

/-- `try_receive` of a worker, with what the iterator does with its completion. -/
def receive (worker : Nat) (frontier : Frontier) : Except Raised (Option Nat × Frontier) :=
  match frontier.finished.find? fun dispatch => dispatch.worker == worker with
  | none => .ok (none, frontier)
  | some dispatch =>
      match frontier.schedule.markCompleted dispatch with
      | (.error failure, _) => .error (.valueError failure.text)
      | (.ok (), schedule) =>
          .ok (some dispatch.position,
            { frontier with
              schedule := schedule
              finished := frontier.finished.erase dispatch
              ready := insert dispatch.position frontier.ready })

/-- `record_wait`, which grows a saturated frontier within its ceiling. -/
def recordWait (frontier : Frontier) : Except Raised Frontier :=
  if frontier.ceiling ≤ frontier.depth ∨ frontier.schedule.occupied < frontier.depth then
    .ok frontier
  else
    let grown := min frontier.ceiling (frontier.depth * frontier.growthMultiplier)
    if grown = frontier.depth then .ok frontier
    else
      match frontier.schedule.setDepth grown with
      | (.error failure, _) => .error (.valueError failure.text)
      | (.ok (), schedule) => .ok { frontier with schedule := schedule, depth := grown }

/-- `_ready.pop` of a position and its commit, which raises with the text given if the
schedule does not commit it. -/
def pop (position : Nat) (text : String) (frontier : Frontier) : Except Raised Frontier :=
  if position ∉ frontier.ready then .error (.keyError position)
  else
    match frontier.schedule.tryCommitReady position with
    | none => .error .panic
    | some (committed, schedule) =>
        if committed ≠ some position then .error (.runtimeError text)
        else
          .ok
            { frontier with
              schedule := schedule
              ready := frontier.ready.erase position }

def NONCONTIGUOUS : String := "scheduler committed a noncontiguous position"

/-- One attempt of `_next_completion` to commit the position expected. -/
def commitNext (expected : Nat) (frontier : Frontier) :
    Except Raised (Option Frontier) :=
  match frontier.schedule.tryCommit with
  | none => .error .panic
  | some (none, _) => .ok none
  | some (some position, schedule) =>
      if position ≠ expected then .error (.runtimeError NONCONTIGUOUS)
      else if position ∉ frontier.ready then .error (.keyError position)
      else
        .ok (some
          { frontier with
            schedule := schedule
            ready := frontier.ready.erase position })

/-- A controller decision. -/
def adapt (width : Nat) (frontier : Frontier) : Except Raised Frontier :=
  match frontier.schedule.setWorkerCount width with
  | (.error failure, _) => .error (.valueError failure.text)
  | (.ok (), schedule) => .ok { frontier with schedule := schedule }

end Frontier

/-! ### The schedule and the pool agree -/

/-- The commands in the pool are the positions dispatched, the payloads received the
positions ready, over the range `[start, stop)` and a pool of `workers`. -/
structure Linked (start stop workers : Nat) (frontier : Frontier) : Prop where
  bounded : stop ≤ maxU64
  framed : Framed start stop frontier.schedule
  spawned : frontier.schedule.workerCeiling = workers
  routed : 0 < frontier.schedule.workerCount ∧
    frontier.schedule.workerCount ≤ frontier.schedule.workerCeiling
  once : (frontier.running ++ frontier.finished).Nodup
  owned : ∀ dispatch : Dispatch,
    dispatch ∈ frontier.running ++ frontier.finished ↔
      frontier.schedule.positions.lookup dispatch.position =
        some (.dispatched dispatch.worker)
  known : ∀ dispatch ∈ frontier.running ++ frontier.finished, dispatch.worker < workers
  received : ∀ position, position ∈ frontier.ready ↔
    ∃ worker, frontier.schedule.positions.lookup position = some (.ready worker)
  depth : frontier.schedule.depth = frontier.depth
  deep : 0 < frontier.depth
  growing : 1 < frontier.growthMultiplier
  ceiling : frontier.ceiling ≤ maxU64

/-- What filling the frontier leaves alone. -/
structure Filled (before after : Frontier) : Prop where
  nextCommit : after.schedule.nextCommit = before.schedule.nextCommit
  delivered : after.schedule.delivered = before.schedule.delivered
  endPosition : after.schedule.endPosition = before.schedule.endPosition
  depth : after.depth = before.depth
  stop : after.schedule.stop = before.schedule.stop
  finished : after.finished = before.finished
  ready : after.ready = before.ready
  running : ∃ admitted, after.running = before.running ++ admitted
  active : ∀ position ∈ before.schedule.positions, position ∈ after.schedule.positions

theorem Filled.refl (frontier : Frontier) : Filled frontier frontier :=
  ⟨rfl, rfl, rfl, rfl, rfl, rfl, rfl, ⟨[], (List.append_nil _).symm⟩, fun _ member => member⟩

theorem Filled.trans {one two three : Frontier} (first : Filled one two)
    (second : Filled two three) : Filled one three := by
  obtain ⟨more, firstRunning⟩ := first.running
  obtain ⟨most, secondRunning⟩ := second.running
  exact
    { nextCommit := second.nextCommit.trans first.nextCommit
      delivered := second.delivered.trans first.delivered
      endPosition := second.endPosition.trans first.endPosition
      depth := second.depth.trans first.depth
      stop := second.stop.trans first.stop
      finished := second.finished.trans first.finished
      ready := second.ready.trans first.ready
      running := ⟨more ++ most, by rw [secondRunning, firstRunning, List.append_assoc]⟩
      active := fun position member => second.active position (first.active position member) }

section Steps

variable {start stop workers : Nat} {frontier : Frontier}

variable {position : Nat} {dispatch : Dispatch}

/-- A position in the window that is neither active nor delivered is routed to a worker of
the pool. -/
theorem Linked.dispatchAt (linked : Linked start stop workers frontier)
    (eligible : frontier.schedule.dispatchAt position = some dispatch) :
    dispatch.position = position ∧ dispatch.worker < workers ∧
      position ∉ frontier.schedule.positions := by
  obtain ⟨same, -, -, inactive, -⟩ := dispatchAt_eq_some eligible
  refine ⟨same, ?_, inactive⟩
  unfold StaticSchedule.dispatchAt at eligible
  split at eligible
  · cases eligible
  · cases eligible
    have modulus := Nat.mod_lt frontier.schedule.dispatchOrdinal linked.routed.1
    have within := linked.routed.2
    have named := linked.spawned
    have low := Nat.mod_le
      (frontier.schedule.dispatchOrdinal % frontier.schedule.workerCount) (2 ^ 32)
    show _ % _ < _
    omega

/-- An eligible dispatch is admitted. -/
theorem Linked.markDispatched (linked : Linked start stop workers frontier)
    (eligible : frontier.schedule.dispatchAt position = some dispatch) :
    ∃ schedule, frontier.schedule.markDispatched dispatch = some (.ok (), schedule) ∧
      Linked start stop workers
        { frontier with schedule := schedule, running := frontier.running ++ [dispatch] } ∧
      Filled frontier
        { frontier with schedule := schedule, running := frontier.running ++ [dispatch] } ∧
      position ∈ schedule.positions := by
  obtain ⟨rfl, known, inactive⟩ := linked.dispatchAt eligible
  have framed := linked.framed
  have room : frontier.schedule.dispatchOrdinal + 1 ≤ maxU64 := by
    have below := framed.ordinal_lt eligible
    have bounded := linked.bounded
    omega
  refine ⟨{ frontier.schedule with
      positions := frontier.schedule.positions.insert dispatch.position
        (.dispatched dispatch.worker)
      dispatchOrdinal := frontier.schedule.dispatchOrdinal + 1 }, ?_, ?_, ?_, ?_⟩
  · simp [StaticSchedule.markDispatched, eligible, checkedAdd, room]
  · have fresh : dispatch ∉ frontier.running ++ frontier.finished := by
      intro old
      exact inactive (mem_of_lookup ((linked.owned dispatch).mp old))
    have order : (frontier.running ++ [dispatch] ++ frontier.finished).Perm
        (dispatch :: (frontier.running ++ frontier.finished)) := by
      rw [List.append_assoc, List.singleton_append]
      exact List.perm_middle
    have found : ∀ other,
        (frontier.schedule.positions.insert dispatch.position
          (.dispatched dispatch.worker)).lookup other =
        if other = dispatch.position then some (.dispatched dispatch.worker)
        else frontier.schedule.positions.lookup other := fun other =>
      lookup_insert_if frontier.schedule.positions dispatch.position other _
    refine ⟨linked.bounded, framed.change (.dispatched dispatch eligible), linked.spawned,
      linked.routed, ?_, ?_, ?_, ?_, linked.depth, linked.deep, linked.growing,
      linked.ceiling⟩
    · exact order.nodup_iff.mpr (List.nodup_cons.mpr ⟨fresh, linked.once⟩)
    · intro other
      rw [order.mem_iff, List.mem_cons, linked.owned other, found]
      by_cases same : other.position = dispatch.position
      · rw [if_pos same]
        constructor
        · rintro (rfl | old)
          · rfl
          · exact absurd (mem_of_lookup (same ▸ old)) inactive
        · intro worker
          have workers := PositionState.dispatched.inj (Option.some.inj worker)
          left
          cases other
          cases dispatch
          simp only at same workers
          rw [same, workers]
      · rw [if_neg same]
        constructor
        · rintro (rfl | old)
          · exact absurd rfl same
          · exact old
        · exact Or.inr
    · intro other member
      rcases List.mem_cons.mp (order.mem_iff.mp member) with rfl | old
      · exact known
      · exact linked.known other old
    · intro other
      rw [linked.received other]
      simp only [found]
      by_cases same : other = dispatch.position
      · subst same
        have nothing : frontier.schedule.positions.lookup dispatch.position = none :=
          Finmap.lookup_eq_none.mpr inactive
        simp [nothing]
      · simp [same]
  · exact
      { nextCommit := rfl
        delivered := rfl
        endPosition := rfl
        depth := rfl
        stop := rfl
        finished := rfl
        ready := rfl
        running := ⟨[dispatch], rfl⟩
        active := fun position member => by
          rw [Finmap.mem_insert]
          exact Or.inr member }
  · exact Finmap.mem_insert.mpr (Or.inl rfl)

/-- Filling never fails. -/
theorem Linked.fill (linked : Linked start stop workers frontier) (order : List Nat) (room : Nat) :
    ∃ after, frontier.fill order room = .ok after ∧ Linked start stop workers after ∧
      Filled frontier after := by
  induction order generalizing frontier room with
  | nil => exact ⟨frontier, rfl, linked, .refl frontier⟩
  | cons selected order ih =>
      cases eligible : frontier.schedule.dispatchAt selected with
      | none =>
          obtain ⟨after, filled, kept, same⟩ := ih linked room
          refine ⟨after, ?_, kept, same⟩
          rw [Frontier.fill, eligible]
          exact filled
      | some dispatch =>
          cases room with
          | zero =>
              refine ⟨frontier, ?_, linked, .refl frontier⟩
              rw [Frontier.fill, eligible]
          | succ room =>
              obtain ⟨schedule, marked, admitted, same, -⟩ := linked.markDispatched eligible
              obtain ⟨after, filled, kept, rest⟩ := ih admitted room
              refine ⟨after, ?_, kept, same.trans rest⟩
              rw [Frontier.fill, eligible]
              simp only [marked]
              exact filled

variable {after : Frontier}

/-- With room for the whole order, every open position of it is active afterwards. -/
theorem Linked.fill_active (linked : Linked start stop workers frontier) {order : List Nat}
    {room : Nat} (ample : order.length ≤ room) (filled : frontier.fill order room = .ok after)
    (member : position ∈ order) (low : frontier.schedule.nextCommit ≤ position)
    (high : position < frontier.schedule.stop) (fresh : position ∉ frontier.schedule.delivered) :
    position ∈ after.schedule.positions := by
  induction order generalizing frontier room with
  | nil => cases member
  | cons selected order ih =>
      cases eligible : frontier.schedule.dispatchAt selected with
      | none =>
          rw [Frontier.fill, eligible] at filled
          have fits : order.length ≤ room := Nat.le_of_succ_le ample
          rcases List.mem_cons.mp member with rfl | later
          · obtain ⟨other, otherEq, -, same⟩ := linked.fill order room
            obtain rfl := Except.ok.inj (otherEq.symm.trans filled)
            unfold StaticSchedule.dispatchAt at eligible
            split at eligible
            · rename_i closed
              rcases closed with below | above | active | delivered
              · omega
              · omega
              · exact same.active position active
              · exact absurd delivered fresh
            · cases eligible
          · exact ih linked fits filled later low high fresh
      | some dispatch =>
          cases room with
          | zero => exact absurd ample (Nat.not_succ_le_zero _)
          | succ room =>
              obtain ⟨schedule, marked, admitted, same, active⟩ := linked.markDispatched eligible
              rw [Frontier.fill, eligible] at filled
              simp only [marked] at filled
              rcases List.mem_cons.mp member with rfl | later
              · obtain ⟨other, otherEq, -, rest⟩ := admitted.fill order room
                obtain rfl := Except.ok.inj (otherEq.symm.trans filled)
                exact rest.active position active
              · exact ih admitted (Nat.le_of_succ_le_succ ample) filled later
                  (same.nextCommit ▸ low) (same.stop ▸ high) (same.delivered ▸ fresh)

theorem Linked.work (linked : Linked start stop workers frontier)
    (worked : frontier.work dispatch = some after) :
    Linked start stop workers after ∧ dispatch ∈ frontier.running ∧
      after =
        { frontier with
          running := frontier.running.erase dispatch
          finished := frontier.finished ++ [dispatch] } := by
  unfold Frontier.work at worked
  split at worked
  · rename_i member
    cases worked
    have order : (frontier.running.erase dispatch ++ (frontier.finished ++ [dispatch])).Perm
        (frontier.running ++ frontier.finished) := by
      have moved : (frontier.running.erase dispatch ++ (frontier.finished ++ [dispatch])).Perm
          (dispatch :: frontier.running.erase dispatch ++ frontier.finished) := by
        rw [← List.append_assoc]
        exact List.perm_append_singleton dispatch _
      exact moved.trans ((List.perm_cons_erase member).symm.append_right _)
    refine ⟨?_, member, rfl⟩
    exact
      { linked with
        once := order.nodup_iff.mpr linked.once
        owned := fun other => order.mem_iff.trans (linked.owned other)
        known := fun other inside => linked.known other (order.mem_iff.mp inside) }
  · cases worked

/-- What the arrival of a completion does. -/
structure Arrived (dispatch : Dispatch) (before after : Frontier) : Prop where
  held : dispatch ∈ before.finished
  nextCommit : after.schedule.nextCommit = before.schedule.nextCommit
  delivered : after.schedule.delivered = before.schedule.delivered
  depth : after.depth = before.depth
  running : after.running = before.running
  finished : after.finished = before.finished.erase dispatch
  ready : after.ready = insert dispatch.position before.ready
  fresh : dispatch.position ∉ before.ready

/-- A worker with an answer is received from, and the completion is recorded. -/
theorem Linked.receive (linked : Linked start stop workers frontier) (worker : Nat) :
    (frontier.receive worker = .ok (none, frontier) ∧
      ∀ dispatch ∈ frontier.finished, dispatch.worker ≠ worker) ∨
    ∃ dispatch after, frontier.receive worker = .ok (some dispatch.position, after) ∧
      Linked start stop workers after ∧ Arrived dispatch frontier after := by
  cases search : frontier.finished.find? fun dispatch => dispatch.worker == worker with
  | none =>
      left
      refine ⟨by rw [Frontier.receive, search], fun dispatch member same => ?_⟩
      have other := List.find?_eq_none.mp search dispatch member
      simp [same] at other
  | some dispatch =>
      right
      have held : dispatch ∈ frontier.finished := List.mem_of_find?_eq_some search
      have owned := (linked.owned dispatch).mp (List.mem_append_right _ held)
      have marked : frontier.schedule.markCompleted dispatch =
          (.ok (),
            { frontier.schedule with
              positions := frontier.schedule.positions.insert dispatch.position
                (.ready dispatch.worker) }) := by
        simp [StaticSchedule.markCompleted, owned]
      refine ⟨dispatch, _, by rw [Frontier.receive, search]; simp only [marked]; rfl, ?_, ?_⟩
      · have found : ∀ other,
            (frontier.schedule.positions.insert dispatch.position
              (.ready dispatch.worker)).lookup other =
            if other = dispatch.position then some (.ready dispatch.worker)
            else frontier.schedule.positions.lookup other := fun other =>
          lookup_insert_if frontier.schedule.positions dispatch.position other _
        have apart : dispatch ∉ frontier.running := fun running =>
          (List.nodup_append.mp linked.once).2.2 dispatch running dispatch held rfl
        have shorter : (frontier.running ++ frontier.finished.erase dispatch) =
            (frontier.running ++ frontier.finished).erase dispatch :=
          (List.erase_append_right _ apart).symm
        have members : ∀ other : Dispatch,
            other ∈ frontier.running ++ frontier.finished.erase dispatch ↔
              other ≠ dispatch ∧ other ∈ frontier.running ++ frontier.finished := fun other =>
          shorter ▸ linked.once.mem_erase_iff
        exact
          { linked with
            framed := linked.framed.change (.completed dispatch owned)
            once := shorter ▸ linked.once.erase dispatch
            owned := by
              intro other
              rw [members other, linked.owned other, found]
              by_cases same : other.position = dispatch.position
              · rw [if_pos same, same, owned]
                constructor
                · rintro ⟨different, worker⟩
                  have workers := PositionState.dispatched.inj (Option.some.inj worker)
                  refine absurd ?_ different
                  cases other
                  cases dispatch
                  simp only at same workers
                  rw [same, workers]
                · intro impossible
                  cases impossible
              · rw [if_neg same]
                exact ⟨And.right, fun old => ⟨fun equal => same (equal ▸ rfl), old⟩⟩
            known := fun other member => linked.known other ((members other).mp member).2
            received := by
              intro other
              rw [Finset.mem_insert, linked.received other]
              simp only [found]
              by_cases same : other = dispatch.position
              · simp [same]
              · simp [same] }
      · exact
          { held := held
            nextCommit := rfl
            delivered := rfl
            depth := rfl
            running := rfl
            finished := rfl
            ready := rfl
            fresh := by
              rw [linked.received]
              rintro ⟨other, ready⟩
              rw [owned] at ready
              cases ready }

/-- The frontier keeps everything but its depth and its routes. -/
structure Still (before after : Frontier) : Prop where
  nextCommit : after.schedule.nextCommit = before.schedule.nextCommit
  delivered : after.schedule.delivered = before.schedule.delivered
  positions : after.schedule.positions = before.schedule.positions
  deeper : before.depth ≤ after.depth
  running : after.running = before.running
  finished : after.finished = before.finished
  ready : after.ready = before.ready

theorem Still.refl (frontier : Frontier) : Still frontier frontier :=
  ⟨rfl, rfl, rfl, Nat.le_refl _, rfl, rfl, rfl⟩

/-- A wait only ever deepens the frontier. -/
theorem Linked.recordWait (linked : Linked start stop workers frontier) :
    ∃ after, frontier.recordWait = .ok after ∧ Linked start stop workers after ∧
      Still frontier after := by
  rw [Frontier.recordWait]
  split
  · exact ⟨frontier, rfl, linked, .refl frontier⟩
  · rename_i saturated
    rw [not_or, Nat.not_le] at saturated
    simp only
    split
    · exact ⟨frontier, rfl, linked, .refl frontier⟩
    · have growing := linked.growing
      have more : frontier.depth ≤ frontier.depth * frontier.growthMultiplier :=
        Nat.le_mul_of_pos_right _ (by omega)
      have deeper : frontier.depth ≤
          min frontier.ceiling (frontier.depth * frontier.growthMultiplier) :=
        Nat.le_min.mpr ⟨Nat.le_of_lt saturated.1, more⟩
      have fits : ¬ maxU64 <
          min frontier.ceiling (frontier.depth * frontier.growthMultiplier) := by
        have ceiling := linked.ceiling
        omega
      have deep := linked.deep
      have positive : ¬ min frontier.ceiling
          (frontier.depth * frontier.growthMultiplier) = 0 := by omega
      have admits : ∀ position ∈ frontier.schedule.positions,
          position < saturatingAdd frontier.schedule.nextCommit
            (min frontier.ceiling (frontier.depth * frontier.growthMultiplier)) := by
        intro position member
        have window := (linked.framed.active position member).2.1
        have bounded := linked.bounded
        have depth := linked.depth
        unfold saturatingAdd
        omega
      have clear : ¬ ∃ position ∈ frontier.schedule.positions.keys,
          saturatingAdd frontier.schedule.nextCommit
            (min frontier.ceiling (frontier.depth * frontier.growthMultiplier)) ≤
              position := by
        rintro ⟨position, member, past⟩
        have below := admits position (Finmap.mem_keys.mp member)
        omega
      rw [StaticSchedule.setDepth, if_neg fits, if_neg positive, if_neg clear]
      refine ⟨_, rfl, ?_, ⟨rfl, rfl, rfl, deeper, rfl, rfl, rfl⟩⟩
      exact
        { linked with
          framed := linked.framed.change (.deepened _ admits)
          depth := rfl
          deep := Nat.lt_of_lt_of_le deep deeper }

/-- Decisions within the spawned width are taken. -/
theorem Linked.adapt (linked : Linked start stop workers frontier) {width : Nat}
    (positive : 0 < width) (within : width ≤ workers) :
    ∃ after, frontier.adapt width = .ok after ∧ Linked start stop workers after ∧
      Still frontier after := by
  have below : width ≤ frontier.schedule.workerCeiling := linked.spawned.symm ▸ within
  have accepted : ¬ (width = 0 ∨ frontier.schedule.workerCeiling < width) := by omega
  rw [Frontier.adapt, StaticSchedule.setWorkerCount, if_neg accepted]
  refine ⟨_, rfl, ?_, ⟨rfl, rfl, rfl, Nat.le_refl _, rfl, rfl, rfl⟩⟩
  exact
    { linked with
      framed := linked.framed.change (.routed width positive below)
      routed := ⟨positive, below⟩ }

/-- A position is committed: before the next commit, or delivered beyond it. -/
def Frontier.Committed (frontier : Frontier) (position : Nat) : Prop :=
  position < frontier.schedule.nextCommit ∨ position ∈ frontier.schedule.delivered

/-- What committing a position does. -/
structure Popped (position : Nat) (before after : Frontier) : Prop where
  held : position ∈ before.ready
  committed : ∀ other, after.Committed other ↔ before.Committed other ∨ other = position
  depth : after.depth = before.depth
  running : after.running = before.running
  finished : after.finished = before.finished
  ready : after.ready = before.ready.erase position

/-- A schedule that has only dropped a ready position still agrees with the pool. -/
theorem Linked.dropped (linked : Linked start stop workers frontier) {position : Nat}
    (held : position ∈ frontier.ready) {schedule : StaticSchedule}
    (framed : Framed start stop schedule)
    (positions : schedule.positions = frontier.schedule.positions.erase position)
    (ceiling : schedule.workerCeiling = frontier.schedule.workerCeiling)
    (count : schedule.workerCount = frontier.schedule.workerCount)
    (depth : schedule.depth = frontier.schedule.depth) :
    Linked start stop workers
      { frontier with schedule := schedule, ready := frontier.ready.erase position } := by
  have found : ∀ other, schedule.positions.lookup other =
      if other = position then none else frontier.schedule.positions.lookup other := by
    intro other
    rw [positions]
    exact lookup_erase_if frontier.schedule.positions position other
  obtain ⟨worker, ready⟩ := (linked.received position).mp held
  exact
    { linked with
      framed := framed
      spawned := ceiling.trans linked.spawned
      routed := ⟨count ▸ linked.routed.1, count ▸ ceiling ▸ linked.routed.2⟩
      owned := by
        intro dispatch
        rw [linked.owned dispatch]
        show _ ↔ schedule.positions.lookup dispatch.position = _
        rw [found]
        by_cases same : dispatch.position = position
        · rw [if_pos same, same, ready]
          constructor <;> intro impossible <;> cases impossible
        · rw [if_neg same]
      received := by
        intro other
        rw [Finset.mem_erase, linked.received other]
        show _ ↔ ∃ worker, schedule.positions.lookup other = _
        simp only [found]
        by_cases same : other = position
        · simp [same]
        · simp [same]
      depth := depth.trans linked.depth }

section

variable (linked : Linked start stop workers frontier)

include linked

/-- The schedule commits a ready position, and the pool and the other payloads stay. -/
theorem Linked.commit (held : position ∈ frontier.ready) :
    ∃ schedule, frontier.schedule.tryCommitReady position = some (some position, schedule) ∧
      Linked start stop workers
        { frontier with schedule := schedule, ready := frontier.ready.erase position } ∧
      Popped position frontier
        { frontier with schedule := schedule, ready := frontier.ready.erase position } := by
  obtain ⟨worker, ready⟩ := (linked.received position).mp held
  obtain ⟨reply, schedule, called, change⟩ :=
    tryCommitReady_change linked.bounded linked.framed position (.tryCommitReady position)
      (Or.inl rfl)
  have returned : frontier.schedule.tryCommitReady position = some (some position, schedule) ∧
      reply = .position (some position) := by
    obtain ⟨⟨committed, after⟩, outcomeEq, pair⟩ := Option.map_eq_some_iff.mp called
    cases pair
    have whole : committed = some position := by
      unfold StaticSchedule.tryCommitReady at outcomeEq
      rw [ready] at outcomeEq
      simp only at outcomeEq
      split at outcomeEq
      · simp only [Option.bind_eq_bind, Option.bind_eq_some_iff] at outcomeEq
        obtain ⟨_, _, _, _, same⟩ := outcomeEq
        cases same
        rfl
      · cases outcomeEq
        rfl
    rw [whole] at outcomeEq ⊢
    exact ⟨outcomeEq, rfl⟩
  obtain ⟨returned, rfl⟩ := returned
  have framed := linked.framed.change change
  cases change with
  | still _ _ quiet => cases quiet
  | committedHead _ _ next delivered _ _ drained =>
      refine ⟨_, returned, linked.dropped held framed rfl rfl rfl rfl, ?_⟩
      refine ⟨held, fun other => ?_, rfl, rfl, rfl, rfl⟩
      have forward := drained.forward
      show other < next ∨ other ∈ delivered ↔ (other < frontier.schedule.nextCommit ∨
        other ∈ frontier.schedule.delivered) ∨ other = frontier.schedule.nextCommit
      rw [drained.mem_or_passed other]
      constructor
      · rintro (below | beyond)
        · by_cases past : frontier.schedule.nextCommit + 1 ≤ other
          · exact Or.inl (Or.inr (Or.inr ⟨past, below⟩))
          · rcases Nat.lt_or_eq_of_le (Nat.le_of_lt_succ (Nat.lt_of_not_le past)) with
              less | same
            · exact Or.inl (Or.inl less)
            · exact Or.inr same
        · exact Or.inl (Or.inr (Or.inl beyond))
      · rintro ((below | beyond | passed) | same)
        · exact Or.inl (Nat.lt_of_lt_of_le (Nat.lt_succ_of_lt below) forward)
        · exact Or.inr beyond
        · exact Or.inl passed.2
        · exact Or.inl (same ▸ forward)
  | committedAhead _ _ ahead _ =>
      refine ⟨_, returned, linked.dropped held framed rfl rfl rfl rfl, ?_⟩
      refine ⟨held, fun other => ?_, rfl, rfl, rfl, rfl⟩
      show other < frontier.schedule.nextCommit ∨
        other ∈ insert position frontier.schedule.delivered ↔ _
      rw [Finset.mem_insert]
      constructor
      · rintro (below | same | beyond)
        · exact Or.inl (Or.inl below)
        · exact Or.inr same
        · exact Or.inl (Or.inr beyond)
      · rintro ((below | beyond) | same)
        · exact Or.inl below
        · exact Or.inr (Or.inr beyond)
        · exact Or.inr (Or.inl same)

theorem Linked.pop (held : position ∈ frontier.ready) (text : String) :
    ∃ after, frontier.pop position text = .ok after ∧ Linked start stop workers after ∧
      Popped position frontier after := by
  obtain ⟨schedule, committed, kept, popped⟩ := linked.commit held
  refine ⟨_, ?_, kept, popped⟩
  rw [Frontier.pop, if_neg (not_not.mpr held), committed]
  simp

/-- The next position commits once its payload is there. -/
theorem Linked.commitNext (expected : Nat) :
    (frontier.schedule.nextCommit ∉ frontier.ready ∧
      frontier.commitNext expected = .ok none) ∨
    (frontier.schedule.nextCommit ∈ frontier.ready ∧
      frontier.schedule.nextCommit ≠ expected ∧
      frontier.commitNext expected = .error (.runtimeError Frontier.NONCONTIGUOUS)) ∨
    frontier.schedule.nextCommit = expected ∧
      ∃ after, frontier.commitNext expected = .ok (some after) ∧
        Linked start stop workers after ∧ Popped expected frontier after := by
  by_cases held : frontier.schedule.nextCommit ∈ frontier.ready
  · obtain ⟨schedule, committed, kept, popped⟩ := linked.commit held
    rw [Frontier.commitNext, StaticSchedule.tryCommit, committed]
    simp only
    by_cases same : frontier.schedule.nextCommit = expected
    · right
      right
      rw [if_neg (not_not.mpr same), if_neg (not_not.mpr held)]
      subst same
      exact ⟨rfl, _, rfl, kept, popped⟩
    · right
      left
      rw [if_pos same]
      exact ⟨held, same, rfl⟩
  · left
    refine ⟨held, ?_⟩
    rw [linked.received] at held
    have nothing : frontier.schedule.tryCommitReady frontier.schedule.nextCommit =
        some (none, frontier.schedule) := by
      unfold StaticSchedule.tryCommitReady
      split
      · rename_i worker ready
        exact absurd ⟨worker, ready⟩ held
      · rfl
    rw [Frontier.commitNext, StaticSchedule.tryCommit, nothing]

end

/-- A frontier nothing has been dispatched from. -/
structure Idle (frontier : Frontier) : Prop where
  positions : frontier.schedule.positions = ∅
  running : frontier.running = []
  finished : frontier.finished = []
  ready : frontier.ready = ∅

/-- A new frontier agrees with its idle pool. -/
theorem linked_new {depth ceiling growthMultiplier : Nat} (bounded : stop ≤ maxU64)
    (ordered : start ≤ stop) (deep : 0 < depth) (depthFits : depth ≤ maxU64)
    (spawned : 0 < workers) (growing : 1 < growthMultiplier) (ceilingFits : ceiling ≤ maxU64) :
    ∃ frontier, Frontier.new start stop depth ceiling workers growthMultiplier =
        .ok frontier ∧
      Linked start stop workers frontier ∧ Idle frontier ∧
      frontier.schedule.nextCommit = start ∧ frontier.schedule.delivered = ∅ ∧
      frontier.depth = depth := by
  have accepted : StaticSchedule.new start stop depth workers = .ok
      { endPosition := stop
        depth := depth
        workerCount := workers
        workerCeiling := workers
        nextCommit := start
        dispatchOrdinal := 0
        positions := ∅
        delivered := ∅ } := by
    rw [StaticSchedule.new, if_neg (Nat.not_lt.mpr ordered), if_neg (Nat.ne_of_gt deep),
      if_neg (Nat.ne_of_gt spawned), if_neg (Nat.not_lt.mpr depthFits)]
  refine ⟨_, by rw [Frontier.new, accepted], ?_, ⟨rfl, rfl, rfl, rfl⟩, rfl, rfl, rfl⟩
  exact
    { bounded := bounded
      framed := framed_new accepted
      spawned := rfl
      routed := ⟨spawned, Nat.le_refl _⟩
      once := List.nodup_nil
      owned := fun dispatch => by simp
      known := fun dispatch member => absurd member List.not_mem_nil
      received := fun position => by simp
      depth := rfl
      deep := deep
      growing := growing
      ceiling := ceilingFits }

/-- Distinct open positions behind the first one are seeded. -/
theorem Linked.seed (linked : Linked start stop workers frontier) (idle : Idle frontier)
    {positions : List Nat} (distinct : positions.Nodup)
    (open_ : ∀ position ∈ positions, frontier.schedule.nextCommit < position ∧
      position < stop ∧ position ∉ frontier.schedule.delivered) :
    ∃ after, frontier.seed positions = .ok after ∧ Linked start stop workers after ∧
      Idle after ∧ after.schedule.nextCommit = frontier.schedule.nextCommit ∧
      (∀ position, position ∈ after.schedule.delivered ↔
        position ∈ frontier.schedule.delivered ∨ position ∈ positions) ∧
      after.depth = frontier.depth := by
  induction positions generalizing frontier with
  | nil => exact ⟨frontier, rfl, linked, idle, rfl, by simp, rfl⟩
  | cons position positions ih =>
      obtain ⟨beyond, within, fresh⟩ := open_ position List.mem_cons_self
      have inactive : position ∉ frontier.schedule.positions := by
        rw [idle.positions]
        exact Finmap.notMem_empty
      have inside : position < frontier.schedule.endPosition :=
        linked.framed.endPosition ▸ within
      have seeded : frontier.schedule.seedDelivered position =
          (.ok (),
            { frontier.schedule with
              delivered := insert position frontier.schedule.delivered }) := by
        have range : ¬ (position ≤ frontier.schedule.nextCommit ∨
            frontier.schedule.endPosition ≤ position) := by omega
        rw [StaticSchedule.seedDelivered, if_neg range, if_neg inactive]
        simp [fresh]
      have next : Linked start stop workers
          { frontier with
            schedule :=
              { frontier.schedule with
                delivered := insert position frontier.schedule.delivered } } :=
        { linked with
          framed := linked.framed.change (.seeded position beyond inside inactive fresh) }
      rw [List.nodup_cons] at distinct
      have later : ∀ other ∈ positions, frontier.schedule.nextCommit < other ∧
          other < stop ∧ other ∉ insert position frontier.schedule.delivered := by
        intro other member
        obtain ⟨low, high, clear⟩ := open_ other (List.mem_cons_of_mem _ member)
        refine ⟨low, high, ?_⟩
        rw [Finset.mem_insert, not_or]
        exact ⟨fun same => distinct.1 (same ▸ member), clear⟩
      obtain ⟨after, rest, kept, still, head, delivered, depth⟩ :=
        ih next ⟨idle.positions, idle.running, idle.finished, idle.ready⟩
          distinct.2 later
      refine ⟨after, ?_, kept, still, head, fun other => ?_, depth⟩
      · rw [Frontier.seed, seeded]
        exact rest
      · rw [delivered other, List.mem_cons]
        show other ∈ insert position _ ∨ _ ↔ _
        rw [Finset.mem_insert, or_assoc]
        exact or_left_comm

/-! ### How far the positions have come -/

/-- The steps a position still has to take: dispatch, answer, receipt, commit. -/
def Frontier.weight (frontier : Frontier) (position : Nat) : Nat :=
  if position < frontier.schedule.nextCommit ∨ position ∈ frontier.schedule.delivered then 0
  else if position ∈ frontier.ready then 1
  else if position ∈ frontier.finished.map (·.position) then 2
  else if position ∈ frontier.running.map (·.position) then 3
  else 4

section

variable (uncommitted : ¬ frontier.Committed position)

include uncommitted

theorem Frontier.weight_ready (held : position ∈ frontier.ready) : frontier.weight position = 1 :=
  (if_neg uncommitted).trans (if_pos held)

section

variable (unready : position ∉ frontier.ready)

include unready

theorem Frontier.weight_finished (held : position ∈ frontier.finished.map (·.position)) :
    frontier.weight position = 2 :=
  (if_neg uncommitted).trans ((if_neg unready).trans (if_pos held))

theorem Frontier.weight_running (apart : position ∉ frontier.finished.map (·.position))
    (held : position ∈ frontier.running.map (·.position)) : frontier.weight position = 3 :=
  (if_neg uncommitted).trans ((if_neg unready).trans ((if_neg apart).trans (if_pos held)))

theorem Frontier.weight_waiting (apart : position ∉ frontier.finished.map (·.position))
    (clear : position ∉ frontier.running.map (·.position)) : frontier.weight position = 4 :=
  (if_neg uncommitted).trans ((if_neg unready).trans ((if_neg apart).trans (if_neg clear)))

end

end

/-- The steps all positions before `stop` still have to take. -/
def Frontier.remaining (stop : Nat) (frontier : Frontier) : Nat :=
  (Finset.range stop).sum frontier.weight

theorem remaining_le {before after : Frontier}
    (lighter : ∀ position < stop, after.weight position ≤ before.weight position) :
    after.remaining stop ≤ before.remaining stop :=
  Finset.sum_le_sum fun position member => lighter position (Finset.mem_range.mp member)

theorem remaining_lt {before after : Frontier}
    (lighter : ∀ position < stop, after.weight position ≤ before.weight position)
    (inside : position < stop) (strictly : after.weight position < before.weight position) :
    after.remaining stop < before.remaining stop :=
  Finset.sum_lt_sum (fun other member => lighter other (Finset.mem_range.mp member))
    ⟨position, Finset.mem_range.mpr inside, strictly⟩

/-- A position in the pool is neither committed nor received. -/
theorem Linked.inFlight (linked : Linked start stop workers frontier)
    (member : dispatch ∈ frontier.running ++ frontier.finished) :
    dispatch.position < stop ∧ ¬ frontier.Committed dispatch.position ∧
      dispatch.position ∉ frontier.ready := by
  have owned := (linked.owned dispatch).mp member
  obtain ⟨low, high, fresh⟩ := linked.framed.active _ (mem_of_lookup owned)
  refine ⟨by omega, ?_, ?_⟩
  · rintro (below | beyond)
    · omega
    · exact fresh beyond
  · rw [linked.received]
    rintro ⟨worker, ready⟩
    rw [owned] at ready
    cases ready

/-- The commands in the pool have different positions. -/
theorem Linked.eq_of_position (linked : Linked start stop workers frontier)
    {one two : Dispatch} (first : one ∈ frontier.running ++ frontier.finished)
    (second : two ∈ frontier.running ++ frontier.finished)
    (same : one.position = two.position) : one = two := by
  have oneOwned := (linked.owned one).mp first
  have twoOwned := (linked.owned two).mp second
  rw [same, twoOwned] at oneOwned
  have workers := PositionState.dispatched.inj (Option.some.inj oneOwned)
  cases one
  cases two
  simp only at same workers
  rw [same, workers]

theorem mem_erase_positions {dispatches : List Dispatch} (different : position ≠ dispatch.position) :
    position ∈ (dispatches.erase dispatch).map (·.position) ↔
      position ∈ dispatches.map (·.position) := by
  simp only [List.mem_map]
  constructor
  · rintro ⟨other, member, same⟩
    exact ⟨other, List.mem_of_mem_erase member, same⟩
  · rintro ⟨other, member, same⟩
    have apart : other ≠ dispatch := fun equal => different (equal ▸ same.symm)
    exact ⟨other, (List.mem_erase_of_ne apart).mpr member, same⟩

theorem Linked.work_remaining (linked : Linked start stop workers frontier)
    (worked : frontier.work dispatch = some after) :
    after.remaining stop < frontier.remaining stop := by
  obtain ⟨-, member, rfl⟩ := linked.work worked
  have inPool : dispatch ∈ frontier.running ++ frontier.finished :=
    List.mem_append_left _ member
  obtain ⟨inside, uncommitted, unready⟩ := linked.inFlight inPool
  have apart : dispatch.position ∉ frontier.finished.map (·.position) := by
    intro old
    obtain ⟨other, otherMember, same⟩ := List.mem_map.mp old
    have equal := linked.eq_of_position (List.mem_append_right _ otherMember) inPool same
    subst equal
    exact (List.nodup_append.mp linked.once).2.2 other member other otherMember rfl
  have held : dispatch.position ∈ frontier.running.map (·.position) :=
    List.mem_map_of_mem member
  have before := Frontier.weight_running uncommitted unready apart held
  have answered : dispatch.position ∈ (frontier.finished ++ [dispatch]).map (·.position) :=
    List.mem_map_of_mem (List.mem_append_right _ (List.mem_singleton.mpr rfl))
  have later : Frontier.weight
      { frontier with
        running := frontier.running.erase dispatch
        finished := frontier.finished ++ [dispatch] } dispatch.position = 2 :=
    Frontier.weight_finished uncommitted unready answered
  refine remaining_lt ?_ inside (by rw [later, before]; decide)
  intro position _
  by_cases same : position = dispatch.position
  · rw [same, later, before]
    decide
  · have running : position ∈ (frontier.running.erase dispatch).map (·.position) ↔
        position ∈ frontier.running.map (·.position) := mem_erase_positions same
    simp only [Frontier.weight, running, List.map_append, List.map_cons, List.map_nil,
      List.mem_append, List.mem_singleton, same, or_false]
    exact Nat.le_refl _

theorem Linked.arrived_remaining (linked : Linked start stop workers frontier)
    (arrival : Arrived dispatch frontier after) :
    after.remaining stop < frontier.remaining stop := by
  have inPool : dispatch ∈ frontier.running ++ frontier.finished :=
    List.mem_append_right _ arrival.held
  obtain ⟨inside, uncommitted, unready⟩ := linked.inFlight inPool
  have held : dispatch.position ∈ frontier.finished.map (·.position) :=
    List.mem_map_of_mem arrival.held
  have before := Frontier.weight_finished uncommitted unready held
  have stillOpen : ¬ after.Committed dispatch.position := by
    rw [Frontier.Committed, arrival.nextCommit, arrival.delivered]
    exact uncommitted
  have arrived : dispatch.position ∈ after.ready := by
    rw [arrival.ready]
    exact Finset.mem_insert_self _ _
  have later := Frontier.weight_ready stillOpen arrived
  refine remaining_lt ?_ inside (by rw [later, before]; decide)
  intro position _
  by_cases same : position = dispatch.position
  · rw [same, later, before]
    decide
  · have finished : position ∈ (frontier.finished.erase dispatch).map (·.position) ↔
        position ∈ frontier.finished.map (·.position) := mem_erase_positions same
    simp only [Frontier.weight, arrival.nextCommit, arrival.delivered, arrival.ready,
      arrival.running, arrival.finished, finished, Finset.mem_insert, same, false_or]
    exact Nat.le_refl _

/-- Filling only brings positions nearer, and strictly when it dispatches one that was
nowhere. -/
theorem Filled.weight_le (same : Filled frontier after) (position : Nat) :
    after.weight position ≤ frontier.weight position := by
  obtain ⟨admitted, running⟩ := same.running
  simp only [Frontier.weight, same.nextCommit, same.delivered, same.ready, same.finished]
  split
  · exact Nat.le_refl _
  · split
    · exact Nat.le_refl _
    · split
      · exact Nat.le_refl _
      · rw [running, List.map_append]
        by_cases old : position ∈ frontier.running.map (·.position)
        · simp [old]
        · by_cases new : position ∈ admitted.map (·.position)
          · simp [old, new]
          · simp [old, new]

theorem Still.remaining (same : Still frontier after) :
    after.remaining stop = frontier.remaining stop := by
  refine Finset.sum_congr rfl fun position _ => ?_
  simp only [Frontier.weight, same.nextCommit, same.delivered, same.ready, same.finished,
    same.running]

section

variable (linked : Linked start stop workers frontier)

include linked

/-- While nothing is in the pool, an open position of the window is a dispatch candidate. -/
theorem Linked.candidate (idle : frontier.running ++ frontier.finished = [])
    (low : frontier.schedule.nextCommit ≤ position) (high : position < frontier.schedule.stop)
    (fresh : position ∉ frontier.schedule.delivered) (unready : position ∉ frontier.ready) :
    position ∈ frontier.schedule.dispatchCandidates ∧ position ∉ frontier.schedule.positions := by
  have inactive : position ∉ frontier.schedule.positions := by
    intro active
    obtain ⟨state, found⟩ := Finmap.mem_iff.mp active
    cases state with
    | dispatched worker =>
        have owned := (linked.owned ⟨position, worker⟩).mpr found
        rw [idle] at owned
        cases owned
    | ready worker => exact unready ((linked.received position).mpr ⟨worker, found⟩)
  refine ⟨?_, inactive⟩
  rw [StaticSchedule.dispatchCandidates, List.mem_filter, List.mem_range'_1]
  refine ⟨⟨low, by omega⟩, ?_⟩
  rw [decide_eq_true inactive, decide_eq_true fresh]
  rfl

/-- Filling an idle pool brings an open position of the window nearer to its commit. -/
theorem Linked.fill_nearer (idle : frontier.running ++ frontier.finished = [])
    (low : frontier.schedule.nextCommit ≤ position) (high : position < frontier.schedule.stop)
    (fresh : position ∉ frontier.schedule.delivered) (unready : position ∉ frontier.ready) :
    ∃ filled, frontier.fill frontier.schedule.dispatchCandidates
        frontier.schedule.dispatchCandidates.length = .ok filled ∧
      filled.remaining stop < frontier.remaining stop := by
  obtain ⟨member, -⟩ := linked.candidate idle low high fresh unready
  obtain ⟨noneRunning, noneFinished⟩ := List.append_eq_nil_iff.mp idle
  obtain ⟨filled, fillEq, kept, same⟩ := linked.fill
    frontier.schedule.dispatchCandidates frontier.schedule.dispatchCandidates.length
  have active := linked.fill_active (Nat.le_refl _) fillEq member low high fresh
  have uncommitted : ¬ frontier.Committed position := by
    rintro (below | beyond)
    · omega
    · exact fresh beyond
  have before : frontier.weight position = 4 :=
    Frontier.weight_waiting uncommitted unready (by rw [noneFinished]; exact List.not_mem_nil)
      (by rw [noneRunning]; exact List.not_mem_nil)
  have after : filled.weight position = 3 := by
    have stillOpen : ¬ filled.Committed position := by
      rw [Frontier.Committed, same.nextCommit, same.delivered]
      exact uncommitted
    refine Frontier.weight_running stillOpen (same.ready ▸ unready)
      (by rw [same.finished, noneFinished]; exact List.not_mem_nil) ?_
    obtain ⟨state, found⟩ := Finmap.mem_iff.mp active
    cases state with
    | dispatched worker =>
        have owned := (kept.owned ⟨position, worker⟩).mpr found
        rw [same.finished, noneFinished, List.append_nil] at owned
        exact List.mem_map.mpr ⟨_, owned, rfl⟩
    | ready worker =>
        have held := (kept.received position).mpr ⟨worker, found⟩
        exact absurd (same.ready ▸ held) unready
  have bounds := linked.framed.endPosition
  have within : position < stop := by
    have stops := stop_le frontier.schedule
    omega
  exact ⟨filled, fillEq, remaining_lt (fun other _ => same.weight_le other) within
    (by rw [after, before]; decide)⟩

/-- The first position not committed is in the window. -/
theorem Linked.nextCommit_lt_stop (inside : frontier.schedule.nextCommit < stop) :
    frontier.schedule.nextCommit < frontier.schedule.stop := by
  have deep := linked.deep
  have depth := linked.depth
  have ends := linked.framed.endPosition
  have bounded := linked.bounded
  unfold StaticSchedule.stop saturatingAdd
  omega

end

end Steps

end Hyperloader.Process
