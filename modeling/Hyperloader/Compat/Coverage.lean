/-
Module: Hyperloader.Compat.Coverage
Purpose: No batch is lost by the lane runtime exactly when every drawn fetch
  unit finds a lane with a free ring slot; then the batches yielded before the
  stop are the batches the lanes produce for the sampler's units.
Trusted boundary: none
Main exports: Served, Covered, covered_iff_served
-/
import Hyperloader.Compat.Conservation

namespace Hyperloader.Compat

open Foundations

variable {Indices Memory Value Failure : Type}

/-- The sampler's unit for a task when no draw was lost before it. -/
def unitOf (settings : Settings Indices) (skip task : Nat) : Option Indices :=
  settings.sampler (task - skip + skipped settings skip)

/-- The unit this step draws, if it draws one, finds a lane with a free slot. -/
def Served (settings : Settings Indices)
    (state : State Indices Memory Value Failure) (label : Label) : Prop :=
  label = .consume → ∀ target after indices, state.control = .filling target after →
    state.samplerExhausted = false → state.ready.length + state.pending.length < target →
    settings.sampler state.drawn = some indices →
    ∃ worker, (nextWorker settings state).1 = some worker ∧
      (state.lanes worker).ring.length < settings.capacity

/-- Fetch a list of units one after another. -/
def replay (program : LaneProgram Indices Memory Value Failure) :
    Memory → List Indices → List (LaneResult Value Failure) × Memory
  | memory, [] => ([], memory)
  | memory, indices :: rest =>
      let fetched := program.fetch memory indices
      let later := replay program fetched.2 rest
      (fetched.1 :: later.1, later.2)

theorem replay_concat (program : LaneProgram Indices Memory Value Failure)
    (memory : Memory) (units : List Indices) (indices : Indices) :
    replay program memory (units ++ [indices]) =
      ((replay program memory units).1 ++
          [(program.fetch (replay program memory units).2 indices).1],
        (program.fetch (replay program memory units).2 indices).2) := by
  induction units generalizing memory with
  | nil => rfl
  | cons first rest ih =>
      simp [replay, ih]

/-- What one lane published, in order. -/
def laneLog (trace : Trace Value Failure) (worker : Nat) :
    List (Nat × LaneResult Value Failure) :=
  (publishedLog trace).filterMap fun entry =>
    if entry.1 = worker then some entry.2 else none

def batchOf : Nat × Outcome Value Failure → Option (Nat × Value)
  | (task, .output (.batch value)) => some (task, value)
  | _ => none

/-- The batches `next` returned, with their tasks. -/
def yields (trace : Trace Value Failure) : List (Nat × Value) :=
  (surfaced trace).filterMap batchOf

/-- The batches the lanes produced, with their tasks. -/
def batches (trace : Trace Value Failure) : List (Nat × Value) :=
  (published trace).filterMap batchOf

/-- Nothing is lost: every drawn unit was submitted, the sampler is given up at
its end or with the last lane only, each lane fetched the sampler's own units in
order, and at the stop every submitted task has been fetched and surfaced once. -/
structure Covered (settings : Settings Indices)
    (program : LaneProgram Indices Memory Value Failure) (skip : Nat)
    (trace : Trace Value Failure) (final : State Indices Memory Value Failure) : Prop where
  submitted : final.drawn + skip = final.nextTask + skipped settings skip
  exhausted : final.samplerExhausted = true →
    settings.sampler final.drawn = none ∨ final.activeWorkers = ∅
  fetched : ∀ worker, ∃ units,
    (laneLog trace worker).map (fun entry => unitOf settings skip entry.1) =
        units.map some ∧
      replay program (program.start worker) units =
        ((laneLog trace worker).map Prod.snd, (final.lanes worker).memory)
  stopped : final.closed = true →
    ((published trace).map Prod.fst).Perm (List.range' skip (final.nextTask - skip)) ∧
      (published trace).Perm (surfaced trace) ∧ (yields trace).Perm (batches trace)

section Steps

variable {settings : Settings Indices}
  {program : LaneProgram Indices Memory Value Failure} {skip : Nat}
  {trace : Trace Value Failure} {state next : State Indices Memory Value Failure}

/-- `_fill` returns with the control changed and nothing else. -/
theorem returnFill_eq (settings : Settings Indices)
    (state : State Indices Memory Value Failure) (after : AfterFill Value) :
    ∃ event control, returnFill settings state after =
      (event, { state with control := control }) := by
  cases after with
  | constructed | decide => exact ⟨_, _, rfl⟩
  | deliver task output => cases output <;> exact ⟨_, _, rfl⟩

/-- The draws and submissions of a run whose steps are served. -/
structure Admitted (settings : Settings Indices) (skip : Nat)
    (state : State Indices Memory Value Failure) : Prop where
  ordered : skip ≤ state.nextTask
  submitted : state.drawn + skip = state.nextTask + skipped settings skip
  exhausted : state.samplerExhausted = true →
    settings.sampler state.drawn = none ∨ state.activeWorkers = ∅
  units : ∀ worker, ∀ command ∈ (state.lanes worker).waiting,
    unitOf settings skip command.1 = some command.2

namespace Admitted

section

variable (admitted : Admitted settings skip state)

include admitted

/-- The unit drawn next is the unit of the next task. -/
theorem unit_next :
    unitOf settings skip state.nextTask = settings.sampler state.drawn := by
  have ordered := admitted.ordered
  have submitted := admitted.submitted
  rw [unitOf]
  congr 1
  omega

/-- Admission reads draws, submissions, the exhaustion flag and the lanes. -/
theorem congr (sameNext : next.nextTask = state.nextTask) (sameDrawn : next.drawn = state.drawn)
    (exhausted : next.samplerExhausted = true →
      settings.sampler state.drawn = none ∨ next.activeWorkers = ∅)
    (waiting : ∀ worker, ∀ command ∈ (next.lanes worker).waiting,
      command ∈ (state.lanes worker).waiting) : Admitted settings skip next where
  ordered := sameNext ▸ admitted.ordered
  submitted := by
    rw [sameNext, sameDrawn]
    exact admitted.submitted
  exhausted := by
    rw [sameDrawn]
    exact exhausted
  units worker command member := admitted.units worker command (waiting worker command member)

theorem submit {indices : Indices} (worker cursor : Nat) (running : state.samplerExhausted = false)
    (unit : settings.sampler state.drawn = some indices) :
    Admitted settings skip ((state.drew cursor).submitted indices worker) where
  ordered := Nat.le_succ_of_le admitted.ordered
  submitted := by
    have submitted := admitted.submitted
    show state.drawn + 1 + skip = state.nextTask + 1 + skipped settings skip
    omega
  exhausted spent := by
    simp only [State.submitted, State.drew, State.setLane, running] at spent
    cases spent
  units other command member := by
    by_cases same : other = worker
    · subst same
      simp only [State.submitted, State.drew, State.setLane, Function.update_self,
        Lane.waiting, ← List.append_assoc] at member
      rcases List.mem_append.mp member with old | new
      · exact admitted.units other command old
      · rw [List.mem_singleton.mp new, admitted.unit_next, unit]
    · simp only [State.submitted, State.drew, State.setLane] at member
      rw [Function.update_of_ne same] at member
      exact admitted.units other command member

end

end Admitted

variable {lane : Lane Indices Memory Value Failure}

theorem waiting_setLane {worker : Nat}
    (kept : ∀ command ∈ lane.waiting, command ∈ (state.lanes worker).waiting) (other : Nat)
    (command : Nat × Indices) (member : command ∈ ((state.setLane worker lane).lanes other).waiting) :
    command ∈ (state.lanes other).waiting := by
  by_cases same : other = worker
  · subst same
    rw [State.setLane_self] at member
    exact kept command member
  · rw [State.setLane_of_ne _ _ same] at member
    exact member

/-- Receiving a completion leaves the commands where they are. -/
theorem waiting_received (worker task : Nat) (completions : List (Nat × LaneResult Value Failure))
    (other : Nat) (command : Nat × Indices)
    (member : command ∈ ((state.received worker task completions).lanes other).waiting) :
    command ∈ (state.lanes other).waiting := by
  refine waiting_setLane ?_ other command member
  exact fun _ kept => kept

/-- Accepting an exhausted lane gives the sampler up with the last lane only. -/
theorem accept_exhausted {task : Nat} {output : Output Value} {ended : Prop}
    (before : state.samplerExhausted = true → ended ∨ state.activeWorkers = ∅)
    (spent : (accept state task output).samplerExhausted = true) :
    ended ∨ (accept state task output).activeWorkers = ∅ := by
  cases output with
  | batch value => exact before spent
  | exhausted worker =>
      simp only [accept, Bool.or_eq_true, decide_eq_true_eq] at spent ⊢
      rcases spent with already | last
      · rcases before already with stopped | none
        · exact Or.inl stopped
        · right
          rw [none]
          rfl
      · exact Or.inr last

variable {label : Label} {event : Event Value Failure}

/-- Every served change keeps the admission. -/
theorem Admitted.change (admitted : Admitted settings skip state)
    (served : Served settings state label) (change : Change settings program state label event next) :
    Admitted settings skip next := by
  cases change with
  | called | calledClosed | finished | waited | missed | delivered =>
      exact admitted.congr rfl rfl admitted.exhausted fun _ _ member => member
  | filled target after filling =>
      obtain ⟨event, control, returned⟩ := returnFill_eq settings state after
      rw [returned]
      exact admitted.congr rfl rfl admitted.exhausted fun _ _ member => member
  | ended target after filling running room spent =>
      obtain ⟨event, control, returned⟩ :=
        returnFill_eq settings state.exhaust after
      rw [returned]
      exact admitted.congr rfl rfl (fun _ => Or.inl spent) fun _ _ member => member
  | unserved target after indices filling running room unit noLane =>
      obtain ⟨worker, lane, _⟩ := served rfl target after indices filling running room unit
      rw [noLane] at lane
      cases lane
  | refused target after indices worker filling running room unit lane full =>
      obtain ⟨other, otherLane, free⟩ :=
        served rfl target after indices filling running room unit
      rw [lane] at otherLane
      cases otherLane
      exact absurd free (Nat.not_lt_of_le full)
  | submitted target after indices worker filling running room unit lane free =>
      exact admitted.submit worker _ running unit
  | mismatched worker task result completions =>
      exact admitted.congr rfl rfl admitted.exhausted (waiting_received worker task completions)
  | raised worker task failure completions =>
      exact admitted.congr rfl rfl admitted.exhausted (waiting_received worker task completions)
  | accepted worker task result output completions =>
      have draws : (accept (state.received worker task completions) task output).drawn =
          state.drawn := by cases output <;> rfl
      obtain ⟨_, sameNext, _, _, lanesEq⟩ :=
        accept_fields (state.received worker task completions) task output
      refine admitted.congr sameNext draws ?_ ?_
      · exact accept_exhausted admitted.exhausted
      · intro other command member
        rw [show _ = _ from lanesEq] at member
        exact waiting_received _ _ _ other command member
  | taken worker command ring free head =>
      refine admitted.congr rfl rfl admitted.exhausted (waiting_setLane ?_)
      intro other member
      simpa [Lane.waiting, free, head] using member
  | published worker task indices running =>
      refine admitted.congr rfl rfl admitted.exhausted (waiting_setLane ?_)
      intro other member
      simp only [Lane.waiting, Lane.ran, Option.toList_none, List.nil_append] at member
      exact List.mem_append_right _ member

theorem admitted_initial (settings : Settings Indices)
    (program : LaneProgram Indices Memory Value Failure) (skip phase : Nat) :
    Admitted settings skip (initial settings program skip phase) where
  ordered := Nat.le_refl _
  submitted := Nat.add_comm _ _
  exhausted spent := by cases spent
  units worker command member := by simp [initial, Lane.waiting] at member

/-! ### What the lanes fetch -/

/-- Each lane has fetched the units of its published tasks, in order. -/
def Replayed (settings : Settings Indices)
    (program : LaneProgram Indices Memory Value Failure) (skip : Nat)
    (trace : Trace Value Failure) (state : State Indices Memory Value Failure) : Prop :=
  ∀ worker, ∃ units,
    (laneLog trace worker).map (fun entry => unitOf settings skip entry.1) =
        units.map some ∧
      replay program (program.start worker) units =
        ((laneLog trace worker).map Prod.snd, (state.lanes worker).memory)

theorem laneLog_append (entry : Label × Event Value Failure) (worker : Nat) :
    laneLog (trace ++ [entry]) worker = laneLog trace worker ++
      (publishedBy entry.2).toList.filterMap fun shown =>
        if shown.1 = worker then some shown.2 else none := by
  rw [laneLog, publishedLog_append, List.filterMap_append]
  rfl

/-- A step that publishes nothing and touches no memory. -/
theorem Replayed.quiet (replayed : Replayed settings program skip trace state)
    (quiet : publishedBy event = none)
    (memories : ∀ worker, (next.lanes worker).memory = (state.lanes worker).memory) :
    Replayed settings program skip (trace ++ [(label, event)]) next := by
  intro worker
  obtain ⟨units, unitsEq, ranEq⟩ := replayed worker
  refine ⟨units, ?_, ?_⟩ <;> rw [laneLog_append, quiet]
  · simpa using unitsEq
  · rw [memories]
    simpa using ranEq

theorem memory_update {worker : Nat} {lanes : Nat → Lane Indices Memory Value Failure}
    (same : lane.memory = (lanes worker).memory) (other : Nat) :
    (Function.update lanes worker lane other).memory = (lanes other).memory := by
  by_cases here : other = worker
  · subst here
    rw [Function.update_self, same]
  · rw [Function.update_of_ne here]

theorem Replayed.flow (replayed : Replayed settings program skip trace state)
    (admitted : Admitted settings skip state) (flow : Flow settings program state event next)
    (label : Label) : Replayed settings program skip (trace ++ [(label, event)]) next := by
  cases flow with
  | still _ _ quiet _ _ _ _ sameLanes =>
      exact replayed.quiet quiet fun worker => by rw [sameLanes]
  | submitted indices worker _ _ _ _ _ _ _ lanesEq =>
      exact replayed.quiet rfl fun other => by
        rw [lanesEq]
        apply memory_update
        rfl
  | received worker task result completions _ _ quiet _ _ _ _ _ _ lanesEq =>
      exact replayed.quiet quiet fun other => by
        rw [lanesEq]
        apply memory_update
        rfl
  | taken worker command ring =>
      refine replayed.quiet rfl (memory_update ?_)
      rfl
  | published worker task indices running =>
      intro other
      obtain ⟨units, unitsEq, ranEq⟩ := replayed other
      by_cases same : other = worker
      · subst same
        have unit : unitOf settings skip task = some indices :=
          admitted.units other (task, indices) (by simp [Lane.waiting, running])
        refine ⟨units ++ [indices], ?_, ?_⟩
        · rw [laneLog_append]
          simp [publishedBy, unitsEq, unit]
        · rw [laneLog_append, replay_concat, ranEq, State.setLane_self]
          simp [publishedBy, Lane.ran]
      · refine ⟨units, ?_, ?_⟩
        · rw [laneLog_append]
          simpa [publishedBy, Ne.symm same] using unitsEq
        · rw [laneLog_append, State.setLane_of_ne _ _ same]
          simpa [publishedBy, Ne.symm same] using ranEq

/-! ### The stop -/

/-- A closed runtime has given the sampler up and holds nothing. -/
def Emptied (state : State Indices Memory Value Failure) : Prop :=
  state.closed = true → state.control = .idle ∧ state.ready = [] ∧ state.pending = [] ∧
    state.samplerExhausted = true

theorem Emptied.busy (emptied : Emptied state) {control : Control Value}
    (controlEq : state.control = control) (busy : control ≠ .idle) : state.closed = false := by
  cases closed : state.closed with
  | false => rfl
  | true => exact absurd (controlEq.symm.trans (emptied closed).1) busy

/-- A state that is not closed meets the condition. -/
theorem Emptied.of_open (isOpen : state.closed = false) (same : next.closed = state.closed) :
    Emptied next := by
  intro spent
  rw [same, isOpen] at spent
  cases spent

theorem Emptied.change (emptied : Emptied state)
    (change : Change settings program state label event next) : Emptied next := by
  have returned : ∀ (origin : State Indices Memory Value Failure) (after : AfterFill Value),
      (returnFill settings origin after).2.closed = origin.closed := by
    intro origin after
    obtain ⟨event, control, returned⟩ := returnFill_eq settings origin after
    rw [returned]
  cases change with
  | called _ isOpen => exact .of_open isOpen rfl
  | calledClosed => exact emptied
  | finished _ spent settled empty => exact fun _ => ⟨rfl, empty, settled, spent⟩
  | filled target after filling =>
      exact .of_open (emptied.busy filling nofun) (returned state after)
  | ended target after filling | unserved target after _ filling
  | refused target after _ _ filling =>
      exact .of_open (emptied.busy filling nofun) (returned _ after)
  | submitted target after indices worker filling =>
      exact .of_open (emptied.busy filling nofun) rfl
  | delivered task output deciding | waited deciding =>
      exact .of_open (emptied.busy deciding nofun) rfl
  | missed receiving | mismatched _ _ _ _ receiving | raised _ _ _ _ receiving =>
      exact .of_open (emptied.busy receiving nofun) rfl
  | accepted worker task result output completions receiving =>
      refine .of_open (emptied.busy receiving nofun) ?_
      cases output <;> rfl
  | taken | published => exact emptied

/-! ### Lanes that are no longer active -/

/-- A lane leaves the active set by reporting its exhaustion. -/
def Retired (settings : Settings Indices) (trace : Trace Value Failure)
    (state : State Indices Memory Value Failure) : Prop :=
  ∀ worker < settings.workers, worker ∉ state.activeWorkers →
    ∃ task, (task, .output (.exhausted worker)) ∈ published trace

theorem mem_published_append {entry : Nat × Outcome Value Failure}
    (member : entry ∈ published trace) (step : Label × Event Value Failure) :
    entry ∈ published (trace ++ [step]) := by
  rw [published, publishedLog_append, List.map_append]
  exact List.mem_append_left _ member

theorem Retired.congr (retired : Retired settings trace state)
    (sameActive : next.activeWorkers = state.activeWorkers)
    (step : Label × Event Value Failure) : Retired settings (trace ++ [step]) next := by
  intro worker within gone
  rw [sameActive] at gone
  obtain ⟨task, member⟩ := retired worker within gone
  exact ⟨task, mem_published_append member step⟩

/-- An unread completion has been published. -/
theorem Conserved.head_published (conserved : Conserved settings trace state) {worker task : Nat}
    {result : LaneResult Value Failure} {completions : List (Nat × LaneResult Value Failure)}
    (within : worker < settings.workers)
    (head : (state.lanes worker).completions = (task, result) :: completions) :
    (task, result.outcome worker) ∈ published trace := by
  rw [conserved.reports.mem_iff]
  apply List.mem_append_right
  rw [completed, List.mem_flatMap]
  refine ⟨worker, List.mem_range.mpr within, ?_⟩
  rw [Lane.reports, head]
  exact List.mem_cons_self

theorem Retired.change (retired : Retired settings trace state)
    (conserved : Conserved settings trace state)
    (change : Change settings program state label event next) :
    Retired settings (trace ++ [(label, event)]) next := by
  have returned : ∀ (origin : State Indices Memory Value Failure) (after : AfterFill Value),
      (returnFill settings origin after).2.activeWorkers = origin.activeWorkers := by
    intro origin after
    obtain ⟨event, control, returned⟩ := returnFill_eq settings origin after
    rw [returned]
  cases change with
  | called | calledClosed | submitted | delivered | finished | waited | missed
  | mismatched | raised | taken | published => exact retired.congr rfl _
  | filled target after => exact retired.congr (returned state after) _
  | ended target after => exact retired.congr (returned state.exhaust after) _
  | unserved target after =>
      exact retired.congr (returned (state.drew (nextWorker settings state).2).exhaust after) _
  | refused target after =>
      exact retired.congr (returned (state.drew (nextWorker settings state).2) after) _
  | accepted worker task result output completions receiving within _ head outputEq =>
      cases output with
      | batch value => exact retired.congr rfl _
      | exhausted gone =>
          intro other otherWithin inactive
          by_cases same : other = gone
          · subst same
            have shown := conserved.head_published within head
            rw [outcome_of_output outputEq] at shown
            exact ⟨task, mem_published_append shown _⟩
          · have before : other ∉ state.activeWorkers := by
              intro active
              exact inactive (Finset.mem_erase.mpr ⟨same, active⟩)
            obtain ⟨past, member⟩ := retired other otherWithin before
            exact ⟨past, mem_published_append member _⟩

/-! ### What a step draws -/

/-- A step draws nothing, submits the unit it drew, or loses it. -/
inductive Draws (settings : Settings Indices)
    (state : State Indices Memory Value Failure) (label : Label)
    (next : State Indices Memory Value Failure) : Prop where
  | still (sameDrawn : next.drawn = state.drawn) (sameNext : next.nextTask = state.nextTask)
      (served : Served settings state label)
  | submitted (drawnEq : next.drawn = state.drawn + 1)
      (nextEq : next.nextTask = state.nextTask + 1) (served : Served settings state label)
  | lost (drawnEq : next.drawn = state.drawn + 1) (sameNext : next.nextTask = state.nextTask)

/-- A step at a control point other than `_fill`'s loop draws nothing. -/
theorem served_of_control {control : Control Value} (controlEq : state.control = control)
    (elsewhere : ∀ target after, control ≠ .filling target after) :
    Served settings state label := by
  intro _ target after _ filling
  exact absurd (controlEq.symm.trans filling) (elsewhere target after)

theorem change_draws (change : Change settings program state label event next) :
    Draws settings state label next := by
  have returned : ∀ (origin : State Indices Memory Value Failure) (after : AfterFill Value),
      (returnFill settings origin after).2.drawn = origin.drawn ∧
        (returnFill settings origin after).2.nextTask = origin.nextTask := by
    intro origin after
    obtain ⟨event, control, returned⟩ := returnFill_eq settings origin after
    rw [returned]
    exact ⟨rfl, rfl⟩
  cases change with
  | called idle | calledClosed idle => exact .still rfl rfl (served_of_control idle nofun)
  | filled target after filling full =>
      refine .still (returned state after).1 (returned state after).2 ?_
      intro _ target' after' indices filling' running room
      rw [filling] at filling'
      cases filling'
      rcases full with spent | full
      · rw [running] at spent
        cases spent
      · exact absurd room (Nat.not_lt_of_le full)
  | ended target after filling running room spent =>
      refine .still (returned state.exhaust after).1 (returned state.exhaust after).2 ?_
      intro _ target' after' indices _ _ _ unit
      rw [spent] at unit
      cases unit
  | unserved target after | refused target after =>
      exact .lost (returned _ after).1 (returned _ after).2
  | submitted target after indices worker filling running room unit lane free =>
      exact .submitted rfl rfl fun _ _ _ _ _ _ _ _ => ⟨worker, lane, free⟩
  | delivered task output deciding | finished deciding | waited deciding =>
      exact .still rfl rfl (served_of_control deciding nofun)
  | missed receiving | mismatched _ _ _ _ receiving | raised _ _ _ _ receiving =>
      exact .still rfl rfl (served_of_control receiving nofun)
  | accepted worker task result output completions receiving =>
      refine .still ?_ ?_ (served_of_control receiving nofun) <;> cases output <;> rfl
  | taken | published => exact .still rfl rfl nofun

variable {final : State Indices Memory Value Failure}

/-- A run that submitted every unit it drew was served at every step. -/
theorem served_of_submitted {phase : Nat} {labels : List Label}
    (reached : (machine settings program).run (initial settings program skip phase)
      labels = some (trace, final))
    (submitted : final.drawn + skip = final.nextTask + skipped settings skip) :
    (machine settings program).Along (Served settings)
      (initial settings program skip phase) labels := by
  let lost : State Indices Memory Value Failure → Nat :=
    fun state => state.drawn + skip - state.nextTask
  have behind : ∀ state label event next, state.nextTask ≤ state.drawn + skip →
      (machine settings program).step state label = some (event, next) →
      next.nextTask ≤ next.drawn + skip := by
    intro state label event next behind stepEq
    cases change_draws (step_change settings program stepEq) <;> omega
  have rises : ∀ state label event next, state.nextTask ≤ state.drawn + skip →
      (machine settings program).step state label = some (event, next) →
      lost state ≤ lost next := by
    intro state label event next behind stepEq
    simp only [lost]
    cases change_draws (step_change settings program stepEq) <;> omega
  have raised : ∀ state label event next, state.nextTask ≤ state.drawn + skip →
      ¬ Served settings state label →
      (machine settings program).step state label = some (event, next) →
      lost state < lost next := by
    intro state label event next behind unserved stepEq
    simp only [lost]
    cases change_draws (step_change settings program stepEq) with
    | still _ _ served | submitted _ _ served => exact absurd served unserved
    | lost drawnEq sameNext => omega
  obtain ⟨_, along⟩ := (machine settings program).along_of_unchanged lost behind rises raised
    (Nat.le_add_left _ _) reached
  apply along
  simp only [lost, initial]
  omega

/-- Everything a served run keeps. -/
structure Sound (settings : Settings Indices)
    (program : LaneProgram Indices Memory Value Failure) (skip : Nat)
    (trace : Trace Value Failure) (state : State Indices Memory Value Failure) : Prop where
  start : state.startTask = skip
  conserved : Conserved settings trace state
  admitted : Admitted settings skip state
  replayed : Replayed settings program skip trace state
  emptied : Emptied state
  retired : Retired settings trace state

theorem Flow.start (flow : Flow settings program state event next) :
    next.startTask = state.startTask := by
  cases flow with
  | still | submitted | received => assumption
  | taken | published => rfl

theorem Sound.step (positive : 0 < settings.workers)
    (sound : Sound settings program skip trace state) {label : Label}
    {event : Event Value Failure} (served : Served settings state label)
    (stepEq : (machine settings program).step state label = some (event, next)) :
    Sound settings program skip (trace ++ [(label, event)]) next := by
  have change := step_change settings program stepEq
  have flow := change_flow positive sound.conserved change
  exact
    { start := flow.start.trans sound.start
      conserved := sound.conserved.flow flow label
      admitted := sound.admitted.change served change
      replayed := sound.replayed.flow sound.admitted flow label
      emptied := sound.emptied.change change
      retired := sound.retired.change sound.conserved change }

theorem sound_initial (settings : Settings Indices)
    (program : LaneProgram Indices Memory Value Failure) (skip phase : Nat) :
    Sound settings program skip [] (initial settings program skip phase) where
  start := rfl
  conserved := conserved_initial settings program skip phase
  admitted := admitted_initial settings program skip phase
  replayed worker := ⟨[], rfl, rfl⟩
  emptied spent := by cases spent
  retired worker within gone := absurd (Finset.mem_range.mpr within) gone

theorem run_sound (positive : 0 < settings.workers) {phase : Nat} {labels : List Label}
    (served : (machine settings program).Along (Served settings)
      (initial settings program skip phase) labels)
    (reached : (machine settings program).run (initial settings program skip phase)
      labels = some (trace, final)) : Sound settings program skip trace final :=
  (machine settings program).run_induction
    (fun _ _ _ _ _ sound served stepEq => sound.step positive served stepEq)
    [] (sound_initial settings program skip phase) served reached

theorem Sound.covered (sound : Sound settings program skip trace state) :
    Covered settings program skip trace state where
  submitted := sound.admitted.submitted
  exhausted := sound.admitted.exhausted
  fetched := sound.replayed
  stopped spent := by
    obtain ⟨idle, ready, pending, _⟩ := sound.emptied spent
    obtain ⟨tasks, reports⟩ := sound.conserved.settled idle ready pending
    rw [sound.start] at tasks
    exact ⟨(reports.map Prod.fst).trans tasks, reports, (reports.filterMap batchOf).symm⟩

/-- The lane runtime loses nothing in exactly the runs in which every drawn unit
finds a lane with a free slot. -/
theorem covered_iff_served (positive : 0 < settings.workers) {phase : Nat}
    {labels : List Label} {final : State Indices Memory Value Failure}
    (reached : (machine settings program).run (initial settings program skip phase)
      labels = some (trace, final)) :
    Covered settings program skip trace final ↔
      (machine settings program).Along (Served settings)
        (initial settings program skip phase) labels := by
  constructor
  · intro covered
    exact served_of_submitted reached covered.submitted
  · intro served
    exact (run_sound positive served reached).covered

end Steps

/-! ### Lanes over finite streams -/

/-- Every lane iterates its own stream, whatever the unit. -/
def streamLanes (streams : Nat → List Value) :
    LaneProgram Indices (List Value) Value Failure where
  start := streams
  fetch stream _ :=
    match stream with
    | [] => (.exhausted, [])
    | value :: rest => (.batch value, rest)

/-! ### Three lanes, the first of them empty -/

def threeLanes : Settings Unit where
  workers := 3
  prefetch := 1
  inOrder := false
  iterable := true
  sampler _ := some ()

def threeStreams : LaneProgram Unit (List Nat) Nat Unit :=
  streamLanes fun lane =>
    match lane with
    | 1 => [10, 11]
    | 2 => [20, 21]
    | _ => []

/-- Lane 0 ends while lanes 1 and 2 each hold one task: the limit of one task a
lane leaves the next unit without a lane, and the sampler is given up. -/
def strandedRun : List Label :=
  [.consume, .consume, .call, .consume, .consume, .consume, .take 0, .publish 0,
    .consume, .consume, .consume, .consume, .consume, .take 1, .publish 1, .take 2,
    .publish 2, .consume, .consume, .consume, .consume, .consume, .consume, .call,
    .consume, .consume, .consume, .consume, .consume, .consume, .call, .consume,
    .consume]

theorem exhausted_lane_strands_batches :
    ∃ trace final,
      (machine threeLanes threeStreams).run (initial threeLanes threeStreams 0 0)
        strandedRun = some (trace, final) ∧
      final.closed = true ∧ (yields trace).map Prod.snd = [10, 20] ∧
      (final.lanes 1).memory = [11] ∧ (final.lanes 2).memory = [21] ∧
      ¬ Covered threeLanes threeStreams 0 trace final := by
  refine ⟨_, _, rfl, rfl, rfl, rfl, rfl, ?_⟩
  intro covered
  have drawn : 4 + 0 = 3 + 0 := covered.submitted
  exact absurd drawn (by decide)

def oneLane : Settings Unit := { threeLanes with workers := 1 }

def oneStream : LaneProgram Unit (List Nat) Nat Unit := streamLanes fun _ => [5]

def wholeRun : List Label :=
  [.consume, .consume, .call, .consume, .consume, .take 0, .publish 0, .consume, .consume,
    .consume, .consume, .consume, .call, .consume, .consume, .take 0, .publish 0,
    .consume, .consume, .consume, .consume, .consume, .consume]

/-- One lane serves its whole stream. -/
theorem covered_iff_served_example :
    ∃ trace final,
      (machine oneLane oneStream).run (initial oneLane oneStream 0 0) wholeRun =
        some (trace, final) ∧
      final.closed = true ∧ yields trace = [(0, 5)] ∧
      (Covered oneLane oneStream 0 trace final ↔
        (machine oneLane oneStream).Along (Served oneLane)
          (initial oneLane oneStream 0 0) wholeRun) :=
  ⟨_, _, rfl, rfl, rfl, covered_iff_served (by decide) rfl⟩

end Hyperloader.Compat
