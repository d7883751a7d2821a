/-
Module: Hyperloader.Control.MachineKeeper
Purpose: One core of the machine keeper, control/machine_keeper/mod.rs: the calls of `CoreKeeper`
  against the loop of its thread, one access of the shared state at a time.
Trusted boundary: the atomics are sequentially consistent; `unpark` leaves one token, which `park`
  takes, and `park` may return without one; the arithmetic of the busy loop is left out.
Main exports: CoreKeeper, CoreKeeper.machine, close_returns, activations_bounded, park_lost_iff,
  keeper_duty_ranged
-/
import Mathlib.Data.List.Chain
import Hyperloader.Control.DutyTuner

namespace Hyperloader.Control.MachineKeeper

open Foundations

def DUTY_SCALE : Nat := 1000000

/-- 500 ms -/
def TUNING_WINDOW : Nat := 500000000

def U64_MAX : Nat := 2 ^ 64 - 1

def saturatingAdd (left right : Nat) : Nat := min (left + right) U64_MAX

def saturatingMul (left right : Nat) : Nat := min (left * right) U64_MAX

/-! ### What the thread keeps -/

structure SharedState where
  active : Bool
  probe : Bool
  stop : Bool
  duty : Nat
  parkDeadlineNs : Nat

/-- `regime.rs` -/
structure ActivityProbe where
  primed : Bool

def ActivityProbe.observe (probe : ActivityProbe) : Option Nat → Bool × ActivityProbe
  | none => (true, probe)
  | some entries =>
      if probe.primed then (decide (0 < entries), probe) else (false, { primed := true })

/-- `idle.rs`, over the totals that `read_total` finds. -/
structure IdleEntryMonitor where
  previous : Nat

namespace IdleEntryMonitor

def reset (monitor : IdleEntryMonitor) : Option Nat → IdleEntryMonitor
  | some total => { previous := total }
  | none => monitor

def delta (monitor : IdleEntryMonitor) : Option Nat → Option Nat × IdleEntryMonitor
  | some total => (some (total - monitor.previous), { previous := total })
  | none => (none, monitor)

end IdleEntryMonitor

/-- `pulse.rs`, for Linux. -/
structure PeriodicPulse where
  periodNs : Nat
  nextStartNs : Nat

namespace PeriodicPulse

def activeUntil (pulse : PeriodicPulse) (activeNs : Nat) : Nat :=
  saturatingAdd pulse.nextStartNs activeNs

/-- `wait_next`, up to the sleep. -/
def waitNext (pulse : PeriodicPulse) (now : Nat) : PeriodicPulse :=
  let elapsed := now - pulse.nextStartNs
  let periods := elapsed / pulse.periodNs + 1
  { pulse with
    nextStartNs := saturatingAdd pulse.nextStartNs (saturatingMul pulse.periodNs periods) }

end PeriodicPulse

/-! ### The thread -/

/-- Where the thread is in `run_loop`, by the access it makes next. -/
inductive Point where
  | head
  | deadline
  | expiry (deadline : Nat)
  | disarm
  | expire
  | gate
  | parked
  | woken
  | probing
  | deciding
  | activating
  | duty
  | pulsing (activeUntil : Nat)
  | window
  | publish (next : Option Nat)
  | rest
  | sleeping
  | done
deriving DecidableEq

structure Worker where
  point : Point
  wasActive : Bool
  monitor : Option IdleEntryMonitor
  activityProbe : ActivityProbe
  tuner : DutyTuner
  windowStarted : Nat
  pulse : PeriodicPulse

/-- What a step of the thread reads of the world: the clocks and the idle counters. -/
structure Reading where
  monotonicNs : Nat
  instant : Nat
  total : Option Nat

/-- The one access of a step that writes. -/
inductive Effect where
  | none
  | takeToken
  | clearDeadline
  | clearActive
  | swapProbe
  | setActive
  | storeDuty (next : Nat)

inductive Event where
  | silent
  | probed
  | activated
  | deferred (deadline : Nat)
  | expired (deadline : Nat)
  /-- what `duty` returns, in units of its scale -/
  | reported (duty : Nat)
  | joined
deriving DecidableEq

namespace Worker

def goes (worker : Worker) (point : Point) : Worker := { worker with point }

/-- One access of `run_loop`; nothing where the thread waits, and where the addition of the tuner
overflows. -/
def step (worker : Worker) (shared : SharedState) (token : Bool) (reading : Reading) :
    Option (Event × Effect × Worker) :=
  match worker.point with
  | .head => some (.silent, .none, worker.goes (if shared.stop then .done else .deadline))
  | .deadline => some (.silent, .none, worker.goes (.expiry shared.parkDeadlineNs))
  | .expiry deadline =>
      if deadline ≠ 0 ∧ deadline ≤ reading.monotonicNs then
        some (.expired deadline, .none, worker.goes .disarm)
      else some (.silent, .none, worker.goes .gate)
  | .disarm => some (.silent, .clearDeadline, worker.goes .expire)
  | .expire => some (.silent, .clearActive, worker.goes .head)
  | .gate =>
      if shared.active then some (.silent, .none, { worker with point := .duty, wasActive := true })
      else if worker.wasActive then
        some (.silent, .none, { worker with
          point := .parked
          wasActive := false
          monitor := worker.monitor.map fun entries => entries.reset reading.total })
      else some (.silent, .none, worker.goes .parked)
  | .parked => if token then some (.silent, .takeToken, worker.goes .woken) else none
  | .woken => some (.silent, .none, worker.goes (if shared.stop then .done else .probing))
  | .probing =>
      some (.silent, .swapProbe, worker.goes (if shared.probe then .deciding else .head))
  | .deciding =>
      let poweredDownEntries := worker.monitor.bind fun entries => (entries.delta reading.total).1
      let (activates, activityProbe) := worker.activityProbe.observe poweredDownEntries
      some (.silent, .none, { worker with
        point := if activates then .activating else .head
        monitor := worker.monitor.map fun entries => (entries.delta reading.total).2
        activityProbe })
  | .activating =>
      some (.activated, .setActive, { worker with
        point := .head
        windowStarted := reading.instant
        pulse := { worker.pulse with nextStartNs := reading.monotonicNs }
        monitor := worker.monitor.map fun entries => entries.reset reading.total })
  | .duty =>
      let activeNs := saturatingMul worker.pulse.periodNs shared.duty / DUTY_SCALE
      some (.silent, .none, worker.goes (.pulsing (worker.pulse.activeUntil (max activeNs 1))))
  | .pulsing activeUntil =>
      if reading.monotonicNs < activeUntil ∧ shared.active = true then
        some (.silent, .none, worker)
      else some (.silent, .none, worker.goes .window)
  | .window =>
      if TUNING_WINDOW ≤ reading.instant - worker.windowStarted then
        match worker.monitor with
        | some entries =>
            let (poweredDownEntries, monitor) := entries.delta reading.total
            (worker.tuner.observe (poweredDownEntries.getD U64_MAX)).map fun (next, tuner) =>
              (.silent, .none, { worker with
                point := .publish (some next), monitor := some monitor, tuner })
        | none => some (.silent, .none, worker.goes (.publish none))
      else some (.silent, .none, worker.goes .rest)
  | .publish next =>
      some (.silent, next.elim .none .storeDuty, { worker with
        point := .rest, windowStarted := reading.instant })
  | .rest =>
      some (.silent, .none, { worker with
        point := .sleeping, pulse := worker.pulse.waitNext reading.monotonicNs })
  | .sleeping =>
      if worker.pulse.nextStartNs ≤ reading.monotonicNs then
        some (.silent, .none, worker.goes .head)
      else none
  | .done => none

end Worker

/-! ### The calls -/

/-- An access of a call that is still to be made. -/
inductive Access where
  | setStop
  | storeDeadline (deadline : Nat)
  | clearProbe
  | clearActive
  | setProbe
  | unpark
  | join
  /-- the load of `observe_gap` -/
  | gapActive
  /-- the load of `defer_park` -/
  | deferActive (nanoseconds : Nat)
  /-- the clock of `defer_park` -/
  | deferDeadline (nanoseconds : Nat)
  /-- the loads of `duty` -/
  | dutyActive
  | loadDuty
deriving DecidableEq

inductive Call where
  | observeGap (nanoseconds : Nat)
  | deferPark (nanoseconds : Nat)
  | park
  | duty
  | close
deriving DecidableEq

/-- `park` -/
def parkAccesses : List Access := [.storeDeadline 0, .clearProbe, .clearActive]

/-- `close`, with a thread to join. -/
def closeAccesses : List Access :=
  [.setStop, .storeDeadline 0, .clearProbe, .clearActive, .unpark, .join]

def Call.accesses (minimumGapNs : Nat) : Call → List Access
  | .observeGap nanoseconds =>
      if nanoseconds < minimumGapNs then [.storeDeadline 0, .clearProbe, .clearActive]
      else [.storeDeadline 0, .gapActive]
  | .deferPark nanoseconds => if nanoseconds = 0 then parkAccesses else [.deferActive nanoseconds]
  | .park => parkAccesses
  | .duty => [.dutyActive]
  | .close => closeAccesses

/-- `worker` is the `JoinHandle`; `thread` is the thread it stands for, and `token` its token. The
calls come one after another, under the lock of `PyMachineKeeper`. -/
structure CoreKeeper where
  shared : SharedState
  worker : Bool
  minimumGapNs : Nat
  token : Bool
  thread : Worker
  pending : List Access

inductive Label where
  | call (call : Call)
  | access (now : Nat)
  | work (reading : Reading)
  /-- `park` returns without a token -/
  | wake

namespace CoreKeeper

/-- `CoreKeeper::new`, past the message of the thread; `monitor` is what `discover` found. -/
def new (maximum initial minimumGapNs : Nat) (monitor : Option IdleEntryMonitor)
    (reading : Reading) : CoreKeeper :=
  { shared :=
      { active := false, probe := false, stop := false, duty := initial, parkDeadlineNs := 0 }
    worker := true
    minimumGapNs
    token := false
    thread :=
      { point := .head
        wasActive := false
        monitor
        activityProbe := { primed := false }
        tuner := DutyTuner.new initial maximum
        windowStarted := reading.instant
        pulse :=
          { periodNs := DutyTuner.clamp (minimumGapNs / 2) 100000 1000000
            nextStartNs := reading.monotonicNs } }
    pending := [] }

/-- The effect of a step of the thread. -/
def affected (keeper : CoreKeeper) : Effect → CoreKeeper
  | .none => keeper
  | .takeToken => { keeper with token := false }
  | .clearDeadline => { keeper with shared := { keeper.shared with parkDeadlineNs := 0 } }
  | .clearActive => { keeper with shared := { keeper.shared with active := false } }
  | .swapProbe => { keeper with shared := { keeper.shared with probe := false } }
  | .setActive => { keeper with shared := { keeper.shared with active := true } }
  | .storeDuty next => { keeper with shared := { keeper.shared with duty := next } }

/-- A call begins; one on a keeper that `PyMachineKeeper` has given up, other than the `close` of
`Drop`, does nothing. -/
def begins (keeper : CoreKeeper) (call : Call) : CoreKeeper :=
  if keeper.worker ∨ call = .close then
    { keeper with pending := call.accesses keeper.minimumGapNs }
  else keeper

/-- The next access of the call; nothing where `join` waits for the thread. -/
def accessed (keeper : CoreKeeper) (now : Nat) : Option (Event × CoreKeeper) :=
  match keeper.pending with
  | [] => none
  | .setStop :: rest =>
      some (.silent, { keeper with
        shared := { keeper.shared with stop := true }, pending := rest })
  | .storeDeadline deadline :: rest =>
      some (.silent, { keeper with
        shared := { keeper.shared with parkDeadlineNs := deadline }, pending := rest })
  | .clearProbe :: rest =>
      some (.silent, { keeper with
        shared := { keeper.shared with probe := false }, pending := rest })
  | .clearActive :: rest =>
      some (.silent, { keeper with
        shared := { keeper.shared with active := false }, pending := rest })
  | .setProbe :: rest =>
      some (.probed, { keeper with
        shared := { keeper.shared with probe := true }, pending := rest })
  | .unpark :: rest =>
      some (.silent, { keeper with token := keeper.token || keeper.worker, pending := rest })
  | .join :: rest =>
      if keeper.worker then
        if keeper.thread.point = .done then
          some (.joined, { keeper with worker := false, pending := rest })
        else none
      else some (.silent, { keeper with pending := rest })
  | .gapActive :: rest =>
      if keeper.shared.active then some (.silent, { keeper with pending := rest })
      else some (.silent, { keeper with pending := .setProbe :: .unpark :: rest })
  | .deferActive nanoseconds :: rest =>
      if keeper.shared.active then
        some (.silent, { keeper with pending := .deferDeadline nanoseconds :: rest })
      else some (.silent, { keeper with pending := parkAccesses ++ rest })
  | .deferDeadline nanoseconds :: rest =>
      let deadline := saturatingAdd now nanoseconds
      some (.deferred deadline, { keeper with pending := .storeDeadline deadline :: rest })
  | .dutyActive :: rest =>
      if keeper.shared.active then some (.silent, { keeper with pending := .loadDuty :: rest })
      else some (.reported 0, { keeper with pending := rest })
  | .loadDuty :: rest => some (.reported keeper.shared.duty, { keeper with pending := rest })

def machine : Machine CoreKeeper Label Event where
  step
    | keeper, .call call =>
        match keeper.pending with
        | [] => some (.silent, keeper.begins call)
        | _ :: _ => none
    | keeper, .access now => keeper.accessed now
    | keeper, .work reading =>
        (keeper.thread.step keeper.shared keeper.token reading).map fun (event, effect, thread) =>
          (event, { keeper.affected effect with thread })
    | keeper, .wake =>
        if keeper.thread.point = .parked then
          some (.silent, { keeper with thread := keeper.thread.goes .woken })
        else none

end CoreKeeper

/-! ### What a step of the thread does -/

section Steps

variable {worker after : Worker} {shared : SharedState} {token : Bool} {reading : Reading}
  {event : Event} {effect : Effect}

/-- The steps of `run_loop`, each with what it found. -/
inductive Moves (worker : Worker) (shared : SharedState) (token : Bool) (reading : Reading) :
    Event → Effect → Worker → Prop where
  | stopped (here : worker.point = .head ∨ worker.point = .woken) (stop : shared.stop = true) :
      Moves worker shared token reading .silent .none (worker.goes .done)
  | entered (here : worker.point = .head) (runs : shared.stop = false) :
      Moves worker shared token reading .silent .none (worker.goes .deadline)
  | loaded (here : worker.point = .deadline) :
      Moves worker shared token reading .silent .none (worker.goes (.expiry shared.parkDeadlineNs))
  | expired {deadline : Nat} (here : worker.point = .expiry deadline) (armed : deadline ≠ 0)
      (late : deadline ≤ reading.monotonicNs) :
      Moves worker shared token reading (.expired deadline) .none (worker.goes .disarm)
  | unexpired {deadline : Nat} (here : worker.point = .expiry deadline) :
      Moves worker shared token reading .silent .none (worker.goes .gate)
  | disarmed (here : worker.point = .disarm) :
      Moves worker shared token reading .silent .clearDeadline (worker.goes .expire)
  | deactivated (here : worker.point = .expire) :
      Moves worker shared token reading .silent .clearActive (worker.goes .head)
  | admitted (here : worker.point = .gate) (active : shared.active = true) :
      Moves worker shared token reading .silent .none
        { worker with point := .duty, wasActive := true }
  | parks (here : worker.point = .gate) (passive : shared.active = false) :
      Moves worker shared token reading .silent .none { worker with
        point := .parked
        wasActive := false
        monitor := worker.monitor.map fun entries => entries.reset reading.total }
  | parksAgain (here : worker.point = .gate) (passive : shared.active = false) :
      Moves worker shared token reading .silent .none (worker.goes .parked)
  | woke (here : worker.point = .parked) (unparked : token = true) :
      Moves worker shared token reading .silent .takeToken (worker.goes .woken)
  | resumed (here : worker.point = .woken) (runs : shared.stop = false) :
      Moves worker shared token reading .silent .none (worker.goes .probing)
  | swapped (here : worker.point = .probing) :
      Moves worker shared token reading .silent .swapProbe
        (worker.goes (if shared.probe then .deciding else .head))
  | decided {activates : Bool} {activityProbe : ActivityProbe}
      (here : worker.point = .deciding)
      (observes : worker.activityProbe.observe
        (worker.monitor.bind fun entries => (entries.delta reading.total).1) =
          (activates, activityProbe)) :
      Moves worker shared token reading .silent .none { worker with
        point := if activates then .activating else .head
        monitor := worker.monitor.map fun entries => (entries.delta reading.total).2
        activityProbe }
  | activated (here : worker.point = .activating) :
      Moves worker shared token reading .activated .setActive { worker with
        point := .head
        windowStarted := reading.instant
        pulse := { worker.pulse with nextStartNs := reading.monotonicNs }
        monitor := worker.monitor.map fun entries => entries.reset reading.total }
  | measured (here : worker.point = .duty) :
      Moves worker shared token reading .silent .none (worker.goes (.pulsing
        (worker.pulse.activeUntil
          (max (saturatingMul worker.pulse.periodNs shared.duty / DUTY_SCALE) 1))))
  | pulses {activeUntil : Nat} (here : worker.point = .pulsing activeUntil)
      (active : shared.active = true) : Moves worker shared token reading .silent .none worker
  | pulsed {activeUntil : Nat} (here : worker.point = .pulsing activeUntil) :
      Moves worker shared token reading .silent .none (worker.goes .window)
  | tuned {entries monitor : IdleEntryMonitor} {observed next : Nat} {tuner : DutyTuner}
      (here : worker.point = .window) (some : worker.monitor = some entries)
      (observes : worker.tuner.observe observed = Option.some (next, tuner)) :
      Moves worker shared token reading .silent .none { worker with
        point := .publish (Option.some next), monitor := Option.some monitor, tuner }
  | untuned (here : worker.point = .window) :
      Moves worker shared token reading .silent .none (worker.goes (.publish none))
  | early (here : worker.point = .window) :
      Moves worker shared token reading .silent .none (worker.goes .rest)
  | published {next : Option Nat} (here : worker.point = .publish next) :
      Moves worker shared token reading .silent (next.elim .none .storeDuty)
        { worker with point := .rest, windowStarted := reading.instant }
  | rested (here : worker.point = .rest) :
      Moves worker shared token reading .silent .none { worker with
        point := .sleeping, pulse := worker.pulse.waitNext reading.monotonicNs }
  | slept (here : worker.point = .sleeping) :
      Moves worker shared token reading .silent .none (worker.goes .head)

theorem Worker.moves (stepEq : worker.step shared token reading = some (event, effect, after)) :
    Moves worker shared token reading event effect after := by
  unfold Worker.step at stepEq
  split at stepEq
  case h_1 here =>
      cases stop : shared.stop <;> rw [stop] at stepEq <;> cases stepEq
      · exact .entered here stop
      · exact .stopped (Or.inl here) stop
  case h_2 here =>
      cases stepEq
      exact .loaded here
  case h_3 deadline here =>
      split at stepEq <;> cases stepEq
      · rename_i armed
        exact .expired here armed.1 armed.2
      · exact .unexpired here
  case h_4 here =>
      cases stepEq
      exact .disarmed here
  case h_5 here =>
      cases stepEq
      exact .deactivated here
  case h_6 here =>
      cases active : shared.active <;> rw [active] at stepEq
      · split at stepEq
        · rename_i impossible
          cases impossible
        · split at stepEq <;> cases stepEq
          · exact .parks here active
          · exact .parksAgain here active
      · cases stepEq
        exact .admitted here active
  case h_7 here =>
      split at stepEq <;> cases stepEq
      rename_i unparked
      exact .woke here unparked
  case h_8 here =>
      cases stop : shared.stop <;> rw [stop] at stepEq <;> cases stepEq
      · exact .resumed here stop
      · exact .stopped (Or.inr here) stop
  case h_9 here =>
      cases stepEq
      exact .swapped here
  case h_10 here =>
      dsimp only at stepEq
      cases stepEq
      exact .decided here rfl
  case h_11 here =>
      cases stepEq
      exact .activated here
  case h_12 here =>
      cases stepEq
      exact .measured here
  case h_13 activeUntil here =>
      split at stepEq <;> cases stepEq
      · rename_i before
        exact .pulses here before.2
      · exact .pulsed here
  case h_14 here =>
      split at stepEq
      · split at stepEq
        · rename_i entries there
          dsimp only at stepEq
          obtain ⟨⟨next, tuner⟩, observes, same⟩ := Option.map_eq_some_iff.mp stepEq
          cases same
          exact .tuned here there observes
        · cases stepEq
          exact .untuned here
      · cases stepEq
        exact .early here
  case h_15 next here =>
      cases stepEq
      exact .published here
  case h_16 here =>
      cases stepEq
      exact .rested here
  case h_17 here =>
      split at stepEq <;> cases stepEq
      exact .slept here
  case h_18 => cases stepEq

end Steps

namespace CoreKeeper

variable {keeper after : CoreKeeper} {label : Label} {event : Event}

@[simp] theorem affected_pending (effect : Effect) :
    (keeper.affected effect).pending = keeper.pending := by cases effect <;> rfl

@[simp] theorem affected_worker (effect : Effect) :
    (keeper.affected effect).worker = keeper.worker := by cases effect <;> rfl

@[simp] theorem affected_minimumGapNs (effect : Effect) :
    (keeper.affected effect).minimumGapNs = keeper.minimumGapNs := by cases effect <;> rfl

@[simp] theorem affected_stop (effect : Effect) :
    (keeper.affected effect).shared.stop = keeper.shared.stop := by cases effect <;> rfl

/-- Everything a step of the machine can be. -/
inductive Step (keeper : CoreKeeper) : Label → Event → CoreKeeper → Prop where
  | called {call : Call} (free : keeper.pending = []) :
      Step keeper (.call call) .silent (keeper.begins call)
  | accessed {now : Nat} {event : Event} {after : CoreKeeper}
      (makes : keeper.accessed now = some (event, after)) :
      Step keeper (.access now) event after
  | worked {reading : Reading} {event : Event} {effect : Effect} {thread : Worker}
      (moves : Moves keeper.thread keeper.shared keeper.token reading event effect thread) :
      Step keeper (.work reading) event { keeper.affected effect with thread }
  | woken (here : keeper.thread.point = .parked) :
      Step keeper .wake .silent { keeper with thread := keeper.thread.goes .woken }

theorem step_cases (stepEq : machine.step keeper label = some (event, after)) :
    Step keeper label event after := by
  cases label with
  | call call =>
      dsimp only [machine] at stepEq
      split at stepEq <;> cases stepEq
      rename_i free
      exact .called free
  | access now => exact .accessed stepEq
  | work reading =>
      obtain ⟨⟨event, effect, thread⟩, moves, same⟩ := Option.map_eq_some_iff.mp stepEq
      cases same
      exact .worked (Worker.moves moves)
  | wake =>
      dsimp only [machine] at stepEq
      split at stepEq <;> cases stepEq
      rename_i here
      exact .woken here

end CoreKeeper

/-! ### Closing -/

/-- Not an access of `close` alone. -/
def Access.plain : Access → Bool
  | .setStop | .join => false
  | _ => true

/-- Steps the thread has still to make at most, once the keeper is stopped and inactive. -/
def Point.remaining : Point → Nat
  | .done => 0
  | .head | .woken => 1
  | .activating | .expire | .parked | .sleeping => 2
  | .deciding | .disarm | .gate | .rest => 3
  | .probing | .expiry _ | .publish _ => 4
  | .window | .deadline => 5
  | .pulsing _ => 6
  | .duty => 7

namespace CoreKeeper

/-- What `close` has brought about by the accesses it has made. -/
structure Closing (keeper : CoreKeeper) (made : Nat) : Prop where
  pending : keeper.pending = closeAccesses.drop made
  bounded : made ≤ closeAccesses.length
  quiet : 4 ≤ made → keeper.shared.active = true →
    keeper.thread.point = .head ∨ keeper.thread.point = .done
  /-- the token is there, or the thread has come past `park` with it -/
  unparked : 5 ≤ made → keeper.worker = true → keeper.token = true ∨
    keeper.thread.point = .woken ∨ keeper.thread.point = .done
  joined : made = 6 → keeper.worker = false

/-- Over every run: what is still to be made, and what the stop flag tells. -/
structure Sound (keeper : CoreKeeper) : Prop where
  runs : keeper.shared.stop = false → keeper.worker = true ∧
    (keeper.pending = closeAccesses ∨ ∀ access ∈ keeper.pending, access.plain = true)
  stops : keeper.shared.stop = true → ∃ made, Closing keeper made
  ended : keeper.worker = false → keeper.thread.point = .done

variable {keeper after : CoreKeeper} {label : Label} {event : Event}

theorem sound_new (maximum initial minimumGapNs : Nat) (monitor : Option IdleEntryMonitor)
    (reading : Reading) : Sound (new maximum initial minimumGapNs monitor reading) where
  runs _ := ⟨rfl, Or.inr fun _ member => by cases member⟩
  stops := fun stop => by cases stop
  ended := fun joined => by cases joined

theorem plain_accesses {call : Call} (other : call ≠ .close) (minimumGapNs : Nat) :
    ∀ access ∈ call.accesses minimumGapNs, access.plain = true := by
  cases call with
  | observeGap nanoseconds =>
      simp only [Call.accesses]
      split <;> simp [Access.plain]
  | deferPark nanoseconds =>
      simp only [Call.accesses, parkAccesses]
      split <;> simp [Access.plain]
  | park | duty => simp [Call.accesses, parkAccesses, Access.plain]
  | close => exact absurd rfl other

theorem Sound.begins {call : Call} (sound : Sound keeper) (free : keeper.pending = []) :
    Sound (keeper.begins call) := by
  unfold CoreKeeper.begins
  split
  · rename_i here
    refine ⟨fun runs => ⟨(sound.runs runs).1, ?_⟩, fun stop => ?_, sound.ended⟩
    · by_cases closes : call = .close
      · exact Or.inl (closes ▸ rfl)
      · exact Or.inr (plain_accesses closes _)
    · -- the thread is joined by now, and the call is the `close` of `Drop`
      obtain ⟨made, closing⟩ := sound.stops stop
      have last : made = 6 := by
        have whole := closing.pending.symm.trans free
        have := closing.bounded
        have short := List.drop_eq_nil_iff.mp whole
        exact Nat.le_antisymm this short
      have closes : call = .close := here.resolve_left (by simp [closing.joined last])
      subst closes
      exact ⟨0, rfl, Nat.zero_le _, fun early => by omega, fun early => by omega,
        fun early => by omega⟩
  · exact sound

/-- An access other than those of `close`, while the keeper is not stopped. -/
theorem accessed_plain {now : Nat} {access : Access} {rest : List Access}
    (next : keeper.pending = access :: rest) (plain : access.plain = true)
    (later : ∀ other ∈ rest, other.plain = true)
    (makes : keeper.accessed now = some (event, after)) :
    after.shared.stop = keeper.shared.stop ∧ after.worker = keeper.worker ∧
      after.thread = keeper.thread ∧ ∀ other ∈ after.pending, other.plain = true := by
  unfold accessed at makes
  rw [next] at makes
  cases access with
  | setStop | join => cases plain
  | storeDeadline | clearProbe | clearActive | setProbe | unpark | loadDuty =>
      cases makes
      exact ⟨rfl, rfl, rfl, later⟩
  | gapActive =>
      dsimp only at makes
      split at makes <;> cases makes
      · exact ⟨rfl, rfl, rfl, later⟩
      · exact ⟨rfl, rfl, rfl, List.forall_mem_cons.mpr ⟨rfl, List.forall_mem_cons.mpr ⟨rfl, later⟩⟩⟩
  | deferActive nanoseconds =>
      dsimp only at makes
      split at makes <;> cases makes
      · exact ⟨rfl, rfl, rfl, List.forall_mem_cons.mpr ⟨rfl, later⟩⟩
      · refine ⟨rfl, rfl, rfl, fun other member => ?_⟩
        rcases List.mem_append.mp member with first | last
        · exact (show ∀ access ∈ parkAccesses, access.plain = true by decide) other first
        · exact later other last
  | deferDeadline nanoseconds =>
      cases makes
      exact ⟨rfl, rfl, rfl, List.forall_mem_cons.mpr ⟨rfl, later⟩⟩
  | dutyActive =>
      dsimp only at makes
      split at makes <;> cases makes
      · exact ⟨rfl, rfl, rfl, List.forall_mem_cons.mpr ⟨rfl, later⟩⟩
      · exact ⟨rfl, rfl, rfl, later⟩

/-- The next access of `close`. -/
theorem Closing.accessed {made now : Nat} (closing : Closing keeper made)
    (makes : keeper.accessed now = some (event, after)) :
    Closing after (made + 1) ∧ after.thread = keeper.thread ∧
      (made = 0 ∨ keeper.shared.stop = true → after.shared.stop = true) ∧
      (after.worker = false → keeper.worker = false ∨ keeper.thread.point = .done) := by
  obtain ⟨pending, bounded, quiet, unparked, joined⟩ := closing
  unfold CoreKeeper.accessed at makes
  rw [pending] at makes
  match made, bounded with
  | 0, _ =>
      cases makes
      exact ⟨⟨rfl, by decide, fun early => by omega, fun early => by omega,
        fun early => by omega⟩, rfl, fun _ => rfl, Or.inl⟩
  | 1, _ | 2, _ =>
      cases makes
      exact ⟨⟨rfl, by decide, fun early => by omega, fun early => by omega,
        fun early => by omega⟩, rfl, fun stop => stop.resolve_left (by decide), Or.inl⟩
  | 3, _ =>
      cases makes
      exact ⟨⟨rfl, by decide, fun _ active => (by cases active), fun early => by omega,
        fun early => by omega⟩, rfl, fun stop => stop.resolve_left (by decide), Or.inl⟩
  | 4, _ =>
      cases makes
      refine ⟨⟨rfl, by decide, fun _ => quiet (by decide), fun _ held => Or.inl ?_,
        fun early => by omega⟩, rfl, fun stop => stop.resolve_left (by decide), Or.inl⟩
      simp [show keeper.worker = true from held]
  | 5, _ =>
      simp only [closeAccesses, List.drop] at makes
      split at makes
      · split at makes <;> cases makes
        rename_i finished
        exact ⟨⟨rfl, by decide, fun _ _ => Or.inr finished,
          fun _ held => (by cases held), fun _ => rfl⟩, rfl,
          fun stop => stop.resolve_left (by decide), fun _ => Or.inr finished⟩
      · cases makes
        rename_i gone
        exact ⟨⟨rfl, by decide, fun _ => quiet (by decide),
          fun _ held => absurd held gone, fun _ => Bool.eq_false_of_not_eq_true gone⟩, rfl,
          fun stop => stop.resolve_left (by decide), Or.inl⟩
  | 6, _ => cases makes

theorem Sound.accessed {now : Nat} (sound : Sound keeper)
    (makes : keeper.accessed now = some (event, after)) : Sound after := by
  by_cases closing : ∃ made, Closing keeper made ∧ (made = 0 ∨ keeper.shared.stop = true)
  · obtain ⟨made, closing, stop⟩ := closing
    obtain ⟨next, thread, stays, finished⟩ := closing.accessed makes
    have stopped := stays stop
    refine ⟨fun runs => ?_, fun _ => ⟨_, next⟩, fun gone => ?_⟩
    · rw [stopped] at runs
      cases runs
    · rw [thread]
      exact (finished gone).elim sound.ended id
  · have runs : keeper.shared.stop = false := by
      apply Bool.eq_false_of_not_eq_true
      intro stop
      obtain ⟨made, there⟩ := sound.stops stop
      exact closing ⟨made, there, Or.inr stop⟩
    obtain ⟨held, closes | plain⟩ := sound.runs runs
    · refine absurd ⟨0, ⟨closes, Nat.zero_le _, ?_, ?_, ?_⟩, Or.inl rfl⟩ closing <;>
        exact fun early => by omega
    · cases next : keeper.pending with
      | nil =>
          unfold CoreKeeper.accessed at makes
          rw [next] at makes
          cases makes
      | cons access rest =>
          rw [next] at plain
          obtain ⟨here, later⟩ := List.forall_mem_cons.mp plain
          obtain ⟨stop, worker, thread, all⟩ := accessed_plain next here later makes
          rw [runs] at stop
          rw [held] at worker
          refine ⟨fun _ => ⟨worker, Or.inr all⟩, fun stopped => ?_, fun gone => ?_⟩
          · rw [stop] at stopped
            cases stopped
          · rw [worker] at gone
            cases gone

/-- A stopped keeper stays as inactive as `close` left it. -/
theorem Closing.worked {made : Nat} {reading : Reading} {effect : Effect} {thread : Worker}
    (closing : Closing keeper made) (stop : keeper.shared.stop = true)
    (moves : Moves keeper.thread keeper.shared keeper.token reading event effect thread) :
    Closing { keeper.affected effect with thread } made := by
  obtain ⟨pending, bounded, quiet, unparked, joined⟩ := closing
  have past (late : 4 ≤ made) (active : keeper.shared.active = true) (elsewhere :
      keeper.thread.point ≠ .head ∧ keeper.thread.point ≠ .done) : False :=
    (quiet late active).elim elsewhere.1 elsewhere.2
  have waits (late : 5 ≤ made) (held : keeper.worker = true) (elsewhere :
      keeper.thread.point ≠ .woken ∧ keeper.thread.point ≠ .done) : keeper.token = true :=
    (unparked late held).resolve_right fun there => there.elim elsewhere.1 elsewhere.2
  refine ⟨by simpa using pending, bounded, fun late active => ?_, fun late held => ?_,
    by simpa using joined⟩
  · cases moves with
    | stopped => exact Or.inr rfl
    | entered _ runs => cases runs.symm.trans stop
    | resumed _ runs => cases runs.symm.trans stop
    | activated => exact Or.inl rfl
    | deactivated => cases active
    | published here =>
        rename_i next
        refine (past late ?_ (by simp [here])).elim
        cases next <;> exact active
    | _ here => exact (past late active (by simp [here])).elim
  · rw [affected_worker] at held
    cases moves with
    | stopped => exact Or.inr (Or.inr rfl)
    | entered _ runs => cases runs.symm.trans stop
    | resumed _ runs => cases runs.symm.trans stop
    | woke => exact Or.inr (Or.inl rfl)
    | published here =>
        rename_i next
        refine Or.inl ?_
        cases next <;> exact waits late held (by simp [here])
    | _ here => exact Or.inl (waits late held (by simp [here]))

theorem Closing.woken {made : Nat} (closing : Closing keeper made)
    (here : keeper.thread.point = .parked) :
    Closing { keeper with thread := keeper.thread.goes .woken } made :=
  ⟨closing.pending, closing.bounded,
    fun late active => by simpa [here] using closing.quiet late active,
    fun _ _ => Or.inr (Or.inl rfl), closing.joined⟩

theorem Sound.step (sound : Sound keeper) (steps : Step keeper label event after) :
    Sound after := by
  cases steps with
  | called free => exact sound.begins free
  | accessed makes => exact sound.accessed makes
  | worked moves =>
      refine ⟨by simpa using sound.runs, fun stop => ?_, fun gone => ?_⟩
      · rw [affected_stop] at stop
        obtain ⟨made, closing⟩ := sound.stops stop
        exact ⟨made, closing.worked stop moves⟩
      · rw [affected_worker] at gone
        have finished := sound.ended gone
        cases moves with
        | stopped here => simp [finished] at here
        | _ here => cases here.symm.trans finished
  | woken here =>
      refine ⟨sound.runs, fun stop => ?_, fun gone => ?_⟩
      · obtain ⟨made, closing⟩ := sound.stops stop
        exact ⟨made, closing.woken here⟩
      · cases here.symm.trans (sound.ended gone)

/-- `close` is past `unpark` and waits for the thread. -/
structure Joining (keeper : CoreKeeper) : Prop where
  waits : keeper.pending = [.join]
  stop : keeper.shared.stop = true
  closing : Closing keeper 5

theorem Sound.joining (sound : Sound keeper) (waits : keeper.pending = [.join]) :
    Joining keeper := by
  have stop : keeper.shared.stop = true := by
    apply Bool.eq_true_of_not_eq_false
    intro runs
    obtain ⟨-, closes | plain⟩ := sound.runs runs
    · cases waits.symm.trans closes
    · rw [waits] at plain
      cases plain .join List.mem_cons_self
  obtain ⟨made, closing⟩ := sound.stops stop
  have fifth : made = 5 := by
    have length := congrArg List.length (closing.pending.symm.trans waits)
    have bounded := closing.bounded
    simp only [List.length_drop, closeAccesses, List.length_cons, List.length_nil] at length bounded
    omega
  exact ⟨waits, stop, fifth ▸ closing⟩

/-- Steps until the wait is over, at most. -/
def remaining (keeper : CoreKeeper) : Nat :=
  if keeper.worker then keeper.thread.point.remaining + 1 else 0

theorem Joining.moves {reading : Reading} {effect : Effect} {thread : Worker}
    (joining : Joining keeper)
    (moves : Moves keeper.thread keeper.shared keeper.token reading event effect thread) :
    thread.point.remaining < keeper.thread.point.remaining := by
  have inactive (elsewhere : keeper.thread.point ≠ .head ∧ keeper.thread.point ≠ .done) :
      keeper.shared.active = false := by
    apply Bool.eq_false_of_not_eq_true
    intro active
    exact (joining.closing.quiet (by decide) active).elim elsewhere.1 elsewhere.2
  cases moves with
  | stopped here => rcases here with here | here <;> simp [here, Worker.goes, Point.remaining]
  | entered _ runs => cases runs.symm.trans joining.stop
  | resumed _ runs => cases runs.symm.trans joining.stop
  | admitted here active => cases (inactive (by simp [here])).symm.trans active
  | pulses here active => cases (inactive (by simp [here])).symm.trans active
  | swapped here =>
      rw [here]
      simp only [Worker.goes]
      split <;> decide
  | decided here =>
      rw [here]
      dsimp only
      split <;> decide
  | _ here => simp [here, Worker.goes, Point.remaining]

theorem Joining.lowers (joining : Joining keeper) (held : keeper.worker = true)
    (steps : Step keeper label event after) : remaining after < remaining keeper := by
  cases steps with
  | called free => cases joining.waits.symm.trans free
  | accessed makes =>
      unfold CoreKeeper.accessed at makes
      rw [joining.waits] at makes
      simp only [held, if_true] at makes
      split at makes <;> cases makes
      simp [remaining, held]
  | worked moves => simpa [remaining, held] using joining.moves moves
  | woken here => simp [remaining, held, here, Worker.goes, Point.remaining]

end CoreKeeper

/-! ### The duty -/

/-- The thread is not kept waiting, and its tuner is in its range. -/
theorem Worker.step_enabled {worker : Worker} {shared : SharedState} {token : Bool}
    {reading : Reading} {maximum : Nat} (bounded : maximum ≤ 1000000)
    (ranged : DutyTuner.Ranged maximum worker.tuner) (runs : worker.point ≠ .done)
    (unparked : worker.point = .parked → token = true)
    (late : worker.pulse.nextStartNs ≤ reading.monotonicNs) :
    (worker.step shared token reading).isSome = true := by
  cases here : worker.point with
  | head | deadline | disarm | expire | woken | probing | deciding | activating | duty | publish
  | rest => simp [Worker.step, here]
  | expiry =>
      simp only [Worker.step, here]
      split <;> rfl
  | gate =>
      simp only [Worker.step, here]
      split
      · rfl
      · split <;> rfl
  | parked => simp [Worker.step, here, unparked here]
  | pulsing =>
      simp only [Worker.step, here]
      split <;> rfl
  | window =>
      simp only [Worker.step, here]
      split
      · split
        · rename_i entries _
          obtain ⟨tuner, observes, -⟩ :=
            ranged.observed bounded ((entries.delta reading.total).1.getD U64_MAX)
          rw [observes]
          rfl
        · rfl
      · rfl
  | sleeping => simp [Worker.step, here, late]
  | done => exact absurd here runs

namespace CoreKeeper

variable {keeper after : CoreKeeper} {label : Label} {event : Event} {initial maximum : Nat}

def InRange (maximum duty : Nat) : Prop := min DUTY_STEP maximum ≤ duty ∧ duty ≤ maximum

/-- The duty in force is the one the keeper began with or one of its tuner's, and a pulse is busy
for its share of the period. -/
structure Ranged (initial maximum : Nat) (keeper : CoreKeeper) : Prop where
  tuner : DutyTuner.Ranged maximum keeper.thread.tuner
  duty : keeper.shared.duty = initial ∨ InRange maximum keeper.shared.duty
  publish : ∀ next, keeper.thread.point = .publish (some next) → InRange maximum next
  pulse : ∀ activeUntil, keeper.thread.point = .pulsing activeUntil →
    activeUntil ≤ keeper.thread.pulse.nextStartNs +
      max (keeper.thread.pulse.periodNs * maximum / DUTY_SCALE) 1

theorem ranged_new (below : initial ≤ maximum) (minimumGapNs : Nat)
    (monitor : Option IdleEntryMonitor) (reading : Reading) :
    Ranged initial maximum (new maximum initial minimumGapNs monitor reading) where
  tuner := DutyTuner.ranged_new below
  duty := Or.inl rfl
  publish := fun _ here => by cases here
  pulse := fun _ here => by cases here

theorem Ranged.duty_le (ranged : Ranged initial maximum keeper) (below : initial ≤ maximum) :
    keeper.shared.duty ≤ maximum :=
  ranged.duty.elim (fun same => same ▸ below) And.right

theorem accessed_frame {now : Nat} (makes : keeper.accessed now = some (event, after)) :
    after.thread = keeper.thread ∧ after.shared.duty = keeper.shared.duty ∧
      after.minimumGapNs = keeper.minimumGapNs ∧ (after.worker = true → keeper.worker = true) := by
  unfold accessed at makes
  split at makes
  case h_1 => cases makes
  case h_8 =>
      split at makes
      · split at makes <;> cases makes
        exact ⟨rfl, rfl, rfl, fun held => by cases held⟩
      · cases makes
        exact ⟨rfl, rfl, rfl, id⟩
  case h_9 | h_10 | h_12 =>
      split at makes <;> cases makes <;> exact ⟨rfl, rfl, rfl, id⟩
  all_goals
    cases makes
    exact ⟨rfl, rfl, rfl, id⟩

theorem begins_frame (keeper : CoreKeeper) (call : Call) :
    (keeper.begins call).thread = keeper.thread ∧
    (keeper.begins call).shared = keeper.shared ∧
    (keeper.begins call).minimumGapNs = keeper.minimumGapNs ∧
    (keeper.begins call).worker = keeper.worker := by
  unfold begins
  split <;> exact ⟨rfl, rfl, rfl, rfl⟩

/-- A pulse of a duty under the cap ends within the share of the cap. -/
theorem activeUntil_le {pulse : PeriodicPulse} {duty : Nat} (capped : duty ≤ maximum) :
    pulse.activeUntil (max (saturatingMul pulse.periodNs duty / DUTY_SCALE) 1) ≤
      pulse.nextStartNs + max (pulse.periodNs * maximum / DUTY_SCALE) 1 := by
  have share : saturatingMul pulse.periodNs duty / DUTY_SCALE ≤
      pulse.periodNs * maximum / DUTY_SCALE := by
    apply Nat.div_le_div_right
    exact Nat.le_trans (Nat.min_le_left _ _) (Nat.mul_le_mul_left _ capped)
  unfold PeriodicPulse.activeUntil saturatingAdd
  omega

theorem Ranged.worked {reading : Reading} {effect : Effect} {thread : Worker}
    (bounded : maximum ≤ 1000000) (below : initial ≤ maximum)
    (ranged : Ranged initial maximum keeper)
    (moves : Moves keeper.thread keeper.shared keeper.token reading event effect thread) :
    Ranged initial maximum { keeper.affected effect with thread } := by
  have capped := ranged.duty_le below
  obtain ⟨tuner, duty, publish, pulse⟩ := ranged
  cases moves with
  | measured =>
      refine ⟨tuner, duty, fun _ there => (by cases there), fun activeUntil there => ?_⟩
      cases there
      exact activeUntil_le capped
  | pulses here => exact ⟨tuner, duty, publish, pulse⟩
  | tuned here there observes =>
      rename_i entries monitor observed next other
      obtain ⟨after, same, moves⟩ := tuner.observed bounded observed
      rw [observes] at same
      cases same
      have later := tuner.step moves
      refine ⟨later, duty, fun next there => ?_, fun _ there => by cases there⟩
      cases there
      exact ⟨later.floored ▸ later.within.1, later.within.2⟩
  | published here =>
      rename_i next
      cases next with
      | none => exact ⟨tuner, duty, fun _ there => (by cases there), fun _ there => by cases there⟩
      | some next =>
          exact ⟨tuner, Or.inr (publish next here), fun _ there => (by cases there),
            fun _ there => by cases there⟩
  | swapped =>
      refine ⟨tuner, duty, fun next there => ?_, fun next there => ?_⟩ <;>
        · simp only [Worker.goes] at there
          split at there <;> cases there
  | decided =>
      refine ⟨tuner, duty, fun next there => ?_, fun next there => ?_⟩ <;>
        · dsimp only at there
          split at there <;> cases there
  | _ => exact ⟨tuner, duty, fun _ there => (by cases there), fun _ there => by cases there⟩

theorem Ranged.step (bounded : maximum ≤ 1000000) (below : initial ≤ maximum)
    (ranged : Ranged initial maximum keeper) (steps : Step keeper label event after) :
    Ranged initial maximum after := by
  cases steps with
  | @called call free =>
      obtain ⟨thread, shared, -⟩ := begins_frame keeper call
      exact ⟨by rw [thread]; exact ranged.tuner, by rw [shared]; exact ranged.duty,
        by rw [thread]; exact ranged.publish, by rw [thread]; exact ranged.pulse⟩
  | accessed makes =>
      obtain ⟨thread, duty, -⟩ := accessed_frame makes
      exact ⟨by rw [thread]; exact ranged.tuner, by rw [duty]; exact ranged.duty,
        by rw [thread]; exact ranged.publish, by rw [thread]; exact ranged.pulse⟩
  | worked moves => exact ranged.worked bounded below moves
  | woken =>
      exact ⟨ranged.tuner, ranged.duty, fun _ there => (by cases there),
        fun _ there => by cases there⟩

/-- `duty` reports zero, or the duty it finds. -/
theorem Step.reported {duty : Nat} (steps : Step keeper label (.reported duty) after) :
    duty = 0 ∨ duty = keeper.shared.duty := by
  cases steps with
  | accessed makes =>
      unfold CoreKeeper.accessed at makes
      split at makes
      case h_1 => cases makes
      case h_8 =>
          split at makes
          · split at makes <;> cases makes
          · cases makes
      case h_9 | h_10 => split at makes <;> cases makes
      case h_12 =>
          split at makes <;> cases makes
          exact Or.inl rfl
      case h_13 =>
          cases makes
          exact Or.inr rfl
      all_goals cases makes
  | worked moves => cases moves

/-- A keeper without its thread does not get it back. -/
theorem Step.gone (steps : Step keeper label event after) (gone : keeper.worker = false) :
    after.worker = false := by
  cases steps with
  | @called call free => rw [(begins_frame keeper call).2.2.2, gone]
  | accessed makes =>
      apply Bool.eq_false_of_not_eq_true
      intro held
      rw [(accessed_frame makes).2.2.2 held] at gone
      cases gone
  | worked => rw [← gone, affected_worker]
  | woken => exact gone

/-- Within the wait of `close`, or past it. -/
def Ends (keeper : CoreKeeper) : Prop :=
  keeper.worker = false ∨ Sound keeper ∧ keeper.pending = [.join]

theorem Ends.step (ends : Ends keeper) (steps : Step keeper label event after) : Ends after := by
  rcases ends with gone | ⟨sound, waits⟩
  · exact Or.inl (steps.gone gone)
  · have next := sound.step steps
    cases steps with
    | called free => cases waits.symm.trans free
    | accessed makes =>
        unfold CoreKeeper.accessed at makes
        rw [waits] at makes
        dsimp only at makes
        split at makes
        · split at makes <;> cases makes
          exact Or.inl rfl
        · cases makes
          rename_i gone
          exact Or.inl (Bool.eq_false_of_not_eq_true gone)
    | worked => exact Or.inr ⟨next, by simpa using waits⟩
    | woken => exact Or.inr ⟨next, waits⟩

/-- The thread or `join` can go on. -/
theorem Joining.enabled (bounded : maximum ≤ 1000000) (joining : Joining keeper)
    (ranged : Ranged initial maximum keeper) (held : keeper.worker = true) :
    ∃ label event after, machine.step keeper label = some (event, after) := by
  by_cases finished : keeper.thread.point = .done
  · refine ⟨.access 0, .joined, { keeper with worker := false, pending := [] }, ?_⟩
    simp [machine, accessed, joining.waits, held, finished]
  · have unparked (here : keeper.thread.point = .parked) : keeper.token = true :=
      (joining.closing.unparked (by decide) held).resolve_right (by simp [here])
    let late : Reading :=
      { monotonicNs := keeper.thread.pulse.nextStartNs, instant := 0, total := none }
    have enabled : (keeper.thread.step keeper.shared keeper.token late).isSome = true :=
      Worker.step_enabled bounded ranged.tuner finished unparked (Nat.le_refl _)
    obtain ⟨⟨event, effect, thread⟩, stepEq⟩ := Option.isSome_iff_exists.mp enabled
    refine ⟨.work late, event, { keeper.affected effect with thread }, ?_⟩
    simp [machine, stepEq]

theorem remaining_le (keeper : CoreKeeper) : remaining keeper ≤ 8 := by
  unfold remaining Point.remaining
  split
  · split <;> decide
  · exact Nat.zero_le 8

section Runs

variable {minimumGapNs : Nat} {monitor : Option IdleEntryMonitor} {reading : Reading}
  {labels : List Label} {trace : List (Label × Event)}

theorem sound_run (reached : machine.run (new maximum initial minimumGapNs monitor reading) labels =
    some (trace, keeper)) : Sound keeper :=
  machine.run_invariant (fun _ _ _ _ sound _ stepEq => Sound.step sound (step_cases stepEq))
    (sound_new maximum initial minimumGapNs monitor reading) (machine.along_true _ labels) reached

theorem ranged_run (below : initial ≤ maximum) (bounded : maximum ≤ 1000000)
    (reached : machine.run (new maximum initial minimumGapNs monitor reading) labels =
      some (trace, keeper)) : Ranged initial maximum keeper :=
  machine.run_invariant
    (fun _ _ _ _ ranged _ stepEq => Ranged.step bounded below ranged (step_cases stepEq))
    (ranged_new below minimumGapNs monitor reading) (machine.along_true _ labels) reached

/-- Wherever the thread was when `close` began, its `join` returns: while it waits there is always
a step to take, and eight steps, whichever they are, end the wait. -/
theorem close_returns (below : initial ≤ maximum) (bounded : maximum ≤ 1000000)
    (reached : machine.run (new maximum initial minimumGapNs monitor reading) labels =
      some (trace, keeper)) (waits : keeper.pending = [.join]) (held : keeper.worker = true) :
    (∃ label event after, machine.step keeper label = some (event, after)) ∧
      ∀ later laterTrace final, machine.run keeper later = some (laterTrace, final) →
        8 ≤ later.length → final.worker = false ∧ final.thread.point = .done := by
  have sound := sound_run reached
  refine ⟨(sound.joining waits).enabled bounded (ranged_run below bounded reached) held, ?_⟩
  intro later laterTrace final laterReached enough
  have start : Ends keeper := Or.inr ⟨sound, waits⟩
  have positive : ∀ state : CoreKeeper, Ends state → ¬state.worker = false →
      0 < remaining state := by
    intro state _ held
    simp [remaining, Bool.eq_true_of_not_eq_false held]
  have lowers : ∀ (state : CoreKeeper) label event next, Ends state → ¬state.worker = false →
      True → machine.step state label = some (event, next) → remaining next < remaining state := by
    intro state _ _ _ ends held _ stepEq
    obtain ⟨sound, waits⟩ := ends.resolve_left held
    exact (sound.joining waits).lowers (Bool.eq_true_of_not_eq_false held) (step_cases stepEq)
  have gone : final.worker = false :=
    machine.run_settles remaining
      (fun _ _ _ _ ends _ stepEq => Ends.step ends (step_cases stepEq))
      (fun _ _ _ _ gone _ stepEq => (step_cases stepEq).gone gone) positive lowers start
      (machine.along_true _ later) laterReached (Nat.le_trans (remaining_le keeper) enough)
  have whole := machine.run_append reached laterReached
  exact ⟨gone, (sound_run whole).ended gone⟩

/-- In every state the stored duty is the one the keeper began with or within the range of the
tuner, every call of `duty` has reported zero or such a duty, and a pulse is busy for the share of
the cap at most. -/
theorem keeper_duty_ranged (below : initial ≤ maximum) (bounded : maximum ≤ 1000000)
    (reached : machine.run (new maximum initial minimumGapNs monitor reading) labels =
      some (trace, keeper)) :
    (keeper.shared.duty = initial ∨
      min DUTY_STEP maximum ≤ keeper.shared.duty ∧ keeper.shared.duty ≤ maximum) ∧
    (∀ label duty, (label, Event.reported duty) ∈ trace → duty = 0 ∨ duty = initial ∨
      min DUTY_STEP maximum ≤ duty ∧ duty ≤ maximum) ∧
    ∀ activeUntil, keeper.thread.point = .pulsing activeUntil →
      activeUntil ≤ keeper.thread.pulse.nextStartNs +
        max (keeper.thread.pulse.periodNs * maximum / DUTY_SCALE) 1 := by
  have extend : ∀ (_ : List (Label × Event)) (state : CoreKeeper) label event next,
      Ranged initial maximum state → True → machine.step state label = some (event, next) →
      (∀ duty, event = .reported duty → duty = 0 ∨ duty = initial ∨ InRange maximum duty) ∧
        Ranged initial maximum next := by
    intro _ state label event next ranged _ stepEq
    have steps := step_cases stepEq
    refine ⟨?_, ranged.step bounded below steps⟩
    rintro duty rfl
    rcases steps.reported with zero | same
    · exact Or.inl zero
    · rw [same]
      exact Or.inr ranged.duty
  have told := machine.run_history (motive := fun _ => Ranged initial maximum) extend
    (ranged_new below minimumGapNs monitor reading) (machine.along_true _ labels) reached
  refine ⟨told.1.duty, fun label duty member => ?_, told.1.pulse⟩
  obtain ⟨before, rest, split⟩ := List.append_of_mem member
  exact told.2 before label (.reported duty) rest split duty rfl

end Runs

end CoreKeeper

/-! ### Activity and its causes -/

/-- The thread has taken a probe and has not yet dropped it or acted on it. -/
def Point.inFlight : Point → Nat
  | .deciding | .activating => 1
  | _ => 0

/-- An access that may still come to set the probe. -/
def Access.probes : Access → Bool
  | .gapActive | .setProbe => true
  | _ => false

/-- `observe_gap` from the threshold on. -/
def Label.gap (minimumGapNs : Nat) : Label → Bool
  | .call (.observeGap nanoseconds) => decide (minimumGapNs ≤ nanoseconds)
  | _ => false

/-- The idle counters can be read. -/
def Label.readable : Label → Bool
  | .work reading => reading.total.isSome
  | _ => true

def activations (trace : List (Label × Event)) : Nat :=
  trace.countP fun entry => entry.2 == .activated

def gaps (minimumGapNs : Nat) (trace : List (Label × Event)) : Nat :=
  trace.countP fun entry => entry.1.gap minimumGapNs

theorem ActivityProbe.observe_some {probe after : ActivityProbe} {entries : Nat} {activates : Bool}
    (observes : probe.observe (some entries) = (activates, after)) :
    probe.primed = true ∧ after = probe ∨
      activates = false ∧ probe.primed = false ∧ after.primed = true := by
  unfold ActivityProbe.observe at observes
  dsimp only at observes
  cases primed : probe.primed <;> rw [primed] at observes <;> cases observes
  · exact Or.inr ⟨rfl, rfl, rfl⟩
  · exact Or.inl ⟨rfl, rfl⟩

namespace CoreKeeper

variable {keeper after : CoreKeeper} {label : Label} {event : Event}

/-- Probes that may still lead to an activation. -/
def probes (keeper : CoreKeeper) : Nat :=
  keeper.thread.point.inFlight + keeper.shared.probe.toNat + keeper.pending.countP Access.probes

/-- The first probe has gone into a passive window, where the counters tell. -/
def passed (counted : Bool) (keeper : CoreKeeper) : Nat :=
  if counted then keeper.thread.activityProbe.primed.toNat else 0

/-- What the counters tell: no activation before the first window. -/
structure Counts (counted : Bool) (keeper : CoreKeeper) : Prop where
  monitored : counted = true → keeper.thread.monitor.isSome = true
  windowed : counted = true → keeper.thread.point = .activating →
    keeper.thread.activityProbe.primed = true

theorem probes_begins (free : keeper.pending = []) (call : Call) :
    probes (keeper.begins call) ≤
      probes keeper + if (Label.call call).gap keeper.minimumGapNs then 1 else 0 := by
  unfold begins
  split
  · have counted : (call.accesses keeper.minimumGapNs).countP Access.probes ≤
        if (Label.call call).gap keeper.minimumGapNs then 1 else 0 := by
      cases call with
      | observeGap nanoseconds =>
          by_cases small : nanoseconds < keeper.minimumGapNs
          · simp [Call.accesses, small, Access.probes]
          · simp [Call.accesses, small, List.countP_cons, Access.probes, Label.gap,
              Nat.le_of_not_lt small]
      | deferPark nanoseconds =>
          simp only [Call.accesses, parkAccesses]
          split <;> simp [Access.probes]
      | park | duty => simp [Call.accesses, parkAccesses, Access.probes]
      | close => simp [Call.accesses, closeAccesses, Access.probes]
    simp only [probes, free, List.countP_nil]
    omega
  · exact Nat.le_add_right _ _

theorem probes_accessed {now : Nat} (makes : keeper.accessed now = some (event, after)) :
    probes after ≤ probes keeper ∧ event ≠ .activated := by
  have flag : keeper.shared.probe.toNat ≤ 1 := Bool.toNat_le _
  unfold accessed at makes
  split at makes
  case h_1 => cases makes
  case h_4 next =>
      cases makes
      simp [probes, next, Access.probes]
  case h_6 next =>
      cases makes
      simp only [probes, next, List.countP_cons, Access.probes, Bool.toNat_true, if_true]
      exact ⟨by omega, by simp⟩
  case h_8 next =>
      split at makes
      · split at makes <;> cases makes
        simp [probes, next, Access.probes]
      · cases makes
        simp [probes, next, Access.probes]
  case h_9 next | h_10 next | h_12 next =>
      split at makes <;> cases makes <;>
        simp [probes, next, List.countP_cons, Access.probes, parkAccesses]
  all_goals
    rename_i next
    cases makes
    simp [probes, next, Access.probes]

/-- Each activation spends a probe, and so does the first window. -/
theorem probes_worked {counted : Bool} {reading : Reading} {effect : Effect} {thread : Worker}
    (counts : Counts counted keeper) (readable : counted = true → reading.total.isSome = true)
    (moves : Moves keeper.thread keeper.shared keeper.token reading event effect thread) :
    (if event = .activated then 1 else 0) + probes { keeper.affected effect with thread } +
        passed counted { keeper.affected effect with thread } ≤
      probes keeper + passed counted keeper ∧
    Counts counted { keeper.affected effect with thread } := by
  obtain ⟨monitored, windowed⟩ := counts
  cases moves with
  | stopped here =>
      refine ⟨?_, monitored, fun _ there => by cases there⟩
      rcases here with here | here <;>
        simp [probes, passed, here, Worker.goes, Point.inFlight, affected]
  | swapped here =>
      refine ⟨?_, monitored, fun _ there => ?_⟩
      · cases probe : keeper.shared.probe <;>
          simp [probes, passed, here, probe, Worker.goes, Point.inFlight, affected]
      · dsimp only [Worker.goes] at there
        split at there <;> cases there
  | @decided activates activityProbe here observes =>
      cases counted with
      | false =>
          refine ⟨?_, fun never => (by cases never), fun never => (by cases never)⟩
          cases activates <;> simp [probes, passed, here, Point.inFlight, affected]
      | true =>
          obtain ⟨entries, there⟩ := Option.isSome_iff_exists.mp (monitored rfl)
          obtain ⟨total, read⟩ := Option.isSome_iff_exists.mp (readable rfl)
          rw [there, read] at observes
          refine ⟨?_, fun _ => by simp [there], fun _ activating => ?_⟩
          · rcases ActivityProbe.observe_some observes with ⟨-, rfl⟩ | ⟨rfl, fresh, primed⟩
            · cases activates <;> simp [probes, passed, here, Point.inFlight, affected]
            · simp [probes, passed, here, Point.inFlight, affected, fresh, primed]
          · rcases ActivityProbe.observe_some observes with ⟨primed, rfl⟩ | ⟨rfl, -, -⟩
            · exact primed
            · cases activating
  | activated here =>
      refine ⟨?_, fun counted => by simpa using monitored counted, fun _ there => by cases there⟩
      simp only [probes, passed, here, Point.inFlight, affected, if_true]
      omega
  | parks here =>
      refine ⟨?_, fun counted => by simpa using monitored counted, fun _ there => by cases there⟩
      simp [probes, passed, here, Point.inFlight, affected]
  | tuned here =>
      refine ⟨?_, fun _ => rfl, fun _ there => by cases there⟩
      simp [probes, passed, here, Point.inFlight, affected]
  | published here =>
      rename_i next
      refine ⟨?_, monitored, fun _ there => by cases there⟩
      cases next <;> simp [probes, passed, here, Point.inFlight, affected]
  | pulses here =>
      exact ⟨by simp [probes, passed, affected], monitored, windowed⟩
  | _ here =>
      refine ⟨?_, monitored, fun _ there => by cases there⟩
      simp [probes, passed, here, Worker.goes, Point.inFlight, affected]

/-- What one step adds to the activations is paid for by the probes, and what it adds to the
probes by a gap. -/
theorem probes_step {counted : Bool} (counts : Counts counted keeper)
    (readable : counted = true → label.readable = true) (steps : Step keeper label event after) :
    ((if event = .activated then 1 else 0) + probes after + passed counted after ≤
      probes keeper + passed counted keeper +
        if label.gap keeper.minimumGapNs then 1 else 0) ∧
    Counts counted after ∧ after.minimumGapNs = keeper.minimumGapNs := by
  cases steps with
  | @called call free =>
      have paid := probes_begins free call
      obtain ⟨thread, -, same, -⟩ := begins_frame keeper call
      refine ⟨?_, ⟨by rw [thread]; exact counts.monitored, by rw [thread]; exact counts.windowed⟩,
        same⟩
      simp only [passed, thread, reduceCtorEq, if_false]
      omega
  | accessed makes =>
      obtain ⟨fewer, silent⟩ := probes_accessed makes
      obtain ⟨thread, -, same, -⟩ := accessed_frame makes
      refine ⟨?_, ⟨by rw [thread]; exact counts.monitored, by rw [thread]; exact counts.windowed⟩,
        same⟩
      simp only [passed, thread, silent, if_false]
      omega
  | worked moves =>
      obtain ⟨spent, next⟩ := probes_worked counts readable moves
      exact ⟨Nat.le_add_right_of_le spent, next, affected_minimumGapNs _⟩
  | woken here =>
      refine ⟨?_, ⟨counts.monitored, fun _ there => by cases there⟩, rfl⟩
      simp [probes, passed, here, Worker.goes, Point.inFlight]

theorem Step.activating (steps : Step keeper label .activated after) :
    keeper.thread.point = .activating := by
  cases steps with
  | accessed makes => exact absurd rfl (probes_accessed makes).2
  | worked moves =>
      cases moves with
      | activated here => exact here

theorem Step.primed (steps : Step keeper label event after)
    (primed : keeper.thread.activityProbe.primed = true) :
    after.thread.activityProbe.primed = true := by
  cases steps with
  | @called call free => rw [(begins_frame keeper call).1, primed]
  | accessed makes => rw [(accessed_frame makes).1, primed]
  | @worked reading event effect thread moves =>
      cases moves with
      | decided here observes =>
          unfold ActivityProbe.observe at observes
          split at observes
          · cases observes
            exact primed
          · rw [primed, if_pos rfl] at observes
            cases observes
            exact primed
      | _ => exact primed
  | woken => exact primed

/-- Over a run: activations are paid for by the probes at its start and the gaps since. -/
theorem probes_run {counted : Bool} {labels : List Label} {trace : List (Label × Event)}
    {final : CoreKeeper} (counts : Counts counted keeper)
    (readable : ∀ label ∈ labels, counted = true → label.readable = true)
    (reached : machine.run keeper labels = some (trace, final)) :
    activations trace + probes final + passed counted final ≤
        probes keeper + passed counted keeper + gaps keeper.minimumGapNs trace ∧
      (counted = true → 0 < activations trace →
        final.thread.activityProbe.primed = true) := by
  have carried := machine.run_induction
    (motive := fun trace state =>
      (activations trace + probes state + passed counted state ≤
        probes keeper + passed counted keeper + gaps keeper.minimumGapNs trace) ∧
      Counts counted state ∧ state.minimumGapNs = keeper.minimumGapNs ∧
      (counted = true → 0 < activations trace → state.thread.activityProbe.primed = true))
    (fun trace state label event next held permitted stepEq => by
      obtain ⟨paid, counts, same, windowed⟩ := held
      have steps := step_cases stepEq
      obtain ⟨spent, nextCounts, kept⟩ := probes_step counts permitted steps
      refine ⟨?_, nextCounts, kept.trans same, fun counted some => ?_⟩
      · rw [same] at spent
        simp only [activations, gaps, List.countP_append, List.countP_singleton,
          beq_iff_eq] at paid ⊢
        omega
      · by_cases here : event = .activated
        · subst here
          exact steps.primed (counts.windowed counted steps.activating)
        · simp only [activations, List.countP_append, List.countP_singleton, beq_iff_eq, here,
            if_false, Nat.add_zero] at some
          exact steps.primed (windowed counted some))
    [] ⟨by simp [activations, gaps], counts, rfl, fun _ none => by cases none⟩
    (machine.along_of_labels keeper readable) reached
  exact ⟨carried.1, carried.2.2.2⟩

section Runs

variable {maximum initial minimumGapNs : Nat} {monitor : Option IdleEntryMonitor}
  {reading : Reading} {labels : List Label} {trace : List (Label × Event)}

/-- Every activation answers an `observe_gap` of its own, of a gap from the threshold on; and while
the idle counters can be read, the first of these never activates. -/
theorem activations_bounded
    (reached : machine.run (new maximum initial minimumGapNs monitor reading) labels =
      some (trace, keeper)) :
    activations trace ≤ gaps minimumGapNs trace ∧
      (monitor.isSome = true → (∀ label ∈ labels, label.readable = true) →
        0 < activations trace → activations trace < gaps minimumGapNs trace) := by
  constructor
  · have counts : Counts false (new maximum initial minimumGapNs monitor reading) :=
      ⟨fun never => (by cases never), fun never => (by cases never)⟩
    have paid := (probes_run counts (fun _ _ never => (by cases never)) reached).1
    simp only [passed, Bool.false_eq_true, if_false, probes, new, Point.inFlight, Bool.toNat_false,
      List.countP_nil] at paid
    omega
  · intro monitored readable some
    have counts : Counts true (new maximum initial minimumGapNs monitor reading) :=
      ⟨fun _ => monitored, fun _ here => (by cases here)⟩
    obtain ⟨paid, primed⟩ := probes_run counts (fun label member _ => readable label member) reached
    simp only [passed, if_true, probes, new, Point.inFlight, Bool.toNat_false, primed rfl some,
      List.countP_nil, Bool.toNat_true] at paid
    omega

end Runs

end CoreKeeper

/-! ### Parking -/

/-- In every call `active` is cleared right after `probe`. -/
def Access.Follows (first second : Access) : Prop := second = .clearActive → first = .clearProbe

namespace CoreKeeper

variable {keeper after : CoreKeeper} {label : Label} {event : Event}

structure Clears (keeper : CoreKeeper) : Prop where
  chain : keeper.pending.IsChain Access.Follows
  cleared : keeper.pending.head? = some .clearActive → keeper.shared.probe = false

theorem chain_accesses (call : Call) (minimumGapNs : Nat) :
    (call.accesses minimumGapNs).IsChain Access.Follows ∧
      (call.accesses minimumGapNs).head? ≠ some .clearActive := by
  cases call with
  | observeGap | deferPark =>
      simp only [Call.accesses, parkAccesses]
      split <;> simp [Access.Follows]
  | park | duty => simp [Call.accesses, parkAccesses, Access.Follows]
  | close => simp [Call.accesses, closeAccesses, Access.Follows]

/-- Past any access but that of `probe`, `active` is not the next to be cleared. -/
theorem chain_cons {first : Access} {rest : List Access}
    (chain : (first :: rest).IsChain Access.Follows) :
    rest.IsChain Access.Follows ∧
      (first ≠ .clearProbe → ∀ next ∈ rest.head?, next ≠ .clearActive) := by
  obtain ⟨follows, tail⟩ := List.isChain_cons.mp chain
  exact ⟨tail, fun other next member same => other (follows next member same)⟩

theorem Clears.accessed {now : Nat} (clears : Clears keeper)
    (makes : keeper.accessed now = some (event, after)) : Clears after := by
  have chain := clears.chain
  unfold CoreKeeper.accessed at makes
  split at makes
  case h_1 => cases makes
  case h_4 next =>
      cases makes
      rw [next] at chain
      exact ⟨(chain_cons chain).1, fun _ => rfl⟩
  all_goals
    rename_i next
    rw [next] at chain
    obtain ⟨tail, unlike⟩ := chain_cons chain
    have elsewhere := unlike (by simp)
  case h_8 =>
      split at makes
      · split at makes <;> cases makes
        exact ⟨tail, fun head => absurd rfl (elsewhere _ head)⟩
      · cases makes
        exact ⟨tail, fun head => absurd rfl (elsewhere _ head)⟩
  case h_9 =>
      split at makes <;> cases makes
      · exact ⟨tail, fun head => absurd rfl (elsewhere _ head)⟩
      · refine ⟨?_, fun head => by cases head⟩
        exact List.isChain_cons.mpr ⟨by simp [Access.Follows], List.isChain_cons.mpr
          ⟨fun next member same => absurd same (elsewhere next member), tail⟩⟩
  case h_10 =>
      split at makes <;> cases makes
      · exact ⟨List.isChain_cons.mpr
          ⟨fun next member same => absurd same (elsewhere next member), tail⟩,
          fun head => by cases head⟩
      · refine ⟨?_, fun head => by cases head⟩
        have last : (Access.clearActive :: _).IsChain Access.Follows := List.isChain_cons.mpr
          ⟨fun next member same => absurd same (elsewhere next member), tail⟩
        simpa [parkAccesses, Access.Follows] using last
  case h_11 =>
      cases makes
      exact ⟨List.isChain_cons.mpr
        ⟨fun next member same => absurd same (elsewhere next member), tail⟩,
        fun head => by cases head⟩
  case h_12 =>
      split at makes <;> cases makes
      · exact ⟨List.isChain_cons.mpr
          ⟨fun next member same => absurd same (elsewhere next member), tail⟩,
          fun head => by cases head⟩
      · exact ⟨tail, fun head => absurd rfl (elsewhere _ head)⟩
  all_goals
    cases makes
    exact ⟨tail, fun head => absurd rfl (elsewhere _ head)⟩

theorem Clears.step (clears : Clears keeper) (steps : Step keeper label event after) :
    Clears after := by
  cases steps with
  | @called call free =>
      unfold CoreKeeper.begins
      split
      · obtain ⟨chain, head⟩ := chain_accesses call keeper.minimumGapNs
        exact ⟨chain, fun same => absurd same head⟩
      · exact clears
  | accessed makes => exact clears.accessed makes
  | @worked reading event effect thread moves =>
      refine ⟨by simpa using clears.chain, fun head => ?_⟩
      rw [affected_pending] at head
      have cleared := clears.cleared head
      cases effect <;> first | exact cleared | rfl
  | woken => exact ⟨clears.chain, clears.cleared⟩

/-- Nothing but an activation makes a keeper active. -/
theorem Step.inactive (steps : Step keeper label event after) (quiet : event ≠ .activated)
    (inactive : keeper.shared.active = false) : after.shared.active = false := by
  cases steps with
  | @called call free => rw [(begins_frame keeper call).2.1, inactive]
  | accessed makes =>
      unfold CoreKeeper.accessed at makes
      split at makes
      case h_1 => cases makes
      case h_8 =>
          split at makes
          · split at makes <;> cases makes
            exact inactive
          · cases makes
            exact inactive
      case h_9 | h_10 | h_12 => split at makes <;> cases makes <;> exact inactive
      case h_5 =>
          cases makes
          rfl
      all_goals
        cases makes
        exact inactive
  | worked moves =>
      cases moves with
      | activated => exact absurd rfl quiet
      | deactivated => rfl
      | @published next =>
          cases next <;> exact inactive
      | _ => exact inactive
  | woken => exact inactive

section Runs

variable {maximum initial minimumGapNs : Nat} {monitor : Option IdleEntryMonitor}
  {reading : Reading} {labels : List Label} {trace : List (Label × Event)}

theorem clears_run
    (reached : machine.run (new maximum initial minimumGapNs monitor reading) labels =
      some (trace, keeper)) : Clears keeper ∧ keeper.minimumGapNs = minimumGapNs := by
  have keeps : ∀ (state : CoreKeeper) label event next,
      Clears state ∧ state.minimumGapNs = minimumGapNs → True →
      machine.step state label = some (event, next) →
      Clears next ∧ next.minimumGapNs = minimumGapNs := by
    rintro state label event next ⟨clears, same⟩ - stepEq
    have steps := step_cases stepEq
    have counts : Counts false state :=
      ⟨fun never => (by cases never), fun never => (by cases never)⟩
    have kept := (probes_step counts (fun never => (by cases never)) steps).2.2
    exact ⟨clears.step steps, kept.trans same⟩
  have start : Clears (new maximum initial minimumGapNs monitor reading) :=
    ⟨by simp [new], fun head => by cases head⟩
  exact machine.run_invariant keeps ⟨start, rfl⟩ (machine.along_true _ labels) reached

/-- Activity without an activation would have to come from the start. -/
theorem activations_pos {later : List Label} {laterTrace : List (Label × Event)}
    {final : CoreKeeper} (inactive : keeper.shared.active = false)
    (reached : machine.run keeper later = some (laterTrace, final))
    (active : final.shared.active = true) : 0 < activations laterTrace := by
  apply Nat.pos_of_ne_zero
  intro none
  have quiet : ∀ entry ∈ laterTrace, entry.2 ≠ .activated := by
    simpa [activations, List.countP_eq_zero] using none
  have keeps : ∀ (state : CoreKeeper) label event next, state.shared.active = false →
      machine.step state label = some (event, next) → event ≠ .activated →
      next.shared.active = false :=
    fun _ _ _ _ inactive stepEq quiet => (step_cases stepEq).inactive quiet inactive
  have stays := machine.run_invariant_of_events keeps inactive reached quiet
  cases stays.symm.trans active

/-- A reading that fails. -/
def unread : Reading := { monotonicNs := 0, instant := 0, total := none }

theorem activating_activates {keeper : CoreKeeper} (here : keeper.thread.point = .activating) :
    ∃ trace final, machine.run keeper [.work unread] = some (trace, final) ∧
      final.shared.active = true := by
  have stepEq : machine.step keeper (.work unread) = some (.activated, {
      keeper.affected .setActive with
      thread := { keeper.thread with
        point := .head
        windowStarted := 0
        pulse := { keeper.thread.pulse with nextStartNs := 0 }
        monitor := keeper.thread.monitor.map fun entries => entries.reset none } }) := by
    simp [machine, Worker.step, here, unread]
  exact ⟨_, _, machine.run_cons_eq_some.mpr ⟨_, _, [], stepEq, rfl, rfl⟩, rfl⟩

/-- Where the counters cannot be read the probe activates. -/
theorem deciding_activates {keeper : CoreKeeper} (here : keeper.thread.point = .deciding) :
    ∃ trace final, machine.run keeper [.work unread, .work unread] = some (trace, final) ∧
      final.shared.active = true := by
  have decided : machine.step keeper (.work unread) = some (.silent, { keeper with
      thread := { keeper.thread with
        point := .activating
        monitor := keeper.thread.monitor.map fun entries => (entries.delta none).2 } }) := by
    cases monitor : keeper.thread.monitor <;>
      simp [machine, Worker.step, here, monitor, unread, IdleEntryMonitor.delta,
        ActivityProbe.observe, affected]
  obtain ⟨trace, final, reached, active⟩ := @activating_activates { keeper with
      thread := { keeper.thread with
        point := .activating
        monitor := keeper.thread.monitor.map fun entries => (entries.delta none).2 } } rfl
  exact ⟨_, final, machine.run_cons_eq_some.mpr ⟨_, _, trace, decided, reached, rfl⟩, active⟩

/-- When a call that parks has returned, the keeper becomes active without a further gap exactly
where the thread had taken a probe before and is still at it; and then only once. -/
theorem park_lost_iff
    (reached : machine.run (new maximum initial minimumGapNs monitor reading) labels =
      some (trace, keeper)) (last : keeper.pending = [.clearActive]) {now : Nat}
    (makes : machine.step keeper (.access now) = some (event, after)) :
    ((∃ later laterTrace final, (∀ label ∈ later, label.gap minimumGapNs = false) ∧
        machine.run after later = some (laterTrace, final) ∧ final.shared.active = true) ↔
      keeper.thread.point = .deciding ∨ keeper.thread.point = .activating) ∧
    ∀ later laterTrace final, (∀ label ∈ later, label.gap minimumGapNs = false) →
      machine.run after later = some (laterTrace, final) → activations laterTrace ≤ 1 := by
  obtain ⟨clears, threshold⟩ := clears_run reached
  have clear := clears.cleared (by rw [last]; rfl)
  have returned : event = .silent ∧ after = { keeper with
      shared := { keeper.shared with active := false }, pending := [] } := by
    simp only [machine, accessed, last] at makes
    cases makes
    exact ⟨rfl, rfl⟩
  obtain ⟨-, rfl⟩ := returned
  have counts : Counts false { keeper with
      shared := { keeper.shared with active := false }, pending := [] } :=
    ⟨fun never => (by cases never), fun never => (by cases never)⟩
  -- without a gap the probes are those of the thread
  have spent : ∀ later laterTrace final, (∀ label ∈ later, label.gap minimumGapNs = false) →
      machine.run { keeper with shared := { keeper.shared with active := false }, pending := [] }
        later = some (laterTrace, final) →
      activations laterTrace ≤ keeper.thread.point.inFlight := by
    intro later laterTrace final quiet laterReached
    have paid := (probes_run counts (fun _ _ never => (by cases never)) laterReached).1
    have none : gaps keeper.minimumGapNs laterTrace = 0 := by
      rw [threshold, gaps, List.countP_eq_zero]
      intro entry member
      have there := List.mem_map_of_mem (f := Prod.fst) member
      rw [machine.labels_run laterReached] at there
      simp [quiet entry.1 there]
    simp only [none, passed, probes, clear, Bool.false_eq_true, if_false, Bool.toNat_false,
      List.countP_nil] at paid
    omega
  refine ⟨⟨?_, ?_⟩, fun later laterTrace final quiet laterReached => ?_⟩
  · rintro ⟨later, laterTrace, final, quiet, laterReached, active⟩
    have some := activations_pos rfl laterReached active
    have bound := spent later laterTrace final quiet laterReached
    cases here : keeper.thread.point with
    | deciding => exact Or.inl rfl
    | activating => exact Or.inr rfl
    | _ =>
        rw [here] at bound
        exact absurd some (Nat.not_lt.mpr bound)
  · rintro (here | here)
    · obtain ⟨laterTrace, final, laterReached, active⟩ := @deciding_activates { keeper with
        shared := { keeper.shared with active := false }, pending := [] } here
      exact ⟨_, laterTrace, final, by simp [Label.gap], laterReached, active⟩
    · obtain ⟨laterTrace, final, laterReached, active⟩ := @activating_activates { keeper with
        shared := { keeper.shared with active := false }, pending := [] } here
      exact ⟨_, laterTrace, final, by simp [Label.gap], laterReached, active⟩
  · have bound := spent later laterTrace final quiet laterReached
    have least : keeper.thread.point.inFlight ≤ 1 := by
      unfold Point.inFlight
      split <;> decide
    exact Nat.le_trans bound least

end Runs

/-! ### The deadline of a deferred park -/

def Deferred (trace : List (Label × Event)) (deadline : Nat) : Prop :=
  ∃ now, (Label.access now, Event.deferred deadline) ∈ trace

/-- Each deadline in the keeper is one of the trace. -/
structure Dated (trace : List (Label × Event)) (keeper : CoreKeeper) : Prop where
  stored : keeper.shared.parkDeadlineNs ≠ 0 → Deferred trace keeper.shared.parkDeadlineNs
  pending : ∀ deadline, deadline ≠ 0 → .storeDeadline deadline ∈ keeper.pending →
    Deferred trace deadline
  loaded : ∀ deadline, deadline ≠ 0 → keeper.thread.point = .expiry deadline →
    Deferred trace deadline

theorem Deferred.later {trace : List (Label × Event)} {deadline : Nat}
    (deferred : Deferred trace deadline) (entry : Label × Event) :
    Deferred (trace ++ [entry]) deadline :=
  deferred.imp fun _ member => List.mem_append_left _ member

theorem not_stores_accesses (call : Call) (minimumGapNs : Nat) {deadline : Nat}
    (armed : deadline ≠ 0) : .storeDeadline deadline ∉ call.accesses minimumGapNs := by
  cases call with
  | observeGap | deferPark =>
      simp only [Call.accesses, parkAccesses]
      split <;> simp [armed]
  | park | duty => simp [Call.accesses, parkAccesses, armed]
  | close => simp [Call.accesses, closeAccesses, armed]

theorem Dated.accessed {trace : List (Label × Event)} {now : Nat} (dated : Dated trace keeper)
    (makes : keeper.accessed now = some (event, after)) :
    Dated (trace ++ [(.access now, event)]) after := by
  obtain ⟨stored, pending, loaded⟩ := dated
  have loaded : ∀ deadline, deadline ≠ 0 → after.thread.point = .expiry deadline →
      Deferred (trace ++ [(.access now, event)]) deadline := by
    intro deadline armed here
    rw [(accessed_frame makes).1] at here
    exact (loaded deadline armed here).later _
  have stays (armed : keeper.shared.parkDeadlineNs ≠ 0) := (stored armed).later (.access now, event)
  unfold CoreKeeper.accessed at makes
  split at makes
  case h_1 => cases makes
  all_goals
    rename_i rest next
    rw [next] at pending
    have later : ∀ deadline, deadline ≠ 0 → .storeDeadline deadline ∈ rest →
        Deferred (trace ++ [(.access now, event)]) deadline := fun deadline armed member =>
      (pending deadline armed (List.mem_cons_of_mem _ member)).later _
  case h_3 =>
      cases makes
      exact ⟨fun armed => (pending _ armed List.mem_cons_self).later _, later, loaded⟩
  case h_8 =>
      split at makes
      · split at makes <;> cases makes
        exact ⟨stays, later, loaded⟩
      · cases makes
        exact ⟨stays, later, loaded⟩
  case h_9 =>
      split at makes <;> cases makes
      · exact ⟨stays, later, loaded⟩
      · refine ⟨stays, fun deadline armed member => later deadline armed ?_, loaded⟩
        simpa using member
  case h_10 =>
      split at makes <;> cases makes
      · refine ⟨stays, fun deadline armed member => later deadline armed ?_, loaded⟩
        simpa using member
      · refine ⟨stays, fun deadline armed member => later deadline armed ?_, loaded⟩
        simpa [parkAccesses, armed] using member
  case h_11 =>
      cases makes
      refine ⟨stays, fun deadline armed member => ?_, loaded⟩
      rcases List.mem_cons.mp member with same | member
      · cases same
        exact ⟨now, List.mem_append_right _ List.mem_cons_self⟩
      · exact later deadline armed member
  case h_12 =>
      split at makes <;> cases makes
      · refine ⟨stays, fun deadline armed member => later deadline armed ?_, loaded⟩
        simpa using member
      · exact ⟨stays, later, loaded⟩
  all_goals
    cases makes
    exact ⟨stays, later, loaded⟩

/-- What the trace before it owes an expiry. -/
def Due (trace : List (Label × Event)) (label : Label) (event : Event) : Prop :=
  ∀ deadline, event = .expired deadline → Deferred trace deadline ∧
    ∃ reading, label = .work reading ∧ deadline ≤ reading.monotonicNs

theorem Dated.step {trace : List (Label × Event)} (dated : Dated trace keeper)
    (steps : Step keeper label event after) :
    Due trace label event ∧ Dated (trace ++ [(label, event)]) after := by
  have stored (armed : keeper.shared.parkDeadlineNs ≠ 0) :=
    (dated.stored armed).later (label, event)
  have pending (deadline : Nat) (armed : deadline ≠ 0)
      (member : .storeDeadline deadline ∈ keeper.pending) :=
    (dated.pending deadline armed member).later (label, event)
  cases steps with
  | @called call free =>
      refine ⟨fun _ impossible => (by cases impossible), ?_⟩
      obtain ⟨thread, shared, -⟩ := begins_frame keeper call
      refine ⟨by rw [shared]; exact stored, fun deadline armed member => ?_, ?_⟩
      · unfold CoreKeeper.begins at member
        split at member
        · exact absurd member (not_stores_accesses call _ armed)
        · exact pending deadline armed member
      · rw [thread]
        exact fun deadline armed here => (dated.loaded deadline armed here).later _
  | accessed makes =>
      refine ⟨fun deadline expired => ?_, dated.accessed makes⟩
      subst expired
      unfold CoreKeeper.accessed at makes
      split at makes
      case h_1 => cases makes
      case h_8 =>
          split at makes
          · split at makes <;> cases makes
          · cases makes
      case h_9 | h_10 | h_12 => split at makes <;> cases makes
      all_goals cases makes
  | @worked reading event effect thread moves =>
      have kept : ∀ deadline, deadline ≠ 0 → .storeDeadline deadline ∈
          (keeper.affected effect).pending →
          Deferred (trace ++ [(.work reading, event)]) deadline := by
        rw [affected_pending]
        exact pending
      cases moves with
      | loaded here =>
          refine ⟨fun _ impossible => (by cases impossible), stored, kept, ?_⟩
          rintro deadline armed ⟨⟩
          exact stored armed
      | expired here armed late =>
          refine ⟨?_, stored, kept, fun _ _ there => (by cases there)⟩
          rintro deadline ⟨⟩
          exact ⟨dated.loaded _ armed here, reading, rfl, late⟩
      | disarmed here =>
          exact ⟨fun _ impossible => (by cases impossible), fun armed => absurd rfl armed, kept,
            fun _ _ there => (by cases there)⟩
      | swapped here =>
          refine ⟨fun _ impossible => (by cases impossible), stored, kept, fun _ _ there => ?_⟩
          simp only [Worker.goes] at there
          split at there <;> cases there
      | decided here =>
          refine ⟨fun _ impossible => (by cases impossible), stored, kept, fun _ _ there => ?_⟩
          dsimp only at there
          split at there <;> cases there
      | @published next here =>
          refine ⟨fun _ impossible => (by cases impossible), ?_, kept,
            fun _ _ there => (by cases there)⟩
          cases next <;> exact stored
      | pulses here =>
          refine ⟨fun _ impossible => (by cases impossible), stored, kept, fun _ _ there => ?_⟩
          cases here.symm.trans there
      | _ here =>
          exact ⟨fun _ impossible => (by cases impossible), stored, kept,
            fun _ _ there => (by cases there)⟩
  | woken =>
      exact ⟨fun _ impossible => (by cases impossible), stored, pending,
        fun _ _ there => (by cases there)⟩

section Runs

variable {maximum initial minimumGapNs : Nat} {monitor : Option IdleEntryMonitor}
  {reading : Reading} {labels : List Label} {trace : List (Label × Event)}

/-- The thread parks a keeper by itself only when the clock has come to a deadline that a call of
`defer_park` has set before. -/
theorem expiries_deferred
    (reached : machine.run (new maximum initial minimumGapNs monitor reading) labels =
      some (trace, keeper)) :
    ∀ before label deadline rest, trace = before ++ (label, .expired deadline) :: rest →
      (∃ now, (Label.access now, Event.deferred deadline) ∈ before) ∧
        ∃ reading, label = .work reading ∧ deadline ≤ reading.monotonicNs := by
  have start : Dated [] (new maximum initial minimumGapNs monitor reading) :=
    ⟨fun armed => absurd rfl armed, fun _ _ member => (by cases member),
      fun _ _ here => by cases here⟩
  have told := machine.run_history (motive := Dated)
    (fun _ _ _ _ _ dated _ stepEq => dated.step (step_cases stepEq))
    start (machine.along_true _ labels) reached
  intro before label deadline rest split
  exact told.2 before label (.expired deadline) rest split deadline rfl

end Runs

/-! ### A keeper that is probed once -/

/-- `observe_gap` at the threshold, and the thread on its way. -/
def probedOnce (steps : Nat) : List Label :=
  [.call (.observeGap 2000000), .access 0, .access 0, .access 0, .access 0] ++
    List.replicate steps (.work unread)

/-- `close` within the first pulse. -/
theorem close_returns_pulsing :
    ∃ trace keeper, machine.run (new 50000 20000 2000000 none unread)
        (probedOnce 14 ++ .call .close :: List.replicate 5 (.access 0)) = some (trace, keeper) ∧
      keeper.thread.point = .pulsing 20000 ∧
      (∃ label event after, machine.step keeper label = some (event, after)) ∧
      ∀ later laterTrace final, machine.run keeper later = some (laterTrace, final) →
        8 ≤ later.length → final.worker = false ∧ final.thread.point = .done := by
  have ran : (machine.run (new 50000 20000 2000000 none unread)
      (probedOnce 14 ++ .call .close :: List.replicate 5 (.access 0))).map
        (fun result => (result.2.pending, result.2.worker, result.2.thread.point)) =
      some ([.join], true, .pulsing 20000) := by
    decide
  obtain ⟨⟨trace, keeper⟩, reached, view⟩ := Option.map_eq_some_iff.mp ran
  obtain ⟨waits, rest⟩ := Prod.mk.inj view
  obtain ⟨held, pulsing⟩ := Prod.mk.inj rest
  exact ⟨trace, keeper, reached, pulsing, close_returns (by decide) (by decide) reached waits held⟩

/-- The first pulse after an activation. -/
theorem keeper_duty_ranged_pulsing :
    ∃ trace keeper, machine.run (new 50000 20000 2000000 none unread) (probedOnce 14) =
        some (trace, keeper) ∧ keeper.thread.point = .pulsing 20000 ∧
      20000 ≤ keeper.thread.pulse.nextStartNs +
        max (keeper.thread.pulse.periodNs * 50000 / DUTY_SCALE) 1 := by
  have ran : (machine.run (new 50000 20000 2000000 none unread) (probedOnce 14)).map
      (fun result => result.2.thread.point) = some (.pulsing 20000) := by
    decide
  obtain ⟨⟨trace, keeper⟩, reached, pulsing⟩ := Option.map_eq_some_iff.mp ran
  exact ⟨trace, keeper, reached, pulsing,
    (keeper_duty_ranged (by decide) (by decide) reached).2.2 20000 pulsing⟩

theorem activations_bounded_once :
    ∃ trace keeper, machine.run (new 50000 20000 2000000 none unread) (probedOnce 9) =
        some (trace, keeper) ∧ activations trace = 1 ∧
      activations trace ≤ gaps 2000000 trace := by
  have ran : (machine.run (new 50000 20000 2000000 none unread) (probedOnce 9)).map
      (fun result => activations result.1) = some 1 := by
    decide
  obtain ⟨⟨trace, keeper⟩, reached, once⟩ := Option.map_eq_some_iff.mp ran
  exact ⟨trace, keeper, reached, once, (activations_bounded reached).1⟩

/-- `park` returns while the thread is between the swap of `probe` and its decision. -/
theorem park_lost_while_deciding :
    ∃ trace keeper after, machine.run (new 50000 20000 2000000 none unread)
        (probedOnce 7 ++ [.call .park, .access 0, .access 0]) = some (trace, keeper) ∧
      machine.step keeper (.access 0) = some (.silent, after) ∧
      ∃ later laterTrace final, (∀ label ∈ later, label.gap 2000000 = false) ∧
        machine.run after later = some (laterTrace, final) ∧ final.shared.active = true := by
  have ran : (machine.run (new 50000 20000 2000000 none unread)
      (probedOnce 7 ++ [.call .park, .access 0, .access 0])).map
        (fun result => (result.2.pending, result.2.thread.point)) =
      some ([.clearActive], .deciding) := by
    decide
  obtain ⟨⟨trace, keeper⟩, reached, view⟩ := Option.map_eq_some_iff.mp ran
  obtain ⟨last, deciding⟩ := Prod.mk.inj view
  have makes : machine.step keeper (.access 0) = some (.silent, { keeper with
      shared := { keeper.shared with active := false }, pending := [] }) := by
    simp only [machine, accessed]
    rw [show keeper.pending = [.clearActive] from last]
  exact ⟨trace, keeper, _, reached, makes,
    (park_lost_iff reached last makes).1.mpr (Or.inl deciding)⟩

/-- A keeper that is activated at 0 and parked at 1000. -/
theorem expiries_deferred_thousand :
    ∃ trace keeper, machine.run (new 50000 20000 2000000 none unread)
        (probedOnce 9 ++ [.call (.deferPark 1000), .access 0, .access 0, .access 0, .work unread,
          .work unread, .work { unread with monotonicNs := 1000 }]) = some (trace, keeper) ∧
      ∃ before label rest, trace = before ++ (label, .expired 1000) :: rest ∧
        ∃ now, (Label.access now, Event.deferred 1000) ∈ before := by
  have ran : (machine.run (new 50000 20000 2000000 none unread)
      (probedOnce 9 ++ [.call (.deferPark 1000), .access 0, .access 0, .access 0, .work unread,
        .work unread, .work { unread with monotonicNs := 1000 }])).map
      (fun result => (result.1.drop 20).map Prod.snd) = some [.expired 1000] := by
    decide
  obtain ⟨⟨trace, keeper⟩, reached, view⟩ := Option.map_eq_some_iff.mp ran
  obtain ⟨⟨label, event⟩, single, expired⟩ := List.map_eq_singleton_iff.mp view
  cases expired
  have split : trace = trace.take 20 ++ (label, .expired 1000) :: [] := by
    rw [← single, List.take_append_drop]
  exact ⟨trace, keeper, reached, _, label, [], split,
    (expiries_deferred reached _ label 1000 [] split).1⟩

end CoreKeeper

end Hyperloader.Control.MachineKeeper
