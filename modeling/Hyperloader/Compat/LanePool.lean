/-
Module: Hyperloader.Compat.LanePool
Purpose: The control protocol between a lane pool and its worker lanes: tasks and completions on
  the rings, ready signals and fetcher resets on the pipes, with the owner and every lane taking
  steps in any order.
Trusted boundary: no lane dies; a death closes the pool.
Main exports:
  Lane, Pool, Settings, Settings.machine, Fresh, Kept, Settings.pool_sound
-/
import Mathlib.Algebra.Order.BigOperators.Group.Finset
import Hyperloader.Foundations.FiniteMap
import Hyperloader.Foundations.Transition

namespace Hyperloader.Compat.LanePool

open Foundations

/-! ### The pool and its lanes -/

/-- What the owner sends on a lane's pipe; the message that stops a lane ends the protocol. -/
inductive Notice where
  | reset

/-- What a lane sends back. -/
inductive Signal where
  | ready
  | resetReady
deriving DecidableEq

/-- Where a lane stands in `_run_lane`. -/
inductive Stage where
  | polling
  | ringing
  | fetching (task : Nat)
  | signalling

/-- One lane: its end of the pipe, its rings, and the number of its fetcher, which every
completion carries. -/
structure Lane where
  inbox : List Notice
  ring : List Nat
  stage : Stage
  completions : List (Nat × Nat)
  outbox : List Signal
  generation : Nat

/-- Where the owner stands: outside of the pool's loops, in the loop of `try_receive`, or in one
of the two loops of `reset_iterable`. -/
inductive Owner where
  | free
  | scanning (next : Nat)
  | sending (next : Nat)
  | collecting (remaining : Finset Nat)
deriving DecidableEq

structure Pool where
  lanes : Nat → Lane
  pending : Finmap fun _ : Nat => Nat
  owner : Owner

structure Settings where
  workers : Nat
  capacity : Nat
  positive : 0 < workers
  roomy : 0 < capacity

inductive Label where
  | submit (task worker : Nat)
  | receive
  | scan
  | signal (worker : Nat)
  | reset
  | send
  | collect (worker : Nat)
  | lane (worker : Nat)
deriving DecidableEq

/-- What a step shows: a call's answer, or one of the errors the owner raises. -/
inductive Event where
  | quiet
  | submitted (task worker : Nat)
  | full
  | received (task worker generation : Nat)
  | empty
  | mismatched (task worker : Nat)
  | invalidSignal (worker : Nat)
  | undrained
  | renewed
deriving DecidableEq

namespace Lane

def start : Lane := ⟨[], [], .polling, [], [], 0⟩

/-- One step of `_run_lane`; a full completion ring is tried again. -/
def step (capacity : Nat) (lane : Lane) : Lane :=
  match lane.stage with
  | .polling =>
      match lane.inbox with
      | .reset :: inbox =>
          { lane with
            inbox
            generation := lane.generation + 1
            outbox := lane.outbox ++ [.resetReady] }
      | [] => { lane with stage := .ringing }
  | .ringing =>
      match lane.ring with
      | task :: ring => { lane with ring, stage := .fetching task }
      | [] => { lane with stage := .polling }
  | .fetching task =>
      if lane.completions.length < capacity then
        { lane with
          completions := lane.completions ++ [(task, lane.generation)]
          stage := .signalling }
      else lane
  | .signalling => { lane with outbox := lane.outbox ++ [.ready], stage := .polling }

end Lane

namespace Pool

def create : Pool := ⟨fun _ => Lane.start, ∅, .free⟩

def setLane (pool : Pool) (worker : Nat) (lane : Lane) : Pool :=
  { pool with lanes := Function.update pool.lanes worker lane }

@[simp] theorem setLane_lanes (pool : Pool) (worker : Nat) (lane : Lane) (other : Nat) :
    (pool.setLane worker lane).lanes other = if other = worker then lane else pool.lanes other :=
  Function.update_apply pool.lanes worker lane other

@[simp] theorem setLane_pending (pool : Pool) (worker : Nat) (lane : Lane) :
    (pool.setLane worker lane).pending = pool.pending := rfl

@[simp] theorem setLane_owner (pool : Pool) (worker : Nat) (lane : Lane) :
    (pool.setLane worker lane).owner = pool.owner := rfl

/-- `try_submit` -/
def trySubmit (capacity : Nat) (pool : Pool) (task worker : Nat) : Event × Pool :=
  let lane := pool.lanes worker
  if lane.ring.length < capacity then
    (.submitted task worker,
      { pool.setLane worker { lane with ring := lane.ring ++ [task] } with
        pending := pool.pending.insert task worker })
  else (.full, pool)

/-- One pass of the loop of `try_receive`. -/
def tryReceive (workers : Nat) (pool : Pool) (next : Nat) : Event × Pool :=
  if next < workers then
    match (pool.lanes next).completions with
    | [] => (.quiet, { pool with owner := .scanning (next + 1) })
    | (task, generation) :: completions =>
        (if pool.pending.lookup task = some next then .received task next generation
          else .mismatched task next,
          { pool.setLane next { pool.lanes next with completions } with
            pending := pool.pending.erase task
            owner := .free })
  else (.empty, { pool with owner := .free })

/-- A message `wait_for_completion` reads. -/
def readSignal (pool : Pool) (worker : Nat) : Option (Event × Pool) :=
  match (pool.lanes worker).outbox with
  | [] => none
  | signal :: outbox =>
      some (if signal = .ready then .quiet else .invalidSignal worker,
        pool.setLane worker { pool.lanes worker with outbox })

/-- One pass of the first loop of `reset_iterable`. -/
def sendReset (workers : Nat) (pool : Pool) (next : Nat) : Pool :=
  if next < workers then
    { pool.setLane next
        { pool.lanes next with inbox := (pool.lanes next).inbox ++ [.reset] } with
      owner := .sending (next + 1) }
  else { pool with owner := .collecting (Finset.range workers) }

/-- A message its second loop reads. -/
def collectReset (pool : Pool) (remaining : Finset Nat) (worker : Nat) : Option (Event × Pool) :=
  match (pool.lanes worker).outbox with
  | [] => none
  | signal :: outbox =>
      let read := pool.setLane worker { pool.lanes worker with outbox }
      match signal with
      | .ready => some (.quiet, read)
      | .resetReady =>
          let remaining := remaining.erase worker
          if remaining = ∅ then some (.renewed, { read with owner := .free })
          else some (.quiet, { read with owner := .collecting remaining })

end Pool

namespace Settings

variable (settings : Settings)

/-- The owner and its lanes, one step at a time. -/
def machine : Machine Pool Label Event where
  step pool label :=
    match label, pool.owner with
    | .submit task worker, .free =>
        if worker < settings.workers then some (pool.trySubmit settings.capacity task worker)
        else none
    | .receive, .free => some (.quiet, { pool with owner := .scanning 0 })
    | .scan, .scanning next => some (pool.tryReceive settings.workers next)
    | .signal worker, .free =>
        if worker < settings.workers then pool.readSignal worker else none
    | .reset, .free =>
        if pool.pending = ∅ then some (.quiet, { pool with owner := .sending 0 })
        else some (.undrained, pool)
    | .send, .sending next => some (.quiet, pool.sendReset settings.workers next)
    | .collect worker, .collecting remaining =>
        if worker < settings.workers then pool.collectReset remaining worker else none
    | .lane worker, _ =>
        if worker < settings.workers then
          some (.quiet, pool.setLane worker ((pool.lanes worker).step settings.capacity))
        else none
    | _, _ => none

end Settings

/-- A task is submitted under a number that is not pending. -/
def Fresh (pool : Pool) : Label → Prop
  | .submit task _ => task ∉ pool.pending
  | _ => True

instance (pool : Pool) : ∀ label, Decidable (Fresh pool label)
  | .submit task _ => inferInstanceAs (Decidable (task ∉ pool.pending))
  | .receive => isTrue trivial
  | .scan => isTrue trivial
  | .signal _ => isTrue trivial
  | .reset => isTrue trivial
  | .send => isTrue trivial
  | .collect _ => isTrue trivial
  | .lane _ => isTrue trivial

/-! ### Traces -/

namespace Event

def submittedTo (worker : Nat) : Event → List Nat
  | .submitted task other => if other = worker then [task] else []
  | _ => []

def receivedFrom (worker : Nat) : Event → List Nat
  | .received task other _ => if other = worker then [task] else []
  | _ => []

/-- No error between the pool and its lanes, and no completion of another fetcher than the one
whose number is given. -/
def Sound (generation : Nat) : Event → Prop
  | .mismatched _ _ => False
  | .invalidSignal _ => False
  | .received _ _ number => number = generation
  | _ => True

end Event

/-- The resets that returned. -/
def renewals (trace : List (Label × Event)) : Nat :=
  trace.countP fun entry => entry.2 = .renewed

def submittedTo (worker : Nat) (trace : List (Label × Event)) : List Nat :=
  trace.flatMap fun entry => entry.2.submittedTo worker

def receivedFrom (worker : Nat) (trace : List (Label × Event)) : List Nat :=
  trace.flatMap fun entry => entry.2.receivedFrom worker

/-! ### Lanes -/

namespace Lane

/-- The tasks of a lane that were not received, oldest first. -/
def tasks (lane : Lane) : List Nat :=
  lane.completions.map Prod.fst ++
    (match lane.stage with
      | .fetching task => [task]
      | _ => []) ++ lane.ring

/-- A lane outside of a reset. -/
structure Serving (generation : Nat) (lane : Lane) : Prop where
  inbox : lane.inbox = []
  fetcher : lane.generation = generation
  signals : ∀ signal ∈ lane.outbox, signal = .ready
  served : ∀ completion ∈ lane.completions, completion.2 = generation

/-- A lane that was sent a reset whose answer was not read: it has not taken it, or it has
answered and sends nothing after. -/
inductive Asked (generation : Nat) (lane : Lane) : Prop where
  | waiting (inbox : lane.inbox = [.reset]) (fetcher : lane.generation = generation)
      (signals : ∀ signal ∈ lane.outbox, signal = .ready)
  | answered (count : Nat) (inbox : lane.inbox = []) (fetcher : lane.generation = generation + 1)
      (signals : lane.outbox = List.replicate count .ready ++ [.resetReady])
      (quiet : lane.stage ≠ .signalling)

/-- A lane whose answer was read. -/
structure Renewed (generation : Nat) (lane : Lane) : Prop where
  inbox : lane.inbox = []
  fetcher : lane.generation = generation + 1
  signals : lane.outbox = []
  quiet : lane.stage ≠ .signalling

variable {lane : Lane} {capacity generation : Nat}

/-- A lane's steps keep its tasks and their order. -/
theorem tasks_step : (lane.step capacity).tasks = lane.tasks := by
  obtain ⟨inbox, ring, stage, completions, outbox, generation⟩ := lane
  cases stage with
  | polling =>
      cases inbox with
      | nil => rfl
      | cons notice inbox => cases notice; rfl
  | ringing =>
      cases ring with
      | nil => rfl
      | cons task ring => simp [step, tasks]
  | fetching task =>
      unfold step
      dsimp only
      split
      · simp [tasks]
      · rfl
  | signalling => rfl

theorem Serving.step (serving : lane.Serving generation) :
    (lane.step capacity).Serving generation := by
  obtain ⟨inbox, ring, stage, completions, outbox, fetcher⟩ := lane
  obtain ⟨rfl, rfl, signals, served⟩ := serving
  cases stage with
  | polling => exact ⟨rfl, rfl, signals, served⟩
  | ringing =>
      cases ring with
      | nil | cons task ring => exact ⟨rfl, rfl, signals, served⟩
  | fetching task =>
      unfold Lane.step
      dsimp only
      split
      · refine ⟨rfl, rfl, signals, fun completion member => ?_⟩
        rcases List.mem_append.mp member with earlier | last
        · exact served completion earlier
        · rw [List.mem_singleton.mp last]
      · exact ⟨rfl, rfl, signals, served⟩
  | signalling =>
      refine ⟨rfl, rfl, fun signal member => ?_, served⟩
      rcases List.mem_append.mp member with earlier | last
      · exact signals signal earlier
      · exact List.mem_singleton.mp last

theorem Renewed.step (renewed : lane.Renewed generation) (bare : lane.tasks = []) :
    (lane.step capacity).Renewed generation := by
  obtain ⟨inbox, ring, stage, completions, outbox, fetcher⟩ := lane
  obtain ⟨rfl, rfl, rfl, quiet⟩ := renewed
  cases stage with
  | polling => exact ⟨rfl, rfl, rfl, nofun⟩
  | ringing =>
      cases ring with
      | nil | cons task ring => exact ⟨rfl, rfl, rfl, nofun⟩
  | fetching task => simp [tasks] at bare
  | signalling => exact absurd rfl quiet

theorem Asked.step (asked : lane.Asked generation) (bare : lane.tasks = []) :
    (lane.step capacity).Asked generation := by
  obtain ⟨inbox, ring, stage, completions, outbox, fetcher⟩ := lane
  cases asked with
  | waiting inbox fetcher signals =>
      cases inbox
      cases fetcher
      cases stage with
      | polling =>
          have all : outbox = List.replicate outbox.length .ready :=
            List.eq_replicate_iff.mpr ⟨rfl, signals⟩
          exact .answered outbox.length rfl rfl (congrArg (· ++ [Signal.resetReady]) all) nofun
      | ringing =>
          cases ring with
          | nil | cons task ring => exact .waiting rfl rfl signals
      | fetching task => simp [tasks] at bare
      | signalling =>
          refine .waiting rfl rfl fun signal member => ?_
          rcases List.mem_append.mp member with earlier | last
          · exact signals signal earlier
          · exact List.mem_singleton.mp last
  | answered count inbox fetcher signals quiet =>
      cases inbox
      cases fetcher
      cases signals
      cases stage with
      | polling => exact .answered count rfl rfl rfl nofun
      | ringing =>
          cases ring with
          | nil | cons task ring => exact .answered count rfl rfl rfl nofun
      | fetching task => simp [tasks] at bare
      | signalling => exact absurd rfl quiet

theorem Asked.read_ready {outbox : List Signal} (asked : lane.Asked generation)
    (sent : lane.outbox = .ready :: outbox) : Asked generation { lane with outbox } := by
  cases asked with
  | waiting inbox fetcher signals =>
      exact .waiting inbox fetcher fun signal member => signals signal (by simp [sent, member])
  | answered count inbox fetcher signals quiet =>
      rw [signals] at sent
      cases count with
      | zero => nomatch sent
      | succ count =>
          refine .answered count inbox fetcher ?_ quiet
          rw [List.replicate_succ, List.cons_append] at sent
          exact (List.cons.inj sent).2.symm

theorem Asked.read_reset {outbox : List Signal} (asked : lane.Asked generation)
    (sent : lane.outbox = .resetReady :: outbox) : Renewed generation { lane with outbox } := by
  cases asked with
  | waiting inbox fetcher signals => nomatch signals .resetReady (by simp [sent])
  | answered count inbox fetcher signals quiet =>
      rw [signals] at sent
      cases count with
      | zero => exact ⟨inbox, fetcher, (List.cons.inj sent).2.symm, quiet⟩
      | succ count => nomatch sent

theorem Renewed.serving (renewed : lane.Renewed generation) (bare : lane.tasks = []) :
    lane.Serving (generation + 1) := by
  have published : lane.completions = [] := by
    have parts := List.append_eq_nil_iff.mp (List.append_eq_nil_iff.mp bare).1
    exact List.map_eq_nil_iff.mp parts.1
  refine ⟨renewed.inbox, renewed.fetcher, ?_, ?_⟩
  · rw [renewed.signals]
    nofun
  · rw [published]
    nofun

end Lane

/-! ### What every run keeps -/

/-- The pending tasks of a worker are those of its lane, each once. -/
structure Books (settings : Settings) (pool : Pool) : Prop where
  placed : ∀ task worker, pool.pending.lookup task = some worker → worker < settings.workers
  owned : ∀ worker < settings.workers, ∀ task,
    task ∈ (pool.lanes worker).tasks ↔ pool.pending.lookup task = some worker
  once : ∀ worker < settings.workers, (pool.lanes worker).tasks.Nodup

/-- How a lane stands to the owner. -/
def Plays (generation : Nat) : Owner → Nat → Lane → Prop
  | .free, _, lane => lane.Serving generation
  | .scanning _, _, lane => lane.Serving generation
  | .sending next, worker, lane =>
      if worker < next then lane.Asked generation else lane.Serving generation
  | .collecting remaining, worker, lane =>
      if worker ∈ remaining then lane.Asked generation else lane.Renewed generation

/-- A reset has nothing pending, and its second loop waits for some lane. -/
def Owner.Proper (workers : Nat) (pending : Finmap fun _ : Nat => Nat) : Owner → Prop
  | .free => True
  | .scanning _ => True
  | .sending next => pending = ∅ ∧ next ≤ workers
  | .collecting remaining =>
      pending = ∅ ∧ remaining ⊆ Finset.range workers ∧ remaining.Nonempty

/-- The invariant, with the number of resets that returned. -/
structure Kept (settings : Settings) (generation : Nat) (pool : Pool) : Prop where
  books : Books settings pool
  proper : pool.owner.Proper settings.workers pool.pending
  plays : ∀ worker < settings.workers,
    Plays generation pool.owner worker (pool.lanes worker)

variable {settings : Settings} {generation : Nat} {pool next : Pool}

variable {worker : Nat}

theorem Books.bare (books : Books settings pool) (drained : pool.pending = ∅)
    (inside : worker < settings.workers) : (pool.lanes worker).tasks = [] := by
  apply List.eq_nil_iff_forall_not_mem.mpr
  intro task member
  have found := (books.owned worker inside task).mp member
  rw [drained, Finmap.lookup_empty] at found
  cases found

/-- The books are about the tasks of the lanes. -/
theorem Books.congr (books : Books settings pool) (pending : next.pending = pool.pending)
    (same : ∀ worker, (next.lanes worker).tasks = (pool.lanes worker).tasks) :
    Books settings next := by
  refine ⟨?_, fun worker inside task => ?_, fun worker inside => ?_⟩
  · rw [pending]
    exact books.placed
  · rw [same worker, pending]
    exact books.owned worker inside task
  · rw [same worker]
    exact books.once worker inside

theorem tasks_setLane {lane : Lane} (same : lane.tasks = (pool.lanes worker).tasks) (other : Nat) :
    ((pool.setLane worker lane).lanes other).tasks = (pool.lanes other).tasks := by
  rw [Pool.setLane_lanes]
  split
  · next here => rw [here, same]
  · rfl

variable {task worker : Nat}

theorem Books.submit (books : Books settings pool) {lane : Lane}
    (inside : worker < settings.workers) (fresh : task ∉ pool.pending)
    (added : lane.tasks = (pool.lanes worker).tasks ++ [task]) (owner : Owner) :
    Books settings ⟨(pool.setLane worker lane).lanes, pool.pending.insert task worker, owner⟩ := by
  have absent : pool.pending.lookup task = none := Finmap.lookup_eq_none.mpr fresh
  refine ⟨fun other holder found => ?_, fun other within number => ?_, fun other within => ?_⟩
  · rw [lookup_insert_if] at found
    split at found
    · cases found
      exact inside
    · exact books.placed other holder found
  · rw [lookup_insert_if, Pool.setLane_lanes]
    have before := books.owned other within number
    by_cases here : other = worker
    · subst here
      by_cases new : number = task
      · simp [added, new]
      · simp [added, new, before]
    · by_cases new : number = task
      · subst new
        rw [absent] at before
        simp [here, Ne.symm here, before]
      · simp [here, new, before]
  · rw [Pool.setLane_lanes]
    split
    · rw [added]
      refine List.nodup_append.mpr
        ⟨books.once worker inside, List.nodup_singleton task, fun one member other single => ?_⟩
      rintro rfl
      cases List.mem_singleton.mp single
      have found := (books.owned worker inside task).mp member
      rw [absent] at found
      cases found
    · exact books.once other within

theorem Books.receive (books : Books settings pool) {lane : Lane}
    (inside : worker < settings.workers) (taken : (pool.lanes worker).tasks = task :: lane.tasks)
    (owner : Owner) :
    Books settings ⟨(pool.setLane worker lane).lanes, pool.pending.erase task, owner⟩ := by
  have held : pool.pending.lookup task = some worker :=
    (books.owned worker inside task).mp (by simp [taken])
  have once := books.once worker inside
  rw [taken] at once
  obtain ⟨gone, rest⟩ := List.nodup_cons.mp once
  refine ⟨fun other holder found => ?_, fun other within number => ?_, fun other within => ?_⟩
  · rw [lookup_erase_if] at found
    split at found
    · cases found
    · exact books.placed other holder found
  · rw [lookup_erase_if, Pool.setLane_lanes]
    have before := books.owned other within number
    by_cases here : other = worker
    · subst here
      rw [taken, List.mem_cons] at before
      by_cases old : number = task
      · simp [old, gone]
      · simpa [old] using before
    · by_cases old : number = task
      · subst old
        rw [held] at before
        simpa [here, Ne.symm here] using before
      · simpa [here, old] using before
  · rw [Pool.setLane_lanes]
    split
    · exact rest
    · exact books.once other within

/-- A lane's step leaves it where the owner has it. -/
theorem Plays.step {owner : Owner} {worker capacity : Nat} {lane : Lane}
    (plays : Plays generation owner worker lane)
    (bare : lane.tasks = [] ∨ owner = .free ∨ ∃ next, owner = .scanning next) :
    Plays generation owner worker (lane.step capacity) := by
  cases owner with
  | free | scanning next => exact Lane.Serving.step plays
  | sending next =>
      have bare : lane.tasks = [] := by simpa using bare
      simp only [Plays] at plays ⊢
      split
      · next sent =>
          rw [if_pos sent] at plays
          exact plays.step bare
      · next waiting =>
          rw [if_neg waiting] at plays
          exact plays.step
  | collecting remaining =>
      have bare : lane.tasks = [] := by simpa using bare
      simp only [Plays] at plays ⊢
      split
      · next asked =>
          rw [if_pos asked] at plays
          exact plays.step bare
      · next answered =>
          rw [if_neg answered] at plays
          exact plays.step bare

theorem Kept.setLane (kept : Kept settings generation pool) {lane : Lane}
    (same : lane.tasks = (pool.lanes worker).tasks)
    (plays : Plays generation pool.owner worker lane) :
    Kept settings generation (pool.setLane worker lane) := by
  refine ⟨kept.books.congr rfl (tasks_setLane same), kept.proper, fun other within => ?_⟩
  rw [Pool.setLane_lanes, Pool.setLane_owner]
  split
  · next here =>
      rw [here]
      exact plays
  · exact kept.plays other within

/-! ### One step -/

/-- A step that shows neither a task nor the end of a reset, and no error. -/
def Event.Silent : Event → Prop
  | .quiet => True
  | .full => True
  | .empty => True
  | .undrained => True
  | _ => False

/-- What a step leads to: no error, the invariant, and the tasks of every lane but for the one
submitted last and the one received first. -/
structure Advances (settings : Settings) (generation : Nat) (pool : Pool) (event : Event)
    (next : Pool) : Prop where
  sound : event.Sound generation
  kept : Kept settings (generation + if event = .renewed then 1 else 0) next
  conserved : ∀ worker < settings.workers,
    (pool.lanes worker).tasks ++ event.submittedTo worker =
      event.receivedFrom worker ++ (next.lanes worker).tasks

variable {event : Event}

theorem Advances.silent (silent : event.Silent) (kept : Kept settings generation next)
    (same : ∀ worker, (next.lanes worker).tasks = (pool.lanes worker).tasks) :
    Advances settings generation pool event next := by
  cases event with
  | quiet | full | empty | undrained =>
      refine ⟨trivial, kept, fun worker _ => ?_⟩
      simp [Event.submittedTo, Event.receivedFrom, same]
  | _ => exact silent.elim

theorem serving_setLane {lane : Lane}
    (serving : ∀ other < settings.workers, (pool.lanes other).Serving generation)
    (here : lane.Serving generation) :
    ∀ other < settings.workers, ((pool.setLane worker lane).lanes other).Serving generation := by
  intro other within
  rw [Pool.setLane_lanes]
  split
  · exact here
  · exact serving other within

theorem Kept.submit (kept : Kept settings generation pool) (free : pool.owner = .free)
    (inside : worker < settings.workers) (fresh : task ∉ pool.pending) (capacity : Nat) :
    Advances settings generation pool (pool.trySubmit capacity task worker).1
      (pool.trySubmit capacity task worker).2 := by
  have serving : ∀ other < settings.workers, (pool.lanes other).Serving generation := by
    have plays := kept.plays
    rwa [free] at plays
  unfold Pool.trySubmit
  dsimp only
  split
  · have added : Lane.tasks { pool.lanes worker with ring := (pool.lanes worker).ring ++ [task] } =
        (pool.lanes worker).tasks ++ [task] := by simp [Lane.tasks]
    have here := serving worker inside
    have later : Lane.Serving generation
        { pool.lanes worker with ring := (pool.lanes worker).ring ++ [task] } :=
      ⟨here.inbox, here.fetcher, here.signals, here.served⟩
    refine ⟨trivial, ⟨kept.books.submit inside fresh added pool.owner, ?_, ?_⟩, ?_⟩
    · rw [Pool.setLane_owner, free]
      trivial
    · rw [Pool.setLane_owner, free]
      exact serving_setLane serving later
    · intro other within
      rw [Pool.setLane_lanes]
      by_cases here : other = worker
      · subst here
        simp [Event.submittedTo, Event.receivedFrom, added]
      · simp [Event.submittedTo, Event.receivedFrom, here, Ne.symm here]
  · exact Advances.silent trivial kept fun _ => rfl

theorem Kept.free (kept : Kept settings generation pool)
    (serving : ∀ worker < settings.workers, (pool.lanes worker).Serving generation) :
    Kept settings generation { pool with owner := .free } :=
  ⟨kept.books.congr rfl fun _ => rfl, trivial, serving⟩

variable {place : Nat}

theorem Kept.scan (kept : Kept settings generation pool) (scanning : pool.owner = .scanning place) :
    Advances settings generation pool (pool.tryReceive settings.workers place).1
      (pool.tryReceive settings.workers place).2 := by
  have serving : ∀ other < settings.workers, (pool.lanes other).Serving generation := by
    have plays := kept.plays
    rwa [scanning] at plays
  unfold Pool.tryReceive
  split
  · next inside =>
      split
      · exact Advances.silent trivial
          ⟨kept.books.congr rfl fun _ => rfl, trivial, serving⟩ fun _ => rfl
      · next task number completions read =>
          have here := serving place inside
          have taken : (pool.lanes place).tasks =
              task :: Lane.tasks { pool.lanes place with completions } := by
            simp [Lane.tasks, read]
          have held : pool.pending.lookup task = some place :=
            (kept.books.owned place inside task).mp (by simp [taken])
          have current : number = generation :=
            here.served (task, number) (by simp [read])
          rw [if_pos held]
          have later : Lane.Serving generation { pool.lanes place with completions } :=
            ⟨here.inbox, here.fetcher, here.signals, fun completion member =>
              here.served completion (by simp [read, member])⟩
          refine ⟨current, ⟨kept.books.receive inside taken .free, trivial,
            serving_setLane serving later⟩, fun other within => ?_⟩
          · rw [Pool.setLane_lanes]
            by_cases same : other = place
            · subst same
              simp [Event.submittedTo, Event.receivedFrom, taken]
            · simp [Event.submittedTo, Event.receivedFrom, same, Ne.symm same]
  · exact Advances.silent trivial (kept.free serving) fun _ => rfl

theorem Kept.signal (kept : Kept settings generation pool) (free : pool.owner = .free)
    (inside : worker < settings.workers) (read : pool.readSignal worker = some (event, next)) :
    Advances settings generation pool event next := by
  have serving : (pool.lanes worker).Serving generation := by
    have plays := kept.plays worker inside
    rwa [free] at plays
  unfold Pool.readSignal at read
  split at read
  · cases read
  · next signal outbox sent =>
      have ready : signal = .ready := serving.signals signal (by simp [sent])
      rw [if_pos ready] at read
      cases read
      refine Advances.silent trivial (kept.setLane rfl ?_) (tasks_setLane rfl)
      rw [free]
      exact ⟨serving.inbox, serving.fetcher, fun other member =>
        serving.signals other (by simp [sent, member]), serving.served⟩

theorem Kept.reset (kept : Kept settings generation pool) (free : pool.owner = .free)
    (drained : pool.pending = ∅) : Kept settings generation { pool with owner := .sending 0 } := by
  refine ⟨kept.books.congr rfl fun _ => rfl, ⟨drained, Nat.zero_le _⟩, fun worker inside => ?_⟩
  have plays := kept.plays worker inside
  rw [free] at plays
  exact plays

theorem Kept.send (kept : Kept settings generation pool) (sending : pool.owner = .sending place) :
    Advances settings generation pool .quiet (pool.sendReset settings.workers place) := by
  have proper := kept.proper
  have plays := kept.plays
  rw [sending] at proper plays
  obtain ⟨drained, within⟩ := proper
  simp only [Plays] at plays
  unfold Pool.sendReset
  split
  · next inside =>
      refine Advances.silent trivial ⟨kept.books.congr rfl (tasks_setLane rfl),
        ⟨drained, inside⟩, fun worker bound => ?_⟩ (tasks_setLane rfl)
      rw [Pool.setLane_lanes]
      simp only [Plays]
      by_cases here : worker = place
      · subst here
        have serving := plays worker bound
        rw [if_neg (Nat.lt_irrefl worker)] at serving
        rw [if_pos (Nat.lt_succ_self worker), if_pos rfl]
        exact .waiting (congrArg (· ++ [Notice.reset]) serving.inbox) serving.fetcher
          serving.signals
      · rw [if_neg here]
        have same : worker < place + 1 ↔ worker < place := by omega
        simp only [same]
        exact plays worker bound
  · next finished =>
      have whole : place = settings.workers := Nat.le_antisymm within (Nat.not_lt.mp finished)
      refine Advances.silent trivial ⟨kept.books.congr rfl fun _ => rfl,
        ⟨drained, Finset.Subset.refl _, ⟨0, Finset.mem_range.mpr settings.positive⟩⟩,
        fun worker bound => ?_⟩ fun _ => rfl
      have asked := plays worker bound
      rw [if_pos (whole ▸ bound)] at asked
      simp only [Plays]
      rwa [if_pos (Finset.mem_range.mpr bound)]

theorem Kept.collect (kept : Kept settings generation pool) {remaining : Finset Nat}
    (collecting : pool.owner = .collecting remaining) (inside : worker < settings.workers)
    (read : pool.collectReset remaining worker = some (event, next)) :
    Advances settings generation pool event next := by
  have proper := kept.proper
  have plays := kept.plays
  rw [collecting] at proper plays
  obtain ⟨drained, within, -⟩ := proper
  have here := plays worker inside
  simp only [Plays] at plays here
  unfold Pool.collectReset at read
  split at read
  · cases read
  · next signal outbox sent =>
      dsimp only at read
      have member : worker ∈ remaining := by
        by_contra answered
        rw [if_neg answered] at here
        rw [here.signals] at sent
        cases sent
      rw [if_pos member] at here
      split at read
      · cases read
        refine Advances.silent trivial (kept.setLane rfl ?_) (tasks_setLane rfl)
        rw [collecting]
        simp only [Plays]
        rw [if_pos member]
        exact here.read_ready sent
      · have renewed := here.read_reset sent
        have same : ∀ other,
            ((pool.setLane worker { pool.lanes worker with outbox }).lanes other).tasks =
              (pool.lanes other).tasks := tasks_setLane rfl
        have others : ∀ other < settings.workers, other ∉ remaining.erase worker →
            Lane.Renewed generation
              ((pool.setLane worker { pool.lanes worker with outbox }).lanes other) := by
          intro other bound answered
          rw [Pool.setLane_lanes]
          split
          · exact renewed
          · next different =>
              have before := plays other bound
              rwa [if_neg fun asked => answered (Finset.mem_erase.mpr ⟨different, asked⟩)]
                at before
        split at read
        · next last =>
            cases read
            refine ⟨trivial, ⟨kept.books.congr rfl same, trivial, fun other bound => ?_⟩,
              fun other bound => ?_⟩
            · refine (others other bound (by simp [last])).serving ?_
              rw [same other]
              exact kept.books.bare drained bound
            · exact (List.append_nil _).trans (same other).symm
        · next more =>
            cases read
            refine Advances.silent trivial ⟨kept.books.congr rfl same,
              ⟨drained, (Finset.erase_subset _ _).trans within,
                Finset.nonempty_iff_ne_empty.mpr more⟩, fun other bound => ?_⟩ same
            simp only [Plays]
            by_cases asked : other ∈ remaining.erase worker
            · rw [if_pos asked]
              obtain ⟨different, was⟩ := Finset.mem_erase.mp asked
              have before := plays other bound
              rw [if_pos was] at before
              rwa [Pool.setLane_lanes, if_neg different]
            · rw [if_neg asked]
              exact others other bound asked

theorem Kept.lane (kept : Kept settings generation pool) (inside : worker < settings.workers) :
    Kept settings generation
      (pool.setLane worker ((pool.lanes worker).step settings.capacity)) := by
  refine kept.setLane Lane.tasks_step ((kept.plays worker inside).step ?_)
  have proper := kept.proper
  cases place : pool.owner with
  | free => exact .inr (.inl rfl)
  | scanning next => exact .inr (.inr ⟨next, rfl⟩)
  | sending next | collecting remaining =>
      rw [place] at proper
      exact .inl (kept.books.bare proper.1 inside)

/-- Every step of the owner and of a lane keeps the invariant and is sound. -/
theorem Kept.step (kept : Kept settings generation pool) {label : Label} {event : Event}
    (fresh : Fresh pool label) (taken : settings.machine.step pool label = some (event, next)) :
    Advances settings generation pool event next := by
  unfold Settings.machine at taken
  dsimp only at taken
  split at taken
  · next task worker free =>
      split at taken
      · next inside =>
          have moved := kept.submit free inside fresh settings.capacity
          rwa [Option.some.inj taken] at moved
      · cases taken
  · next free =>
      cases taken
      have plays := kept.plays
      rw [free] at plays
      exact Advances.silent trivial ⟨kept.books.congr rfl fun _ => rfl, trivial, plays⟩
        fun _ => rfl
  · next place scanning =>
      have moved := kept.scan scanning
      rwa [Option.some.inj taken] at moved
  · next worker free =>
      split at taken
      · next inside => exact kept.signal free inside taken
      · cases taken
  · next free =>
      split at taken
      · next drained =>
          cases taken
          exact Advances.silent trivial (kept.reset free drained) fun _ => rfl
      · cases taken
        exact Advances.silent trivial kept fun _ => rfl
  · next place sending =>
      cases taken
      exact kept.send sending
  · next worker remaining collecting =>
      split at taken
      · next inside => exact kept.collect collecting inside taken
      · cases taken
  · next worker =>
      split at taken
      · next inside =>
          cases taken
          exact Advances.silent trivial (kept.lane inside) (tasks_setLane Lane.tasks_step)
      · cases taken
  · cases taken

theorem kept_create : Kept settings 0 Pool.create := by
  refine ⟨⟨fun task worker found => ?_, fun worker _ task => ?_, fun worker _ => ?_⟩, trivial,
    fun worker _ => ⟨rfl, rfl, nofun, nofun⟩⟩
  · rw [Pool.create, Finmap.lookup_empty] at found
    cases found
  · rw [Pool.create, Finmap.lookup_empty]
    exact iff_of_false nofun nofun
  · exact List.nodup_nil

/-! ### The way back to an idle pool -/

/-- Every step that moves a lane's work on lowers its rank. -/
def Lane.rank (workers : Nat) (lane : Lane) : Nat :=
  (workers + 7) * lane.ring.length + (workers + 2) * lane.completions.length +
    3 * lane.inbox.length + lane.outbox.length +
    match lane.stage with
    | .polling => if lane.inbox = [] then 1 else 0
    | .ringing => if lane.inbox = [] then 0 else 1
    | .fetching _ => workers + 6
    | .signalling => 3

/-- A lane whose completions were read has room for another one. -/
theorem Lane.rank_step {lane : Lane} {capacity workers : Nat} (roomy : 0 < capacity)
    (read : lane.completions = []) (busy : lane.inbox ≠ [] ∨ lane.tasks ≠ []) :
    (lane.step capacity).rank workers < lane.rank workers := by
  obtain ⟨inbox, ring, stage, completions, outbox, fetcher⟩ := lane
  cases read
  cases stage with
  | polling =>
      cases inbox with
      | nil => simp [step, rank]
      | cons notice inbox =>
          cases notice
          by_cases last : inbox = []
          · simp [step, rank, last]
            omega
          · simp [step, rank, last]
            omega
  | ringing =>
      cases ring with
      | nil =>
          have waiting : inbox ≠ [] := by simpa [tasks] using busy
          simp [step, rank, waiting]
      | cons task ring =>
          simp only [step, rank, List.length_cons, Nat.mul_succ]
          split <;> omega
  | fetching task =>
      simp only [step, rank, List.length_nil, if_pos roomy, List.length_append, List.length_cons]
      omega
  | signalling =>
      by_cases none : inbox = []
      · simp [step, rank, none]
        omega
      · simp [step, rank, none]
        omega

/-- Nothing is asked of the lanes and nothing is pending. -/
def Idle (pool : Pool) : Prop := pool.owner = .free ∧ pool.pending = ∅

namespace Settings

variable (settings)

def load (pool : Pool) : Nat :=
  ∑ worker ∈ Finset.range settings.workers, (pool.lanes worker).rank settings.workers

theorem load_setLane (pool : Pool) (lane : Lane) (inside : worker < settings.workers) :
    settings.load (pool.setLane worker lane) + (pool.lanes worker).rank settings.workers =
      settings.load pool + lane.rank settings.workers := by
  have member := Finset.mem_range.mpr inside
  have others : ∀ other ∈ (Finset.range settings.workers).erase worker,
      ((pool.setLane worker lane).lanes other).rank settings.workers =
        (pool.lanes other).rank settings.workers := by
    intro other outside
    rw [Pool.setLane_lanes, if_neg (Finset.ne_of_mem_erase outside)]
  unfold load
  rw [← Finset.add_sum_erase _ _ member, ← Finset.add_sum_erase _ (fun other =>
    (pool.lanes other).rank settings.workers) member, Finset.sum_congr rfl others,
    Pool.setLane_lanes, if_pos rfl]
  omega

/-- A completion for the scan from `place` on. -/
def Found (pool : Pool) (place : Nat) : Prop :=
  ∃ worker < settings.workers, place ≤ worker ∧ (pool.lanes worker).completions ≠ []

instance (pool : Pool) (place : Nat) : Decidable (settings.Found pool place) :=
  inferInstanceAs (Decidable (∃ worker < settings.workers, _))

/-- Where the owner stands weighs more than what is left of its loop, and an idle owner more
than a scan that will find something. -/
def rank (pool : Pool) : Nat :=
  settings.load pool +
    match pool.owner with
    | .free => settings.workers + 1
    | .scanning place =>
        if settings.Found pool place then settings.workers - place
        else settings.workers - place + (settings.workers + 2)
    | .sending next => 5 * (settings.workers - next) + 1
    | .collecting _ => 0

/-- Some step other than a submission leads to an idle pool or to a lower rank. -/
def Nearer (pool : Pool) : Prop :=
  ∃ label event next, (∀ task worker, label ≠ .submit task worker) ∧
    settings.machine.step pool label = some (event, next) ∧
    (Idle next ∨ settings.rank next < settings.rank pool)

end Settings

section Progress

/-- A lane that is asked, or holds a task, and whose completions were read, steps on. -/
theorem nearer_lane (inside : worker < settings.workers)
    (read : (pool.lanes worker).completions = [])
    (busy : (pool.lanes worker).inbox ≠ [] ∨ (pool.lanes worker).tasks ≠ [])
    (awake : ∀ place, pool.owner ≠ .scanning place) : settings.Nearer pool := by
  refine ⟨.lane worker, .quiet, _, nofun, if_pos inside, .inr ?_⟩
  have moved := settings.load_setLane pool ((pool.lanes worker).step settings.capacity) inside
  have lower : ((pool.lanes worker).step settings.capacity).rank settings.workers <
      (pool.lanes worker).rank settings.workers := Lane.rank_step settings.roomy read busy
  unfold Settings.rank
  rw [Pool.setLane_owner]
  cases place : pool.owner with
  | scanning next => exact absurd place (awake next)
  | free | sending next | collecting remaining =>
      dsimp only
      omega

theorem nearer_scanning (scanning : pool.owner = .scanning place) : settings.Nearer pool := by
  refine ⟨.scan, (pool.tryReceive settings.workers place).1,
    (pool.tryReceive settings.workers place).2, nofun, ?_, .inr ?_⟩
  · simp only [Settings.machine, scanning]
  unfold Settings.rank Pool.tryReceive
  rw [scanning]
  dsimp only
  split
  · next inside =>
      split
      · next read =>
          -- the lane is passed over, and what there is to find is after it
          have same : settings.Found { pool with owner := .scanning (place + 1) } (place + 1) ↔
              settings.Found pool place := by
            constructor
            · rintro ⟨worker, within, past, some⟩
              exact ⟨worker, within, Nat.le_of_succ_le past, some⟩
            · rintro ⟨worker, within, past, some⟩
              refine ⟨worker, within, Nat.lt_of_le_of_ne past ?_, some⟩
              rintro rfl
              exact some read
          have unchanged : settings.load { pool with owner := .scanning (place + 1) } =
              settings.load pool := rfl
          simp only [same, unchanged]
          split <;> omega
      · next task number completions read =>
          have found : settings.Found pool place :=
            ⟨place, inside, Nat.le_refl _, by simp [read]⟩
          have moved := settings.load_setLane pool { pool.lanes place with completions } inside
          have lower : (pool.lanes place).rank settings.workers =
              Lane.rank settings.workers { pool.lanes place with completions } +
                (settings.workers + 2) := by
            simp only [Lane.rank, read, List.length_cons, Nat.mul_succ]
            omega
          rw [if_pos found]
          change settings.load (pool.setLane place { pool.lanes place with completions }) +
            (settings.workers + 1) < settings.load pool + (settings.workers - place)
          omega
  · next finished =>
      have missing : ¬ settings.Found pool place := by
        rintro ⟨worker, within, past, -⟩
        omega
      have unchanged : settings.load { pool with owner := .free } = settings.load pool := rfl
      rw [if_neg missing]
      simp only [unchanged]
      omega

variable (kept : Kept settings generation pool)

include kept

theorem Kept.nearer_free (free : pool.owner = .free) (pending : pool.pending ≠ ∅) :
    settings.Nearer pool := by
  by_cases published : settings.Found pool 0
  · refine ⟨.receive, .quiet, { pool with owner := .scanning 0 }, nofun, ?_, .inr ?_⟩
    · simp [Settings.machine, free]
    · have found : settings.Found { pool with owner := .scanning 0 } 0 := published
      simp [Settings.rank, Settings.load, free, found]
  · obtain ⟨task, worker, held⟩ : ∃ task worker, pool.pending.lookup task = some worker := by
      by_contra absent
      push Not at absent
      refine pending (Finmap.ext_lookup fun task => ?_)
      rw [Finmap.lookup_empty]
      exact Option.eq_none_iff_forall_ne_some.mpr (absent task)
    have inside := kept.books.placed task worker held
    have member := (kept.books.owned worker inside task).mpr held
    refine nearer_lane inside ?_ (.inr (List.ne_nil_of_mem member)) (by simp [free])
    by_contra some
    exact published ⟨worker, inside, Nat.zero_le _, some⟩

theorem Kept.nearer_sending (sending : pool.owner = .sending place) : settings.Nearer pool := by
  refine ⟨.send, .quiet, _, nofun, by simp only [Settings.machine, sending]; rfl, .inr ?_⟩
  have proper := kept.proper
  rw [sending] at proper
  unfold Settings.rank Pool.sendReset
  rw [sending]
  dsimp only
  split
  · next inside =>
      let asked : Lane :=
        { pool.lanes place with inbox := (pool.lanes place).inbox ++ [.reset] }
      have moved := settings.load_setLane pool asked inside
      have more : asked.rank settings.workers ≤ (pool.lanes place).rank settings.workers + 4 := by
        simp only [asked, Lane.rank, List.length_append, List.length_cons, List.length_nil]
        cases (pool.lanes place).stage <;> simp <;> omega
      have unchanged : settings.load
          { pool.setLane place asked with owner := .sending (place + 1) } =
          settings.load (pool.setLane place asked) := rfl
      simp only [asked] at moved more unchanged
      simp only [unchanged]
      omega
  · have unchanged : settings.load
        { pool with owner := .collecting (Finset.range settings.workers) } =
        settings.load pool := rfl
    simp only [unchanged]
    omega

theorem Kept.nearer_collecting {remaining : Finset Nat}
    (collecting : pool.owner = .collecting remaining) : settings.Nearer pool := by
  have proper := kept.proper
  rw [collecting] at proper
  obtain ⟨drained, within, ⟨worker, member⟩⟩ := proper
  have inside := Finset.mem_range.mp (within member)
  have bare := kept.books.bare drained inside
  have asked := kept.plays worker inside
  rw [collecting] at asked
  simp only [Plays] at asked
  rw [if_pos member] at asked
  cases sent : (pool.lanes worker).outbox with
  | nil =>
      -- nothing to read, so the lane has not taken the reset
      have parts := List.append_eq_nil_iff.mp (List.append_eq_nil_iff.mp bare).1
      refine nearer_lane inside (List.map_eq_nil_iff.mp parts.1) (.inl ?_)
        (by simp [collecting])
      cases asked with
      | waiting inbox fetcher signals => simp [inbox]
      | answered count inbox fetcher signals quiet =>
          rw [signals] at sent
          simp at sent
  | cons signal outbox =>
      obtain ⟨read, readEq⟩ : ∃ read : Lane, { pool.lanes worker with outbox } = read := ⟨_, rfl⟩
      have moved := settings.load_setLane pool read inside
      have lower : (pool.lanes worker).rank settings.workers =
          read.rank settings.workers + 1 := by
        rw [← readEq]
        simp only [Lane.rank, sent, List.length_cons]
        omega
      have answers : ∀ event next, pool.collectReset remaining worker = some (event, next) →
          settings.machine.step pool (.collect worker) = some (event, next) := by
        intro event next taken
        simp only [Settings.machine, collecting, if_pos inside, taken]
      simp only [Pool.collectReset, sent, readEq] at answers
      cases signal with
      | ready =>
          refine ⟨.collect worker, .quiet, pool.setLane worker read, nofun, answers _ _ rfl,
            .inr ?_⟩
          simp only [Settings.rank, Pool.setLane_owner, collecting]
          omega
      | resetReady =>
          by_cases last : remaining.erase worker = ∅
          · exact ⟨.collect worker, .renewed, { pool.setLane worker read with owner := .free },
              nofun, answers _ _ (if_pos last), .inl ⟨rfl, drained⟩⟩
          · refine ⟨.collect worker, .quiet, { pool.setLane worker read with
              owner := .collecting (remaining.erase worker) }, nofun,
              answers _ _ (if_neg last), .inr ?_⟩
            have unchanged : settings.load { pool.setLane worker read with
                owner := .collecting (remaining.erase worker) } =
                settings.load (pool.setLane worker read) := rfl
            simp only [Settings.rank, unchanged, collecting]
            omega

theorem Kept.nearer (busy : ¬ Idle pool) : settings.Nearer pool := by
  cases place : pool.owner with
  | free => exact kept.nearer_free place fun drained => busy ⟨place, drained⟩
  | scanning next => exact nearer_scanning place
  | sending next => exact kept.nearer_sending place
  | collecting remaining => exact kept.nearer_collecting place

/-- Steps other than submissions lead back to an idle pool. -/
theorem Kept.quiesces : ∃ labels trace idle,
    settings.machine.Along (fun _ label => ∀ task worker, label ≠ .submit task worker) pool
      labels ∧
    settings.machine.run pool labels = some (trace, idle) ∧ Idle idle := by
  obtain ⟨labels, trace, idle, along, reached, -, done⟩ :=
    settings.machine.exists_run_of_progress
      (fun _ pool => ∃ generation, Kept settings generation pool)
      (fun _ pool => Idle pool) settings.rank
      (fun trace pool held busy => by
        obtain ⟨generation, kept⟩ := held
        obtain ⟨label, event, next, other, taken, nearer⟩ := kept.nearer busy
        have fresh : Fresh pool label := by
          cases label <;> first | trivial | exact absurd rfl (other _ _)
        exact ⟨label, event, next, other, taken, ⟨_, (kept.step fresh taken).kept⟩, nearer⟩)
      [] pool ⟨generation, kept⟩
  exact ⟨labels, trace, idle, along, reached, done⟩

end Progress

/-! ### Runs -/

theorem renewals_append (trace : List (Label × Event)) (label : Label) (event : Event) :
    renewals (trace ++ [(label, event)]) =
      renewals trace + if event = .renewed then 1 else 0 := by
  unfold renewals
  rw [List.countP_append, List.countP_singleton]
  simp

theorem submittedTo_append (worker : Nat) (trace : List (Label × Event)) (label : Label)
    (event : Event) : submittedTo worker (trace ++ [(label, event)]) =
      submittedTo worker trace ++ event.submittedTo worker := by
  simp [submittedTo]

theorem receivedFrom_append (worker : Nat) (trace : List (Label × Event)) (label : Label)
    (event : Event) : receivedFrom worker (trace ++ [(label, event)]) =
      receivedFrom worker trace ++ event.receivedFrom worker := by
  simp [receivedFrom]

/-- The state after a trace. -/
structure After (settings : Settings) (trace : List (Label × Event)) (pool : Pool) : Prop where
  kept : Kept settings (renewals trace) pool
  conserved : ∀ worker < settings.workers,
    submittedTo worker trace = receivedFrom worker trace ++ (pool.lanes worker).tasks

theorem After.step {trace : List (Label × Event)} (after : After settings trace pool)
    {label : Label} {event : Event} (fresh : Fresh pool label)
    (taken : settings.machine.step pool label = some (event, next)) :
    event.Sound (renewals trace) ∧ After settings (trace ++ [(label, event)]) next := by
  obtain ⟨sound, kept, conserved⟩ := after.kept.step fresh taken
  refine ⟨sound, ?_, fun worker inside => ?_⟩
  · rwa [renewals_append]
  · rw [submittedTo_append, receivedFrom_append, after.conserved worker inside,
      List.append_assoc, conserved worker inside, List.append_assoc]

/-- However the owner and its lanes, which stay alive, take turns while every task is submitted
under a `Fresh` number: no completion is one the owner does not expect and no signal one it does
not know; every completion comes from the fetcher made by the last
reset that returned; every lane's tasks are received in the order they were submitted in, each
once, but for those the pool has pending; and the pool never ends up stuck, with tasks pending
or in a reset. -/
theorem Settings.pool_sound (settings : Settings) {labels : List Label}
    {trace : List (Label × Event)} {pool : Pool}
    (fresh : settings.machine.Along Fresh Pool.create labels)
    (reached : settings.machine.run Pool.create labels = some (trace, pool)) :
    (∀ before label event rest, trace = before ++ (label, event) :: rest →
      event.Sound (renewals before)) ∧
      (∀ worker < settings.workers,
        submittedTo worker trace = receivedFrom worker trace ++ (pool.lanes worker).tasks ∧
        ∀ task, task ∈ (pool.lanes worker).tasks ↔ pool.pending.lookup task = some worker) ∧
      (pool.owner = .free → ∀ worker < settings.workers,
        (pool.lanes worker).generation = renewals trace) ∧
      ∃ further rest idle,
        settings.machine.Along (fun _ label => ∀ task worker, label ≠ .submit task worker) pool
          further ∧
        settings.machine.run pool further = some (rest, idle) ∧ Idle idle := by
  obtain ⟨after, answers⟩ := settings.machine.run_history
    (fun trace pool label event next (held : After settings trace pool)
      (permitted : Fresh pool label) taken => held.step permitted taken)
    ⟨kept_create, fun _ _ => rfl⟩ fresh reached
  refine ⟨answers, fun worker inside => ⟨after.conserved worker inside,
    after.kept.books.owned worker inside⟩, fun free worker inside => ?_, after.kept.quiesces⟩
  have serving := after.kept.plays worker inside
  rw [free] at serving
  exact serving.fetcher

/-- Two lanes: a task, a reset of both fetchers while a signal is on its way, and a task under
the second fetcher. -/
def renewing : List Label :=
  [.submit 7 1, .lane 1, .lane 1, .lane 1, .receive, .scan, .scan, .reset, .send, .lane 0, .send,
    .send, .lane 1, .lane 1, .collect 1, .collect 1, .lane 0, .lane 0, .collect 0, .submit 8 0,
    .lane 0, .lane 0, .lane 0, .receive, .scan]

theorem pool_sound_renewing :
    ∃ trace pool, (⟨2, 2, by decide, by decide⟩ : Settings).machine.run Pool.create renewing =
        some (trace, pool) ∧
      [8] = receivedFrom 0 trace ++ (pool.lanes 0).tasks ∧ (pool.lanes 0).generation = 1 := by
  have view : ((⟨2, 2, by decide, by decide⟩ : Settings).machine.run Pool.create renewing).map
      (fun result => (submittedTo 0 result.1, renewals result.1, result.2.owner)) =
        some ([8], 1, .free) := by
    decide +kernel
  obtain ⟨⟨trace, pool⟩, reached, shown⟩ := Option.map_eq_some_iff.mp view
  obtain ⟨submitted, renewed, free⟩ : submittedTo 0 trace = [8] ∧ renewals trace = 1 ∧
      pool.owner = .free := by simpa using shown
  obtain ⟨-, tasks, served, -⟩ :=
    Settings.pool_sound ⟨2, 2, by decide, by decide⟩ (by decide +kernel) reached
  refine ⟨trace, pool, reached, ?_, ?_⟩
  · exact submitted.symm.trans (tasks 0 (by decide)).1
  · exact (served free 0 (by decide)).trans renewed

end Hyperloader.Compat.LanePool
