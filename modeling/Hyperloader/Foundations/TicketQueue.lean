/-
Module: Hyperloader.Foundations.TicketQueue
Purpose: A bounded queue of slots shared by any number of parties, each slot with a sequence
  counter, over any kind of counters: one step of a party is one access to memory.  Beside
  it the ledger of what such a queue is for, which hands out tickets in order.
Trusted boundary: none
Main exports: Counting, TicketQueue, TicketQueue.machine, Ledger, Ledger.run, Ledger.Accounted,
  Ledger.accounted
-/
import Mathlib.Logic.Function.Basic
import Mathlib.Data.List.Nodup
import Hyperloader.Foundations.Transition

namespace Hyperloader.Foundations

/-! ### The queue -/

/-- How the counters of a queue count: to the next ticket, a lap further, to the slot of a
ticket, and how a sequence stands to a ticket. -/
structure Counting (Counter : Type*) where
  next : Counter → Counter
  lap : Counter → Counter
  place : Counter → Nat
  difference : Counter → Counter → Ordering

structure TicketSlot (Counter Frame : Type*) where
  sequence : Counter
  frame : Frame

/-- Where a party stands: outside a call, or before the access of its call named. -/
inductive TicketPhase (Counter Frame : Type*) where
  | idle
  | pushLoad (frame : Frame)
  | pushSequence (frame : Frame) (position : Counter)
  | pushExchange (frame : Frame) (position : Counter)
  | pushWrite (frame : Frame) (position : Counter)
  | pushPublish (position : Counter)
  | pushFull (frame : Frame) (position : Counter)
  | popLoad
  | popSequence (position : Counter)
  | popExchange (position : Counter)
  | popRead (position : Counter)
  | popRelease (position : Counter) (frame : Frame)
  | popEmpty (position : Counter)
deriving DecidableEq

/-- A party calls, or takes its next step; a weak exchange may fail for no reason. -/
inductive TicketAction (Frame : Type*) where
  | push (frame : Frame)
  | pop
  | step
  | spurious

/-- What a step claims or returns. -/
inductive TicketEvent (Frame : Type*) where
  | quiet
  | claimed (frame : Frame)
  | taken
  | pushed
  | full
  | popped (frame : Frame)
  | empty

/-- The frame a step claims a position for. -/
def TicketEvent.offered {Frame : Type*} : TicketEvent Frame → Option Frame
  | .claimed frame => some frame
  | _ => none

/-- The frame a step hands out. -/
def TicketEvent.given {Frame : Type*} : TicketEvent Frame → Option Frame
  | .popped frame => some frame
  | _ => none

structure TicketQueue (Party Counter Frame : Type*) where
  enqueue : Counter
  dequeue : Counter
  slots : Nat → TicketSlot Counter Frame
  phase : Party → TicketPhase Counter Frame

namespace TicketQueue

variable {Party Counter Frame : Type*} [DecidableEq Party]

/-- The queue with one party in another phase. -/
def turn (queue : TicketQueue Party Counter Frame) (party : Party)
    (phase : TicketPhase Counter Frame) : TicketQueue Party Counter Frame :=
  { queue with phase := Function.update queue.phase party phase }

def write (queue : TicketQueue Party Counter Frame) (place : Nat) (frame : Frame) :
    TicketQueue Party Counter Frame :=
  { queue with
    slots := Function.update queue.slots place { queue.slots place with frame := frame } }

def store (queue : TicketQueue Party Counter Frame) (place : Nat) (sequence : Counter) :
    TicketQueue Party Counter Frame :=
  { queue with
    slots := Function.update queue.slots place { queue.slots place with sequence := sequence } }

variable [DecidableEq Counter] (counting : Counting Counter)

/-- The next access of a party within its call. -/
def access (queue : TicketQueue Party Counter Frame) (party : Party) :
    TicketPhase Counter Frame → Option (TicketEvent Frame × TicketQueue Party Counter Frame)
  | .idle => none
  | .pushLoad frame => some (.quiet, queue.turn party (.pushSequence frame queue.enqueue))
  | .pushSequence frame position =>
      match counting.difference (queue.slots (counting.place position)).sequence position with
      | .eq => some (.quiet, queue.turn party (.pushExchange frame position))
      | .lt => some (.quiet, queue.turn party (.pushFull frame position))
      | .gt => some (.quiet, queue.turn party (.pushLoad frame))
  | .pushExchange frame position =>
      if queue.enqueue = position then
        some (.claimed frame,
          { queue with enqueue := counting.next position }.turn party (.pushWrite frame position))
      else some (.quiet, queue.turn party (.pushSequence frame queue.enqueue))
  | .pushWrite frame position =>
      some (.quiet,
        (queue.write (counting.place position) frame).turn party (.pushPublish position))
  | .pushPublish position =>
      some (.pushed,
        (queue.store (counting.place position) (counting.next position)).turn party .idle)
  | .pushFull frame position =>
      if counting.lap queue.dequeue = position then some (.full, queue.turn party .idle)
      else some (.quiet, queue.turn party (.pushLoad frame))
  | .popLoad => some (.quiet, queue.turn party (.popSequence queue.dequeue))
  | .popSequence position =>
      match counting.difference (queue.slots (counting.place position)).sequence
          (counting.next position) with
      | .eq => some (.quiet, queue.turn party (.popExchange position))
      | .lt => some (.quiet, queue.turn party (.popEmpty position))
      | .gt => some (.quiet, queue.turn party .popLoad)
  | .popExchange position =>
      if queue.dequeue = position then
        some (.taken,
          { queue with dequeue := counting.next position }.turn party (.popRead position))
      else some (.quiet, queue.turn party (.popSequence queue.dequeue))
  | .popRead position =>
      some (.quiet, queue.turn party
        (.popRelease position (queue.slots (counting.place position)).frame))
  | .popRelease position frame =>
      some (.popped frame,
        (queue.store (counting.place position) (counting.lap position)).turn party .idle)
  | .popEmpty position =>
      if queue.enqueue = position then some (.empty, queue.turn party .idle)
      else some (.quiet, queue.turn party .popLoad)

/-- A call begins, or goes on by one access; an exchange that fails spuriously observes the
counter. -/
def step (queue : TicketQueue Party Counter Frame) (label : Party × TicketAction Frame) :
    Option (TicketEvent Frame × TicketQueue Party Counter Frame) :=
  match label.2, queue.phase label.1 with
  | .push frame, .idle => some (.quiet, queue.turn label.1 (.pushLoad frame))
  | .pop, .idle => some (.quiet, queue.turn label.1 .popLoad)
  | .spurious, .pushExchange frame _ =>
      some (.quiet, queue.turn label.1 (.pushSequence frame queue.enqueue))
  | .spurious, .popExchange _ =>
      some (.quiet, queue.turn label.1 (.popSequence queue.dequeue))
  | .step, phase => access counting queue label.1 phase
  | _, _ => none

def machine : Machine (TicketQueue Party Counter Frame) (Party × TicketAction Frame)
    (TicketEvent Frame) where
  step := step counting

end TicketQueue

/-! ### The ledger -/

/-- What a party is owed: nothing, an answer to the frame it offers, the end of a push that
has its ticket, an answer to a pop, or the frame of the ticket it holds. -/
inductive Standing (Frame : Type*) where
  | idle
  | offering (frame : Frame)
  | placed
  | asking
  | holding (ticket : Nat)
deriving DecidableEq

/-- A queue of at most `capacity` frames between the tickets claimed and those taken. -/
structure Ledger (Party Frame : Type*) where
  claimed : List Frame
  taken : Nat
  popped : List Nat
  standing : Party → Standing Frame

namespace Ledger

variable {Party Frame : Type*} [DecidableEq Party] [DecidableEq Frame]

def empty : Ledger Party Frame := ⟨[], 0, [], fun _ => .idle⟩

def turn (ledger : Ledger Party Frame) (party : Party) (standing : Standing Frame) :
    Ledger Party Frame :=
  { ledger with standing := Function.update ledger.standing party standing }

/-- Enter one step of a queue.  A claim takes the next ticket of a queue with room, a take
the next ticket claimed, and a party is given the frame of the ticket it holds. -/
def enter (capacity : Nat) (ledger : Ledger Party Frame) (party : Party) :
    TicketAction Frame → TicketEvent Frame → Option (Ledger Party Frame)
  | .push frame, .quiet =>
      if ledger.standing party = .idle then some (ledger.turn party (.offering frame)) else none
  | .pop, .quiet =>
      if ledger.standing party = .idle then some (ledger.turn party .asking) else none
  | .step, .claimed frame =>
      if ledger.standing party = .offering frame ∧
          ledger.claimed.length < ledger.taken + capacity then
        some ({ ledger with claimed := ledger.claimed ++ [frame] }.turn party .placed)
      else none
  | .step, .pushed =>
      if ledger.standing party = .placed then some (ledger.turn party .idle) else none
  | .step, .full =>
      match ledger.standing party with
      | .offering _ =>
          if ledger.claimed.length = ledger.taken + capacity then some (ledger.turn party .idle)
          else none
      | _ => none
  | .step, .taken =>
      if ledger.standing party = .asking ∧ ledger.taken < ledger.claimed.length then
        some ({ ledger with taken := ledger.taken + 1 }.turn party (.holding ledger.taken))
      else none
  | .step, .popped frame =>
      match ledger.standing party with
      | .holding ticket =>
          if ledger.claimed[ticket]? = some frame then
            some ({ ledger with popped := ledger.popped ++ [ticket] }.turn party .idle)
          else none
      | _ => none
  | .step, .empty =>
      if ledger.standing party = .asking ∧ ledger.claimed.length = ledger.taken then
        some (ledger.turn party .idle)
      else none
  | .step, .quiet => some ledger
  | .spurious, .quiet => some ledger
  | _, _ => none

/-- Enter a trace; a step the ledger does not allow ends it. -/
def run (capacity : Nat) :
    Ledger Party Frame → List ((Party × TicketAction Frame) × TicketEvent Frame) →
      Option (Ledger Party Frame)
  | ledger, [] => some ledger
  | ledger, ((party, action), event) :: rest =>
      match ledger.enter capacity party action event with
      | none => none
      | some next => run capacity next rest

variable {capacity : Nat}

theorem run_append {ledger : Ledger Party Frame}
    (one two : List ((Party × TicketAction Frame) × TicketEvent Frame)) :
    ledger.run capacity (one ++ two) =
      (ledger.run capacity one).bind fun middle => middle.run capacity two := by
  induction one generalizing ledger with
  | nil => rfl
  | cons entry entries ih =>
      obtain ⟨⟨party, action⟩, event⟩ := entry
      rw [List.cons_append, run, run]
      cases ledger.enter capacity party action event with
      | none => rfl
      | some next => exact ih

variable {trace : List ((Party × TicketAction Frame) × TicketEvent Frame)} {party : Party}
  {action : TicketAction Frame} {event : TicketEvent Frame}

theorem run_concat {ledger middle : Ledger Party Frame}
    (sofar : ledger.run capacity trace = some middle) :
    ledger.run capacity (trace ++ [((party, action), event)]) =
      middle.enter capacity party action event := by
  rw [run_append, sofar, Option.bind_some, run]
  cases middle.enter capacity party action event <;> rfl

/-! ### Accounts -/

/-- Every ticket taken was handed back once or is held by one party. -/
structure Accounted (ledger : Ledger Party Frame) : Prop where
  once : ledger.popped.Nodup
  whole : ∀ ticket, ticket < ledger.taken ↔
    ticket ∈ ledger.popped ∨ ∃ party, ledger.standing party = .holding ticket
  apart : ∀ party ticket, ledger.standing party = .holding ticket → ticket ∉ ledger.popped
  alone : ∀ one two ticket, ledger.standing one = .holding ticket →
    ledger.standing two = .holding ticket → one = two
  within : ledger.taken ≤ ledger.claimed.length

/-- What entering a step changes: nothing, the standing of a party that holds no ticket
before or after, a ticket taken, or a ticket handed back. -/
inductive Entered (ledger : Ledger Party Frame) (party : Party) : Ledger Party Frame → Prop where
  | same : Entered ledger party ledger
  | moved (more : List Frame) (standing : Standing Frame)
      (before : ∀ ticket, ledger.standing party ≠ .holding ticket)
      (after : ∀ ticket, standing ≠ .holding ticket) :
      Entered ledger party
        ({ ledger with claimed := ledger.claimed ++ more }.turn party standing)
  | took (before : ledger.standing party = .asking)
      (room : ledger.taken < ledger.claimed.length) :
      Entered ledger party
        ({ ledger with taken := ledger.taken + 1 }.turn party (.holding ledger.taken))
  | gave (ticket : Nat) (before : ledger.standing party = .holding ticket) :
      Entered ledger party
        ({ ledger with popped := ledger.popped ++ [ticket] }.turn party .idle)

omit [DecidableEq Frame] in
/-- A party's standing moves between two that hold no ticket. -/
theorem Entered.move {ledger : Ledger Party Frame} {old new : Standing Frame}
    (here : ledger.standing party = old) (before : ∀ ticket, old ≠ .holding ticket)
    (after : ∀ ticket, new ≠ .holding ticket) : Entered ledger party (ledger.turn party new) := by
  have moved := @Entered.moved Party Frame _ ledger party [] new (here ▸ before) after
  rw [List.append_nil] at moved
  exact moved

variable {ledger next : Ledger Party Frame}

theorem enter_cases (entered : ledger.enter capacity party action event = some next) :
    Entered ledger party next := by
  unfold enter at entered
  split at entered
  · split at entered
    · rename_i here
      cases entered
      exact .move here nofun nofun
    · cases entered
  · split at entered
    · rename_i here
      cases entered
      exact .move here nofun nofun
    · cases entered
  · split at entered
    · rename_i here
      cases entered
      exact .moved _ _ (by rw [here.1]; nofun) nofun
    · cases entered
  · split at entered
    · rename_i here
      cases entered
      exact .move here nofun nofun
    · cases entered
  · split at entered
    · rename_i here
      split at entered
      · cases entered
        exact .move here nofun nofun
      · cases entered
    · cases entered
  · split at entered
    · rename_i here
      cases entered
      exact .took here.1 here.2
    · cases entered
  · split at entered
    · rename_i here
      split at entered
      · cases entered
        exact .gave _ here
      · cases entered
    · cases entered
  · split at entered
    · rename_i here
      cases entered
      exact .move here.1 nofun nofun
    · cases entered
  · cases entered
    exact .same
  · cases entered
    exact .same
  · cases entered

omit [DecidableEq Frame] in
theorem standing_turn (ledger : Ledger Party Frame) (party other : Party)
    (standing : Standing Frame) :
    (ledger.turn party standing).standing other =
      if other = party then standing else ledger.standing other :=
  Function.update_apply ..

omit [DecidableEq Frame] in
/-- Entering a step keeps the account. -/
theorem Accounted.enter (accounted : ledger.Accounted) (entered : Entered ledger party next) :
    next.Accounted := by
  cases entered with
  | same => exact accounted
  | moved more standing before after =>
      have kept : ∀ other ticket,
          ({ ledger with claimed := ledger.claimed ++ more }.turn party standing).standing
            other = .holding ticket ↔ ledger.standing other = .holding ticket := by
        intro other ticket
        rw [standing_turn]
        split
        · rename_i same
          rw [same]
          exact iff_of_false (after ticket) (before ticket)
        · rfl
      refine ⟨accounted.once, fun ticket => ?_, fun other ticket held => ?_,
        fun one two ticket first second => ?_, ?_⟩
      · simp only [kept]
        exact accounted.whole ticket
      · exact accounted.apart other ticket ((kept other ticket).mp held)
      · exact accounted.alone one two ticket ((kept one ticket).mp first)
          ((kept two ticket).mp second)
      · show ledger.taken ≤ (ledger.claimed ++ more).length
        rw [List.length_append]
        exact Nat.le_add_right_of_le accounted.within
  | took before room =>
      have fresh : ∀ other, ledger.standing other ≠ .holding ledger.taken := fun other held =>
        Nat.lt_irrefl _ ((accounted.whole _).mpr (Or.inr ⟨other, held⟩))
      have kept : ∀ other ticket,
          ({ ledger with taken := ledger.taken + 1 }.turn party
            (.holding ledger.taken)).standing other = .holding ticket ↔
          (other = party ∧ ticket = ledger.taken) ∨ ledger.standing other = .holding ticket := by
        intro other ticket
        rw [standing_turn]
        split
        · rename_i same
          rw [same, before]
          simp [eq_comm]
        · rename_i different
          simp [different]
      refine ⟨accounted.once, fun ticket => ?_, fun other ticket held => ?_,
        fun one two ticket first second => ?_, room⟩
      · simp only [kept]
        show ticket < ledger.taken + 1 ↔ _
        rw [Nat.lt_succ_iff_lt_or_eq, accounted.whole]
        constructor
        · rintro ((popped | ⟨other, held⟩) | rfl)
          · exact Or.inl popped
          · exact Or.inr ⟨other, Or.inr held⟩
          · exact Or.inr ⟨party, Or.inl ⟨rfl, rfl⟩⟩
        · rintro (popped | ⟨other, ⟨-, same⟩ | held⟩)
          · exact Or.inl (Or.inl popped)
          · exact Or.inr same
          · exact Or.inl (Or.inr ⟨other, held⟩)
      · rcases (kept other ticket).mp held with ⟨-, rfl⟩ | old
        · exact fun popped => Nat.lt_irrefl _ ((accounted.whole _).mpr (Or.inl popped))
        · exact accounted.apart other ticket old
      · rcases (kept one ticket).mp first with ⟨rfl, rfl⟩ | old
        · rcases (kept two ledger.taken).mp second with ⟨rfl, -⟩ | other
          · rfl
          · exact absurd other (fresh two)
        · rcases (kept two ticket).mp second with ⟨rfl, rfl⟩ | other
          · exact absurd old (fresh one)
          · exact accounted.alone one two ticket old other
  | gave ticket before =>
      have kept : ∀ other held,
          ({ ledger with popped := ledger.popped ++ [ticket] }.turn party .idle).standing
            other = .holding held ↔ other ≠ party ∧ ledger.standing other = .holding held := by
        intro other held
        rw [standing_turn]
        split
        · rename_i same
          simp [same]
        · rename_i different
          simp [different]
      refine ⟨?_, fun other => ?_, fun other held standing => ?_,
        fun one two held first second => ?_, accounted.within⟩
      · show (ledger.popped ++ [ticket]).Nodup
        rw [List.nodup_append]
        refine ⟨accounted.once, List.nodup_singleton ticket, fun one member two single => ?_⟩
        rw [List.mem_singleton.mp single]
        exact fun same => accounted.apart party ticket before (same ▸ member)
      · simp only [kept]
        show other < ledger.taken ↔ other ∈ ledger.popped ++ [ticket] ∨ _
        rw [accounted.whole, List.mem_append, List.mem_singleton]
        constructor
        · rintro (popped | ⟨holder, held⟩)
          · exact Or.inl (Or.inl popped)
          · by_cases same : holder = party
            · rw [same, before] at held
              exact Or.inl (Or.inr (Standing.holding.inj held).symm)
            · exact Or.inr ⟨holder, same, held⟩
        · rintro ((popped | rfl) | ⟨holder, -, held⟩)
          · exact Or.inl popped
          · exact Or.inr ⟨party, before⟩
          · exact Or.inr ⟨holder, held⟩
      · obtain ⟨different, old⟩ := (kept other held).mp standing
        show held ∉ ledger.popped ++ [ticket]
        rw [List.mem_append, List.mem_singleton, not_or]
        refine ⟨accounted.apart other held old, fun same => different ?_⟩
        exact accounted.alone other party held old (same ▸ before)
      · exact accounted.alone one two held ((kept one held).mp first).2
          ((kept two held).mp second).2

omit [DecidableEq Party] [DecidableEq Frame] in
theorem accounted_empty : (empty : Ledger Party Frame).Accounted :=
  ⟨List.nodup_nil, fun ticket => by simp [empty], nofun, nofun, Nat.le_refl _⟩

/-- Every trace a ledger takes leaves it accounted for. -/
theorem accounted {ledger final : Ledger Party Frame} (start : ledger.Accounted)
    (reached : ledger.run capacity trace = some final) : final.Accounted := by
  induction trace generalizing ledger with
  | nil =>
      cases reached
      exact start
  | cons entry entries ih =>
      obtain ⟨⟨party, action⟩, event⟩ := entry
      rw [run] at reached
      cases entered : ledger.enter capacity party action event with
      | none => simp only [entered] at reached; cases reached
      | some next =>
          simp only [entered] at reached
          exact ih (start.enter (enter_cases entered)) reached

theorem enter_full (entered : ledger.enter capacity party action .full = some next) :
    ledger.claimed.length = ledger.taken + capacity := by
  cases action with
  | step =>
      simp only [enter] at entered
      split at entered
      · split at entered
        · assumption
        · cases entered
      · cases entered
  | push _ | pop | spurious => cases entered

theorem enter_empty (entered : ledger.enter capacity party action .empty = some next) :
    ledger.claimed.length = ledger.taken := by
  cases action with
  | step =>
      simp only [enter] at entered
      split at entered
      · rename_i here
        exact here.2
      · cases entered
  | push _ | pop | spurious => cases entered

/-! ### Frames -/

theorem filterMap_cons_toList {Entry Value : Type*} (choose : Entry → Option Value)
    (entry : Entry) (entries : List Entry) :
    (entry :: entries).filterMap choose = (choose entry).toList ++ entries.filterMap choose := by
  rw [List.filterMap_cons]
  cases choose entry <;> rfl

/-- What a step adds to the frames of a ledger: those claimed, and those of the tickets
handed back. -/
theorem enter_frames (entered : ledger.enter capacity party action event = some next) :
    next.claimed = ledger.claimed ++ event.offered.toList ∧
      ∃ tickets, next.popped = ledger.popped ++ tickets ∧
        tickets.map (ledger.claimed[·]?) = event.given.toList.map some := by
  unfold enter at entered
  split at entered
  · split at entered
    · cases entered
      exact ⟨(List.append_nil _).symm, [], (List.append_nil _).symm, rfl⟩
    · cases entered
  · split at entered
    · cases entered
      exact ⟨(List.append_nil _).symm, [], (List.append_nil _).symm, rfl⟩
    · cases entered
  · split at entered
    · cases entered
      exact ⟨rfl, [], (List.append_nil _).symm, rfl⟩
    · cases entered
  · split at entered
    · cases entered
      exact ⟨(List.append_nil _).symm, [], (List.append_nil _).symm, rfl⟩
    · cases entered
  · split at entered
    · split at entered
      · cases entered
        exact ⟨(List.append_nil _).symm, [], (List.append_nil _).symm, rfl⟩
      · cases entered
    · cases entered
  · split at entered
    · cases entered
      exact ⟨(List.append_nil _).symm, [], (List.append_nil _).symm, rfl⟩
    · cases entered
  · split at entered
    · rename_i ticket _
      split at entered
      · rename_i found
        cases entered
        exact ⟨(List.append_nil _).symm, [ticket], rfl, congrArg ([·]) found⟩
      · cases entered
    · cases entered
  · split at entered
    · cases entered
      exact ⟨(List.append_nil _).symm, [], (List.append_nil _).symm, rfl⟩
    · cases entered
  · cases entered
    exact ⟨(List.append_nil _).symm, [], (List.append_nil _).symm, rfl⟩
  · cases entered
    exact ⟨(List.append_nil _).symm, [], (List.append_nil _).symm, rfl⟩
  · cases entered

/-- The frames of a trace: those claimed are those of the ledger, and those popped are the
frames of the tickets handed back, in the order they were. -/
theorem run_frames {ledger final : Ledger Party Frame}
    (reached : ledger.run capacity trace = some final) :
    final.claimed = ledger.claimed ++ trace.filterMap (·.2.offered) ∧
      ∃ tickets, final.popped = ledger.popped ++ tickets ∧
        tickets.map (final.claimed[·]?) = (trace.filterMap (·.2.given)).map some := by
  induction trace generalizing ledger with
  | nil =>
      cases reached
      exact ⟨(List.append_nil _).symm, [], (List.append_nil _).symm, rfl⟩
  | cons entry entries ih =>
      obtain ⟨⟨party, action⟩, event⟩ := entry
      rw [run] at reached
      cases entered : ledger.enter capacity party action event with
      | none => simp only [entered] at reached; cases reached
      | some next =>
          simp only [entered] at reached
          obtain ⟨offered, first, popped, found⟩ := enter_frames entered
          obtain ⟨claimed, rest, later, given⟩ := ih reached
          have whole : final.claimed = ledger.claimed ++
              (((party, action), event) :: entries).filterMap (·.2.offered) := by
            rw [claimed, offered, List.append_assoc, filterMap_cons_toList]
          refine ⟨whole, first ++ rest, by rw [later, popped, List.append_assoc], ?_⟩
          have kept : first.map (final.claimed[·]?) = first.map (ledger.claimed[·]?) := by
            apply List.map_congr_left
            intro ticket member
            have known : (ledger.claimed[ticket]?).isSome := by
              have among := List.mem_map_of_mem member (f := (ledger.claimed[·]?))
              rw [found, List.mem_map] at among
              obtain ⟨frame, -, same⟩ := among
              rw [← same]
              rfl
            obtain ⟨frame, found⟩ := Option.isSome_iff_exists.mp known
            rw [whole, List.getElem?_append_left (List.getElem?_eq_some_iff.mp found).1]
          rw [List.map_append, kept, found, given, filterMap_cons_toList, List.map_append]

end Ledger

end Hyperloader.Foundations
