/-
Module: Hyperloader.Foundations.TicketWrap
Purpose: The shared queue over counters that wrap: as long as few positions are claimed
  during a call, every run is one of the queue counted in natural numbers.
Trusted boundary: none
Main exports: Wrapping, TicketQueue.age, TicketQueue.Paced, TicketQueue.Mirrored,
  TicketQueue.mirrored
-/
import Mathlib.Data.List.Induction
import Hyperloader.Foundations.TicketOrder

namespace Hyperloader.Foundations

/-- Counters that are natural numbers wrapped, with no two that wrap together within
`limit` and two laps of each other, and those within one lap in order. -/
structure Wrapping {Counter : Type*} (capacity limit : Nat) (counting : Counting Counter) where
  wrap : Nat → Counter
  next : ∀ ticket, counting.next (wrap ticket) = wrap (ticket + 1)
  lap : ∀ ticket, counting.lap (wrap ticket) = wrap (ticket + capacity)
  place : ∀ ticket, counting.place (wrap ticket) = ticket % capacity
  difference : ∀ one two, counting.difference (wrap one) (wrap two) = .eq ↔ wrap one = wrap two
  apart : ∀ one two, one ≤ two + (limit + 2 * capacity) → two ≤ one + (limit + 2 * capacity) →
    wrap one = wrap two → one = two
  late : ∀ one two, one < two → two ≤ one + capacity →
    counting.difference (wrap one) (wrap two) = .lt

section Order

variable {Counter : Type*} {capacity limit : Nat} {counting : Counting Counter}

/-- The order between natural numbers that the wrapped counters show. -/
def Wrapping.behind (wrapping : Wrapping capacity limit counting) (one two : Nat) : Bool :=
  counting.difference (wrapping.wrap one) (wrapping.wrap two) == .lt

/-- A comparison of wrapped counters near each other is the one of the numbers. -/
theorem Wrapping.difference_eq (wrapping : Wrapping capacity limit counting) {one two : Nat}
    (near : one ≤ two + (limit + 2 * capacity)) (close : two ≤ one + (limit + 2 * capacity)) :
    counting.difference (wrapping.wrap one) (wrapping.wrap two) =
      (Counting.tickets capacity wrapping.behind).difference one two := by
  show _ = if one = two then Ordering.eq else if wrapping.behind one two then .lt else .gt
  by_cases same : one = two
  · rw [if_pos same, wrapping.difference, same]
  · rw [if_neg same]
    have differs : counting.difference (wrapping.wrap one) (wrapping.wrap two) ≠ .eq := fun eq =>
      same (wrapping.apart one two near close ((wrapping.difference one two).mp eq))
    cases order : counting.difference (wrapping.wrap one) (wrapping.wrap two) with
    | eq => exact absurd order differs
    | lt =>
        have late : wrapping.behind one two = true := by rw [Wrapping.behind, order]; rfl
        rw [late]
        rfl
    | gt =>
        have ahead : wrapping.behind one two = false := by rw [Wrapping.behind, order]; rfl
        rw [ahead]
        rfl

theorem Wrapping.wrap_eq_iff (wrapping : Wrapping capacity limit counting) {one two : Nat}
    (near : one ≤ two + (limit + 2 * capacity)) (close : two ≤ one + (limit + 2 * capacity)) :
    wrapping.wrap one = wrapping.wrap two ↔ one = two :=
  ⟨wrapping.apart one two near close, congrArg wrapping.wrap⟩

end Order

namespace TicketPhase

variable {Counter Other Frame : Type*}

def map (wrap : Counter → Other) : TicketPhase Counter Frame → TicketPhase Other Frame
  | .idle => .idle
  | .pushLoad frame => .pushLoad frame
  | .pushSequence frame position => .pushSequence frame (wrap position)
  | .pushExchange frame position => .pushExchange frame (wrap position)
  | .pushWrite frame position => .pushWrite frame (wrap position)
  | .pushPublish position => .pushPublish (wrap position)
  | .pushFull frame position => .pushFull frame (wrap position)
  | .popLoad => .popLoad
  | .popSequence position => .popSequence (wrap position)
  | .popExchange position => .popExchange (wrap position)
  | .popRead position => .popRead (wrap position)
  | .popRelease position frame => .popRelease (wrap position) frame
  | .popEmpty position => .popEmpty (wrap position)

end TicketPhase

namespace TicketQueue

variable {Party Counter Other Frame : Type*}

/-- The queue with every counter wrapped. -/
def map (wrap : Counter → Other) (queue : TicketQueue Party Counter Frame) :
    TicketQueue Party Other Frame where
  enqueue := wrap queue.enqueue
  dequeue := wrap queue.dequeue
  slots place := ⟨wrap (queue.slots place).sequence, (queue.slots place).frame⟩
  phase party := (queue.phase party).map wrap

section Maps

variable [DecidableEq Party] (wrap : Counter → Other) (queue : TicketQueue Party Counter Frame)
  (party : Party)

theorem map_turn (phase : TicketPhase Counter Frame) :
    (queue.turn party phase).map wrap = (queue.map wrap).turn party (phase.map wrap) := by
  have phases : (fun other => (Function.update queue.phase party phase other).map wrap) =
      Function.update (fun other => (queue.phase other).map wrap) party (phase.map wrap) := by
    funext other
    rw [Function.update_apply, Function.update_apply]
    split <;> rfl
  rw [map, turn, turn, map]
  exact congrArg (TicketQueue.mk _ _ _) phases

omit [DecidableEq Party] in
theorem map_write (place : Nat) (frame : Frame) :
    (queue.write place frame).map wrap = (queue.map wrap).write place frame := by
  have slots : (fun other => (⟨wrap (Function.update queue.slots place
        ⟨(queue.slots place).sequence, frame⟩ other).sequence,
        (Function.update queue.slots place
          ⟨(queue.slots place).sequence, frame⟩ other).frame⟩ : TicketSlot Other Frame)) =
      Function.update (queue.map wrap).slots place
        ⟨wrap (queue.slots place).sequence, frame⟩ := by
    funext other
    rw [Function.update_apply, Function.update_apply]
    split <;> rfl
  exact congrArg (fun slots => TicketQueue.mk _ _ slots _) slots

omit [DecidableEq Party] in
theorem map_store (place : Nat) (sequence : Counter) :
    (queue.store place sequence).map wrap = (queue.map wrap).store place (wrap sequence) := by
  have slots : (fun other => (⟨wrap (Function.update queue.slots place
        ⟨sequence, (queue.slots place).frame⟩ other).sequence,
        (Function.update queue.slots place
          ⟨sequence, (queue.slots place).frame⟩ other).frame⟩ : TicketSlot Other Frame)) =
      Function.update (queue.map wrap).slots place
        ⟨wrap sequence, (queue.slots place).frame⟩ := by
    funext other
    rw [Function.update_apply, Function.update_apply]
    split <;> rfl
  exact congrArg (fun slots => TicketQueue.mk _ _ slots _) slots

end Maps

/-! ### One step -/

/-- At most `claims` positions were claimed since a party read the one it works with. -/
def Within (capacity : Nat) (queue : TicketQueue Party Nat Frame) (claims : Nat) :
    TicketPhase Nat Frame → Prop
  | .pushSequence _ ticket => queue.enqueue ≤ ticket + claims
  | .pushExchange _ ticket => queue.enqueue ≤ ticket + claims
  | .pushFull _ ticket => queue.enqueue ≤ ticket + claims
  | .popSequence ticket => queue.enqueue ≤ ticket + capacity + claims
  | .popExchange ticket => queue.enqueue ≤ ticket + capacity + claims
  | .popEmpty ticket => queue.enqueue ≤ ticket + capacity + claims
  | _ => True

theorem Within.weaken {capacity : Nat} {queue : TicketQueue Party Nat Frame} {few more : Nat}
    {phase : TicketPhase Nat Frame} (within : queue.Within capacity few phase) (le : few ≤ more) :
    queue.Within capacity more phase := by
  cases phase with
  | pushSequence _ _ | pushExchange _ _ | pushFull _ _ | popSequence _ | popExchange _
  | popEmpty _ => exact Nat.le_trans within (Nat.add_le_add_left le _)
  | _ => trivial

section Steps

variable [DecidableEq Party] [DecidableEq Counter] {capacity limit : Nat}
  {counting : Counting Counter} (wrapping : Wrapping capacity limit counting)
  {ledger : Ledger Party Frame} {queue : TicketQueue Party Nat Frame}

section

variable (sound : Sound capacity ledger queue)

include sound

section

variable (positive : 0 < capacity)

include positive

omit [DecidableEq Party] [DecidableEq Counter] in
/-- A push that works with a recent position sees its slot as the numbers show it. -/
theorem Sound.difference_push {position : Nat} (seen : position ≤ queue.enqueue)
    (read : queue.enqueue ≤ position + limit) :
    counting.difference ((queue.map wrapping.wrap).slots
        (counting.place (wrapping.wrap position))).sequence (wrapping.wrap position) =
      (Counting.tickets capacity wrapping.behind).difference
        (queue.slots ((Counting.tickets capacity wrapping.behind).place position)).sequence
        position := by
  obtain ⟨low, high⟩ := sound.sequence_near position positive
  have ordered := sound.ordered
  rw [wrapping.place]
  exact wrapping.difference_eq (by omega) (by omega)

omit [DecidableEq Party] [DecidableEq Counter] in
theorem Sound.difference_pop {position : Nat} (seen : position ≤ queue.dequeue)
    (read : queue.enqueue ≤ position + capacity + limit) :
    counting.difference ((queue.map wrapping.wrap).slots
        (counting.place (wrapping.wrap position))).sequence
        (counting.next (wrapping.wrap position)) =
      (Counting.tickets capacity wrapping.behind).difference
        (queue.slots ((Counting.tickets capacity wrapping.behind).place position)).sequence
        ((Counting.tickets capacity wrapping.behind).next position) := by
  obtain ⟨low, high⟩ := sound.sequence_near position positive
  have ordered := sound.ordered
  rw [wrapping.place, wrapping.next]
  exact wrapping.difference_eq (by omega) (by omega)

/-- While what a party has read is not too old, its next access to the wrapped queue is that
to the queue. -/
theorem Sound.map_access (party : Party) (within : queue.Within capacity limit (queue.phase party)) :
    TicketQueue.access counting (queue.map wrapping.wrap) party
        ((queue.phase party).map wrapping.wrap) =
      (TicketQueue.access (Counting.tickets capacity wrapping.behind) queue party
        (queue.phase party)).map fun result => (result.1, result.2.map wrapping.wrap) := by
  have remembered := sound.remembers party
  have ordered := sound.ordered
  have bounded := sound.bounded
  cases here : queue.phase party with
  | idle => rfl
  | pushLoad frame =>
      simp only [TicketQueue.access, TicketPhase.map, Option.map_some, map_turn]
      rfl
  | pushSequence frame position =>
      rw [here] at within remembered
      have read : queue.enqueue ≤ position + limit := within
      have seen : position ≤ queue.enqueue := remembered
      have there := sound.difference_push wrapping positive seen read
      simp only [TicketQueue.access, TicketPhase.map, there]
      cases (Counting.tickets capacity wrapping.behind).difference
        (queue.slots ((Counting.tickets capacity wrapping.behind).place position)).sequence
        position <;> simp only [Option.map_some, map_turn, TicketPhase.map]
  | pushExchange frame position =>
      rw [here] at within remembered
      have read : queue.enqueue ≤ position + limit := within
      have seen : position ≤ queue.enqueue := remembered.1
      have same := @Wrapping.wrap_eq_iff Counter capacity limit counting wrapping
        queue.enqueue position (by omega) (by omega)
      have counter : (queue.map wrapping.wrap).enqueue = wrapping.wrap queue.enqueue := rfl
      simp only [TicketQueue.access, TicketPhase.map, counter, same, wrapping.next]
      split
      · simp only [Option.map_some, map_turn, TicketPhase.map]
        rfl
      · simp only [Option.map_some, map_turn, TicketPhase.map]
  | pushWrite frame position =>
      simp only [TicketQueue.access, TicketPhase.map, Option.map_some, map_turn, map_write,
        wrapping.place]
      rfl
  | pushPublish position =>
      simp only [TicketQueue.access, TicketPhase.map, Option.map_some, map_turn, map_store,
        wrapping.place, wrapping.next]
      rfl
  | pushFull frame position =>
      rw [here] at within remembered
      have read : queue.enqueue ≤ position + limit := within
      have seen : position ≤ queue.enqueue := remembered
      have same := @Wrapping.wrap_eq_iff Counter capacity limit counting wrapping
        (queue.dequeue + capacity) position (by omega) (by omega)
      have lap : counting.lap (queue.map wrapping.wrap).dequeue =
          wrapping.wrap ((Counting.tickets capacity wrapping.behind).lap queue.dequeue) :=
        wrapping.lap _
      have same : wrapping.wrap ((Counting.tickets capacity wrapping.behind).lap queue.dequeue) =
          wrapping.wrap position ↔
            (Counting.tickets capacity wrapping.behind).lap queue.dequeue = position := same
      simp only [TicketQueue.access, TicketPhase.map, lap, same]
      split <;> simp only [Option.map_some, map_turn, TicketPhase.map]
  | popLoad =>
      simp only [TicketQueue.access, TicketPhase.map, Option.map_some, map_turn]
      rfl
  | popSequence position =>
      rw [here] at within remembered
      have read : queue.enqueue ≤ position + capacity + limit := within
      have seen : position ≤ queue.dequeue := remembered
      have there := sound.difference_pop wrapping positive seen read
      simp only [TicketQueue.access, TicketPhase.map, there]
      cases (Counting.tickets capacity wrapping.behind).difference
        (queue.slots ((Counting.tickets capacity wrapping.behind).place position)).sequence
        ((Counting.tickets capacity wrapping.behind).next position) <;>
        simp only [Option.map_some, map_turn, TicketPhase.map]
  | popExchange position =>
      rw [here] at within remembered
      have read : queue.enqueue ≤ position + capacity + limit := within
      have seen : position ≤ queue.dequeue := remembered.1
      have same := @Wrapping.wrap_eq_iff Counter capacity limit counting wrapping
        queue.dequeue position (by omega) (by omega)
      have counter : (queue.map wrapping.wrap).dequeue = wrapping.wrap queue.dequeue := rfl
      simp only [TicketQueue.access, TicketPhase.map, counter, same, wrapping.next]
      split
      · simp only [Option.map_some, map_turn, TicketPhase.map]
        rfl
      · simp only [Option.map_some, map_turn, TicketPhase.map]
  | popRead position =>
      simp only [TicketQueue.access, TicketPhase.map, Option.map_some, map_turn, wrapping.place]
      rfl
  | popRelease position frame =>
      simp only [TicketQueue.access, TicketPhase.map, Option.map_some, map_turn, map_store,
        wrapping.place, wrapping.lap]
      rfl
  | popEmpty position =>
      rw [here] at within remembered
      have read : queue.enqueue ≤ position + capacity + limit := within
      have seen : position ≤ queue.dequeue := remembered
      have same := @Wrapping.wrap_eq_iff Counter capacity limit counting wrapping
        queue.enqueue position (by omega) (by omega)
      have counter : (queue.map wrapping.wrap).enqueue = wrapping.wrap queue.enqueue := rfl
      simp only [TicketQueue.access, TicketPhase.map, counter, same]
      split <;> simp only [Option.map_some, map_turn, TicketPhase.map]

/-- So is its next step. -/
theorem Sound.map_step (party : Party) (action : TicketAction Frame)
    (within : queue.Within capacity limit (queue.phase party)) :
    TicketQueue.step counting (queue.map wrapping.wrap) (party, action) =
      (TicketQueue.step (Counting.tickets capacity wrapping.behind) queue (party, action)).map
        fun result => (result.1, result.2.map wrapping.wrap) := by
  have accessed := sound.map_access wrapping positive party within
  cases action with
  | step => exact accessed
  | push frame =>
      cases here : queue.phase party <;>
        simp only [TicketQueue.step, map, here, TicketPhase.map, Option.map_none, Option.map_some]
      · exact congrArg (fun result => some (TicketEvent.quiet, result))
          (map_turn wrapping.wrap queue party (.pushLoad frame)).symm
  | pop =>
      cases here : queue.phase party <;>
        simp only [TicketQueue.step, map, here, TicketPhase.map, Option.map_none, Option.map_some]
      · exact congrArg (fun result => some (TicketEvent.quiet, result))
          (map_turn wrapping.wrap queue party .popLoad).symm
  | spurious =>
      cases here : queue.phase party <;>
        simp only [TicketQueue.step, map, here, TicketPhase.map, Option.map_none, Option.map_some]
      · exact congrArg (fun result => some (TicketEvent.quiet, result))
          (map_turn wrapping.wrap queue party (.pushSequence _ queue.enqueue)).symm
      · exact congrArg (fun result => some (TicketEvent.quiet, result))
          (map_turn wrapping.wrap queue party (.popSequence queue.dequeue)).symm

end

end

end Steps

end TicketQueue

/-! ### Calls -/

/-- The actions that begin a call. -/
def TicketAction.begins {Frame : Type*} : TicketAction Frame → Bool
  | .push _ => true
  | .pop => true
  | _ => false

namespace TicketEvent

variable {Frame : Type*}

/-- A step claims a position or none. -/
def claims : TicketEvent Frame → Nat
  | .claimed _ => 1
  | _ => 0

/-- The events that end a call. -/
def returns : TicketEvent Frame → Bool
  | .pushed => true
  | .full => true
  | .popped _ => true
  | .empty => true
  | _ => false

end TicketEvent

namespace TicketQueue

variable {Party Counter Frame : Type*} [DecidableEq Party]

/-- The count of one party's call after one more step of anyone. -/
def recount (party : Party) (age : Option Nat)
    (entry : (Party × TicketAction Frame) × TicketEvent Frame) : Option Nat :=
  if entry.1.1 = party ∧ entry.1.2.begins then some 0
  else if entry.1.1 = party ∧ entry.2.returns then none
  else age.map (· + entry.2.claims)

/-- How many positions were claimed in the call a party is in. -/
def age (party : Party) (trace : List ((Party × TicketAction Frame) × TicketEvent Frame)) :
    Option Nat :=
  trace.foldl (recount party) none

/-- Fewer than `limit` positions are claimed during any call. -/
def Paced (limit : Nat) (trace : List ((Party × TicketAction Frame) × TicketEvent Frame)) :
    Prop :=
  ∀ before after, trace = before ++ after →
    ∀ party claims, age party before = some claims → claims < limit

theorem Paced.append_left {limit : Nat}
    {one two : List ((Party × TicketAction Frame) × TicketEvent Frame)}
    (paced : Paced limit (one ++ two)) : Paced limit one := by
  rintro before after rfl
  exact paced before (after ++ two) (List.append_assoc ..)

/-- Every party in a call works with a position read since it began. -/
def Recent (capacity : Nat)
    (trace : List ((Party × TicketAction Frame) × TicketEvent Frame))
    (queue : TicketQueue Party Nat Frame) : Prop :=
  ∀ party, queue.phase party = .idle ∨
    ∃ claims, age party trace = some claims ∧ queue.Within capacity claims (queue.phase party)

variable {trace : List ((Party × TicketAction Frame) × TicketEvent Frame)}

/-- In a paced run no position is too old. -/
theorem Recent.within {capacity limit : Nat} {queue : TicketQueue Party Nat Frame}
    (recent : Recent capacity trace queue) (paced : Paced limit trace) (party : Party) :
    queue.Within capacity limit (queue.phase party) := by
  rcases recent party with idle | ⟨claims, counted, read⟩
  · rw [idle]
    trivial
  · exact read.weaken (Nat.le_of_lt
      (paced trace [] (List.append_nil trace).symm party claims counted))

/-- What a step does to the count: the next phase of its party works with a position at most
as old. -/
structure Stepped (capacity : Nat) (queue : TicketQueue Party Nat Frame) (party : Party)
    (event : TicketEvent Frame) (next : TicketQueue Party Nat Frame) : Prop where
  phases : ∃ phase, next.phase = Function.update queue.phase party phase
  enqueued : next.enqueue = queue.enqueue + event.claims
  ends : event.returns = true → next.phase party = .idle
  within : ∀ claims, queue.Within capacity claims (queue.phase party) →
    next.Within capacity (claims + event.claims) (next.phase party)

section Calls

variable {capacity limit : Nat} {behind : Nat → Nat → Bool}
  {ledger : Ledger Party Frame} {queue next : TicketQueue Party Nat Frame} {party : Party}
  {event : TicketEvent Frame}

variable {phase : TicketPhase Nat Frame}

/-- A quiet step leaves its party in a phase whose position is as recent. -/
theorem Stepped.quiet (within : ∀ claims, queue.Within capacity claims (queue.phase party) →
      queue.Within capacity claims phase) :
    Stepped capacity queue party .quiet (queue.turn party phase) where
  phases := ⟨phase, rfl⟩
  enqueued := rfl
  ends := nofun
  within claims read := by
    rw [phase_turn, if_pos rfl]
    exact within claims read

/-- A step that ends a call leaves its party idle. -/
theorem Stepped.return (event : TicketEvent Frame) (quiet : event.claims = 0)
    (after : TicketQueue Party Nat Frame) (phases : after.phase = queue.phase)
    (enqueued : after.enqueue = queue.enqueue) :
    Stepped capacity queue party event (after.turn party .idle) where
  phases := ⟨.idle, by rw [← phases]; rfl⟩
  enqueued := by rw [quiet]; exact enqueued
  ends _ := by rw [phase_turn, if_pos rfl]
  within _ _ := by
    rw [phase_turn, if_pos rfl]
    trivial

/-- A step within a call. -/
theorem Sound.stepped_access (sound : Sound capacity ledger queue)
    (accessed : TicketQueue.access (Counting.tickets capacity behind) queue party
      (queue.phase party) = some (event, next)) : Stepped capacity queue party event next := by
  have ordered := sound.ordered
  have bounded := sound.bounded
  cases here : queue.phase party with
  | idle => rw [here] at accessed; cases accessed
  | pushLoad frame =>
      rw [here] at accessed
      cases accessed
      exact .quiet fun claims _ => Nat.le_add_right ..
  | pushSequence frame position =>
      rw [here] at accessed
      simp only [TicketQueue.access] at accessed
      split at accessed
      · cases accessed
        exact .quiet fun claims read => by rw [here] at read; exact read
      · cases accessed
        exact .quiet fun claims read => by rw [here] at read; exact read
      · cases accessed
        exact .quiet fun _ _ => trivial
  | pushExchange frame position =>
      rw [here] at accessed
      simp only [TicketQueue.access] at accessed
      split at accessed
      · rename_i current
        cases accessed
        refine ⟨⟨_, rfl⟩, congrArg (· + 1) current.symm, (absurd · Bool.false_ne_true), fun _ _ => ?_⟩
        rw [phase_turn, if_pos rfl]
        trivial
      · cases accessed
        exact .quiet fun claims _ => Nat.le_add_right ..
  | pushWrite frame position =>
      rw [here] at accessed
      cases accessed
      refine ⟨⟨_, rfl⟩, rfl, (absurd · Bool.false_ne_true), fun _ _ => ?_⟩
      rw [phase_turn, if_pos rfl]
      trivial
  | pushPublish position =>
      rw [here] at accessed
      cases accessed
      exact .return .pushed rfl _ rfl rfl
  | pushFull frame position =>
      rw [here] at accessed
      simp only [TicketQueue.access] at accessed
      split at accessed
      · cases accessed
        exact .return .full rfl queue rfl rfl
      · cases accessed
        exact .quiet fun _ _ => trivial
  | popLoad =>
      rw [here] at accessed
      cases accessed
      exact .quiet fun claims _ => Nat.le_add_right_of_le bounded
  | popSequence position =>
      rw [here] at accessed
      simp only [TicketQueue.access] at accessed
      split at accessed
      · cases accessed
        exact .quiet fun claims read => by rw [here] at read; exact read
      · cases accessed
        exact .quiet fun claims read => by rw [here] at read; exact read
      · cases accessed
        exact .quiet fun _ _ => trivial
  | popExchange position =>
      rw [here] at accessed
      simp only [TicketQueue.access] at accessed
      split at accessed
      · cases accessed
        refine ⟨⟨_, rfl⟩, rfl, (absurd · Bool.false_ne_true), fun _ _ => ?_⟩
        rw [phase_turn, if_pos rfl]
        trivial
      · cases accessed
        exact .quiet fun claims _ => Nat.le_add_right_of_le bounded
  | popRead position =>
      rw [here] at accessed
      cases accessed
      exact .quiet fun _ _ => trivial
  | popRelease position frame =>
      rw [here] at accessed
      cases accessed
      exact .return (.popped frame) rfl _ rfl rfl
  | popEmpty position =>
      rw [here] at accessed
      simp only [TicketQueue.access] at accessed
      split at accessed
      · cases accessed
        exact .return .empty rfl queue rfl rfl
      · cases accessed
        exact .quiet fun _ _ => trivial

variable {action : TicketAction Frame}

theorem Sound.stepped (sound : Sound capacity ledger queue)
    (stepEq : TicketQueue.step (Counting.tickets capacity behind) queue (party, action) =
      some (event, next)) : Stepped capacity queue party event next := by
  have bounded := sound.bounded
  unfold TicketQueue.step at stepEq
  dsimp only at stepEq
  split at stepEq
  · cases stepEq
    exact .quiet fun _ _ => trivial
  · cases stepEq
    exact .quiet fun _ _ => trivial
  · cases stepEq
    exact .quiet fun claims _ => Nat.le_add_right ..
  · cases stepEq
    exact .quiet fun claims _ => Nat.le_add_right_of_le bounded
  · exact sound.stepped_access stepEq
  · cases stepEq

omit [DecidableEq Party] in
theorem Within.claimed {claims more : Nat} (within : queue.Within capacity claims phase)
    (enqueued : next.enqueue = queue.enqueue + more) :
    next.Within capacity (claims + more) phase := by
  cases phase with
  | pushSequence _ ticket =>
      have read : queue.enqueue ≤ ticket + claims := within
      show next.enqueue ≤ ticket + (claims + more)
      omega
  | pushExchange _ ticket =>
      have read : queue.enqueue ≤ ticket + claims := within
      show next.enqueue ≤ ticket + (claims + more)
      omega
  | pushFull _ ticket =>
      have read : queue.enqueue ≤ ticket + claims := within
      show next.enqueue ≤ ticket + (claims + more)
      omega
  | popSequence ticket =>
      have read : queue.enqueue ≤ ticket + capacity + claims := within
      show next.enqueue ≤ ticket + capacity + (claims + more)
      omega
  | popExchange ticket =>
      have read : queue.enqueue ≤ ticket + capacity + claims := within
      show next.enqueue ≤ ticket + capacity + (claims + more)
      omega
  | popEmpty ticket =>
      have read : queue.enqueue ≤ ticket + capacity + claims := within
      show next.enqueue ≤ ticket + capacity + (claims + more)
      omega
  | _ => trivial

/-- A call begins where its party is idle, and quietly. -/
theorem step_begins {counting : Counting Nat}
    (stepEq : TicketQueue.step counting queue (party, action) = some (event, next)) :
    (action.begins = true ∧ queue.phase party = .idle ∧ event = .quiet) ∨
      (action.begins = false ∧ queue.phase party ≠ .idle) := by
  unfold TicketQueue.step at stepEq
  dsimp only at stepEq
  split at stepEq
  · rename_i here
    cases stepEq
    exact Or.inl ⟨rfl, here, rfl⟩
  · rename_i here
    cases stepEq
    exact Or.inl ⟨rfl, here, rfl⟩
  · rename_i here
    exact Or.inr ⟨rfl, by rw [here]; nofun⟩
  · rename_i here
    exact Or.inr ⟨rfl, by rw [here]; nofun⟩
  · refine Or.inr ⟨rfl, fun here => ?_⟩
    rw [here] at stepEq
    cases stepEq
  · cases stepEq

/-- Every step keeps the positions recent. -/
theorem Sound.recent_step (sound : Sound capacity ledger queue)
    (recent : Recent capacity trace queue)
    (stepEq : TicketQueue.step (Counting.tickets capacity behind) queue (party, action) =
      some (event, next)) : Recent capacity (trace ++ [((party, action), event)]) next := by
  have stepped := sound.stepped stepEq
  obtain ⟨phase, phases⟩ := stepped.phases
  intro other
  have counted : age other (trace ++ [((party, action), event)]) =
      recount other (age other trace) ((party, action), event) := by
    rw [age, List.foldl_append]
    rfl
  rw [counted, recount]
  by_cases mine : other = party
  · subst mine
    rcases step_begins stepEq with ⟨begins, idle, rfl⟩ | ⟨within, busy⟩
    · refine Or.inr ⟨0, by rw [if_pos ⟨rfl, begins⟩], ?_⟩
      exact stepped.within 0 (by rw [idle]; trivial)
    · rw [if_neg (by simp [within])]
      cases returns : event.returns with
      | true => exact Or.inl (stepped.ends returns)
      | false =>
          obtain ⟨claims, counted, read⟩ := (recent other).resolve_left busy
          refine Or.inr ⟨claims + event.claims, ?_, stepped.within claims read⟩
          rw [if_neg (by simp), counted]
          rfl
  · have kept : next.phase other = queue.phase other := by
      rw [phases, Function.update_of_ne mine]
    rw [kept, if_neg (fun same => mine same.1.symm), if_neg (fun same => mine same.1.symm)]
    refine (recent other).imp_right ?_
    rintro ⟨claims, counted, read⟩
    exact ⟨claims + event.claims, by rw [counted]; rfl, read.claimed stepped.enqueued⟩

end Calls

/-! ### Runs -/

theorem claim_map {Other : Type*} (wrap : Counter → Other) (phase : TicketPhase Counter Frame) :
    (phase.map wrap).claim = phase.claim.map wrap := by
  cases phase <;> rfl

theorem take_map {Other : Type*} (wrap : Counter → Other) (phase : TicketPhase Counter Frame) :
    (phase.map wrap).take = phase.take.map wrap := by
  cases phase <;> rfl

theorem owned_map {Other : Type*} (wrap : Counter → Other) (phase : TicketPhase Counter Frame) :
    (phase.map wrap).owned = phase.owned.map wrap := by
  cases phase <;> rfl

section Mirror

variable [DecidableEq Counter] [DecidableEq Frame] {capacity limit : Nat}
  {counting : Counting Counter}

/-- The wrapped queue is the image of one counted in natural numbers, whose ledger has
entered the whole trace. -/
def Mirrored (wrapping : Wrapping capacity limit counting)
    (trace : List ((Party × TicketAction Frame) × TicketEvent Frame))
    (state : TicketQueue Party Counter Frame) : Prop :=
  ∃ ledger queue, Ledger.empty.run capacity trace = some ledger ∧ Sound capacity ledger queue ∧
    Recent capacity trace queue ∧ state = queue.map wrapping.wrap

theorem Mirrored.step {wrapping : Wrapping capacity limit counting}
    {trace : List ((Party × TicketAction Frame) × TicketEvent Frame)}
    {state next : TicketQueue Party Counter Frame} {label : Party × TicketAction Frame}
    {event : TicketEvent Frame} (wide : 2 ≤ capacity) (mirrored : Mirrored wrapping trace state)
    (paced : Paced limit trace) (stepEq : TicketQueue.step counting state label =
      some (event, next)) : Mirrored wrapping (trace ++ [(label, event)]) next := by
  obtain ⟨ledger, queue, entered, sound, recent, rfl⟩ := mirrored
  obtain ⟨party, action⟩ := label
  have within := recent.within paced party
  rw [sound.map_step wrapping (Nat.lt_of_lt_of_le Nat.zero_lt_two wide) party action within,
    Option.map_eq_some_iff] at stepEq
  obtain ⟨⟨_, after⟩, stepEq, same⟩ := stepEq
  obtain ⟨rfl, rfl⟩ := Prod.mk.inj same
  obtain ⟨more, entry, kept⟩ := sound.step wide stepEq
  exact ⟨more, after, (Ledger.run_concat entered).trans entry, kept,
    sound.recent_step recent stepEq, rfl⟩

variable {wrapping : Wrapping capacity limit counting}

/-- Every run of the wrapped queue is one of a queue counted in natural numbers. -/
theorem mirrored {frame : Frame} (wide : 2 ≤ capacity) {final : TicketQueue Party Counter Frame}
    {labels : List (Party × TicketAction Frame)}
    (reached : (machine counting).run ((vacantQueue frame).map wrapping.wrap) labels =
      some (trace, final)) (paced : Paced limit trace) : Mirrored wrapping trace final := by
  have motive := (machine counting).run_induction
    (motive := fun trace state => Paced limit trace → Mirrored wrapping trace state)
    ?_ [] ?_ ((machine counting).along_true _ labels) reached
  · exact motive paced
  · intro trace state label event next mirrored _ stepEq paced
    have before := paced.append_left
    exact (mirrored before).step wide before stepEq
  · exact fun _ => ⟨Ledger.empty, vacantQueue frame, rfl, sound_vacant frame,
      fun _ => Or.inl rfl, rfl⟩

/-- What a run of the shared queue keeps.  Its trace is one of the ledger, and the counters
are the wrapped counts of the ledger; each frame between them lies in its slot or is being
written there; two parties own different slots, and a slot changes only by its owner; and
where a call returns full or empty, it is. -/
structure Serves (capacity : Nat) (counting : Counting Counter) (wrap : Nat → Counter)
    (trace : List ((Party × TicketAction Frame) × TicketEvent Frame))
    (state : TicketQueue Party Counter Frame) (ledger : Ledger Party Frame) : Prop where
  entered : Ledger.empty.run capacity trace = some ledger
  accounted : ledger.Accounted
  claimed : ledger.claimed = trace.filterMap (·.2.offered)
  popped : ledger.popped.map (ledger.claimed[·]?) = (trace.filterMap (·.2.given)).map some
  enqueued : state.enqueue = wrap ledger.claimed.length
  dequeued : state.dequeue = wrap ledger.taken
  bounded : ledger.claimed.length ≤ ledger.taken + capacity
  waiting : ∀ ticket, ledger.taken ≤ ticket → ticket < ledger.claimed.length →
    (∃ party, (state.phase party).claim = some (wrap ticket)) ∨
      ((state.slots (ticket % capacity)).sequence = wrap (ticket + 1) ∧
        ledger.claimed[ticket]? = some (state.slots (ticket % capacity)).frame)
  apart : ∀ one two first second, (state.phase one).owned = some first →
    (state.phase two).owned = some second → counting.place first = counting.place second →
    one = two
  guarded : ∀ party action event next place,
    step counting state (party, action) = some (event, next) →
    next.slots place ≠ state.slots place →
    ∃ position, (state.phase party).owned = some position ∧ counting.place position = place
  full : ∀ label next, step counting state label = some (.full, next) →
    state.enqueue = counting.lap state.dequeue
  empty : ∀ label next, step counting state label = some (.empty, next) →
    state.enqueue = state.dequeue

/-- A paced run of the shared queue serves its parties. -/
theorem Mirrored.serves {state : TicketQueue Party Counter Frame} (wide : 2 ≤ capacity)
    (mirrored : Mirrored wrapping trace state) (paced : Paced limit trace) :
    ∃ ledger, Serves capacity counting wrapping.wrap trace state ledger := by
  have follow := fun (label : Party × TicketAction Frame) event next stepEq =>
    @Mirrored.step Party Counter Frame _ _ _ capacity limit counting wrapping trace state next
      label event wide mirrored paced stepEq
  obtain ⟨ledger, queue, entered, sound, recent, rfl⟩ := mirrored
  obtain ⟨offered, popped, same, given⟩ := Ledger.run_frames entered
  have enqueued : (queue.map wrapping.wrap).enqueue = wrapping.wrap ledger.claimed.length :=
    congrArg wrapping.wrap sound.enqueued
  have dequeued : (queue.map wrapping.wrap).dequeue = wrapping.wrap ledger.taken :=
    congrArg wrapping.wrap sound.dequeued
  refine ⟨ledger, ?_⟩
  constructor
  case entered => exact entered
  case accounted => exact Ledger.accounted Ledger.accounted_empty entered
  case claimed => exact offered
  case popped =>
    rw [same]
    exact given
  case enqueued => exact enqueued
  case dequeued => exact dequeued
  case bounded =>
    rw [← sound.enqueued, ← sound.dequeued]
    exact sound.bounded
  case waiting =>
    intro ticket low high
    refine (sound.waiting ticket (sound.dequeued ▸ low) (sound.enqueued ▸ high)).imp ?_ ?_
    · rintro ⟨⟨party, mine⟩, -⟩
      refine ⟨party, ?_⟩
      show ((queue.phase party).map wrapping.wrap).claim = _
      rw [claim_map, mine]
      rfl
    · rintro ⟨sequence, found⟩
      exact ⟨congrArg wrapping.wrap sequence, found⟩
  case apart =>
    intro one two first second ownOne ownTwo place
    have unwrap : ∀ party position, ((queue.map wrapping.wrap).phase party).owned =
        some position → ∃ ticket, (queue.phase party).owned = some ticket ∧
          counting.place position = ticket % capacity := by
      intro party position owned
      obtain ⟨ticket, own, rfl⟩ := Option.map_eq_some_iff.mp
        ((owned_map wrapping.wrap (queue.phase party)).symm.trans owned)
      exact ⟨ticket, own, wrapping.place ticket⟩
    obtain ⟨ticketOne, mineOne, placeOne⟩ := unwrap one first ownOne
    obtain ⟨ticketTwo, mineTwo, placeTwo⟩ := unwrap two second ownTwo
    exact sound.owned_apart wide mineOne mineTwo (placeOne.symm.trans (place.trans placeTwo))
  case guarded =>
    intro party action event next place stepEq changed
    exact step_slots stepEq changed
  case full =>
    rintro ⟨party, action⟩ next stepEq
    obtain ⟨after, _, more, -⟩ := follow _ _ next stepEq
    have full := Ledger.enter_full ((Ledger.run_concat entered).symm.trans more)
    rw [enqueued, dequeued, full, wrapping.lap]
  case empty =>
    rintro ⟨party, action⟩ next stepEq
    obtain ⟨after, _, more, -⟩ := follow _ _ next stepEq
    have empty := Ledger.enter_empty ((Ledger.run_concat entered).symm.trans more)
    rw [enqueued, dequeued, empty]

end Mirror

/-- A call counts no more than the steps taken. -/
theorem age_le_length (party : Party)
    (trace : List ((Party × TicketAction Frame) × TicketEvent Frame)) {claims : Nat}
    (counted : age party trace = some claims) : claims ≤ trace.length := by
  induction trace using List.reverseRecOn generalizing claims with
  | nil => cases counted
  | append_singleton before entry ih =>
      have last : age party (before ++ [entry]) = recount party (age party before) entry := by
        rw [age, List.foldl_append]
        rfl
      rw [last, recount] at counted
      rw [List.length_append, List.length_singleton]
      split at counted
      · cases counted
        exact Nat.zero_le _
      · split at counted
        · cases counted
        · obtain ⟨few, old, rfl⟩ := Option.map_eq_some_iff.mp counted
          have one : entry.2.claims ≤ 1 := by cases entry.2 <;> simp [TicketEvent.claims]
          exact Nat.add_le_add (ih old) one

/-- A run of fewer than `limit` steps is paced. -/
theorem paced_of_length {limit : Nat} (short : trace.length < limit) : Paced limit trace := by
  rintro before after rfl party claims counted
  have few := age_le_length party before counted
  rw [List.length_append] at short
  omega

end TicketQueue

end Hyperloader.Foundations
