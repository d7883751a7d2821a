/-
Module: Hyperloader.Memory.PinnedWait
Purpose: Stopping pinned staging, memory/pinned/iterator.py: `invalidate` and `close` against the
  staging threads, and when the consumer waits for an item that no thread will put.
Trusted boundary: `next` of the wrapped iterator comes to any item; a thread that is started runs.
Main exports:
  PinnedDeliveryIterator, PinnedDeliveryIterator.machine, Served, Heeds, pinned_wait_iff
-/
import Hyperloader.Memory.Pinned

namespace Hyperloader.Memory.PinnedWait

open Foundations

/-- Where a staging thread is in `_produce`: before the check of the loop, in `next` of the wrapped
iterator, before the second check, before the event is cleared, before the put, before the check of
the inner loop, and waiting for the acknowledgement. -/
inductive Point (Value Position : Type) where
  | checking
  | drawing
  | drawn (item : Item Value Position)
  | clearing (item : Item Value Position)
  | putting (item : Item Value Position)
  | put (item : Item Value Position)
  | waiting (item : Item Value Position)
  | ended

/-- Who calls `invalidate` or `close`: the consumer between two calls of `next`, a staging thread
from within `next` of the wrapped iterator, or a thread of its own. -/
inductive Caller where
  | consumer
  | staging (thread : Nat)
  | elsewhere
deriving DecidableEq

/-- Where a call of `invalidate` or `close` is, once the stop flag is set. -/
inductive Closing where
  | acknowledging (joins : Bool)
  | reading
  | joining (thread : Option Nat)
  | finished

def Closing.ended : Closing → Bool
  | .finished => true
  | _ => false

structure PinnedDeliveryIterator (Value Position : Type) where
  queue : Option (Item Value Position)
  acknowledged : Bool
  stopped : Bool
  complete : Bool
  thread : Option Nat
  /-- every staging thread ever started; `thread` is a place in it -/
  threads : List (Point Value Position)
  consumer : Consumer (Item Value Position)
  closings : List (Caller × Closing)

/-- Steps of the consumer in `next`, of the staging threads, and of `invalidate` and `close`. -/
inductive Label (Value Position : Type) where
  | call
  | get
  | acknowledge
  | receive
  | draw (thread : Nat) (item : Item Value Position)
  | advance (thread : Nat)
  | stop (caller : Caller) (joins : Bool)
  | proceed (closing : Nat)

/-- A step of a staging thread, where `next` of the wrapped iterator comes to `item`. -/
def Label.Stages {Value Position : Type} (item : Item Value Position) :
    Label Value Position → Prop
  | .draw _ drawn => drawn = item
  | .advance _ => True
  | _ => False

/-- What the consumer's call came to. -/
inductive Reply (Value : Type) where
  | silent
  | received (value : Value)
  | ended
  | failed

namespace PinnedDeliveryIterator

variable {Value Position : Type}

def start : PinnedDeliveryIterator Value Position :=
  { queue := none
    acknowledged := false
    stopped := false
    complete := false
    thread := none
    threads := []
    consumer := .outside
    closings := [] }

/-- `_start` -/
def started (iterator : PinnedDeliveryIterator Value Position) :
    PinnedDeliveryIterator Value Position :=
  match iterator.thread with
  | some _ => iterator
  | none =>
      { iterator with
        thread := some iterator.threads.length, threads := iterator.threads ++ [.checking] }

/-- `next` starts the thread and turns to the queue. -/
def called (iterator : PinnedDeliveryIterator Value Position) :
    PinnedDeliveryIterator Value Position :=
  { iterator.started with consumer := .getting }

def moved (iterator : PinnedDeliveryIterator Value Position) (thread : Nat)
    (point : Point Value Position) : PinnedDeliveryIterator Value Position :=
  { iterator with threads := iterator.threads.set thread point }

/-- `thread.join()` returns. -/
def joins (iterator : PinnedDeliveryIterator Value Position) : Option Nat → Bool
  | none => true
  | some thread =>
      match iterator.threads[thread]? with
      | some .ended => true
      | _ => false

/-- The caller is within a call of `invalidate` or `close`. -/
def busy (iterator : PinnedDeliveryIterator Value Position) (caller : Caller) : Bool :=
  iterator.closings.any fun entry => entry.1 == caller && !entry.2.ended

/-- After the wait the thread goes on, or ends after the end of the iteration and an error. -/
def afterWait : Item Value Position → Point Value Position
  | .staged _ _ => .checking
  | .finished | .raised => .ended

section

variable (iterator : PinnedDeliveryIterator Value Position)

/-- One step of `_produce` outside `next` of the wrapped iterator. -/
def advance (thread : Nat) :
    Option (PinnedDeliveryIterator Value Position) :=
  match iterator.threads[thread]? with
  | some .checking => some (iterator.moved thread (if iterator.stopped then .ended else .drawing))
  | some (.drawn item) =>
      some (iterator.moved thread (if iterator.stopped then .ended else .clearing item))
  | some (.clearing item) =>
      some { iterator.moved thread (.putting item) with acknowledged := false }
  | some (.putting item) =>
      match iterator.queue with
      | none => some { iterator.moved thread (.put item) with queue := some item }
      | some _ => none
  | some (.put item) =>
      some (iterator.moved thread (if iterator.stopped then afterWait item else .waiting item))
  | some (.waiting item) =>
      if iterator.acknowledged then some (iterator.moved thread (afterWait item)) else none
  | _ => none

/-- `invalidate` and `close` begin: the flag is set first. -/
def stop (caller : Caller) (joins : Bool) :
    Option (PinnedDeliveryIterator Value Position) :=
  let stopping := some { iterator with
    stopped := true, closings := iterator.closings ++ [(caller, .acknowledging joins)] }
  if iterator.busy caller then none
  else
    match caller with
    | .consumer =>
        match iterator.consumer with
        | .outside => stopping
        | _ => none
    | .staging thread =>
        match iterator.threads[thread]? with
        | some .drawing => stopping
        | _ => none
    | .elsewhere => stopping

/-- A thread does not join itself. -/
def passes (caller : Caller) (thread : Option Nat) : Bool :=
  iterator.joins thread ||
    match caller, thread with
    | .staging current, some thread => current == thread
    | _, _ => false

/-- The further steps of `invalidate` and `close`. -/
def proceed (closing : Nat) :
    Option (PinnedDeliveryIterator Value Position) :=
  match iterator.closings[closing]? with
  | some (caller, .acknowledging joins) =>
      some { iterator with
        acknowledged := true
        closings :=
          iterator.closings.set closing (caller, if joins then .reading else .finished) }
  | some (caller, .reading) =>
      some { iterator with
        closings := iterator.closings.set closing (caller, .joining iterator.thread) }
  | some (caller, .joining thread) =>
      if iterator.passes caller thread then
        some { iterator with
          thread := none, closings := iterator.closings.set closing (caller, .finished) }
      else none
  | _ => none

end

def machine : Machine (PinnedDeliveryIterator Value Position) (Label Value Position)
    (Reply Value) where
  step
    | iterator, .call =>
        if iterator.busy .consumer then none
        else
          match iterator.consumer with
          | .outside =>
              if iterator.complete then some (.ended, iterator)
              else some (.silent, iterator.called)
          | _ => none
    | iterator, .get =>
        match iterator.consumer, iterator.queue with
        | .getting, some item =>
            some (.silent, { iterator with consumer := .got item, queue := none })
        | _, _ => none
    | iterator, .acknowledge =>
        match iterator.consumer with
        | .got item =>
            some (.silent, { iterator with consumer := .acknowledged item, acknowledged := true })
        | _ => none
    | iterator, .receive =>
        match iterator.consumer with
        | .acknowledged (.staged value _) =>
            some (.received value, { iterator with consumer := .outside })
        -- `_join_finished`
        | .acknowledged .finished =>
            if iterator.joins iterator.thread then
              some (.ended, { iterator with consumer := .outside, complete := true })
            else none
        | .acknowledged .raised =>
            if iterator.joins iterator.thread then
              some (.failed, { iterator with consumer := .outside, complete := true })
            else none
        | _ => none
    | iterator, .draw thread item =>
        match iterator.threads[thread]? with
        | some .drawing =>
            if iterator.busy (.staging thread) then none
            else some (.silent, iterator.moved thread (.drawn item))
        | _ => none
    | iterator, .advance thread => (iterator.advance thread).map fun after => (.silent, after)
    | iterator, .stop caller joins =>
        (iterator.stop caller joins).map fun after => (.silent, after)
    | iterator, .proceed closing => (iterator.proceed closing).map fun after => (.silent, after)

end PinnedDeliveryIterator

/-! ### Waiting on somebody -/

section

variable {Value Position : Type}

/-- Past its last check of the flag, and the item is not yet on the queue. -/
def Point.committed : Point Value Position → Bool
  | .clearing _ | .putting _ => true
  | _ => false

/-- The thread has still to put an item before it exits. -/
def Point.owes (stopped : Bool) : Point Value Position → Bool
  | .checking | .drawing | .drawn _ => !stopped
  | .clearing _ | .putting _ => true
  | .put item | .waiting item =>
      match item with
      | .staged _ _ => !stopped
      | .finished | .raised => false
  | .ended => false

namespace PinnedDeliveryIterator

/-- The consumer is blocked on an empty queue. -/
def Waits (iterator : PinnedDeliveryIterator Value Position) : Prop :=
  iterator.consumer = .getting ∧ iterator.queue = none

def Committed (iterator : PinnedDeliveryIterator Value Position) : Prop :=
  ∃ point ∈ iterator.threads, point.committed = true

/-- Where the consumer is blocked, a staging thread is alive and has still to put an item. -/
def Served (iterator : PinnedDeliveryIterator Value Position) : Prop :=
  iterator.Waits → ∃ point ∈ iterator.threads, point.owes iterator.stopped = true

/-- The staging threads alone come to put an item, if `next` of the wrapped iterator comes to
`item`. -/
def Puts (item : Item Value Position) (iterator : PinnedDeliveryIterator Value Position) : Prop :=
  ∃ labels trace after, (∀ label ∈ labels, label.Stages item) ∧
    machine.run iterator labels = some (trace, after) ∧ after.queue ≠ none

/-- `next` is called before the flag is set, or where an item is on the queue or about to be; and
the flag is set while no consumer is blocked, or where an item is about to be put. -/
def Heeds (iterator : PinnedDeliveryIterator Value Position) : Label Value Position → Prop
  | .call =>
      iterator.complete = true ∨ iterator.stopped = false ∨ iterator.queue ≠ none ∨
        iterator.Committed
  | .stop _ _ => iterator.Waits → iterator.Committed
  | _ => True

end PinnedDeliveryIterator

/-! ### What a step does -/

namespace PinnedDeliveryIterator

variable {iterator after : PinnedDeliveryIterator Value Position}

inductive Step (iterator : PinnedDeliveryIterator Value Position) :
    Label Value Position → Reply Value → PinnedDeliveryIterator Value Position → Prop where
  | returned (outside : iterator.consumer = .outside) (complete : iterator.complete = true) :
      Step iterator .call .ended iterator
  | called (outside : iterator.consumer = .outside) (goesOn : iterator.complete = false) :
      Step iterator .call .silent iterator.called
  | got {item : Item Value Position} (getting : iterator.consumer = .getting)
      (full : iterator.queue = some item) :
      Step iterator .get .silent { iterator with consumer := .got item, queue := none }
  | acknowledged {item : Item Value Position} (taken : iterator.consumer = .got item) :
      Step iterator .acknowledge .silent
        { iterator with consumer := .acknowledged item, acknowledged := true }
  | received {value : Value} {position : Position}
      (taken : iterator.consumer = .acknowledged (.staged value position)) :
      Step iterator .receive (.received value) { iterator with consumer := .outside }
  | joined {item : Item Value Position} {reply : Reply Value}
      (taken : iterator.consumer = .acknowledged item) (last : afterWait item = .ended)
      (joins : iterator.joins iterator.thread = true) :
      Step iterator .receive reply { iterator with consumer := .outside, complete := true }
  | drew {thread : Nat} {item : Item Value Position}
      (there : iterator.threads[thread]? = some .drawing) :
      Step iterator (.draw thread item) .silent (iterator.moved thread (.drawn item))
  | advanced {thread : Nat} {after : PinnedDeliveryIterator Value Position}
      (moves : iterator.advance thread = some after) :
      Step iterator (.advance thread) .silent after
  | stopped {caller : Caller} {joins : Bool} {after : PinnedDeliveryIterator Value Position}
      (stops : iterator.stop caller joins = some after) :
      Step iterator (.stop caller joins) .silent after
  | proceeded {closing : Nat} {after : PinnedDeliveryIterator Value Position}
      (goes : iterator.proceed closing = some after) :
      Step iterator (.proceed closing) .silent after

theorem step_cases {label : Label Value Position} {reply : Reply Value}
    (step : machine.step iterator label = some (reply, after)) :
    Step iterator label reply after := by
  cases label with
  | call =>
      simp only [machine] at step
      split at step
      · cases step
      · split at step
        case h_1 outside =>
          split at step
          · cases step
            exact .returned outside ‹_›
          · cases step
            exact .called outside (Bool.eq_false_of_not_eq_true ‹_›)
        case h_2 => cases step
  | get =>
      simp only [machine] at step
      split at step
      case h_1 getting full =>
        cases step
        exact .got getting full
      case h_2 => cases step
  | acknowledge =>
      simp only [machine] at step
      split at step
      case h_1 item taken =>
        cases step
        exact .acknowledged taken
      case h_2 => cases step
  | receive =>
      simp only [machine] at step
      split at step
      case h_1 value position taken =>
        cases step
        exact .received taken
      case h_2 taken =>
        split at step
        · cases step
          exact .joined taken rfl ‹_›
        · cases step
      case h_3 taken =>
        split at step
        · cases step
          exact .joined taken rfl ‹_›
        · cases step
      case h_4 => cases step
  | draw thread item =>
      simp only [machine] at step
      split at step
      case h_1 there =>
        split at step
        · cases step
        · cases step
          exact .drew there
      case h_2 => cases step
  | advance thread =>
      obtain ⟨_, moves, same⟩ := Option.map_eq_some_iff.mp step
      cases same
      exact .advanced moves
  | stop caller joins =>
      obtain ⟨_, stops, same⟩ := Option.map_eq_some_iff.mp step
      cases same
      exact .stopped stops
  | proceed closing =>
      obtain ⟨_, goes, same⟩ := Option.map_eq_some_iff.mp step
      cases same
      exact .proceeded goes

/-- `_start` adds at most a thread at its first check. -/
theorem called_frame (iterator : PinnedDeliveryIterator Value Position) :
    iterator.called.queue = iterator.queue ∧ iterator.called.stopped = iterator.stopped ∧
      (iterator.called.threads = iterator.threads ∨
        iterator.called.threads = iterator.threads ++ [.checking]) := by
  unfold called started
  cases iterator.thread with
  | some thread => exact ⟨rfl, rfl, Or.inl rfl⟩
  | none => exact ⟨rfl, rfl, Or.inr rfl⟩

theorem waits_called : iterator.called.Waits ↔ iterator.queue = none := by
  obtain ⟨queueSame, -, -⟩ := called_frame iterator
  rw [← queueSame]
  exact ⟨fun waits => waits.2, fun empty => ⟨rfl, empty⟩⟩

theorem committed_called : iterator.called.Committed ↔ iterator.Committed := by
  unfold Committed
  obtain ⟨-, -, same | same⟩ := called_frame iterator
  · rw [same]
  · rw [same]
    simp [Point.committed]

end PinnedDeliveryIterator

/-! ### Once the flag is set -/

theorem Point.owes_stopped (point : Point Value Position) : point.owes true = point.committed := by
  cases point with
  | put item | waiting item => cases item <;> rfl
  | _ => rfl

theorem exists_mem_set {Element : Type} {property : Element → Prop} {elements : List Element}
    {index : Nat} {old : Element} (there : elements[index]? = some old) (fails : ¬ property old)
    (new : Element) (some : ∃ element ∈ elements, property element) :
    ∃ element ∈ elements.set index new, property element := by
  obtain ⟨element, member, holds⟩ := some
  obtain ⟨place, placeEq⟩ := List.getElem?_of_mem member
  have apart : index ≠ place := by
    intro same
    rw [same, placeEq] at there
    cases there
    exact fails holds
  refine ⟨element, List.mem_of_getElem? (i := place) ?_, holds⟩
  rw [List.getElem?_set_ne apart]
  exact placeEq

namespace PinnedDeliveryIterator

variable {iterator after : PinnedDeliveryIterator Value Position}

theorem served_of_not_getting (elsewhere : iterator.consumer ≠ .getting) : iterator.Served :=
  fun waits => absurd waits.1 elsewhere

variable {item : Item Value Position}

theorem served_of_queue (full : iterator.queue = some item) : iterator.Served :=
  fun waits => nomatch full.symm.trans waits.2

theorem served_iff_of_stopped (flag : iterator.stopped = true) :
    iterator.Served ↔ (iterator.Waits → iterator.Committed) := by
  unfold Served Committed
  rw [flag]
  simp only [Point.owes_stopped]

variable {thread : Nat}

/-- A thread that has nothing to put after the flag moves on. -/
theorem served_moved (flag : iterator.stopped = true) (served : iterator.Served)
    {old : Point Value Position} (there : iterator.threads[thread]? = some old)
    (idle : old.committed = false) (new : Point Value Position) :
    (iterator.moved thread new).Served := by
  rw [served_iff_of_stopped flag] at served
  have flagged : (iterator.moved thread new).stopped = true := flag
  refine (served_iff_of_stopped flagged).mpr fun waits => ?_
  exact exists_mem_set there (by rw [idle]; decide) new (served waits)

/-- A thread that moves leaves the wait served. -/
theorem served_advance (flag : iterator.stopped = true) (served : iterator.Served)
    (step : iterator.advance thread = some after) : after.Served := by
  unfold advance at step
  split at step
  case h_1 there =>
    cases step
    exact served_moved flag served there rfl _
  case h_2 item there =>
    cases step
    exact served_moved flag served there rfl _
  case h_3 item there =>
    cases step
    obtain ⟨inside, -⟩ := List.getElem?_eq_some_iff.mp there
    exact fun _ => ⟨.putting item, List.mem_set inside _, rfl⟩
  case h_4 item there =>
    split at step
    · cases step
      exact served_of_queue rfl
    · cases step
  case h_5 item there =>
    cases step
    exact served_moved flag served there rfl _
  case h_6 item there =>
    split at step
    · cases step
      exact served_moved flag served there rfl _
    · cases step
  case h_7 => cases step

/-- What a call of `invalidate` or `close` does next leaves the consumer and the threads alone. -/
theorem proceed_frame {closing : Nat} (step : iterator.proceed closing = some after) :
    after.queue = iterator.queue ∧ after.stopped = iterator.stopped ∧
      after.threads = iterator.threads ∧ after.consumer = iterator.consumer ∧
        ∃ entry ∈ iterator.closings, entry.2.ended = false := by
  unfold proceed at step
  split at step
  case h_1 caller joins there =>
    cases step
    exact ⟨rfl, rfl, rfl, rfl, _, List.mem_of_getElem? there, rfl⟩
  case h_2 caller there =>
    cases step
    exact ⟨rfl, rfl, rfl, rfl, _, List.mem_of_getElem? there, rfl⟩
  case h_3 caller thread there =>
    split at step
    · cases step
      exact ⟨rfl, rfl, rfl, rfl, _, List.mem_of_getElem? there, rfl⟩
    · cases step
  case h_4 => cases step

theorem stop_eq {caller : Caller} {joins : Bool} (step : iterator.stop caller joins = some after) :
    after = { iterator with
      stopped := true, closings := iterator.closings ++ [(caller, .acknowledging joins)] } := by
  unfold stop at step
  split at step
  · cases step
  · cases caller with
    | consumer | staging thread =>
        dsimp only at step
        split at step <;> cases step
        rfl
    | elsewhere =>
        cases step
        rfl

variable {label : Label Value Position} {reply : Reply Value}

/-- With the flag set, only a call of `next` and a further stop can leave the consumer alone. -/
theorem served_step_iff (flag : iterator.stopped = true) (served : iterator.Served)
    (step : Step iterator label reply after) : after.Served ↔ iterator.Heeds label := by
  cases step with
  | returned outside complete =>
      exact iff_of_true served (Or.inl complete)
  | called outside goesOn =>
      obtain ⟨-, flagSame, -⟩ := called_frame iterator
      rw [served_iff_of_stopped (flagSame.trans flag), waits_called, committed_called]
      unfold Heeds
      rw [flag, goesOn]
      constructor
      · intro commits
        exact Or.inr (Or.inr (Classical.or_iff_not_imp_left.mpr fun queued =>
          commits (not_not.mp queued)))
      · rintro (incomplete | unset | queued | commits) empty
        · cases incomplete
        · cases unset
        · exact absurd empty queued
        · exact commits
  | got getting full | acknowledged taken | received taken | joined taken last joins =>
      exact iff_of_true (served_of_not_getting nofun) trivial
  | drew there => exact iff_of_true (served_moved flag served there rfl _) trivial
  | advanced moves => exact iff_of_true (served_advance flag served moves) trivial
  | stopped stops =>
      rw [served_iff_of_stopped (by rw [stop_eq stops]), stop_eq stops]
      exact Iff.rfl
  | proceeded goes =>
      obtain ⟨queueSame, flagSame, threadsSame, consumerSame, -⟩ := proceed_frame goes
      refine iff_of_true ?_ trivial
      unfold Served Waits at served ⊢
      rw [queueSame, flagSame, threadsSame, consumerSame]
      exact served

/-- The consumer is blocked for good: the flag is set, and no thread is past its last check. -/
structure Abandoned (iterator : PinnedDeliveryIterator Value Position) : Prop where
  flag : iterator.stopped = true
  waits : iterator.Waits
  idle : ∀ point ∈ iterator.threads, point.committed = false

theorem Abandoned.moved (abandoned : iterator.Abandoned) (thread : Nat)
    {point : Point Value Position} (idle : point.committed = false) :
    (iterator.moved thread point).Abandoned := by
  refine ⟨abandoned.flag, abandoned.waits, fun other member => ?_⟩
  rcases List.mem_or_eq_of_mem_set member with before | rfl
  · exact abandoned.idle other before
  · exact idle

theorem committed_afterWait (item : Item Value Position) : (afterWait item).committed = false := by
  cases item <;> rfl

theorem Abandoned.advance (abandoned : iterator.Abandoned)
    (moves : iterator.advance thread = some after) : after.Abandoned := by
  unfold PinnedDeliveryIterator.advance at moves
  rw [abandoned.flag] at moves
  split at moves
  case h_1 there =>
    cases moves
    exact abandoned.moved thread rfl
  case h_2 item there =>
    cases moves
    exact abandoned.moved thread rfl
  case h_3 item there => cases abandoned.idle _ (List.mem_of_getElem? there)
  case h_4 item there => cases abandoned.idle _ (List.mem_of_getElem? there)
  case h_5 item there =>
    cases moves
    exact abandoned.moved thread (committed_afterWait item)
  case h_6 item there =>
    split at moves
    · cases moves
      exact abandoned.moved thread (committed_afterWait item)
    · cases moves
  case h_7 => cases moves

/-- An abandoned wait is not served. -/
theorem Abandoned.not_served (abandoned : iterator.Abandoned) : ¬ iterator.Served := by
  intro served
  obtain ⟨point, member, commits⟩ :=
    (served_iff_of_stopped abandoned.flag).mp served abandoned.waits
  cases (abandoned.idle point member).symm.trans commits

/-- A wait once abandoned stays so. -/
theorem Abandoned.step (abandoned : iterator.Abandoned) {label : Label Value Position}
    {reply : Reply Value} (step : Step iterator label reply after) : after.Abandoned := by
  obtain ⟨getting, empty⟩ := abandoned.waits
  cases step with
  | returned outside complete => cases getting.symm.trans outside
  | called outside goesOn => cases getting.symm.trans outside
  | got _ full => cases empty.symm.trans full
  | acknowledged taken => cases getting.symm.trans taken
  | received taken => cases getting.symm.trans taken
  | joined taken last joins => cases getting.symm.trans taken
  | drew there => exact abandoned.moved _ rfl
  | advanced moves => exact abandoned.advance moves
  | stopped stops =>
      rw [stop_eq stops]
      exact ⟨rfl, abandoned.waits, abandoned.idle⟩
  | proceeded goes =>
      obtain ⟨queueSame, flagSame, threadsSame, consumerSame, -⟩ := proceed_frame goes
      refine ⟨flagSame.trans abandoned.flag,
        ⟨consumerSame.trans getting, queueSame.trans empty⟩, ?_⟩
      rw [threadsSame]
      exact abandoned.idle

/-- A stopped queue that does not serve a wait has abandoned it. -/
theorem abandoned_of_not_served (flag : iterator.stopped = true) (unserved : ¬ iterator.Served) :
    iterator.Abandoned := by
  rw [served_iff_of_stopped flag, Classical.not_imp] at unserved
  refine ⟨flag, unserved.1, fun point member => ?_⟩
  exact Bool.eq_false_of_not_eq_true fun commits => unserved.2 ⟨point, member, commits⟩

/-! ### Before the flag is set -/

/-- The consumer is between two items. -/
inductive Free : Consumer (Item Value Position) → Prop where
  | outside : Free .outside
  | getting : Free .getting
  | acknowledged {value : Value} {position : Position} :
      Free (.acknowledged (.staged value position))

/-- Before the flag is set there is at most one thread, and either it owes the next item, or the
item is on its way to the consumer, or the iteration is over. -/
inductive Calm : PinnedDeliveryIterator Value Position → Prop where
  | idle {acknowledged : Bool} :
      Calm ⟨none, acknowledged, false, false, none, [], .outside, []⟩
  | early {acknowledged : Bool} {consumer : Consumer (Item Value Position)}
      {point : Point Value Position} (free : Free consumer)
      (standing : point = .checking ∨ point = .drawing ∨
        ∃ item, point = .drawn item ∨ point = .clearing item) :
      Calm ⟨none, acknowledged, false, false, some 0, [point], consumer, []⟩
  | putting {consumer : Consumer (Item Value Position)} {item : Item Value Position}
      (free : Free consumer) :
      Calm ⟨none, false, false, false, some 0, [.putting item], consumer, []⟩
  | offered {consumer : Consumer (Item Value Position)} {item : Item Value Position}
      {point : Point Value Position} (free : Free consumer)
      (standing : point = .put item ∨ point = .waiting item) :
      Calm ⟨some item, false, false, false, some 0, [point], consumer, []⟩
  | taken {item : Item Value Position} {point : Point Value Position}
      (standing : point = .put item ∨ point = .waiting item) :
      Calm ⟨none, false, false, false, some 0, [point], .got item, []⟩
  | released {consumer : Consumer (Item Value Position)} {value : Value} {position : Position}
      {point : Point Value Position} (free : Free consumer)
      (standing : point = .put (.staged value position) ∨
        point = .waiting (.staged value position)) :
      Calm ⟨none, true, false, false, some 0, [point], consumer, []⟩
  | closing {item : Item Value Position} {point : Point Value Position}
      (last : afterWait item = .ended)
      (standing : point = .put item ∨ point = .waiting item ∨ point = .ended) :
      Calm ⟨none, true, false, false, some 0, [point], .acknowledged item, []⟩
  | complete {acknowledged : Bool} :
      Calm ⟨none, acknowledged, false, true, some 0, [.ended], .outside, []⟩

theorem Calm.served (calm : iterator.Calm) : iterator.Served := by
  intro waits
  cases calm with
  | idle => cases waits.1
  | early free standing =>
      refine ⟨_, List.mem_singleton.mpr rfl, ?_⟩
      rcases standing with rfl | rfl | ⟨item, rfl | rfl⟩ <;> rfl
  | putting free => exact ⟨_, List.mem_singleton.mpr rfl, rfl⟩
  | offered free standing => cases waits.2
  | taken standing => cases waits.1
  | released free standing =>
      refine ⟨_, List.mem_singleton.mpr rfl, ?_⟩
      rcases standing with rfl | rfl <;> rfl
  | closing last standing | complete => cases waits.1

theorem Calm.called (calm : iterator.Calm) (outside : iterator.consumer = .outside)
    (goesOn : iterator.complete = false) : iterator.called.Calm := by
  cases calm with
  | idle => exact .early .getting (Or.inl rfl)
  | early free standing => exact .early .getting standing
  | putting free => exact .putting .getting
  | offered free standing => exact .offered .getting standing
  | taken standing => cases outside
  | released free standing => exact .released .getting standing
  | closing last standing => cases outside
  | complete => cases goesOn

section

variable (calm : iterator.Calm)

include calm

theorem Calm.got (getting : iterator.consumer = .getting) (full : iterator.queue = some item) :
    Calm { iterator with consumer := .got item, queue := none } := by
  cases calm with
  | idle | early free standing | putting free => cases full
  | offered free standing =>
      cases full
      exact .taken standing
  | taken standing | released free standing | closing last standing | complete => cases full

theorem Calm.acknowledged (taken : iterator.consumer = .got item) :
    Calm { iterator with consumer := .acknowledged item, acknowledged := true } := by
  cases calm with
  | idle => cases taken
  | early free standing | putting free | offered free standing | released free standing =>
      cases taken
      cases free
  | taken standing =>
      cases taken
      cases item with
      | staged value position => exact .released .acknowledged standing
      | finished | raised => exact .closing rfl (standing.imp_right Or.inl)
  | closing last standing | complete => cases taken

theorem Calm.received {value : Value} {position : Position}
    (taken : iterator.consumer = .acknowledged (.staged value position)) :
    Calm { iterator with consumer := .outside } := by
  cases calm with
  | idle => cases taken
  | early free standing => exact .early .outside standing
  | putting free => exact .putting .outside
  | offered free standing => exact .offered .outside standing
  | taken standing => cases taken
  | released free standing => exact .released .outside standing
  | closing last standing =>
      cases taken
      cases last
  | complete => cases taken

/-- The consumer only joins a thread that exits. -/
theorem Calm.joined (taken : iterator.consumer = .acknowledged item)
    (last : afterWait item = .ended) (joins : iterator.joins iterator.thread = true) :
    Calm { iterator with consumer := .outside, complete := true } := by
  cases calm with
  | idle => cases taken
  | early free standing | putting free | offered free standing | released free standing =>
      cases taken
      cases free
      cases last
  | taken standing => cases taken
  | closing _ standing =>
      rcases standing with rfl | rfl | rfl
      · cases joins
      · cases joins
      · exact .complete
  | complete => cases taken

end

theorem getElem?_singleton_eq_some {Element : Type} {only other : Element} {index : Nat}
    (there : [only][index]? = some other) : index = 0 ∧ only = other := by
  cases index with
  | zero => exact ⟨rfl, Option.some.inj there⟩
  | succ index => cases there

theorem Calm.drew (calm : iterator.Calm) (item : Item Value Position)
    (there : iterator.threads[thread]? = some .drawing) :
    Calm (iterator.moved thread (.drawn item)) := by
  cases calm with
  | idle => cases there
  | early free standing =>
      obtain ⟨rfl, rfl⟩ := getElem?_singleton_eq_some there
      exact .early free (Or.inr (Or.inr ⟨item, Or.inl rfl⟩))
  | putting free | complete => cases (getElem?_singleton_eq_some there).2
  | offered free standing | taken standing | released free standing =>
      rcases standing with rfl | rfl <;> cases (getElem?_singleton_eq_some there).2
  | closing last standing =>
      rcases standing with rfl | rfl | rfl <;> cases (getElem?_singleton_eq_some there).2

theorem Calm.advance (calm : iterator.Calm) (moves : iterator.advance thread = some after) :
    after.Calm := by
  cases thread with
  | succ thread =>
      cases calm <;> cases moves
  | zero =>
      cases calm with
      | idle => cases moves
      | early free standing =>
          rcases standing with rfl | rfl | ⟨item, rfl | rfl⟩
          · cases moves
            exact .early free (Or.inr (Or.inl rfl))
          · cases moves
          · cases moves
            exact .early free (Or.inr (Or.inr ⟨item, Or.inr rfl⟩))
          · cases moves
            exact .putting free
      | putting free =>
          cases moves
          exact .offered free (Or.inl rfl)
      | offered free standing =>
          rcases standing with rfl | rfl
          · cases moves
            exact .offered free (Or.inr rfl)
          · cases moves
      | taken standing =>
          rcases standing with rfl | rfl
          · cases moves
            exact .taken (Or.inr rfl)
          · cases moves
      | released free standing =>
          rcases standing with rfl | rfl
          · cases moves
            exact .released free (Or.inr rfl)
          · cases moves
            exact .early free (Or.inl rfl)
      | closing last standing =>
          rcases standing with rfl | rfl | rfl
          · cases moves
            exact .closing last (Or.inr (Or.inl rfl))
          · cases moves
            exact .closing last (Or.inr (Or.inr last))
          · cases moves
      | complete => cases moves

theorem Calm.step (calm : iterator.Calm) {label : Label Value Position} {reply : Reply Value}
    (step : Step iterator label reply after) (unset : after.stopped = false) : after.Calm := by
  cases step with
  | returned outside complete => exact calm
  | called outside goesOn => exact calm.called outside goesOn
  | got getting full => exact calm.got getting full
  | acknowledged taken => exact calm.acknowledged taken
  | received taken => exact calm.received taken
  | joined taken last joins => exact calm.joined taken last joins
  | drew there => exact calm.drew _ there
  | advanced moves => exact calm.advance moves
  | stopped stops =>
      rw [stop_eq stops] at unset
      cases unset
  | proceeded goes =>
      obtain ⟨-, -, -, -, _, member, -⟩ := proceed_frame goes
      cases calm <;> cases member

theorem Calm.unset (calm : iterator.Calm) : iterator.stopped = false := by
  cases calm <;> rfl

/-- Before the flag is set, only setting it can leave the consumer alone. -/
theorem Calm.served_step_iff (calm : iterator.Calm) (step : Step iterator label reply after) :
    after.Served ↔ iterator.Heeds label := by
  cases step with
  | returned outside complete => exact iff_of_true calm.served (Or.inl complete)
  | called outside goesOn =>
      exact iff_of_true (calm.called outside goesOn).served (Or.inr (Or.inl calm.unset))
  | got getting full => exact iff_of_true (calm.got getting full).served trivial
  | acknowledged taken => exact iff_of_true (calm.acknowledged taken).served trivial
  | received taken => exact iff_of_true (calm.received taken).served trivial
  | joined taken last joins => exact iff_of_true (calm.joined taken last joins).served trivial
  | drew there => exact iff_of_true (calm.drew _ there).served trivial
  | advanced moves => exact iff_of_true (calm.advance moves).served trivial
  | stopped stops =>
      rw [served_iff_of_stopped (by rw [stop_eq stops]), stop_eq stops]
      exact Iff.rfl
  | proceeded goes =>
      obtain ⟨-, -, -, -, _, member, -⟩ := proceed_frame goes
      cases calm <;> cases member

/-! ### A served consumer gets its item -/

theorem puts_of_advance (moves : iterator.advance thread = some after) (puts : after.Puts item) :
    iterator.Puts item := by
  obtain ⟨labels, trace, final, all, run, full⟩ := puts
  refine ⟨.advance thread :: labels, (.advance thread, .silent) :: trace, final, ?_, ?_, full⟩
  · exact List.forall_mem_cons.mpr ⟨trivial, all⟩
  · refine machine.run_cons_eq_some.mpr ⟨.silent, after, trace, ?_, run, rfl⟩
    exact Option.map_eq_some_iff.mpr ⟨after, moves, rfl⟩

theorem puts_of_queue {item drawn : Item Value Position} (full : iterator.queue = some drawn) :
    iterator.Puts item :=
  ⟨[], [], iterator, nofun, rfl, by rw [full]; exact Option.some_ne_none drawn⟩

theorem advance_putting {drawn : Item Value Position}
    (there : iterator.threads[thread]? = some (.putting drawn)) (empty : iterator.queue = none) :
    iterator.advance thread =
      some { iterator.moved thread (.put drawn) with queue := some drawn } := by
  unfold advance
  rw [there, empty]

theorem advance_clearing {drawn : Item Value Position}
    (there : iterator.threads[thread]? = some (.clearing drawn)) :
    iterator.advance thread =
      some { iterator.moved thread (.putting drawn) with acknowledged := false } := by
  unfold advance
  rw [there]

theorem advance_put {drawn : Item Value Position} {thread : Nat}
    (there : iterator.threads[thread]? = some (.put drawn)) (unset : iterator.stopped = false) :
    iterator.advance thread = some (iterator.moved thread (.waiting drawn)) := by
  unfold advance
  rw [there, unset]
  rfl

theorem advance_waiting {drawn : Item Value Position} {thread : Nat}
    (there : iterator.threads[thread]? = some (.waiting drawn))
    (released : iterator.acknowledged = true) :
    iterator.advance thread = some (iterator.moved thread (afterWait drawn)) := by
  unfold advance
  rw [there, released]
  rfl

theorem puts_of_committed (commits : iterator.Committed) (empty : iterator.queue = none) :
    iterator.Puts item := by
  obtain ⟨point, member, past⟩ := commits
  obtain ⟨thread, there⟩ := List.getElem?_of_mem member
  cases point with
  | clearing drawn =>
      obtain ⟨inside, -⟩ := List.getElem?_eq_some_iff.mp there
      have next : (iterator.threads.set thread (.putting drawn))[thread]? =
          some (.putting drawn) := List.getElem?_set_self inside
      exact puts_of_advance (advance_clearing there)
        (puts_of_advance (advance_putting next empty) (puts_of_queue rfl))
  | putting drawn => exact puts_of_advance (advance_putting there empty) (puts_of_queue rfl)
  | checking | drawing | ended => cases past
  | drawn _ | put _ | waiting _ => cases past

/-- From its first check the thread draws the item and puts it. -/
theorem puts_of_early (item : Item Value Position) {acknowledged : Bool}
    {consumer : Consumer (Item Value Position)} {point : Point Value Position}
    (standing : point = .checking ∨ point = .drawing ∨
      ∃ item, point = .drawn item ∨ point = .clearing item) :
    (⟨none, acknowledged, false, false, some 0, [point], consumer, []⟩ :
      PinnedDeliveryIterator Value Position).Puts item := by
  rcases standing with rfl | rfl | ⟨drawn, rfl | rfl⟩
  · exact ⟨[.advance 0, .draw 0 item, .advance 0, .advance 0, .advance 0], _, _,
      by simp [Label.Stages], rfl, nofun⟩
  · exact ⟨[.draw 0 item, .advance 0, .advance 0, .advance 0], _, _,
      by simp [Label.Stages], rfl, nofun⟩
  · exact ⟨[.advance 0, .advance 0, .advance 0], _, _, by simp [Label.Stages], rfl, nofun⟩
  · exact ⟨[.advance 0, .advance 0], _, _, by simp [Label.Stages], rfl, nofun⟩

theorem Calm.puts (calm : iterator.Calm) (item : Item Value Position) (waits : iterator.Waits) :
    iterator.Puts item := by
  cases calm with
  | idle => cases waits.1
  | early free standing => exact puts_of_early item standing
  | putting free => exact puts_of_committed ⟨_, List.mem_singleton.mpr rfl, rfl⟩ rfl
  | offered free standing => cases waits.2
  | taken standing => cases waits.1
  | @released consumer value position point free standing =>
      have waiting : (⟨none, true, false, false, some 0, [.waiting (.staged value position)],
          consumer, []⟩ : PinnedDeliveryIterator Value Position).Puts item :=
        puts_of_advance (@advance_waiting _ _ _ _ 0 rfl rfl) (puts_of_early item (Or.inl rfl))
      rcases standing with rfl | rfl
      · exact puts_of_advance (@advance_put _ _ _ _ 0 rfl rfl) waiting
      · exact waiting
  | closing last standing | complete => cases waits.1

/-! ### Runs -/

/-- In every state of a run: the flag is set, or the thread and the consumer take turns. -/
def Sound (iterator : PinnedDeliveryIterator Value Position) : Prop :=
  iterator.stopped = true ∨ iterator.Calm

theorem sound_start : (start : PinnedDeliveryIterator Value Position).Sound := Or.inr .idle

theorem advance_stopped (moves : iterator.advance thread = some after) :
    after.stopped = iterator.stopped := by
  unfold advance at moves
  split at moves <;> (try split at moves) <;> cases moves <;> rfl

/-- The flag is never cleared. -/
theorem stopped_step (flag : iterator.stopped = true) (step : Step iterator label reply after) :
    after.stopped = true := by
  cases step with
  | called outside goesOn => exact (called_frame iterator).2.1.trans flag
  | advanced moves => exact (advance_stopped moves).trans flag
  | stopped stops => rw [stop_eq stops]
  | proceeded goes => exact (proceed_frame goes).2.1.trans flag
  | _ => exact flag

theorem Sound.step (sound : iterator.Sound) {label : Label Value Position} {reply : Reply Value}
    (step : Step iterator label reply after) : after.Sound := by
  rcases sound with flag | calm
  · exact Or.inl (stopped_step flag step)
  · cases unset : after.stopped with
    | true => exact Or.inl unset
    | false => exact Or.inr (calm.step step unset)

theorem Sound.served_step_iff (sound : iterator.Sound) (served : iterator.Served)
    (step : Step iterator label reply after) : after.Served ↔ iterator.Heeds label := by
  rcases sound with flag | calm
  · exact PinnedDeliveryIterator.served_step_iff flag served step
  · exact calm.served_step_iff step

/-- A consumer that is served gets an item from the staging threads alone; one that is not is
blocked for good. -/
theorem Sound.fate (sound : iterator.Sound) (waits : iterator.Waits) :
    (iterator.Served → ∀ item, iterator.Puts item) ∧
      (¬ iterator.Served → iterator.Abandoned) := by
  rcases sound with flag | calm
  · refine ⟨fun served item => ?_, abandoned_of_not_served flag⟩
    exact puts_of_committed ((served_iff_of_stopped flag).mp served waits) waits.2
  · exact ⟨fun _ item => calm.puts item waits, fun unserved => absurd calm.served unserved⟩

/-- In every state of a run no consumer waits on nobody exactly when each call of `next` and each
setting of the flag meets the condition; and where one waits, it waits for an item that comes
without anybody else, or for good. -/
theorem pinned_wait_iff :
    (∀ (labels : List (Label Value Position)) trace final,
      machine.run start labels = some (trace, final) →
      ((∀ front, front <+: labels → ∀ part state,
        machine.run start front = some (part, state) → state.Served) ↔
        machine.Along Heeds start labels)) ∧
    ∀ (labels : List (Label Value Position)) trace state,
      machine.run start labels = some (trace, state) → state.Waits →
      (state.Served → ∀ item, state.Puts item) ∧
      (¬ state.Served → ∀ later part final,
        machine.run state later = some (part, final) → final.Waits ∧ ¬ final.Served) := by
  have keeps : ∀ (state : PinnedDeliveryIterator Value Position) label reply next, state.Sound →
      machine.step state label = some (reply, next) → next.Sound :=
    fun _ _ _ _ sound step => sound.step (step_cases step)
  refine ⟨fun labels trace final run => ?_, fun labels trace state run waits => ?_⟩
  · refine machine.states_iff_along keeps ?_ sound_start (served_of_not_getting nofun) run
    exact fun _ _ _ _ sound served step => sound.served_step_iff served (step_cases step)
  · have sound : state.Sound := machine.run_invariant
      (fun _ _ _ _ sound _ step => sound.step (step_cases step)) sound_start
      (machine.along_true _ _) run
    refine ⟨(sound.fate waits).1, fun unserved later part final again => ?_⟩
    have abandoned : final.Abandoned := machine.run_invariant
      (fun _ _ _ _ abandoned _ step => abandoned.step (step_cases step))
      ((sound.fate waits).2 unserved) (machine.along_true _ _) again
    exact ⟨abandoned.waits, abandoned.not_served⟩

/-- A sample whose loading raises: the loader closes itself on the staging thread, so the error is
never put; and a call of `next` after `close`. -/
theorem pinned_wait_abandoned :
    (∃ state, machine.run (start : PinnedDeliveryIterator Nat Nat)
        [.call, .advance 0, .stop (.staging 0) true, .proceed 0, .proceed 0, .proceed 0,
          .draw 0 .raised, .advance 0] = some state ∧ ¬ state.2.Served) ∧
    ∃ state, machine.run (start : PinnedDeliveryIterator Nat Nat)
        [.stop .consumer true, .proceed 0, .proceed 0, .proceed 0, .call, .advance 0] =
          some state ∧ ¬ state.2.Served := by
  refine ⟨⟨_, rfl, fun served => ?_⟩, ⟨_, rfl, fun served => ?_⟩⟩
  · obtain ⟨point, member, owes⟩ := served ⟨rfl, rfl⟩
    cases List.mem_singleton.mp member
    cases owes
  · obtain ⟨point, member, owes⟩ := served ⟨rfl, rfl⟩
    cases List.mem_singleton.mp member
    cases owes

end PinnedDeliveryIterator

end

end Hyperloader.Memory.PinnedWait
