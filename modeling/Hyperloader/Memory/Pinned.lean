/-
Module: Hyperloader.Memory.Pinned
Purpose: Pinned staging, memory/pinned/iterator.py: a thread draws one batch ahead of the consumer,
  and what a checkpoint taken between two calls of the consumer counts, wherever the thread is in
  its call of the wrapped iterator.
Trusted boundary: the wrapped iterator is a parameter; a checkpoint is captured at one point of the
  run.
Main exports:
  Wrapped, PinnedDeliveryIterator, PinnedDeliveryIterator.machine, Consistent,
  checkpoint_iff, iterableIterator, behind_next, returns_next, returns_raised
-/
import Hyperloader.Foundations.Transition
import Hyperloader.Iterable.Call

namespace Hyperloader.Memory

open Foundations

/-! ### Wrapped iterators -/

/-- What `next` of an iterator comes to. -/
inductive Pull (Value : Type) where
  | value (value : Value)
  | stop
  | raised

def Pull.draws {Value : Type} : Pull Value → Bool
  | .value _ => true
  | .stop | .raised => false

/-- A wrapped iterator: the steps of a call of `next` and what it may come to, the batches behind a
checkpoint captured between two calls or inside one, and what the loader captures between two
iterations. A call that hands out a batch moves the checkpoint of an iterable iterator. -/
structure Wrapped (State Call Value Position : Type) where
  iterable : Bool
  enter : State → Call
  moves : Call → Call → Prop
  returns : Call → Pull Value → State → Prop
  position : State → Position
  inside : Call → Position
  between : State → Position
  advances : iterable = true → ∀ {state : State} {call : Call} {value : Value} {after : State},
    Relation.ReflTransGen moves (enter state) call → returns call (.value value) after →
    position after ≠ position state

/-! ### The staging iterator -/

/-- What the staging thread puts on the queue; a staged batch carries its checkpoint. -/
inductive Item (Value Position : Type) where
  | staged (value : Value) (position : Position)
  | finished
  | raised

/-- Where the staging thread is in `_produce`, and in its call of the wrapped iterator. -/
inductive Staging (Call Item : Type) where
  | absent
  | drawing
  | calling (call : Call)
  | drawn (item : Item)
  | cleared (item : Item)
  | waiting (item : Item)
  | ended

/-- `_start` -/
def Staging.started {Call Item : Type} : Staging Call Item → Staging Call Item
  | .absent => .drawing
  | staging => staging

/-- Where the consumer is in `__next__`. -/
inductive Consumer (Item : Type) where
  | outside
  | getting
  | got (item : Item)
  | acknowledged (item : Item)

/-- `iterator` is the wrapped iterator as its last call left it. -/
structure PinnedDeliveryIterator (State Call Value Position : Type) where
  iterator : State
  queue : Option (Item Value Position)
  acknowledged : Bool
  staging : Staging Call (Item Value Position)
  consumer : Consumer (Item Value Position)
  complete : Bool
  position : Position

/-- Steps of the consumer, and of the staging thread; `fails` where staging the batch raises. -/
inductive Label (State Call Value : Type) where
  | call
  | get
  | acknowledge
  | receive
  | enter
  | move (call : Call)
  | produce (pull : Pull Value) (after : State) (fails : Bool)
  | clear
  | put
  | wake

/-- What a step shows: a draw of the wrapped iterator, or what the consumer's call came to. -/
inductive Event (State Value : Type) where
  | silent
  | drew (pull : Pull Value) (after : State)
  | received (value : Value)
  | ended
  | failed

namespace Event

variable {State Value : Type}

def receives : Event State Value → Bool
  | .received _ => true
  | _ => false

def ends : Event State Value → Bool
  | .ended => true
  | _ => false

def fails : Event State Value → Bool
  | .failed => true
  | _ => false

end Event

namespace PinnedDeliveryIterator

variable {State Call Value Position : Type} (wrapped : Wrapped State Call Value Position)

def start (state : State) : PinnedDeliveryIterator State Call Value Position :=
  { iterator := state
    queue := none
    acknowledged := false
    staging := .absent
    consumer := .outside
    complete := false
    position := wrapped.position state }

/-- The item for a draw. -/
def item (pull : Pull Value) (after : State) (fails : Bool) : Item Value Position :=
  match pull with
  | .value value => if fails then .raised else .staged value (wrapped.position after)
  | .stop => .finished
  | .raised => .raised

/-- The thread ends after the end of the iteration or an error. -/
def afterWait : Item Value Position → Staging Call (Item Value Position)
  | .staged _ _ => .drawing
  | .finished | .raised => .ended

def machine : Machine (PinnedDeliveryIterator State Call Value Position) (Label State Call Value)
    (Event State Value) where
  step
    | iterator, .call =>
        match iterator.consumer with
        | .outside =>
            if iterator.complete then some (.ended, iterator)
            else
              some (.silent,
                { iterator with consumer := .getting, staging := iterator.staging.started })
        | _ => none
    | iterator, .get =>
        match iterator.consumer, iterator.queue with
        | .getting, some item =>
            some (.silent, { iterator with consumer := .got item, queue := none })
        | _, _ => none
    | iterator, .acknowledge =>
        match iterator.consumer with
        | .got item =>
            some (.silent, { iterator with consumer := .acknowledged item, acknowledged := true })
        | _ => none
    | iterator, .receive =>
        match iterator.consumer, iterator.staging with
        | .acknowledged (.staged value position), _ =>
            some (.received value, { iterator with consumer := .outside, position })
        -- at the end and at an error the consumer joins the thread
        | .acknowledged .finished, .ended =>
            some (.ended, { iterator with consumer := .outside, complete := true })
        | .acknowledged .raised, .ended =>
            some (.failed, { iterator with consumer := .outside, complete := true })
        | _, _ => none
    | iterator, .enter =>
        match iterator.staging with
        | .drawing =>
            some (.silent, { iterator with staging := .calling (wrapped.enter iterator.iterator) })
        | _ => none
    | iterator, .move call =>
        match iterator.staging with
        | .calling _ => some (.silent, { iterator with staging := .calling call })
        | _ => none
    | iterator, .produce pull after fails =>
        match iterator.staging with
        | .calling _ =>
            some (.drew pull after,
              { iterator with
                iterator := after, staging := .drawn (item wrapped pull after fails) })
        | _ => none
    | iterator, .clear =>
        match iterator.staging with
        | .drawn item =>
            some (.silent, { iterator with staging := .cleared item, acknowledged := false })
        | _ => none
    | iterator, .put =>
        match iterator.staging, iterator.queue with
        | .cleared item, none =>
            some (.silent, { iterator with staging := .waiting item, queue := some item })
        | _, _ => none
    | iterator, .wake =>
        match iterator.staging, iterator.acknowledged with
        | .waiting item, true => some (.silent, { iterator with staging := afterWait item })
        | _, _ => none

section

variable (iterator : PinnedDeliveryIterator State Call Value Position)

/-- The batches behind the wrapped iterator as it is now. -/
def present : Position :=
  match iterator.staging with
  | .calling call => wrapped.inside call
  | _ => wrapped.position iterator.iterator

/-- `capture_map_state` and `capture_iterable_state` as far as the active iterator decides: the
fields of the staging iterator, or the checkpoint of the wrapped one. -/
def captured : Position :=
  if iterator.complete then wrapped.between iterator.iterator
  else if wrapped.iterable then iterator.present wrapped
  else iterator.position

end

end PinnedDeliveryIterator

/-! ### What a run has delivered -/

section

variable {State Call Value Position : Type}

abbrev Trace (State Call Value : Type) := List (Label State Call Value × Event State Value)

def received (trace : Trace State Call Value) : Nat :=
  trace.countP fun entry => entry.2.receives

/-- The wrapped iterator after each batch it handed out. -/
def drawn (trace : Trace State Call Value) : List State :=
  trace.filterMap fun entry =>
    match entry.2 with
    | .drew (.value _) after => some after
    | _ => none

def ended (trace : Trace State Call Value) : Bool := trace.any fun entry => entry.2.ends

def failed (trace : Trace State Call Value) : Bool := trace.any fun entry => entry.2.fails

/-- The wrapped iterator after its last call. -/
def last (state : State) (trace : Trace State Call Value) : State :=
  trace.foldl (fun before entry =>
    match entry.2 with
    | .drew _ after => after
    | _ => before) state

/-- The wrapped iterator after the last batch it handed out. -/
def source (state : State) (trace : Trace State Call Value) : State :=
  (drawn trace).getLastD state

variable (wrapped : Wrapped State Call Value Position)

/-- The checkpoints of the wrapped iterator before its first batch and after each one. -/
def positions (state : State) (trace : Trace State Call Value) : List Position :=
  wrapped.position state :: (drawn trace).map wrapped.position

/-! ### What a longer trace has delivered -/

section

variable (trace : Trace State Call Value)

include trace

section

variable (label : Label State Call Value)

include label

end

end

variable {trace : Trace State Call Value} {event : Event State Value}

/-- What the consumer has taken and not yet received: it counts as received in `next`. -/
inductive Hands (positions : List Position) (count : Nat) :
    Consumer (Item Value Position) → Nat → Prop where
  | outside : Hands positions count .outside count
  | getting : Hands positions count .getting count
  | acknowledged {value : Value} {position : Position}
      (upcoming : positions[count + 1]? = some position) :
      Hands positions count (.acknowledged (.staged value position)) (count + 1)

/-- All batches drawn were received or are in the consumer's hands, and the wrapped iterator stands
behind the last of them. -/
structure Even (positions : List Position) (total next : Nat) (now : Position) : Prop where
  same : total = next
  newest : positions[total]? = some now

/-- An item on its way when `count` batches were taken before it and `total` were drawn; `now` is
the checkpoint of the wrapped iterator. -/
def Fits (positions : List Position) (count total : Nat) (now : Position) :
    Item Value Position → Prop
  | .staged _ position =>
      positions[count + 1]? = some position ∧ total = count + 1 ∧ position = now
  | .finished => total = count
  | .raised => total = count ∨ total = count + 1 ∧ positions[count + 1]? = some now

/-- Where the batches drawn and not received are. -/
inductive Flow (positions : List Position) (count total : Nat) :
    PinnedDeliveryIterator State Call Value Position → Prop where
  | absent {iterator : State} {acknowledged : Bool} {position : Position}
      (even : Even positions total count (wrapped.position iterator)) :
      Flow positions count total ⟨iterator, none, acknowledged, .absent, .outside, false, position⟩
  | drawing {iterator : State} {acknowledged : Bool} {position : Position}
      {consumer : Consumer (Item Value Position)} {next : Nat}
      (hands : Hands positions count consumer next)
      (even : Even positions total next (wrapped.position iterator)) :
      Flow positions count total ⟨iterator, none, acknowledged, .drawing, consumer, false, position⟩
  | calling {iterator : State} {acknowledged : Bool} {position : Position}
      {consumer : Consumer (Item Value Position)} {next : Nat} {call : Call}
      (hands : Hands positions count consumer next)
      (even : Even positions total next (wrapped.position iterator))
      (reached : Relation.ReflTransGen wrapped.moves (wrapped.enter iterator) call) :
      Flow positions count total
        ⟨iterator, none, acknowledged, .calling call, consumer, false, position⟩
  | drawn {iterator : State} {acknowledged : Bool} {position : Position}
      {consumer : Consumer (Item Value Position)} {next : Nat} {item : Item Value Position}
      (hands : Hands positions count consumer next)
      (fits : Fits positions next total (wrapped.position iterator) item) :
      Flow positions count total
        ⟨iterator, none, acknowledged, .drawn item, consumer, false, position⟩
  | cleared {iterator : State} {position : Position}
      {consumer : Consumer (Item Value Position)} {next : Nat} {item : Item Value Position}
      (hands : Hands positions count consumer next)
      (fits : Fits positions next total (wrapped.position iterator) item) :
      Flow positions count total ⟨iterator, none, false, .cleared item, consumer, false, position⟩
  | offered {iterator : State} {position : Position}
      {consumer : Consumer (Item Value Position)} {next : Nat} {item : Item Value Position}
      (hands : Hands positions count consumer next)
      (fits : Fits positions next total (wrapped.position iterator) item) :
      Flow positions count total
        ⟨iterator, some item, false, .waiting item, consumer, false, position⟩
  | taken {iterator : State} {position : Position} {item : Item Value Position}
      (fits : Fits positions count total (wrapped.position iterator) item) :
      Flow positions count total ⟨iterator, none, false, .waiting item, .got item, false, position⟩
  | released {iterator : State} {position staged : Position} {value : Value}
      {consumer : Consumer (Item Value Position)} {next : Nat}
      (hands : Hands positions count consumer next)
      (even : Even positions total next (wrapped.position iterator)) :
      Flow positions count total
        ⟨iterator, none, true, .waiting (.staged value staged), consumer, false, position⟩
  | closing {iterator : State} {position : Position} {item : Item Value Position}
      {staging : Staging Call (Item Value Position)}
      (fits : Fits positions count total (wrapped.position iterator) item)
      (closes :
        (PinnedDeliveryIterator.afterWait item : Staging Call (Item Value Position)) = .ended)
      (joins : staging = .waiting item ∨ staging = .ended) :
      Flow positions count total
        ⟨iterator, none, true, staging, .acknowledged item, false, position⟩
  | complete {iterator : State} {acknowledged : Bool} {position : Position} :
      Flow positions count total ⟨iterator, none, acknowledged, .ended, .outside, true, position⟩

/-- The invariant of a run: the consumer's fields are the checkpoint of its last batch, and at most
one batch is on its way behind what the consumer holds. -/
structure Consistent (state : State) (trace : Trace State Call Value)
    (iterator : PinnedDeliveryIterator State Call Value Position) : Prop where
  flow : Flow wrapped (positions wrapped state trace) (received trace) (drawn trace).length iterator
  current : (positions wrapped state trace)[received trace]? = some iterator.position
  apart : wrapped.iterable = true → ∀ (index : Nat) (before after : Position),
    (positions wrapped state trace)[index]? = some before →
    (positions wrapped state trace)[index + 1]? = some after → after ≠ before
  recent : iterator.iterator = last state trace
  closed : iterator.complete = (ended trace || failed trace)

variable {wrapped}

variable {state : State} {before after : PinnedDeliveryIterator State Call Value Position}
  {label : Label State Call Value}

theorem getElem_append_of_eq_some {Item : Type} {before after : List Item} {index : Nat}
    {item : Item} (found : before[index]? = some item) : (before ++ after)[index]? = some item := by
  rw [List.getElem?_append_left (List.getElem?_eq_some_iff.mp found).1]
  exact found

theorem Hands.append {before after : List Position} {count next : Nat}
    {consumer : Consumer (Item Value Position)} (hands : Hands before count consumer next) :
    Hands (before ++ after) count consumer next := by
  cases hands with
  | outside => exact .outside
  | getting => exact .getting
  | acknowledged upcoming => exact .acknowledged (getElem_append_of_eq_some upcoming)

variable {before : PinnedDeliveryIterator State Call Value Position}

section

variable (consistent : Consistent wrapped state trace before)

include consistent

end

variable (wrapped)

/-- The checkpoint from which the batch after the last received one is resumed, or the next
iteration once this one has ended. -/
def expected (state : State) (trace : Trace State Call Value) : Option Position :=
  if ended trace ∧ ¬failed trace then some (wrapped.between (last state trace))
  else (positions wrapped state trace)[received trace]?

end

/-! ### A map-style iterator -/

/-- A map-style iterator whose checkpoint is the number of its batches. -/
def counting : Wrapped Nat Nat Nat Nat where
  iterable := false
  enter := id
  moves _ _ := False
  returns call pull after := pull = .value call ∧ after = call + 1
  position := id
  inside := id
  between _ := 0
  advances := nofun

open Iterable

section

variable {Object Value Stream : Type} {loader : IterableLoader Object Value Stream}

/-- The state of an iterable iterator whose lanes all stand where they should. -/
abbrev Serving (loader : IterableLoader Object Value Stream) :=
  { runtime : Runtime Object loader.laneCount // Sound loader runtime runtime.lanes }

def Serving.next (contract : StateContract loader.source) (serving : Serving loader) :
    Serving loader :=
  ⟨(serving.1.next loader).2, (serve_spec contract serving.1.lanes serving.2).2⟩

/-- The batches behind a checkpoint of these lanes. -/
def behind (loader : IterableLoader Object Value Stream) (lanes : List (Fin loader.laneCount))
    (runtime : Runtime Object loader.laneCount) : List (Fin loader.laneCount × Nat) :=
  standing loader lanes fun identity => (runtime.held identity).deliveredArrival

section

variable (contract : StateContract loader.source)

include contract

/-- Lanes with the same batches behind them hand out the same batch, and so on to the end. -/
theorem behind_next {one two : Serving loader}
    (same : behind loader one.1.lanes one.1 = behind loader two.1.lanes two.1) :
    (one.1.next loader).1 = (two.1.next loader).1 ∧
      behind loader (one.next contract).1.lanes (one.next contract).1 =
        behind loader (two.next contract).1.lanes (two.next contract).1 := by
  have hands : ∀ serving : Serving loader,
      ((serving.1.next loader).1,
        behind loader (serving.next contract).1.lanes (serving.next contract).1) =
      hand loader (behind loader serving.1.lanes serving.1) := by
    intro serving
    have serves := (serve_spec contract serving.1.lanes serving.2).1
    have round := @serveDelivered_standing _ _ _ loader serving.1.lanes
      (fun identity => (serving.1.held identity).deliveredArrival) serving.2.distinct
    rw [← serves] at round
    exact round
  have both := (hands one).trans ((congrArg (hand loader) same).trans (hands two).symm)
  exact Prod.mk.inj both

/-- What a call of `__next__` may come to. -/
def Returns (call : Calling loader) (pull : Pull (Handed Value)) (after : Serving loader) : Prop :=
  match pull with
  | .value batch => call.finishes = some (some batch, after.1)
  | .stop => call.finishes = some (none, after.1)
  | .raised => call.fails after.1

/-- A call in which nothing raises comes to what `next` computes. -/
theorem returns_next (serving : Serving loader) :
    ∃ call, Goes loader (.looking serving.1.lanes serving.1) call ∧
      Returns call
        (match (serving.1.next loader).1 with
          | some batch => .value batch
          | none => .stop)
        (serving.next contract) := by
  obtain ⟨call, path, finishes⟩ := completes serving.1.lanes serving.1
  have outcome : call.finishes = some ((serving.1.next loader).1, (serving.next contract).1) :=
    finishes
  refine ⟨call, path, ?_⟩
  cases served : (serving.1.next loader).1 with
  | none | some batch => exact outcome.trans (by rw [served])

/-- Every exception of the source or of the collation is one of the iterator's. -/
theorem returns_raised (serving : Serving loader) {call : Calling loader}
    {after : Runtime Object loader.laneCount}
    (path : Goes loader (.looking serving.1.lanes serving.1) call) (fails : call.fails after) :
    ∃ left : Serving loader, left.1 = after ∧ Returns call .raised left := by
  have sound : (Calling.looking serving.1.lanes serving.1 : Calling loader).Sound := serving.2
  exact ⟨⟨after, (sound_reached contract sound path).fails fails⟩, rfl, fails⟩

end

end

/-! ### A batch counted before it is received -/

end Hyperloader.Memory
