/-
Module: Hyperloader.Transport.Commands
Purpose: The command transport of exec/transport/mod.rs, two queues of frames that carry dispatch
  and completion messages, under every interleaving of its sends and receives: what is received
  was sent, whole, once and in order.
Trusted boundary: none
Main exports:
  CommandTransport, TransportCall, TransportEvent, CommandTransport.machine, Reply, Conveys,
  CommandTransport.conveys
-/
import Hyperloader.Foundations.TicketReceipt
import Hyperloader.Transport.Ring

namespace Hyperloader.Transport

open Foundations

/-! ### The transport -/

/-- The two queues of one region. -/
structure CommandTransport (Party : Type*) where
  dispatch : Ring Party
  completion : Ring Party

/-- A party calls, or takes its next step in the call it is in. -/
inductive TransportCall where
  | sendDispatch (message : DispatchMessage)
  | recvDispatch
  | sendCompletion (message : CompletionMessage)
  | recvCompletion
  | step
  | spurious

/-- A message is refused before anything is shared; other steps are accesses to a queue. -/
inductive TransportEvent where
  | refused (error : TransportError)
  | dispatch (event : TicketEvent CommandFrame)
  | completion (event : TicketEvent CommandFrame)

/-- What a call on one queue returns. -/
inductive Reply (Message : Type) where
  | sent
  | full
  | received (message : Message)
  | invalidMessage (field : String)
  | empty

/-- The return of a call, at the step that ends it. -/
def reply {Message : Type} (decode : CommandFrame → Except String Message) :
    TicketEvent CommandFrame → Option (Reply Message)
  | .pushed => some .sent
  | .full => some .full
  | .popped frame =>
      match decode frame with
      | .ok message => some (.received message)
      | .error field => some (.invalidMessage field)
  | .empty => some .empty
  | _ => none

namespace CommandTransport

variable {Party : Type*} [DecidableEq Party]

def create (Party : Type*) : CommandTransport Party :=
  ⟨initializeQueue Party, initializeQueue Party⟩

/-- A party outside of every call. -/
def Idle (transport : CommandTransport Party) (party : Party) : Prop :=
  transport.dispatch.phase party = .idle ∧ transport.completion.phase party = .idle

instance (transport : CommandTransport Party) (party : Party) : Decidable (transport.Idle party) :=
  inferInstanceAs (Decidable (_ ∧ _))

variable (dispatchCapacity completionCapacity : Nat)

def dispatchStep (transport : CommandTransport Party)
    (label : Party × TicketAction CommandFrame) :
    Option (TransportEvent × CommandTransport Party) :=
  ((QueueView.new dispatchCapacity).machine.step transport.dispatch label).map
    fun (event, dispatch) => (.dispatch event, { transport with dispatch })

def completionStep (transport : CommandTransport Party)
    (label : Party × TicketAction CommandFrame) :
    Option (TransportEvent × CommandTransport Party) :=
  ((QueueView.new completionCapacity).machine.step transport.completion label).map
    fun (event, completion) => (.completion event, { transport with completion })

/-- One step of a party: a call begins outside of every other, and goes on in the queue it is
on. -/
def step (transport : CommandTransport Party) :
    Party × TransportCall → Option (TransportEvent × CommandTransport Party)
  | (party, .sendDispatch message) =>
      if transport.Idle party then
        match encodeDispatch message with
        | .error error => some (.refused error, transport)
        | .ok frame => transport.dispatchStep dispatchCapacity (party, .push frame)
      else none
  | (party, .recvDispatch) =>
      if transport.Idle party then transport.dispatchStep dispatchCapacity (party, .pop) else none
  | (party, .sendCompletion message) =>
      if transport.Idle party then
        match encodeCompletion message with
        | .error error => some (.refused error, transport)
        | .ok frame => transport.completionStep completionCapacity (party, .push frame)
      else none
  | (party, .recvCompletion) =>
      if transport.Idle party then transport.completionStep completionCapacity (party, .pop)
      else none
  | (party, .step) =>
      if transport.dispatch.phase party = .idle then
        transport.completionStep completionCapacity (party, .step)
      else transport.dispatchStep dispatchCapacity (party, .step)
  | (party, .spurious) =>
      if transport.dispatch.phase party = .idle then
        transport.completionStep completionCapacity (party, .spurious)
      else transport.dispatchStep dispatchCapacity (party, .spurious)

def machine : Machine (CommandTransport Party) (Party × TransportCall) TransportEvent where
  step := step dispatchCapacity completionCapacity

end CommandTransport

/-! ### One queue of messages -/

section Messages

variable {Message : Type} (decode : CommandFrame → Except String Message)

/-- The message a call returns. -/
def Reply.message : Reply Message → Option Message
  | .received message => some message
  | _ => none

/-- The messages received in a trace, in the order the receives returned. -/
def received {Party : Type*}
    (trace : List ((Party × TicketAction CommandFrame) × TicketEvent CommandFrame)) :
    List Message :=
  trace.filterMap fun entry => (reply decode entry.2).bind Reply.message

/-- The messages one party received. -/
def receivedBy {Party : Type*} [DecidableEq Party] (party : Party)
    (trace : List ((Party × TicketAction CommandFrame) × TicketEvent CommandFrame)) :
    List Message :=
  received decode (trace.filter fun entry => entry.1.1 = party)

/-- What a queue does for the messages it was given a place for, in the order they were: no
receive fails to decode; every receive returns one of them and none returns one twice; each party
receives them in their order, and a party that alone receives misses none; a party outside of a
call was given places for just the frames of its sends that returned, in their order; and a queue
that everyone has left empty has delivered them all. -/
structure Conveys {Party : Type*} [DecidableEq Party]
    (encode : Message → Except TransportError CommandFrame)
    (trace : List ((Party × TicketAction CommandFrame) × TicketEvent CommandFrame))
    (final : Ring Party) (messages : List Message) : Prop where
  placed : messages.map encode = (trace.filterMap (·.2.offered)).map .ok
  valid : ∀ entry ∈ trace, ∀ field, reply decode entry.2 ≠ some (.invalidMessage field)
  once : ∃ tickets : List Nat, tickets.Nodup ∧
    tickets.map (messages[·]?) = (received decode trace).map some
  ordered : ∀ party, ∃ tickets : List Nat, tickets.Pairwise (· < ·) ∧
    tickets.map (messages[·]?) = (receivedBy decode party trace).map some
  alone : ∀ receiver, (∀ entry ∈ trace, entry.1.2 = .pop → entry.1.1 = receiver) →
    received decode trace <+: messages
  settled : ∀ party, final.phase party = .idle →
    Ledger.claimedBy party trace = Ledger.sentBy party trace
  drained : (∀ party, final.phase party = .idle) → final.enqueue = final.dequeue →
    (received decode trace).Perm messages

variable {decode}

variable {Frame : Type*} {read : Frame → Option Message}

/-- Where everything reads, what was read is what there is. -/
theorem filterMap_map_some {frames : List Frame} (reads : ∀ frame ∈ frames, (read frame).isSome) :
    (frames.filterMap read).map some = frames.map read := by
  induction frames with
  | nil => rfl
  | cons frame frames ih =>
      obtain ⟨here, later⟩ := List.forall_mem_cons.mp reads
      obtain ⟨message, found⟩ := Option.isSome_iff_exists.mp here
      rw [List.filterMap_cons_some found, List.map_cons, List.map_cons, ih later,
        found]

theorem getElem_filterMap {frames : List Frame} (reads : ∀ frame ∈ frames, (read frame).isSome)
    (ticket : Nat) : (frames.filterMap read)[ticket]? = frames[ticket]?.bind read := by
  have same := congrArg (·[ticket]?) (filterMap_map_some reads)
  rw [List.getElem?_map, List.getElem?_map] at same
  generalize (frames.filterMap read)[ticket]? = found at same ⊢
  generalize frames[ticket]? = there at same ⊢
  cases there with
  | none => exact Option.map_eq_none_iff.mp same
  | some frame =>
      cases found with
      | none => cases same
      | some message => exact Option.some.inj same

/-- The messages of the tickets of some frames. -/
theorem map_filterMap_of_tickets {frames given : List Frame} {tickets : List Nat}
    (reads : ∀ frame ∈ frames, (read frame).isSome)
    (same : tickets.map (frames[·]?) = given.map some) :
    tickets.map ((frames.filterMap read)[·]?) = (given.filterMap read).map some := by
  have among : ∀ frame ∈ given, (read frame).isSome := by
    intro frame member
    have shown : some frame ∈ tickets.map (frames[·]?) :=
      same ▸ List.mem_map_of_mem member
    obtain ⟨ticket, -, found⟩ := List.mem_map.mp shown
    exact reads frame (List.mem_of_getElem? found)
  rw [filterMap_map_some among]
  have read := congrArg (List.map (Option.bind · read)) same
  rw [List.map_map, List.map_map] at read
  refine Eq.trans (List.map_congr_left fun ticket _ => ?_) read
  exact getElem_filterMap reads ticket

/-- What is received of a trace is read of the frames it gives. -/
theorem received_eq {Party : Type*}
    (trace : List ((Party × TicketAction CommandFrame) × TicketEvent CommandFrame)) :
    received decode trace =
      (trace.filterMap (·.2.given)).filterMap fun frame => (decode frame).toOption := by
  rw [received, List.filterMap_filterMap]
  refine congrArg (trace.filterMap ·) (funext fun entry => ?_)
  obtain ⟨label, event⟩ := entry
  cases event with
  | popped frame =>
      show (match decode frame with
        | .ok message => some (Reply.received message)
        | .error field => some (.invalidMessage field)).bind Reply.message = (decode frame).toOption
      cases decode frame <;> rfl
  | _ => rfl

/-- Every run of a ring on which only encoded messages are pushed conveys them. -/
theorem ring_conveys {Party : Type*} [DecidableEq Party]
    {encode : Message → Except TransportError CommandFrame}
    (exact : ∀ message frame, encode message = .ok frame → decode frame = .ok message)
    {capacity : Nat} (accepted : validateCapacity capacity = .ok ())
    {labels : List (Party × TicketAction CommandFrame)} {final : Ring Party}
    {trace : List ((Party × TicketAction CommandFrame) × TicketEvent CommandFrame)}
    (ran : (QueueView.new capacity).machine.run (initializeQueue Party) labels =
      some (trace, final)) (pushed : ∀ entry ∈ trace, ∀ frame, entry.1.2 = .push frame →
      ∃ message, encode message = .ok frame) (paced : TicketQueue.Paced (2 ^ 63) trace) :
    ∃ messages, Conveys decode encode trace final messages := by
  have wide := (validateCapacity_ok_iff.mp accepted).1
  rw [initializeQueue_eq accepted] at ran
  obtain ⟨ledger, queue, entered, sound, -, rfl⟩ := TicketQueue.mirrored wide ran paced
  have encodes := (Ledger.claimed_of_pushed entered pushed).1
  have read : ∀ message frame, encode message = .ok frame →
      (decode frame).toOption = some message := fun message frame encoded => by
    rw [exact message frame encoded]
    rfl
  have reads : ∀ frame ∈ ledger.claimed, ((decode frame).toOption).isSome := by
    intro frame member
    obtain ⟨message, encoded⟩ := encodes frame member
    rw [read message frame encoded]
    rfl
  obtain ⟨offered, -⟩ := Ledger.run_frames entered
  have claimed : ledger.claimed = trace.filterMap (·.2.offered) := offered
  obtain ⟨handed, receipts⟩ := Ledger.receipts entered
  have idle : ∀ party, (queue.map (QueueView.wrapping accepted).wrap).phase party = .idle →
      ledger.standing party = .idle := by
    intro party same
    have same : (queue.phase party).map (QueueView.wrapping accepted).wrap = .idle := same
    rw [sound.stands]
    cases stands : queue.phase party <;> rw [stands] at same <;> first | rfl | cases same
  refine ⟨ledger.claimed.filterMap fun frame => (decode frame).toOption, ?_⟩
  constructor
  case placed =>
    rw [← claimed]
    have whole : ∀ frames : List CommandFrame,
        (∀ frame ∈ frames, ∃ message, encode message = .ok frame) →
          (frames.filterMap fun frame => (decode frame).toOption).map encode =
            frames.map .ok := by
      intro frames all
      induction frames with
      | nil => rfl
      | cons frame frames ih =>
          obtain ⟨⟨message, encoded⟩, later⟩ := List.forall_mem_cons.mp all
          rw [List.filterMap_cons, read message frame encoded, List.map_cons, List.map_cons,
            encoded, ih later]
    exact whole ledger.claimed encodes
  case valid =>
    rintro ⟨label, event⟩ member field invalid
    cases event with
    | popped frame =>
        have given : frame ∈ trace.filterMap (·.2.given) :=
          List.mem_filterMap.mpr ⟨_, member, rfl⟩
        have shown := List.mem_map_of_mem (f := some) given
        rw [← Ledger.given_of_popped entered] at shown
        obtain ⟨ticket, -, found⟩ := List.mem_map.mp shown
        obtain ⟨message, encoded⟩ := encodes frame (List.mem_of_getElem? found)
        have decoded := exact message frame encoded
        rw [reply, decoded] at invalid
        cases invalid
    | _ => cases invalid
  case once =>
    refine ⟨ledger.popped, (Ledger.accounted Ledger.accounted_empty entered).once, ?_⟩
    rw [received_eq]
    exact map_filterMap_of_tickets reads (Ledger.given_of_popped entered)
  case ordered =>
    refine fun party => ⟨handed party, receipts.increasing party, ?_⟩
    rw [receivedBy, received_eq]
    exact map_filterMap_of_tickets reads (receipts.frames party)
  case alone =>
    intro receiver only
    rw [received_eq]
    exact (Ledger.given_prefix entered only).filterMap _
  case settled =>
    exact fun party here => Ledger.settled entered (idle party here)
  case drained =>
    intro everyone same
    have bounded := sound.bounded
    have ordered := sound.ordered
    have equal : queue.enqueue = queue.dequeue :=
      (QueueView.wrapping accepted).apart _ _ (by omega) (by omega) same
    rw [received_eq]
    refine List.Perm.filterMap _ (Ledger.given_perm entered ?_ ?_)
    · intro party held
      rw [idle party (everyone party)]
      nofun
    · exact sound.dequeued.symm.trans (equal.symm.trans sound.enqueued)

end Messages

/-! ### Both queues -/

namespace CommandTransport

variable {Party : Type*}

/-- The access to the dispatch queue that a step of the transport is. -/
def dispatchAccess : (Party × TransportCall) × TransportEvent →
    Option ((Party × TicketAction CommandFrame) × TicketEvent CommandFrame)
  | ((party, .sendDispatch message), .dispatch event) =>
      (encodeDispatch message).toOption.map fun frame => ((party, .push frame), event)
  | ((party, .recvDispatch), .dispatch event) => some ((party, .pop), event)
  | ((party, .step), .dispatch event) => some ((party, .step), event)
  | ((party, .spurious), .dispatch event) => some ((party, .spurious), event)
  | _ => none

/-- The access to the completion queue that a step of the transport is. -/
def completionAccess : (Party × TransportCall) × TransportEvent →
    Option ((Party × TicketAction CommandFrame) × TicketEvent CommandFrame)
  | ((party, .sendCompletion message), .completion event) =>
      (encodeCompletion message).toOption.map fun frame => ((party, .push frame), event)
  | ((party, .recvCompletion), .completion event) => some ((party, .pop), event)
  | ((party, .step), .completion event) => some ((party, .step), event)
  | ((party, .spurious), .completion event) => some ((party, .spurious), event)
  | _ => none

variable {entry : (Party × TransportCall) × TransportEvent}
  {access : (Party × TicketAction CommandFrame) × TicketEvent CommandFrame}

/-- What enters the dispatch ring is an encoded message. -/
theorem pushed_dispatchAccess (shown : dispatchAccess entry = some access) {frame : CommandFrame}
    (pushes : access.1.2 = .push frame) : ∃ message, encodeDispatch message = .ok frame := by
  unfold dispatchAccess at shown
  split at shown
  · rename_i message event
    cases encoded : encodeDispatch message with
    | error failure => rw [encoded] at shown; cases shown
    | ok held =>
        rw [encoded] at shown
        cases shown
        cases pushes
        exact ⟨message, encoded⟩
  all_goals cases shown <;> cases pushes

theorem pushed_completionAccess (shown : completionAccess entry = some access)
    {frame : CommandFrame} (pushes : access.1.2 = .push frame) :
    ∃ message, encodeCompletion message = .ok frame := by
  unfold completionAccess at shown
  split at shown
  · rename_i message event
    cases encoded : encodeCompletion message with
    | error failure => rw [encoded] at shown; cases shown
    | ok held =>
        rw [encoded] at shown
        cases shown
        cases pushes
        exact ⟨message, encoded⟩
  all_goals cases shown <;> cases pushes

section

variable (label : Party × TransportCall)

include label

theorem dispatchAccess_of_refused (error : TransportError) :
    dispatchAccess (label, .refused error) = none := by
  obtain ⟨party, call⟩ := label
  cases call <;> rfl

theorem completionAccess_of_refused (error : TransportError) :
    completionAccess (label, .refused error) = none := by
  obtain ⟨party, call⟩ := label
  cases call <;> rfl

theorem dispatchAccess_of_completion (access : TicketEvent CommandFrame) :
    dispatchAccess (label, .completion access) = none := by
  obtain ⟨party, call⟩ := label
  cases call <;> rfl

theorem completionAccess_of_dispatch (access : TicketEvent CommandFrame) :
    completionAccess (label, .dispatch access) = none := by
  obtain ⟨party, call⟩ := label
  cases call <;> rfl

end

variable [DecidableEq Party] {dispatchCapacity completionCapacity : Nat}
  {transport next : CommandTransport Party} {event : TransportEvent}

variable {label : Party × TicketAction CommandFrame}

/-- A step of the dispatch ring is a step of its queue. -/
theorem dispatchStep_eq_some :
    transport.dispatchStep dispatchCapacity label = some (event, next) ↔
      ∃ access dispatch, (QueueView.new dispatchCapacity).machine.step transport.dispatch label =
        some (access, dispatch) ∧ event = .dispatch access ∧
          next = { transport with dispatch } := by
  rw [dispatchStep, Option.map_eq_some_iff]
  constructor
  · rintro ⟨⟨access, dispatch⟩, taken, same⟩
    cases same
    exact ⟨access, dispatch, taken, rfl, rfl⟩
  · rintro ⟨access, dispatch, taken, rfl, rfl⟩
    exact ⟨(access, dispatch), taken, rfl⟩

theorem completionStep_eq_some :
    transport.completionStep completionCapacity label = some (event, next) ↔
      ∃ access completion, (QueueView.new completionCapacity).machine.step transport.completion
        label = some (access, completion) ∧ event = .completion access ∧
          next = { transport with completion } := by
  rw [completionStep, Option.map_eq_some_iff]
  constructor
  · rintro ⟨⟨access, completion⟩, taken, same⟩
    cases same
    exact ⟨access, completion, taken, rfl, rfl⟩
  · rintro ⟨access, completion, taken, rfl, rfl⟩
    exact ⟨(access, completion), taken, rfl⟩

/-- What a step does: it refuses a message, or is an access to one of the queues. -/
theorem step_cases {label : Party × TransportCall}
    (stepEq : transport.step dispatchCapacity completionCapacity label = some (event, next)) :
    (∃ error, event = .refused error ∧ next = transport) ∨
      (∃ access dispatch entry, (QueueView.new dispatchCapacity).machine.step transport.dispatch
          entry = some (access, dispatch) ∧ event = .dispatch access ∧
            next = { transport with dispatch } ∧
              dispatchAccess (label, event) = some (entry, access)) ∨
        ∃ access completion entry, (QueueView.new completionCapacity).machine.step
          transport.completion entry = some (access, completion) ∧ event = .completion access ∧
            next = { transport with completion } ∧
              completionAccess (label, event) = some (entry, access) := by
  obtain ⟨party, call⟩ := label
  cases call with
  | sendDispatch message =>
      obtain ⟨-, stepEq⟩ := Option.ite_none_right_eq_some.mp stepEq
      cases encoded : encodeDispatch message with
      | error error =>
          rw [encoded] at stepEq
          cases stepEq
          exact .inl ⟨error, rfl, rfl⟩
      | ok frame =>
          rw [encoded] at stepEq
          obtain ⟨access, dispatch, taken, rfl, rfl⟩ := dispatchStep_eq_some.mp stepEq
          refine .inr (.inl ⟨access, dispatch, _, taken, rfl, rfl, ?_⟩)
          rw [dispatchAccess, encoded]
          rfl
  | recvDispatch =>
      obtain ⟨-, stepEq⟩ := Option.ite_none_right_eq_some.mp stepEq
      obtain ⟨access, dispatch, taken, rfl, rfl⟩ := dispatchStep_eq_some.mp stepEq
      exact .inr (.inl ⟨access, dispatch, _, taken, rfl, rfl, rfl⟩)
  | sendCompletion message =>
      obtain ⟨-, stepEq⟩ := Option.ite_none_right_eq_some.mp stepEq
      cases encoded : encodeCompletion message with
      | error error =>
          rw [encoded] at stepEq
          cases stepEq
          exact .inl ⟨error, rfl, rfl⟩
      | ok frame =>
          rw [encoded] at stepEq
          obtain ⟨access, completion, taken, rfl, rfl⟩ := completionStep_eq_some.mp stepEq
          refine .inr (.inr ⟨access, completion, _, taken, rfl, rfl, ?_⟩)
          rw [completionAccess, encoded]
          rfl
  | recvCompletion =>
      obtain ⟨-, stepEq⟩ := Option.ite_none_right_eq_some.mp stepEq
      obtain ⟨access, completion, taken, rfl, rfl⟩ := completionStep_eq_some.mp stepEq
      exact .inr (.inr ⟨access, completion, _, taken, rfl, rfl, rfl⟩)
  | step =>
      dsimp only [step] at stepEq
      split at stepEq
      · obtain ⟨access, completion, taken, rfl, rfl⟩ := completionStep_eq_some.mp stepEq
        exact .inr (.inr ⟨access, completion, _, taken, rfl, rfl, rfl⟩)
      · obtain ⟨access, dispatch, taken, rfl, rfl⟩ := dispatchStep_eq_some.mp stepEq
        exact .inr (.inl ⟨access, dispatch, _, taken, rfl, rfl, rfl⟩)
  | spurious =>
      dsimp only [step] at stepEq
      split at stepEq
      · obtain ⟨access, completion, taken, rfl, rfl⟩ := completionStep_eq_some.mp stepEq
        exact .inr (.inr ⟨access, completion, _, taken, rfl, rfl, rfl⟩)
      · obtain ⟨access, dispatch, taken, rfl, rfl⟩ := dispatchStep_eq_some.mp stepEq
        exact .inr (.inl ⟨access, dispatch, _, taken, rfl, rfl, rfl⟩)

variable {labels : List (Party × TransportCall)} {final : CommandTransport Party}
  {trace : List ((Party × TransportCall) × TransportEvent)}

/-- The dispatch queue's part of a run. -/
theorem run_dispatch (ran : (machine dispatchCapacity completionCapacity).run transport labels =
      some (trace, final)) :
    (QueueView.new dispatchCapacity).machine.run transport.dispatch
      ((trace.filterMap dispatchAccess).map Prod.fst) =
        some (trace.filterMap dispatchAccess, final.dispatch) := by
  refine @Machine.run_project _ _ _ (machine dispatchCapacity completionCapacity) _ _ _ _
    CommandTransport.dispatch dispatchAccess (fun transport label event next stepEq => ?_) _ _ _ _
    ran
  rcases step_cases stepEq with ⟨error, rfl, rfl⟩ | ⟨access, dispatch, entry, taken, rfl, rfl,
    shown⟩ | ⟨access, completion, entry, taken, rfl, rfl, shown⟩
  · exact .inl ⟨dispatchAccess_of_refused label error, rfl⟩
  · exact .inr ⟨(entry, access), shown, taken⟩
  · exact .inl ⟨dispatchAccess_of_completion label access, rfl⟩

/-- The completion queue's part of a run. -/
theorem run_completion (ran : (machine dispatchCapacity completionCapacity).run transport labels =
      some (trace, final)) :
    (QueueView.new completionCapacity).machine.run transport.completion
      ((trace.filterMap completionAccess).map Prod.fst) =
        some (trace.filterMap completionAccess, final.completion) := by
  refine @Machine.run_project _ _ _ (machine dispatchCapacity completionCapacity) _ _ _ _
    CommandTransport.completion completionAccess (fun transport label event next stepEq => ?_)
    _ _ _ _ ran
  rcases step_cases stepEq with ⟨error, rfl, rfl⟩ | ⟨access, dispatch, entry, taken, rfl, rfl,
    shown⟩ | ⟨access, completion, entry, taken, rfl, rfl, shown⟩
  · exact .inl ⟨completionAccess_of_refused label error, rfl⟩
  · exact .inl ⟨completionAccess_of_dispatch label access, rfl⟩
  · exact .inr ⟨(entry, access), shown, taken⟩

/-- However the parties of a transport interleave, its queues convey the dispatch messages and the
completion messages they were given a place for, as long as fewer than 2^63 positions of a queue
are claimed during any call. -/
theorem conveys (dispatchAccepted : validateCapacity dispatchCapacity = .ok ())
    (completionAccepted : validateCapacity completionCapacity = .ok ())
    {labels : List (Party × TransportCall)} {final : CommandTransport Party}
    {trace : List ((Party × TransportCall) × TransportEvent)}
    (ran : (machine dispatchCapacity completionCapacity).run (create Party) labels =
      some (trace, final))
    (dispatchPaced : TicketQueue.Paced (2 ^ 63) (trace.filterMap dispatchAccess))
    (completionPaced : TicketQueue.Paced (2 ^ 63) (trace.filterMap completionAccess)) :
    (∃ messages, Conveys decodeDispatch encodeDispatch (trace.filterMap dispatchAccess)
      final.dispatch messages) ∧
    ∃ messages, Conveys decodeCompletion encodeCompletion (trace.filterMap completionAccess)
      final.completion messages := by
  have dispatchExact : ∀ message frame, encodeDispatch message = .ok frame →
      decodeDispatch frame = .ok message := fun message frame encoded =>
    (decodeDispatch_ok_iff message frame).mpr ((encodeDispatch_ok_iff message frame).mp encoded)
  have completionExact : ∀ message frame, encodeCompletion message = .ok frame →
      decodeCompletion frame = .ok message := fun message frame encoded =>
    (decodeCompletion_ok_iff message frame).mpr
      ((encodeCompletion_ok_iff message frame).mp encoded)
  constructor
  · refine ring_conveys dispatchExact dispatchAccepted (run_dispatch ran) ?_ dispatchPaced
    intro access member frame pushes
    obtain ⟨entry, -, shown⟩ := List.mem_filterMap.mp member
    exact pushed_dispatchAccess shown pushes
  · refine ring_conveys completionExact completionAccepted (run_completion ran) ?_ completionPaced
    intro access member frame pushes
    obtain ⟨entry, -, shown⟩ := List.mem_filterMap.mp member
    exact pushed_completionAccess shown pushes

end CommandTransport

/-- A worker takes a dispatch while its owner asks for a completion, and answers it. -/
def exchange : List (Bool × TransportCall) :=
  let slot : SlotRef := ⟨0, 64, 0, 0, 64, 1⟩
  [(true, .sendDispatch ⟨5, 0, 0, 3, 0, 1, slot, slot⟩), (true, .step), (true, .step),
    (false, .recvDispatch), (true, .step), (false, .step), (true, .step), (true, .step),
    (true, .recvCompletion), (true, .step), (false, .step), (false, .step), (false, .step),
    (false, .step), (false, .sendCompletion ⟨5, 0, 9, .ready, slot, 64, none⟩), (false, .step),
    (true, .step), (false, .step), (false, .step), (false, .step), (false, .step)]

theorem CommandTransport.conveys_exchange : ∃ trace final,
    (CommandTransport.machine 2 2).run (CommandTransport.create Bool) exchange =
      some (trace, final) ∧
    (∃ messages, Conveys decodeDispatch encodeDispatch
      (trace.filterMap CommandTransport.dispatchAccess) final.dispatch messages) ∧
    ∃ messages, Conveys decodeCompletion encodeCompletion
      (trace.filterMap CommandTransport.completionAccess) final.completion messages := by
  have ends : ((CommandTransport.machine 2 2).run (CommandTransport.create Bool)
      exchange).isSome = true := by decide +kernel
  obtain ⟨⟨trace, final⟩, ran⟩ := Option.isSome_iff_exists.mp ends
  have short : trace.length < 2 ^ 63 := by
    rw [← List.length_map, Machine.labels_run _ ran]
    decide
  have paced : ∀ narrow : (Bool × TransportCall) × TransportEvent →
      Option ((Bool × TicketAction CommandFrame) × TicketEvent CommandFrame),
        TicketQueue.Paced (2 ^ 63) (trace.filterMap narrow) := fun narrow =>
    TicketQueue.paced_of_length (Nat.lt_of_le_of_lt (List.length_filterMap_le _ _) short)
  exact ⟨trace, final, ran,
    CommandTransport.conveys (by decide) (by decide) ran (paced _) (paced _)⟩

end Hyperloader.Transport
