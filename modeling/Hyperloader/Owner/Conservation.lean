/-
Module: Hyperloader.Owner.Conservation
Purpose: The slots and the commands of a process pool's owner through every call and every way it
  can fail: which slots pending commands hold, and how each command leaves the pending table.
Trusted boundary: as in `Resources`
Main exports: Kept, Undone, trySubmit_ensures, tryReceive_ensures, restartWorker_ensures
-/
import Hyperloader.Arena.Reservations
import Hyperloader.Owner.Resources

namespace Hyperloader.Owner

open Foundations
open Arena (ArenaAllocator ArenaError Creation Writing Lent Idle Current)
open Transport (SlotRef DispatchMessage CompletionMessage CommandFrame)

/-! ### Slots of pending commands -/

/-- The slots of some commands, beside the worker that writes them. -/
def held (pending : List (CommandKey × PendingSlots)) : List (UInt32 × SlotRef) :=
  pending.flatMap fun entry => [(entry.1.1, entry.2.primary), (entry.1.1, entry.2.exception)]

/-- The slots that are written are those of the pending commands, two for each. -/
structure Kept (first : Nat) (resources : ProcessResources) : Prop where
  writing : Writing first (held resources.pending) resources.allocator
  keyed : (resources.pending.map Prod.fst).Nodup

/-- A call that has reserved some slots and changed nothing else yet. -/
structure Midway (first : Nat) (base : ProcessResources) (loose : List (UInt32 × SlotRef))
    (resources : ProcessResources) : Prop where
  writing : Writing first (loose ++ held base.pending) resources.allocator
  lent : Lent base.allocator.slabs (loose.map Prod.snd) resources.allocator.slabs
  pending : resources.pending = base.pending
  transports : resources.transports = base.transports

/-- A call that gave everything back. -/
abbrev Undone (first : Nat) (base : ProcessResources) : ProcessResources → Prop :=
  Midway first base []

/-- A call that made its command pending. -/
structure Accepted (first : Nat) (base : ProcessResources) (key : CommandKey)
    (resources : ProcessResources) : Prop where
  kept : Kept first resources
  fresh : key ∉ base.pending.map Prod.fst
  pending : ∃ slots, resources.pending = (key, slots) :: base.pending

section Steps

variable {first : Nat} {base resources : ProcessResources} {loose : List (UInt32 × SlotRef)}
  {worker : UInt32} {ref : SlotRef}

theorem Kept.midway (kept : Kept first base) : Undone first base base :=
  ⟨kept.writing, Arena.lent_refl _ _, rfl, rfl⟩

theorem Undone.kept (undone : Undone first base resources) (kept : Kept first base) :
    Kept first resources := by
  have pending := undone.pending
  refine ⟨?_, ?_⟩
  · rw [pending]
    exact undone.writing
  · rw [pending]
    exact kept.keyed

theorem Midway.swap {one two : UInt32 × SlotRef}
    (midway : Midway first base (one :: two :: loose) resources) :
    Midway first base (two :: one :: loose) resources := by
  refine ⟨midway.writing.perm (List.Perm.swap two one _), fun slab slot idle => ?_,
    midway.pending, midway.transports⟩
  rcases midway.lent slab slot idle with same | ⟨ref, member, entry, current⟩
  · exact Or.inl same
  · exact Or.inr ⟨ref, (List.Perm.swap two.2 one.2 _).mem_iff.mp member, entry, current⟩

/-- The transport of a worker that is there. -/
def HasTransport (resources : ProcessResources) (worker : UInt32) : Prop :=
  ∃ transport, resources.transports[worker.toNat]? = some (some transport)

theorem transport_ensures :
    Ensures (ProcessResources.transport worker) resources
      (fun _ after => after = resources ∧ HasTransport resources worker)
      (fun _ after => after = resources ∧ ¬HasTransport resources worker) := by
  unfold ProcessResources.transport
  apply ensures_get
  split
  · rename_i transport found
    exact ensures_pure ⟨rfl, transport, found⟩
  · rename_i missing
    apply ensures_throw
    refine ⟨rfl, ?_⟩
    rintro ⟨transport, found⟩
    exact missing transport found

theorem reserve_ensures (midway : Midway first base loose resources) (create : Creation)
    (required : Nat) (worker : UInt32) :
    Ensures (ProcessResources.reserve create required worker) resources
      (fun ref after => Midway first base ((worker, ref) :: loose) after)
      (fun _ after => Midway first base loose after) := by
  have cases := midway.writing.reserve create required worker
  unfold ProcessResources.reserve
  apply ensures_get
  generalize resources.allocator.reserve create required worker = answer at cases
  obtain ⟨reserved, allocator⟩ := answer
  rcases cases with ⟨⟨error, rfl⟩, same⟩ | ⟨ref, rfl, writing, lent⟩
  · have slabs : allocator.slabs = resources.allocator.slabs := congrArg Arena.Core.slabs same
    have lent : Lent base.allocator.slabs (loose.map Prod.snd) allocator.slabs :=
      slabs ▸ midway.lent
    apply ensures_modify_bind
    exact ensures_throw ⟨midway.writing.congr same, lent, midway.pending, midway.transports⟩
  · apply ensures_modify_bind
    exact ensures_pure ⟨writing, lent _ _ midway.lent, midway.pending, midway.transports⟩

theorem allocate_ok {step : ArenaAllocator → Except ArenaError ArenaAllocator}
    {after : ArenaAllocator} (done : step resources.allocator = .ok after) :
    ProcessResources.allocate step resources = .ok ⟨⟩ { resources with allocator := after } := by
  unfold ProcessResources.allocate
  dsimp only [bind, EStateM.bind, get, getThe, MonadStateOf.get, EStateM.get]
  rw [done]
  rfl

theorem cancel_ok (midway : Midway first base ((worker, ref) :: loose) resources) :
    ∃ after, ProcessResources.cancel ref worker resources = .ok ⟨⟩ after ∧
      Midway first base loose after := by
  obtain ⟨after, done, writing, lent, -⟩ := midway.writing.cancel
  exact ⟨_, allocate_ok done, writing, lent _ _ midway.lent, midway.pending, midway.transports⟩

theorem discard_ok (midway : Midway first base ((worker, ref) :: loose) resources) :
    ∃ after, ProcessResources.discard ref worker resources = .ok ⟨⟩ after ∧
      Midway first base loose after := by
  obtain ⟨after, done, middle⟩ := cancel_ok midway
  refine ⟨after, ?_, middle⟩
  unfold ProcessResources.discard
  show EStateM.tryCatch _ _ _ = _
  unfold EStateM.tryCatch
  rw [done]

/-! ### Submission -/

theorem refusePending_ensures {key : CommandKey} :
    Ensures (ProcessResources.refusePending key) resources
      (fun _ after => after = resources ∧ key ∉ resources.pending.map Prod.fst)
      (fun _ after => after = resources) := by
  unfold ProcessResources.refusePending
  apply ensures_get
  apply ensures_ite
  · intro _
    exact ensures_throw rfl
  · intro absent
    refine ensures_pure ⟨rfl, ?_⟩
    intro listed
    obtain ⟨entry, member, rfl⟩ := List.mem_map.mp listed
    rw [Bool.not_eq_true, Option.isSome_eq_false_iff, Option.isNone_iff_eq_none,
      List.lookup_eq_none_iff] at absent
    exact absurd (absent entry member) (by simp)

theorem reserveSlots_ensures (kept : Kept first base) (create : Creation) (worker : UInt32) :
    Ensures (ProcessResources.reserveSlots create worker) base
      (fun slots after =>
        Midway first base [(worker, slots.primary), (worker, slots.exception)] after)
      (fun _ after => Undone first base after) := by
  unfold ProcessResources.reserveSlots
  apply ensures_get
  apply ensures_bind (reserve_ensures kept.midway create _ worker)
  intro primary middle reserved
  apply ensures_get
  apply ensures_tryCatch
  · apply ensures_bind (reserve_ensures reserved create _ worker)
    intro exception after both
    exact ensures_pure both.swap
  · intro error after single
    obtain ⟨undone, done, nothing⟩ := discard_ok single
    apply ensures_step done
    exact ensures_throw nothing

variable {slots : PendingSlots}

/-- A command whose slots are reserved becomes pending, or gives them back. -/
theorem dispatch_ensures (kept : Kept first base) {message : DispatchMessage}
    (midway : Midway first base
      [(message.worker, slots.primary), (message.worker, slots.exception)] resources)
    (there : HasTransport base message.worker)
    (fresh : (message.worker, message.position) ∉ base.pending.map Prod.fst) (room : Bool) :
    Ensures (ProcessResources.dispatch room message slots) resources
      (fun accepted after =>
        if accepted then Accepted first base (message.worker, message.position) after
        else Undone first base after)
      (fun _ after => Undone first base after) := by
  have present : HasTransport resources message.worker := by
    unfold HasTransport
    rw [midway.transports]
    exact there
  unfold ProcessResources.dispatch
  apply @ensures_bind _ _ _ _ _ _ (fun _ after => after = resources)
  · apply transport_ensures.weaken
    · exact fun _ _ both => both.1
    · exact fun _ _ both => absurd present both.2
  rintro _ _ rfl
  split
  · apply ensures_modify_bind
    apply ensures_pure
    rw [if_pos rfl]
    refine ⟨⟨?_, ?_⟩, fresh, slots, ?_⟩
    · show Writing first (held ((_, slots) :: _)) _
      rw [midway.pending]
      exact midway.writing
    · show (((_, slots) :: _ : List (CommandKey × PendingSlots)).map Prod.fst).Nodup
      rw [midway.pending]
      exact List.nodup_cons.mpr ⟨fresh, kept.keyed⟩
    · show (_, slots) :: _ = _
      rw [midway.pending]
  · obtain ⟨once, done, single⟩ := cancel_ok midway
    apply ensures_step done
    obtain ⟨twice, done, nothing⟩ := cancel_ok single
    apply ensures_step done
    exact ensures_pure nothing
  · obtain ⟨once, done, single⟩ := discard_ok midway
    apply ensures_step done
    obtain ⟨twice, done, nothing⟩ := discard_ok single
    apply ensures_step done
    exact ensures_throw nothing

theorem trySubmit_ensures (kept : Kept first base) (create : Creation) (room : Bool)
    (epoch position index : UInt64) (stagePlan worker batchLen : UInt32) :
    Ensures (ProcessResources.trySubmit create room epoch position index stagePlan worker batchLen)
      base
      (fun accepted after =>
        if accepted then Accepted first base (worker, position) after else Undone first base after)
      (fun _ after => Undone first base after) := by
  unfold ProcessResources.trySubmit
  apply ensures_bind
  · apply refusePending_ensures.weaken (fun _ _ fresh => fresh)
    rintro _ _ rfl
    exact kept.midway
  rintro _ _ ⟨rfl, fresh⟩
  apply ensures_bind
  · apply transport_ensures.weaken (fun _ _ there => there)
    rintro _ _ ⟨rfl, -⟩
    exact kept.midway
  rintro _ _ ⟨rfl, there⟩
  apply ensures_bind (reserveSlots_ensures kept create worker)
  intro slots middle midway
  exact dispatch_ensures kept midway there fresh room

theorem writingPtrLen_ok {arena : ArenaAllocator} {pending : List (UInt32 × SlotRef)}
    (writing : Writing first pending arena) (member : (worker, ref) ∈ pending) :
    ∃ slab start capacity, arena.writingPtrLen ref worker = .ok (slab, start, capacity) := by
  obtain ⟨slab, slot, entry, current, state⟩ := writing.current member
  obtain ⟨owner, -, located⟩ := current.located writing.planned
  exact ⟨_, _, _, bind_ok_iff.mpr ⟨_, located, bind_ok_iff.mpr
    ⟨(), Arena.validateWriter_ok_iff.mpr state, rfl⟩⟩⟩

theorem copyPayload_ensures
    (midway : Midway first base [(worker, slots.primary), (worker, slots.exception)] resources)
    (payload : List UInt8) :
    Ensures (ProcessResources.copyPayload slots worker payload) resources
      (fun _ after =>
        Midway first base [(worker, slots.primary), (worker, slots.exception)] after)
      (fun _ after => Undone first base after) := by
  obtain ⟨slab, start, capacity, found⟩ := writingPtrLen_ok midway.writing List.mem_cons_self
  unfold ProcessResources.copyPayload
  apply ensures_get
  rw [found]
  dsimp only
  apply ensures_ite
  · intro _
    obtain ⟨once, done, single⟩ := discard_ok midway
    apply ensures_step done
    obtain ⟨twice, done, nothing⟩ := discard_ok single
    apply ensures_step done
    exact ensures_throw nothing
  · intro _
    apply ensures_modify
    have sound := midway.writing.sound
    exact ⟨⟨⟨sound.planned, sound.next, sound.balanced, sound.positive, sound.poisoned⟩,
      midway.writing.distinct, midway.writing.written⟩, midway.lent, midway.pending,
      midway.transports⟩

theorem trySubmitCommand_ensures (kept : Kept first base) (create : Creation) (room : Bool)
    (position : UInt64) (stagePlan worker : UInt32) (payload : List UInt8) :
    Ensures (ProcessResources.trySubmitCommand create room position stagePlan worker payload) base
      (fun accepted after =>
        if accepted then Accepted first base (worker, position) after else Undone first base after)
      (fun _ after => Undone first base after) := by
  unfold ProcessResources.trySubmitCommand
  apply ensures_get
  apply ensures_ite
  · intro _
    exact ensures_throw kept.midway
  intro _
  apply ensures_ite
  · intro _
    exact ensures_throw kept.midway
  intro _
  apply ensures_bind
  · apply refusePending_ensures.weaken (fun _ _ fresh => fresh)
    rintro _ _ rfl
    exact kept.midway
  rintro _ _ ⟨rfl, fresh⟩
  apply ensures_bind
  · apply transport_ensures.weaken (fun _ _ there => there)
    rintro _ _ ⟨rfl, -⟩
    exact kept.midway
  rintro _ _ ⟨rfl, there⟩
  apply ensures_bind (reserveSlots_ensures kept create worker)
  intro slots middle reserved
  apply ensures_bind (copyPayload_ensures reserved payload)
  intro _ copied midway
  exact dispatch_ensures kept midway there fresh room

/-! ### Completion -/

/-- Two states of the resources around calls that touch the allocator only. -/
structure Beside (before after : ProcessResources) : Prop where
  pending : after.pending = before.pending
  transports : after.transports = before.transports
  capacity : after.queueCapacity = before.queueCapacity

theorem Beside.trans {before middle after : ProcessResources} (first : Beside before middle)
    (second : Beside middle after) : Beside before after :=
  ⟨second.pending.trans first.pending, second.transports.trans first.transports,
    second.capacity.trans first.capacity⟩

variable {written : List (UInt32 × SlotRef)}

theorem readSlot_ensures (writing : Writing first written resources.allocator)
    {slab slot length : Nat} {entry : Arena.SlotMeta}
    (current : Current resources.allocator.slabs ref slab slot entry)
    (ready : entry.state = .ready length) :
    Ensures (ProcessResources.readSlot ref) resources
      (fun _ after => Writing first written after.allocator ∧ Beside resources after)
      (fun _ _ => False) := by
  obtain ⟨delivered, entry', done, lasting, viewed, state⟩ := writing.deliver current ready
  obtain ⟨bytes, read, -⟩ := Arena.toVec_ok lasting.sound viewed state
  unfold ProcessResources.readSlot
  apply ensures_step (allocate_ok done)
  apply ensures_get
  apply ensures_modify_bind
  dsimp only
  rw [read]
  exact ensures_pure ⟨lasting.drop ref, rfl, rfl, rfl⟩

theorem deliverBuffer_ensures (writing : Writing first written resources.allocator)
    {slab slot length : Nat} {entry : Arena.SlotMeta}
    (current : Current resources.allocator.slabs ref slab slot entry)
    (ready : entry.state = .ready length) :
    Ensures (ProcessResources.deliverBuffer ref) resources
      (fun _ after => Writing first written after.allocator ∧ Beside resources after)
      (fun _ _ => False) := by
  obtain ⟨delivered, entry', done, lasting, viewed, state⟩ := writing.deliver current ready
  obtain ⟨bytes, read, -⟩ := Arena.toVec_ok lasting.sound viewed state
  unfold ProcessResources.deliverBuffer
  apply ensures_step (allocate_ok done)
  apply ensures_get
  dsimp only
  rw [read]
  exact ensures_pure ⟨lasting, rfl, rfl, rfl⟩

variable {rest : List (UInt32 × SlotRef)}

/-- A published slot beside one that goes back. -/
theorem publishCancel {used spare : SlotRef}
    (writing : Writing first ((worker, used) :: (worker, spare) :: rest) resources.allocator)
    {length : Nat} (fits : length ≤ used.capacity.toNat) :
    ∃ published closed slab slot entry,
      ProcessResources.publish used worker length resources = .ok ⟨⟩ published ∧
      ProcessResources.cancel spare worker published = .ok ⟨⟩ closed ∧
      Writing first rest closed.allocator ∧ Beside resources closed ∧
      Current closed.allocator.slabs used slab slot entry ∧ entry.state = .ready length := by
  obtain ⟨absent, -⟩ := List.nodup_cons.mp writing.distinct
  have different : used ≠ spare := by
    rintro rfl
    exact absent List.mem_cons_self
  obtain ⟨published, slab, slot, entry, done, single, current, ready⟩ := writing.publish fits
  obtain ⟨closed, cancelled, nothing, -, others⟩ := single.cancel
  refine ⟨_, _, slab, slot, entry, allocate_ok done, allocate_ok cancelled, nothing, ⟨rfl, rfl, rfl⟩,
    others _ _ _ _ different current, ready⟩

/-- A slot that goes back beside a published one. -/
theorem cancelPublish {used spare : SlotRef}
    (writing : Writing first ((worker, spare) :: (worker, used) :: rest) resources.allocator)
    {length : Nat} (fits : length ≤ used.capacity.toNat) :
    ∃ closed published slab slot entry,
      ProcessResources.cancel spare worker resources = .ok ⟨⟩ closed ∧
      ProcessResources.publish used worker length closed = .ok ⟨⟩ published ∧
      Writing first rest published.allocator ∧ Beside resources published ∧
      Current published.allocator.slabs used slab slot entry ∧ entry.state = .ready length := by
  obtain ⟨closed, cancelled, single, -, -⟩ := writing.cancel
  obtain ⟨published, slab, slot, entry, done, nothing, current, ready⟩ := single.publish fits
  exact ⟨_, _, slab, slot, entry, allocate_ok cancelled, allocate_ok done, nothing, ⟨rfl, rfl, rfl⟩,
    current, ready⟩

variable {completion : CompletionMessage}

/-- A completion that decoded and names the slots of its command settles both of them. -/
theorem settle_ensures {frame : CommandFrame} (decoded : Transport.CompletionFrame frame completion)
    (named : completion.slot = slots.primary) (writing : Writing first
      ((completion.worker, slots.primary) :: (completion.worker, slots.exception) :: rest)
      resources.allocator) :
    Ensures (ProcessResources.settle slots completion) resources
      (fun _ after => Writing first rest after.allocator ∧ Beside resources after)
      (fun _ after => after = resources) := by
  have fits : completion.producedLength.toNat ≤ slots.primary.capacity.toNat :=
    named ▸ UInt64.le_iff_toNat_le.mp decoded.producedFits
  have outcome := decoded.outcome
  unfold ProcessResources.settle
  dsimp only
  cases status : completion.status with
  | ready =>
      dsimp only
      apply ensures_ite
      · exact fun _ => ensures_throw rfl
      intro _
      obtain ⟨published, closed, slab, slot, entry, one, two, nothing, beside, current, ready⟩ :=
        publishCancel writing fits
      apply ensures_step one
      apply ensures_step two
      apply ensures_bind
      · apply (readSlot_ensures nothing current ready).weaken (fun _ _ read => read)
        exact fun _ _ impossible => impossible.elim
      rintro _ after ⟨lasting, later⟩
      exact ensures_pure ⟨lasting, beside.trans later⟩
  | readyBatch =>
      dsimp only
      apply ensures_ite
      · exact fun _ => ensures_throw rfl
      intro _
      obtain ⟨published, closed, slab, slot, entry, one, two, nothing, beside, current, ready⟩ :=
        publishCancel writing fits
      apply ensures_step one
      apply ensures_step two
      apply ensures_bind
      · apply (deliverBuffer_ensures nothing current ready).weaken (fun _ _ read => read)
        exact fun _ _ impossible => impossible.elim
      rintro _ after ⟨lasting, later⟩
      exact ensures_pure ⟨lasting, beside.trans later⟩
  | exception =>
      dsimp only
      split
      · exact ensures_throw rfl
      rename_i exception side
      apply ensures_ite
      · exact fun _ => ensures_throw rfl
      intro same
      have valid : exception.Valid := by
        rw [status, side] at outcome
        exact outcome.1
      have fits : exception.length.toNat ≤ slots.exception.capacity.toNat :=
        not_not.mp same ▸ UInt64.le_iff_toNat_le.mp valid.fits
      obtain ⟨closed, published, slab, slot, entry, one, two, nothing, beside, current, ready⟩ :=
        cancelPublish writing fits
      apply ensures_step one
      apply ensures_step two
      apply ensures_bind
      · apply (readSlot_ensures nothing current ready).weaken (fun _ _ read => read)
        exact fun _ _ impossible => impossible.elim
      rintro _ after ⟨lasting, later⟩
      exact ensures_pure ⟨lasting, beside.trans later⟩

/-- The commands that are left without one of them. -/
def without (pending : List (CommandKey × PendingSlots)) (key : CommandKey) :
    List (CommandKey × PendingSlots) := pending.filter fun entry => entry.1 ≠ key

/-- A pending command and the others. -/
theorem perm_without {pending : List (CommandKey × PendingSlots)} {key : CommandKey}
    (keyed : (pending.map Prod.fst).Nodup) (found : pending.lookup key = some slots) :
    pending.Perm ((key, slots) :: without pending key) := by
  induction pending with
  | nil => nomatch found
  | cons entry rest ih =>
      obtain ⟨absent, keyed⟩ := List.nodup_cons.mp keyed
      rw [List.lookup_cons] at found
      unfold without
      split at found
      · rename_i same
        have equal : key = entry.1 := beq_iff_eq.mp same
        cases Option.some.inj found
        have others : rest.filter (fun other => other.1 ≠ key) = rest := by
          apply List.filter_eq_self.mpr
          intro other member
          apply decide_eq_true
          rintro rfl
          exact absent (equal ▸ List.mem_map_of_mem member)
        rw [List.filter_cons_of_neg (by simp [equal]), others, equal]
      · rename_i different
        have unequal : entry.1 ≠ key := (beq_eq_false_iff_ne.mp different).symm
        rw [List.filter_cons_of_pos (by simp [unequal])]
        exact ((ih keyed found).cons entry).trans (List.Perm.swap _ _ _)

/-- A call that took one command out of the pending table. -/
structure Completed (first : Nat) (base : ProcessResources) (key : CommandKey)
    (resources : ProcessResources) : Prop where
  kept : Kept first resources
  was : key ∈ base.pending.map Prod.fst
  pending : resources.pending = without base.pending key

/-- A call that took nothing out of the pending table. -/
structure Stayed (first : Nat) (base resources : ProcessResources) : Prop where
  kept : Kept first resources
  pending : resources.pending = base.pending

theorem complete_ensures (kept : Kept first base) {frame : CommandFrame}
    (decoded : Transport.CompletionFrame frame completion) (worker : UInt32) :
    Ensures (ProcessResources.complete worker completion) base
      (fun received after => Completed first base (worker, received.position) after)
      (fun _ after => after = base) := by
  unfold ProcessResources.complete
  apply ensures_ite
  · exact fun _ => ensures_throw rfl
  intro same
  have same := not_not.mp same
  apply ensures_get
  split
  · exact ensures_throw rfl
  rename_i slots found
  apply ensures_ite
  · exact fun _ => ensures_throw rfl
  intro named
  have permuted := perm_without kept.keyed found
  have writing : Writing first ((completion.worker, slots.primary) ::
      (completion.worker, slots.exception) :: held (without base.pending (worker, completion.position)))
      base.allocator := by
    rw [same]
    exact kept.writing.perm (permuted.flatMap_right _)
  apply ensures_bind (settle_ensures decoded (not_not.mp named) writing)
  rintro ⟨status, payload⟩ after ⟨settled, beside⟩
  apply ensures_modify_bind
  apply ensures_pure
  have left : after.pending.filter (fun entry => entry.1 ≠ (worker, completion.position)) =
      without base.pending (worker, completion.position) := by
    rw [beside.pending]
    rfl
  refine ⟨⟨?_, ?_⟩, ?_, left⟩
  · show Writing first (held (after.pending.filter _)) after.allocator
    rw [left]
    exact settled
  · show ((after.pending.filter _).map Prod.fst).Nodup
    rw [left]
    exact (List.filter_sublist.map _).nodup kept.keyed
  · exact (permuted.map Prod.fst).mem_iff.mpr List.mem_cons_self

theorem tryReceive_ensures (kept : Kept first base) (worker : UInt32)
    (popped : Option CommandFrame) :
    Ensures (ProcessResources.tryReceive worker popped) base
      (fun received after =>
        match received with
        | some received => Completed first base (worker, received.position) after
        | none => after = base)
      (fun _ after => after = base) := by
  unfold ProcessResources.tryReceive
  apply ensures_bind
  · apply transport_ensures.weaken (fun _ _ there => there)
    exact fun _ _ both => both.1
  rintro _ _ ⟨rfl, -⟩
  split
  · rename_i completion decoded
    cases popped with
    | none => nomatch decoded
    | some frame =>
        have decoded := (Transport.decodeCompletion_ok_iff _ _).mp (mapError_ok_iff.mp decoded)
        apply ensures_bind (complete_ensures kept decoded worker)
        intro received after completed
        exact ensures_pure completed
  · exact ensures_pure rfl
  · exact ensures_throw rfl

/-! ### Recovery -/

/-- The commands of the other workers. -/
def spare (pending : List (CommandKey × PendingSlots)) (worker : UInt32) :
    List (CommandKey × PendingSlots) := pending.filter fun entry => entry.1.1 ≠ worker

theorem held_spare (pending : List (CommandKey × PendingSlots)) (worker : UInt32) :
    (held pending).filter (fun entry => entry.1 ≠ worker) = held (spare pending worker) := by
  unfold held spare
  induction pending with
  | nil => rfl
  | cons entry rest ih =>
      rw [List.flatMap_cons, List.filter_append, ih]
      by_cases same : entry.1.1 = worker
      · simp [same]
      · simp [same]

/-- Poisoned slots, each listed once, are all reclaimed. -/
theorem reclaimPoisoned_ok {written : List (UInt32 × SlotRef)} {slots : List SlotRef}
    (writing : Writing first written resources.allocator) (distinct : slots.Nodup)
    (lost : ∀ ref ∈ slots, ∃ slab slot entry,
      Current resources.allocator.slabs ref slab slot entry ∧ entry.state = .poisoned) :
    ∃ after, ProcessResources.reclaimPoisoned slots resources = .ok ⟨⟩ after ∧
      Writing first written after.allocator ∧ Beside resources after := by
  induction slots generalizing resources with
  | nil => exact ⟨resources, rfl, writing, rfl, rfl, rfl⟩
  | cons ref slots ih =>
      obtain ⟨absent, distinct⟩ := List.nodup_cons.mp distinct
      obtain ⟨slab, slot, entry, current, state⟩ := lost ref List.mem_cons_self
      obtain ⟨allocator, done, lasting, others⟩ := writing.reclaim current state
      have rest : ∀ other ∈ slots, ∃ slab slot entry,
          Current allocator.slabs other slab slot entry ∧ entry.state = .poisoned := by
        intro other member
        obtain ⟨slab, slot, entry, named, state⟩ := lost other (List.mem_cons_of_mem _ member)
        have different : other ≠ ref := by
          rintro rfl
          exact absent member
        exact ⟨slab, slot, entry, others other slab slot entry different named, state⟩
      obtain ⟨after, finished, settled, beside⟩ :=
        @ih { resources with allocator } lasting distinct rest
      refine ⟨after, ?_, settled, beside.pending, beside.transports, beside.capacity⟩
      unfold ProcessResources.reclaimPoisoned
      show EStateM.bind _ _ _ = _
      unfold EStateM.bind
      rw [allocate_ok done]
      exact finished

/-- A call that took a worker's commands out of the pending table. -/
structure Reclaimed (first : Nat) (base : ProcessResources) (worker : UInt32)
    (resources : ProcessResources) : Prop where
  kept : Kept first resources
  pending : resources.pending = spare base.pending worker
  transports : resources.transports = base.transports
  capacity : resources.queueCapacity = base.queueCapacity

section

variable (kept : Kept first base)

include kept

theorem reclaimDeadSlots_ensures (worker : UInt32) :
    Ensures (ProcessResources.reclaimDeadSlots worker) base
      (fun positions after =>
        positions = base.positionsOf worker ∧ Reclaimed first base worker after)
      (fun _ _ => False) := by
  obtain ⟨writing, lost⟩ := kept.writing.poison worker
  have distinct := Writing.nodup_writtenBy kept.writing.planned worker
  rw [held_spare] at writing
  obtain ⟨after, done, settled, beside⟩ := @reclaimPoisoned_ok first
    { base with allocator := (base.allocator.poisonWriter worker).2 } _ _ writing distinct lost
  unfold ProcessResources.reclaimDeadSlots
  apply ensures_get
  apply ensures_step rfl
  apply ensures_step done
  apply ensures_modify_bind
  have left : after.pending.filter (fun entry => entry.1.1 ≠ worker) = spare base.pending worker := by
    rw [beside.pending]
    rfl
  refine ensures_pure ⟨rfl, ⟨?_, ?_⟩, left, beside.transports, beside.capacity⟩
  · show Writing first (held (after.pending.filter _)) after.allocator
    rw [left]
    exact settled
  · show ((after.pending.filter _).map Prod.fst).Nodup
    rw [left]
    exact (List.filter_sublist.map _).nodup kept.keyed

theorem reclaimDeadWorker_ensures (worker : UInt32) :
    Ensures (ProcessResources.reclaimDeadWorker worker) base
      (fun positions after => positions = base.positionsOf worker ∧
        Reclaimed first base worker after ∧ HasTransport base worker)
      (fun _ after => after = base ∧ ¬HasTransport base worker) := by
  unfold ProcessResources.reclaimDeadWorker
  apply ensures_bind
  · exact transport_ensures
  rintro _ _ ⟨rfl, there⟩
  apply (reclaimDeadSlots_ensures kept worker).weaken
  · exact fun _ _ both => ⟨both.1, both.2, there⟩
  · exact fun _ _ impossible => impossible.elim

/-- A worker's ring can be created anew. -/
def Renewable (base : ProcessResources) (worker : UInt32) (create : Creation) : Prop :=
  ∃ transport, CommandTransport.create create (UInt16.ofNat worker.toNat) base.queueCapacity
    base.queueCapacity = .ok transport

/-- A call that took a worker's commands out of the pending table, whatever became of the
worker's ring. -/
structure Taken (first : Nat) (base : ProcessResources) (worker : UInt32)
    (resources : ProcessResources) : Prop where
  kept : Kept first resources
  pending : resources.pending = spare base.pending worker

theorem restartWorker_ensures (worker : UInt32) (create : Creation) :
    Ensures (ProcessResources.restartWorker worker create) base
      (fun positions after => positions = base.positionsOf worker ∧ Taken first base worker after)
      (fun _ after => after = base ∨
        Taken first base worker after ∧ ¬Renewable base worker create) := by
  unfold ProcessResources.restartWorker
  apply ensures_bind
  · apply (reclaimDeadWorker_ensures kept worker).weaken (fun _ _ reclaimed => reclaimed)
    exact fun _ _ both => Or.inl both.1
  rintro _ after ⟨rfl, reclaimed, transport, found⟩
  have there : after.transports[worker.toNat]? = some (some transport) :=
    reclaimed.transports ▸ found
  have taken : ProcessResources.takeTransport worker after =
      .ok ⟨⟩ { after with transports := after.transports.set worker.toNat none } := by
    unfold ProcessResources.takeTransport
    dsimp only [bind, EStateM.bind, get, getThe, MonadStateOf.get, EStateM.get]
    rw [there]
    rfl
  apply ensures_step taken
  apply ensures_get
  dsimp only
  rw [reclaimed.capacity]
  split
  · rename_i error failed
    refine ensures_throw (Or.inr ⟨⟨⟨reclaimed.kept.writing, reclaimed.kept.keyed⟩,
      reclaimed.pending⟩, ?_⟩)
    rintro ⟨transport, created⟩
    cases created.symm.trans failed
  · apply ensures_modify_bind
    exact ensures_pure ⟨rfl, ⟨reclaimed.kept.writing, reclaimed.kept.keyed⟩, reclaimed.pending⟩

theorem dropView_ensures (view : SlotRef) :
    Ensures (ProcessResources.dropView view) base (fun _ after => Stayed first base after)
      (fun _ _ => False) :=
  ensures_modify ⟨⟨kept.writing.drop view, kept.keyed⟩, rfl⟩

end

end Steps

/-! ### New resources -/

theorem kept_new {create : Creation} {workerCount : UInt32}
    {queueCapacity payloadCapacity exceptionCapacity : Nat} {bytes : Nat → Nat → UInt8}
    {resources : ProcessResources}
    (opened : ProcessResources.new create workerCount queueCapacity payloadCapacity
      exceptionCapacity bytes = .ok resources) :
    resources.pending = [] ∧ ∃ first, Kept first resources := by
  unfold ProcessResources.new at opened
  obtain ⟨-, opened⟩ := if_error_ok_iff.mp opened
  obtain ⟨-, opened⟩ := if_error_ok_iff.mp opened
  obtain ⟨transports, -, opened⟩ := bind_ok_iff.mp opened
  obtain ⟨specs, -, opened⟩ := bind_ok_iff.mp opened
  obtain ⟨allocator, made, opened⟩ := bind_ok_iff.mp opened
  have made := mapError_ok_iff.mp made
  have sound := ArenaAllocator.new_sound made
  cases Except.ok.inj opened
  refine ⟨rfl, _, ⟨sound, List.nodup_nil, fun ref worker => ?_⟩, List.nodup_nil⟩
  have planned : Arena.Planned (UInt16.ofNat workerCount.toNat).toNat allocator.slabs :=
    sound.planned
  refine iff_of_false (fun written => ?_) List.not_mem_nil
  obtain ⟨slab, slot, entry, current, state⟩ := (Arena.writer_eq_some_iff planned).mp written
  obtain ⟨owner, isOwner, member, -⟩ := Arena.current_iff.mp current
  have listed := List.mem_of_getElem? isOwner
  rw [(ArenaAllocator.new_slabs made).1] at listed
  have free := Arena.free_of_mem_freshSlabs listed entry (List.mem_of_getElem? member)
  nomatch free.symm.trans state

end Hyperloader.Owner
