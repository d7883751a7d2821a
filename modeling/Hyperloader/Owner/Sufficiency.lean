/-
Module: Hyperloader.Owner.Sufficiency
Purpose: For how many workers the region plan is enough: resources that open, with a sequence for
  each region, and whose queues fill in every way before a reservation meets the region limit.
Trusted boundary: as in `RegionPlan`
Main exports: Filled, Filled.run, Sufficient, region_plan_sufficient_iff
-/
import Hyperloader.Owner.Commands
import Hyperloader.Owner.RegionPlan

namespace Hyperloader.Owner

open Foundations
open Arena (ArenaAllocator SlabSpec Stocked createAll BothReserved)
open Transport (SlotRef)

/-! ### Filling the queues -/

section Submitting

variable {first : Nat} {base resources : ProcessResources} {worker : UInt32}

theorem reserve_granted {required : Nat} {ref : SlotRef} {middle : ArenaAllocator}
    (granted : resources.allocator.reserve createAll required worker = (.ok ref, middle)) :
    Ensures (ProcessResources.reserve createAll required worker) resources
      (fun _ after => after = { resources with allocator := middle }) (fun _ _ => False) := by
  unfold ProcessResources.reserve
  apply ensures_get
  rw [granted]
  apply ensures_modify_bind
  exact ensures_pure rfl

theorem reserveSlots_granted {last : ArenaAllocator}
    (both : BothReserved resources.payloadCapacity resources.exceptionCapacity worker
      resources.allocator last) :
    Ensures (ProcessResources.reserveSlots createAll worker) resources
      (fun _ after => after = { resources with allocator := last }) (fun _ _ => False) := by
  obtain ⟨primary, middle, spare, payload, exception⟩ := both
  unfold ProcessResources.reserveSlots
  apply ensures_get
  apply ensures_bind (reserve_granted payload)
  rintro _ _ rfl
  apply ensures_get
  apply ensures_tryCatch
  · apply ensures_bind (@reserve_granted { resources with allocator := middle } worker _ _ _ exception)
    rintro _ _ rfl
    exact ensures_pure rfl
  · exact fun _ _ impossible => impossible.elim

theorem refusePending_fresh {key : CommandKey} (fresh : key ∉ resources.pending.map Prod.fst) :
    Ensures (ProcessResources.refusePending key) resources (fun _ after => after = resources)
      (fun _ _ => False) := by
  have absent : resources.pending.lookup key = none := by
    apply List.lookup_eq_none_iff.mpr
    intro entry member
    apply bne_iff_ne.mpr
    rintro rfl
    exact fresh (List.mem_map_of_mem member)
  unfold ProcessResources.refusePending
  apply ensures_get
  rw [absent]
  exact ensures_pure rfl

/-- A slot somebody writes can be sent. -/
theorem valid_of_written {arena : ArenaAllocator} {held : List (UInt32 × SlotRef)}
    (writing : Arena.Writing first held arena) {ref : SlotRef} (member : (worker, ref) ∈ held) :
    ref.Valid := by
  obtain ⟨slab, slot, entry, current, -⟩ := writing.current member
  obtain ⟨owner, isOwner, inside, rfl⟩ := Arena.current_iff.mp current
  have planned : Arena.Planned first arena.slabs := writing.sound.planned
  have sound := planned.sound owner (List.mem_of_getElem? isOwner)
  obtain ⟨offset, capacity, size⟩ := Arena.slotRef_range sound inside
  have within := (sound.bounds (List.getElem?_eq_some_iff.mp inside).1).2
  have positive := sound.positive
  refine ⟨?_, ?_, ?_⟩
  · apply UInt64.lt_iff_toNat_lt.mpr
    rw [size]
    exact Nat.lt_of_lt_of_le positive (Nat.le_trans (Nat.le_add_left _ _) within)
  · apply UInt64.lt_iff_toNat_lt.mpr
    rw [capacity]
    exact positive
  · rw [offset, capacity, size]
    exact within

theorem dispatch_room {message : Transport.DispatchMessage} {slots : PendingSlots}
    (there : HasTransport resources message.worker) (primary : message.slot.Valid)
    (exception : message.exceptionSlot.Valid) :
    Ensures (ProcessResources.dispatch true message slots) resources
      (fun accepted after => accepted = true ∧ after =
        { resources with
          pending := ((message.worker, message.position), slots) :: resources.pending })
      (fun _ _ => False) := by
  have sent : CommandTransport.trySendDispatch true message = .ok () := by
    obtain ⟨frame, encoded⟩ : ∃ frame, Transport.encodeDispatch message = .ok frame := by
      refine ⟨_, bind_ok_iff.mpr ⟨(), mapError_ok_iff.mpr ?_, bind_ok_iff.mpr
        ⟨(), mapError_ok_iff.mpr ?_, rfl⟩⟩⟩
      · exact (Transport.validateSlot_ok_iff _).mpr primary
      · exact (Transport.validateSlot_ok_iff _).mpr exception
    unfold CommandTransport.trySendDispatch
    rw [encoded]
    rfl
  unfold ProcessResources.dispatch
  apply ensures_bind
  · apply transport_ensures.weaken (fun _ _ there => there)
    exact fun _ _ both => both.2 there
  rintro _ _ ⟨rfl, -⟩
  rw [sent]
  apply ensures_modify_bind
  exact ensures_pure ⟨rfl, rfl⟩

end Submitting

/-- Resources that have accepted commands and nothing else. -/
structure Filled (workerCount : UInt32) (queueCapacity payloadCapacity exceptionCapacity : Nat)
    (resources : ProcessResources) : Prop where
  kept : Kept workerCount.toNat resources
  stocked : Stocked workerCount.toNat
    (fixedClasses queueCapacity payloadCapacity exceptionCapacity)
    (max payloadCapacity exceptionCapacity) resources.allocator
  level : Level queueCapacity payloadCapacity exceptionCapacity (workerCount.toNat + 1)
    resources.pending.length resources.allocator
  payload : resources.payloadCapacity = payloadCapacity
  exception : resources.exceptionCapacity = exceptionCapacity
  transports : resources.transports = (rings workerCount.toNat queueCapacity).map some

/-- A command for a worker whose ring has room. -/
def submit (key : CommandKey) : ResourceCall := .trySubmit createAll true 0 key.2 0 0 key.1 1

section Runs

variable {workerCount : UInt32} {queueCapacity payloadCapacity exceptionCapacity : Nat}
  {specs : List SlabSpec}
  (configured : Configured workerCount queueCapacity payloadCapacity exceptionCapacity specs)
  (fits : Fits workerCount.toNat payloadCapacity exceptionCapacity)

variable {resources : ProcessResources}

section

variable (filled : Filled workerCount queueCapacity payloadCapacity exceptionCapacity resources)

include filled

theorem Filled.hasTransport {worker : UInt32} (known : worker.toNat < workerCount.toNat) :
    HasTransport resources worker := by
  unfold HasTransport
  rw [filled.transports]
  unfold rings
  refine ⟨⟨UInt16.ofNat worker.toNat, queueCapacity, queueCapacity⟩, ?_⟩
  rw [List.map_map, List.getElem?_map, List.getElem?_range known]
  rfl

include configured fits

/-- A new command while the queues have room is accepted. -/
theorem Filled.submit {key : CommandKey} (known : key.1.toNat < workerCount.toNat)
    (fresh : key ∉ resources.pending.map Prod.fst)
    (room : resources.pending.length < workerCount.toNat * queueCapacity) :
    ∃ after, ProcessResources.machine.step resources (submit key) =
        some (.ok (.submitted true), after) ∧
      Filled workerCount queueCapacity payloadCapacity exceptionCapacity after ∧
      after.pending.map Prod.fst = key :: resources.pending.map Prod.fst := by
  obtain ⟨last, both, stocked, level⟩ :=
    filled.level.serve configured fits filled.stocked room key.1
  have there := filled.hasTransport known
  have granted : Ensures
      (ProcessResources.trySubmit createAll true 0 key.2 0 0 key.1 1) resources
      (fun accepted after => accepted = true ∧ ∃ slots,
        after = { resources with allocator := last, pending := (key, slots) :: resources.pending })
      (fun _ _ => False) := by
    have slotted := (reserveSlots_ensures filled.kept createAll key.1).and
      (reserveSlots_granted (filled.payload.symm ▸ filled.exception.symm ▸ both))
    unfold ProcessResources.trySubmit
    apply ensures_bind
    · exact refusePending_fresh fresh
    rintro _ _ rfl
    apply ensures_bind
    · apply transport_ensures.weaken (fun _ _ same => same.1)
      exact fun _ _ none => none.2 there
    rintro _ _ rfl
    apply ensures_bind
    · apply slotted.weaken (fun _ _ both => both)
      exact fun _ _ impossible => impossible.2
    rintro slots _ ⟨midway, rfl⟩
    have primary := valid_of_written midway.writing List.mem_cons_self
    have exception := valid_of_written midway.writing (List.mem_cons_of_mem _ List.mem_cons_self)
    apply (dispatch_room there primary exception).weaken
    · rintro accepted after ⟨yes, rfl⟩
      exact ⟨yes, slots, rfl⟩
    · exact fun _ _ impossible => impossible
  have accepted := granted.and (trySubmit_ensures filled.kept createAll true 0 key.2 0 0 key.1 1)
  have stepEq : ∀ after, ProcessResources.trySubmit createAll true 0 key.2 0 0 key.1 1 resources =
      .ok true after → ProcessResources.machine.step resources (Owner.submit key) =
        some (.ok (.submitted true), after) := by
    intro after done
    have called : ProcessResources.call (Owner.submit key) resources =
        .ok (.submitted true) after := by
      show EStateM.map _ _ _ = _
      unfold EStateM.map
      rw [done]
    unfold ProcessResources.machine
    dsimp only
    rw [called]
  unfold Ensures at accepted
  split at accepted
  · rename_i value after done
    obtain ⟨⟨rfl, slots, rfl⟩, accepted⟩ := accepted
    refine ⟨_, stepEq _ done, ⟨((if_pos rfl).mp accepted).kept, stocked, level, filled.payload,
      filled.exception, filled.transports⟩, rfl⟩
  · exact accepted.1.elim

/-- The commands some workers have in flight. -/
def inFlightKeys (workers : Nat) (inFlight : Nat → Nat) : List CommandKey :=
  (List.range workers).flatMap fun worker =>
    (List.range (inFlight worker)).map fun position => (UInt32.ofNat worker, UInt64.ofNat position)

/-- Fresh commands within the queues' capacity are all submitted. -/
theorem Filled.run (keys : List CommandKey) (known : ∀ key ∈ keys, key.1.toNat < workerCount.toNat)
    (fresh : (keys ++ resources.pending.map Prod.fst).Nodup)
    (room : keys.length + resources.pending.length ≤ workerCount.toNat * queueCapacity) :
    ∃ trace final, ProcessResources.machine.run resources (keys.map Owner.submit) =
        some (trace, final) ∧
      (∀ entry ∈ trace, entry.2 = .ok (.submitted true)) ∧
      final.pending.map Prod.fst = keys.reverse ++ resources.pending.map Prod.fst := by
  induction keys generalizing resources with
  | nil => exact ⟨[], resources, rfl, nofun, rfl⟩
  | cons key keys ih =>
      have apart : (key :: (keys ++ resources.pending.map Prod.fst)).Nodup := fresh
      obtain ⟨absent, rest⟩ := List.nodup_cons.mp apart
      rw [List.length_cons] at room
      obtain ⟨after, stepEq, filled, pending⟩ := filled.submit configured fits
        (known key List.mem_cons_self) (fun listed => absent (List.mem_append_right _ listed))
        (by omega)
      have length : after.pending.length = resources.pending.length + 1 := by
        have lengths := congrArg List.length pending
        rw [List.length_map, List.length_cons, List.length_map] at lengths
        exact lengths
      have distinct : (keys ++ after.pending.map Prod.fst).Nodup := by
        rw [pending]
        exact (List.perm_middle.nodup_iff).mpr apart
      obtain ⟨trace, final, reached, answers, left⟩ := ih filled
        (fun other member => known other (List.mem_cons_of_mem _ member)) distinct (by omega)
      refine ⟨_, final, ProcessResources.machine.run_cons_eq_some.mpr
        ⟨_, after, trace, stepEq, reached, rfl⟩, List.forall_mem_cons.mpr ⟨rfl, answers⟩, ?_⟩
      rw [left, pending, List.reverse_cons, List.append_assoc]
      rfl

end

end Runs

section InFlight

variable {inFlight : Nat → Nat}

theorem inFlightKeys_succ (workers : Nat) :
    inFlightKeys (workers + 1) inFlight = inFlightKeys workers inFlight ++
      (List.range (inFlight workers)).map fun position =>
        (UInt32.ofNat workers, UInt64.ofNat position) := by
  unfold inFlightKeys
  rw [List.range_succ, List.flatMap_append, List.flatMap_singleton]

theorem known_of_mem_inFlightKeys {workers : Nat} (few : workers ≤ 2 ^ 32) {key : CommandKey}
    (member : key ∈ inFlightKeys workers inFlight) : key.1.toNat < workers := by
  obtain ⟨worker, listed, inside⟩ := List.mem_flatMap.mp member
  obtain ⟨position, -, rfl⟩ := List.mem_map.mp inside
  have less := List.mem_range.mp listed
  have same : (UInt32.ofNat worker).toNat = worker :=
    UInt32.toNat_ofNat_of_lt' (Nat.lt_of_lt_of_le less few)
  show (UInt32.ofNat worker).toNat < workers
  rw [same]
  exact less

theorem length_inFlightKeys {workers queue : Nat} (few : ∀ worker < workers, inFlight worker ≤ queue) :
    (inFlightKeys workers inFlight).length ≤ workers * queue := by
  induction workers with
  | zero => exact Nat.zero_le _
  | succ workers ih =>
      have before := ih fun worker less => few worker (Nat.lt_succ_of_lt less)
      have last := few workers (Nat.lt_succ_self workers)
      rw [inFlightKeys_succ, List.length_append, List.length_map, List.length_range, Nat.succ_mul]
      omega

/-- No two commands in flight have one key. -/
theorem nodup_inFlightKeys {workers : Nat} (small : workers ≤ 2 ^ 32)
    (few : ∀ worker < workers, inFlight worker ≤ 2 ^ 64) :
    (inFlightKeys workers inFlight).Nodup := by
  induction workers with
  | zero => exact List.nodup_nil
  | succ workers ih =>
      rw [inFlightKeys_succ]
      refine List.nodup_append.mpr ⟨ih (by omega)
        (fun worker less => few worker (Nat.lt_succ_of_lt less)), ?_, ?_⟩
      · apply List.Nodup.map_on _ List.nodup_range
        intro one isOne two isTwo same
        have bound := few workers (Nat.lt_succ_self workers)
        have first := Nat.lt_of_lt_of_le (List.mem_range.mp isOne) bound
        have second := Nat.lt_of_lt_of_le (List.mem_range.mp isTwo) bound
        have equal : (UInt64.ofNat one).toNat = (UInt64.ofNat two).toNat :=
          congrArg (fun key => key.2.toNat) same
        rw [UInt64.toNat_ofNat_of_lt' first, UInt64.toNat_ofNat_of_lt' second] at equal
        exact equal
      · rintro key before _ last rfl
        obtain ⟨position, -, same⟩ := List.mem_map.mp last
        have known := known_of_mem_inFlightKeys (by omega) before
        have number : (UInt32.ofNat workers).toNat = workers := UInt32.toNat_ofNat_of_lt' small
        rw [← same, number] at known
        exact Nat.lt_irrefl _ known

/-- Each worker has as many of them as it should. -/
theorem countP_inFlightKeys {workers : Nat} (small : workers ≤ 2 ^ 32) {worker : Nat}
    (known : worker < workers) :
    (inFlightKeys workers inFlight).countP (fun key => key.1 = UInt32.ofNat worker) =
      inFlight worker := by
  induction workers with
  | zero => exact absurd known (Nat.not_lt_zero _)
  | succ workers ih =>
      have number {other : Nat} (less : other < workers + 1) :
          (UInt32.ofNat other).toNat = other :=
        UInt32.toNat_ofNat_of_lt' (Nat.lt_of_lt_of_le less small)
      rw [inFlightKeys_succ, List.countP_append]
      rcases Nat.lt_succ_iff_lt_or_eq.mp known with before | rfl
      · rw [ih (by omega) before, List.countP_eq_zero.mpr]
        · rfl
        · intro key last
          obtain ⟨position, -, rfl⟩ := List.mem_map.mp last
          rw [decide_eq_true_eq]
          intro same
          have equal := congrArg UInt32.toNat same
          rw [number (Nat.lt_succ_self workers), number known] at equal
          omega
      · rw [List.countP_eq_zero.mpr, Nat.zero_add, List.countP_eq_length.mpr, List.length_map,
          List.length_range]
        · intro key last
          obtain ⟨position, -, rfl⟩ := List.mem_map.mp last
          exact decide_eq_true rfl
        · intro key earlier same
          have less := known_of_mem_inFlightKeys (Nat.le_of_succ_le small) earlier
          rw [of_decide_eq_true same, number known] at less
          exact Nat.lt_irrefl _ less

end InFlight

/-! ### Sufficiency -/

theorem length_positionsOf (resources : ProcessResources) (worker : UInt32) :
    (resources.positionsOf worker).length =
      (resources.pending.map Prod.fst).countP fun key => key.1 = worker := by
  unfold ProcessResources.positionsOf
  rw [List.length_map, ← List.countP_eq_length_filter, List.countP_map]
  rfl

/-- Every pending command holds two slots. -/
theorem length_held (pending : List (CommandKey × PendingSlots)) :
    (held pending).length = 2 * pending.length := by
  induction pending with
  | nil => rfl
  | cons command pending ih =>
      show (held pending).length + 2 = 2 * (pending.length + 1)
      rw [ih]
      rfl

/-- Workers with as many commands each. -/
theorem mul_le_countP {keys : List CommandKey} {workers queue : Nat} (small : workers ≤ 2 ^ 32)
    (full : ∀ worker < workers, keys.countP (fun key => key.1 = UInt32.ofNat worker) = queue) :
    workers * queue ≤ keys.countP fun key => key.1.toNat < workers := by
  induction workers with
  | zero => exact Nat.le_trans (Nat.le_of_eq (Nat.zero_mul _)) (Nat.zero_le _)
  | succ workers ih =>
      have before := ih (by omega) fun worker less =>
        full worker (Nat.lt_succ_of_lt less)
      have last := full workers (Nat.lt_succ_self workers)
      have number : (UInt32.ofNat workers).toNat = workers := UInt32.toNat_ofNat_of_lt' small
      have split (keys : List CommandKey) : (keys.countP fun key => key.1.toNat < workers) +
          keys.countP (fun key => key.1 = UInt32.ofNat workers) ≤
            keys.countP fun key => key.1.toNat < workers + 1 := by
        induction keys with
        | nil => exact Nat.le_refl _
        | cons key keys ih =>
            simp only [List.countP_cons, decide_eq_true_eq, ← UInt32.toNat_inj, number]
            simp only [← UInt32.toNat_inj, number] at ih
            split <;> split <;> split <;> omega
      have both := split keys
      rw [Nat.succ_mul]
      omega

/-- The region plan is enough: the classes are valid, every ring and every first slab has a
sequence of its own, and the queues can be filled in every way. -/
structure Sufficient (workerCount : UInt32)
    (queueCapacity payloadCapacity exceptionCapacity : Nat) (specs : List SlabSpec)
    (bytes : Nat → Nat → UInt8) : Prop where
  valid : Arena.validateSpecs specs = .ok ()
  opens : ∃ opened, ProcessResources.new createAll workerCount queueCapacity payloadCapacity
      exceptionCapacity bytes = .ok opened ∧
    opened.sequences.Nodup ∧
    (∀ sequence ∈ opened.sequences, sequence ≤ Arena.MAX_REGION_SEQUENCE) ∧
    ∀ inFlight : Nat → Nat, (∀ worker < workerCount.toNat, inFlight worker ≤ queueCapacity) →
      ∃ calls trace final, ProcessResources.machine.run opened calls = some (trace, final) ∧
        (∀ entry ∈ trace, entry.2 ≠ .error (.arena .regionLimit)) ∧
        ∀ worker < workerCount.toNat,
          (final.positionsOf (UInt32.ofNat worker)).length = inFlight worker

section Sufficiency

variable {workerCount : UInt32} {queueCapacity payloadCapacity exceptionCapacity : Nat}
  {specs : List SlabSpec} {bytes : Nat → Nat → UInt8} {opened : ProcessResources}

theorem sequences_freshSlabs (specs : List SlabSpec) {first : Nat}
    (small : first + specs.length ≤ 2 ^ 16) :
    (Arena.freshSlabs first specs).map (fun slab => slab.sequence.toNat) =
      List.range' first specs.length := by
  induction specs generalizing first with
  | nil => rfl
  | cons spec specs ih =>
      rw [List.length_cons] at small
      have number : (UInt16.ofNat first).toNat = first := UInt16.toNat_ofNat_of_lt' (by
        show first < 2 ^ 16
        omega)
      have rest := @ih (first + 1) (by omega)
      rw [List.length_cons, List.range'_succ, ← rest]
      show (UInt16.ofNat first).toNat :: _ = _
      rw [number]

variable (configured :
  Configured workerCount queueCapacity payloadCapacity exceptionCapacity specs)

include configured

theorem Configured.allocator_new
    (isOpened : ProcessResources.new createAll workerCount queueCapacity payloadCapacity
      exceptionCapacity bytes = .ok opened) :
    ∃ allocator, ArenaAllocator.new createAll specs .safe (UInt16.ofNat workerCount.toNat) bytes =
        .ok allocator ∧
      opened = { allocator, transports := (rings workerCount.toNat queueCapacity).map some,
                 queueCapacity, payloadCapacity, exceptionCapacity, pending := [] } := by
  rw [configured.new_eq] at isOpened
  obtain ⟨allocator, made, same⟩ := bind_ok_iff.mp isOpened
  exact ⟨allocator, mapError_ok_iff.mp made, (Except.ok.inj same).symm⟩

theorem Configured.stocked {allocator : ArenaAllocator}
    (made : ArenaAllocator.new createAll specs .safe (UInt16.ofNat workerCount.toNat) bytes =
      .ok allocator) :
    Stocked workerCount.toNat (fixedClasses queueCapacity payloadCapacity exceptionCapacity)
      (max payloadCapacity exceptionCapacity) allocator := by
  rw [configured.specs_eq] at made
  exact configured.first ▸ Stocked.of_new made serves_fixedClasses.1 rfl max_fixedClasses

/-- The slots of new resources. -/
theorem Configured.filled
    (isOpened : ProcessResources.new createAll workerCount queueCapacity payloadCapacity
      exceptionCapacity bytes = .ok opened) :
    opened.pending = [] ∧
      Filled workerCount queueCapacity payloadCapacity exceptionCapacity opened := by
  obtain ⟨empty, first, kept⟩ := kept_new isOpened
  obtain ⟨allocator, made, rfl⟩ := configured.allocator_new isOpened
  have stocked := configured.stocked made
  have writing := kept.writing
  exact ⟨rfl, ⟨⟨stocked.sound, writing.distinct, writing.written⟩, kept.keyed⟩, stocked,
    configured.level_new made, rfl, rfl, rfl⟩

/-- Rings and slabs are numbered one after the other. -/
theorem Configured.sequences
    (isOpened : ProcessResources.new createAll workerCount queueCapacity payloadCapacity
      exceptionCapacity bytes = .ok opened) :
    opened.sequences = List.range (workerCount.toNat + specs.length) ∧
      workerCount.toNat + specs.length ≤ Arena.MAX_REGION_SEQUENCE + 1 := by
  obtain ⟨allocator, made, rfl⟩ := configured.allocator_new isOpened
  obtain ⟨slabs, -, -⟩ := ArenaAllocator.new_slabs made
  rw [configured.first] at slabs
  have limit : workerCount.toNat + specs.length ≤ Arena.MAX_REGION_SEQUENCE + 1 := by
    have planned : Arena.Planned workerCount.toNat allocator.slabs :=
      (configured.stocked made).sound.planned
    have count := congrArg List.length (Arena.map_spec_freshSlabs specs workerCount.toNat)
    rw [List.length_map, ← slabs] at count
    exact count ▸ planned.limit
  refine ⟨?_, limit⟩
  have small : workerCount.toNat + specs.length ≤ 2 ^ 16 := Nat.le_trans limit (by decide)
  have later : allocator.slabs.map (fun slab => slab.sequence.toNat) =
      List.range' workerCount.toNat specs.length := by
    rw [slabs]
    exact sequences_freshSlabs specs small
  have earlier : ((rings workerCount.toNat queueCapacity).map some).flatMap
      (fun ring => (ring.map fun ring => ring.sequence.toNat).toList) =
      List.range workerCount.toNat := by
    rw [List.flatMap_map]
    show (rings _ _).flatMap (fun ring => [ring.sequence.toNat]) = _
    rw [← List.map_eq_flatMap]
    unfold rings
    rw [List.map_map]
    apply (List.map_congr_left _).trans (List.map_id _)
    intro worker member
    exact UInt16.toNat_ofNat_of_lt' (Nat.lt_of_lt_of_le (List.mem_range.mp member)
      (Nat.le_trans (Nat.le_add_right _ _) small))
  have joined := @List.range'_append_1 0 workerCount.toNat specs.length
  rw [Nat.zero_add] at joined
  unfold ProcessResources.sequences
  rw [earlier, later, List.range_eq_range', List.range_eq_range', joined]

theorem Configured.length_specs :
    specs.length = if payloadCapacity = exceptionCapacity then 2 else 3 := by
  rw [configured.specs_eq]
  unfold fixedClasses
  split <;> rfl

/-- Few enough workers: the queues fill in every way. -/
theorem Configured.sufficient (fits : Fits workerCount.toNat payloadCapacity exceptionCapacity) :
    Sufficient workerCount queueCapacity payloadCapacity exceptionCapacity specs bytes := by
  have room : workerCount.toNat + specs.length ≤ Arena.MAX_REGION_SEQUENCE + 1 := by
    show _ ≤ 1024
    rw [configured.length_specs]
    rcases fits with ⟨same, few⟩ | ⟨different, few⟩
    · rw [if_pos same]
      omega
    · rw [if_neg different]
      omega
  obtain ⟨opened, isOpened⟩ := configured.opens room bytes
  obtain ⟨sequences, limit⟩ := configured.sequences isOpened
  refine ⟨configured.valid_specs, opened, isOpened, sequences ▸ List.nodup_range, ?_, ?_⟩
  · intro sequence member
    rw [sequences, List.mem_range] at member
    exact Nat.le_of_lt_succ (Nat.lt_of_lt_of_le member limit)
  · intro inFlight few
    obtain ⟨empty, filled⟩ := configured.filled isOpened
    have queue := Transport.lt_of_validateCapacity configured.valid_queue
    have workers : workerCount.toNat ≤ 2 ^ 32 := Nat.le_of_lt workerCount.toNat_lt
    have distinct := @nodup_inFlightKeys inFlight _ workers fun worker less =>
      Nat.le_trans (few worker less) (Nat.le_trans (Nat.le_of_lt queue) (by decide))
    obtain ⟨trace, final, reached, answers, left⟩ := filled.run configured fits
      (inFlightKeys workerCount.toNat inFlight) (fun key => known_of_mem_inFlightKeys workers)
      (by rw [empty, List.map_nil, List.append_nil]; exact distinct)
      (by rw [empty]; exact length_inFlightKeys few)
    refine ⟨_, trace, final, reached, fun entry member => ?_, fun worker known => ?_⟩
    · rw [answers entry member]
      nofun
    · rw [empty, List.map_nil, List.append_nil] at left
      rw [length_positionsOf, left, List.countP_reverse]
      exact countP_inFlightKeys workers known

/-- A plan that is enough has few enough workers. -/
theorem Configured.fits
    (sufficient : Sufficient workerCount queueCapacity payloadCapacity exceptionCapacity specs
      bytes) : Fits workerCount.toNat payloadCapacity exceptionCapacity := by
  obtain ⟨-, opened, isOpened, -, -, fill⟩ := sufficient
  obtain ⟨calls, trace, final, reached, -, full⟩ := fill (fun _ => queueCapacity)
    fun _ _ => Nat.le_refl _
  obtain ⟨empty, filled⟩ := configured.filled isOpened
  obtain ⟨payload, exception⟩ := configured.positive
  have provided : Provided workerCount.toNat
      (fixedClasses queueCapacity payloadCapacity exceptionCapacity)
      (max payloadCapacity exceptionCapacity) opened := by
    refine ⟨filled.stocked, ?_, ?_⟩
    · rw [filled.payload]
      exact ⟨payload, Nat.le_max_left _ _⟩
    · rw [filled.exception]
      exact ⟨exception, Nat.le_max_right _ _⟩
  have always := ProcessResources.machine.along_true opened calls
  have kept : Kept workerCount.toNat final := ProcessResources.machine.run_invariant
    (fun _ call _ _ holds _ stepEq => step_preserves (kept_call call) holds stepEq)
    filled.kept always reached
  have provided := ProcessResources.machine.run_invariant
    (fun _ call _ _ holds _ stepEq =>
      step_preserves (provided_call serves_fixedClasses call) holds stepEq)
    provided always reached
  have commands : workerCount.toNat * queueCapacity ≤ final.pending.length := by
    have workers : workerCount.toNat ≤ 2 ^ 32 := Nat.le_of_lt workerCount.toNat_lt
    have counted := mul_le_countP workers fun worker known =>
      (length_positionsOf final _).symm.trans (full worker known)
    exact Nat.le_trans counted (List.length_map Prod.fst ▸ List.countP_le_length)
  have slots {count : Nat}
      (sized : ∀ spec ∈ fixedClasses queueCapacity payloadCapacity exceptionCapacity,
        spec.slotsPerSlab.toNat ≤ count) :
      2 * final.pending.length ≤ (final.allocator.slabs.length - 1) * count := by
    have few := provided.stocked.slots_le sized kept.writing.distinct fun ref member => by
      obtain ⟨⟨worker, _⟩, listed, rfl⟩ := List.mem_map.mp member
      obtain ⟨slab, slot, entry, current, state⟩ := kept.writing.current listed
      exact ⟨slab, slot, entry, current, Arena.ne_free_of_writing state⟩
    rw [List.length_map, length_held] at few
    exact few
  have limit : workerCount.toNat + final.allocator.slabs.length ≤ 1024 :=
    kept.writing.planned.limit
  obtain ⟨some, -⟩ := configured.queue_pos
  by_cases same : payloadCapacity = exceptionCapacity
  · refine Or.inl ⟨same, ?_⟩
    have few := @slots (2 * queueCapacity) (by
      unfold fixedClasses
      rw [if_pos same]
      intro spec isClass
      rw [List.mem_singleton.mp isClass]
      exact Nat.le_of_eq (configured.paired same))
    have less : workerCount.toNat ≤ final.allocator.slabs.length - 1 := by
      apply Nat.le_of_mul_le_mul_right _ some
      rw [Nat.mul_left_comm] at few
      omega
    omega
  · refine Or.inr ⟨same, ?_⟩
    have few := @slots queueCapacity (by
      unfold fixedClasses
      rw [if_neg same]
      simp [configured.slots])
    have less : 2 * workerCount.toNat ≤ final.allocator.slabs.length - 1 := by
      apply Nat.le_of_mul_le_mul_right _ some
      rw [Nat.mul_assoc]
      omega
    omega

end Sufficiency

/-- For everything the constructor and its transports accept, the region plan is enough exactly
where the workers are few enough. -/
theorem region_plan_sufficient_iff {workerCount : UInt32}
    {queueCapacity payloadCapacity exceptionCapacity : Nat} {specs : List SlabSpec}
    (configured : Configured workerCount queueCapacity payloadCapacity exceptionCapacity specs)
    (bytes : Nat → Nat → UInt8) :
    Sufficient workerCount queueCapacity payloadCapacity exceptionCapacity specs bytes ↔
      payloadCapacity = exceptionCapacity ∧ workerCount.toNat ≤ 511 ∨
        payloadCapacity ≠ exceptionCapacity ∧ workerCount.toNat ≤ 341 :=
  ⟨configured.fits, configured.sufficient⟩

/-- Two workers. -/
theorem region_plan_sufficient_two :
    ∃ specs, Configured 2 2 64 32 specs ∧ Sufficient 2 2 64 32 specs fun _ _ => 0 := by
  have configured : Configured 2 2 64 32 [⟨32, 2, false⟩, ⟨64, 2, false⟩, ⟨128, 2, true⟩] :=
    ⟨by decide, ⟨_, rfl⟩, by decide, rfl, by decide⟩
  exact ⟨_, configured, (region_plan_sufficient_iff configured _).mpr (by decide)⟩

/-- As many workers as the constructor accepts leave no sequence for the last slab. -/
theorem region_plan_refuses_workers :
    ∃ specs, Configured 1022 2 64 32 specs ∧
      ProcessResources.new createAll 1022 2 64 32 (fun _ _ => 0) = .error (.arena .regionLimit) := by
  have configured : Configured 1022 2 64 32 [⟨32, 2, false⟩, ⟨64, 2, false⟩, ⟨128, 1022, true⟩] :=
    ⟨by decide, ⟨_, rfl⟩, by decide, rfl, by decide⟩
  refine ⟨_, configured, ?_⟩
  rw [configured.new_eq]
  rfl

end Hyperloader.Owner
