/-
Module: Hyperloader.Arena.Reservations
Purpose: The slots workers write, as a list of who holds which reference, and what each call of
  the owner makes of it.
Trusted boundary: none
Main exports: Writing, Lent, Writing.reserve, Writing.cancel, Writing.publish, Writing.reclaim
-/
import Hyperloader.Arena.Custody
import Mathlib.Data.List.Nodup

namespace Hyperloader.Arena

open Foundations
open Transport (SlotRef)

/-! ### Calls that succeed -/

section Succeeds

variable {arena : ArenaAllocator} {first : Nat} {ref : SlotRef} {slab slot : Nat}
  {entry : SlotMeta}

theorem Current.capacity {slabs : List Slab} (planned : Planned first slabs)
    (current : Current slabs ref slab slot entry) {owner : Slab}
    (isOwner : slabs[slab]? = some owner) : ref.capacity.toNat = owner.spec.slotCapacity := by
  obtain ⟨owner', isOwner', member, rfl⟩ := current_iff.mp current
  cases Option.some.inj (isOwner.symm.trans isOwner')
  exact (slotRef_range (planned.sound owner (List.mem_of_getElem? isOwner)) member).2.1

section

variable (sound : Core.Sound first arena.core)

include sound

section

variable (current : Current arena.slabs ref slab slot entry)

include current

theorem cancel_ok {worker : UInt32} (writing : entry.state = .writing worker) :
    arena.cancel ref worker = .ok (arena.put slab slot entry.recycle) := by
  obtain ⟨owner, -, located⟩ := current.located sound.planned
  exact bind_ok_iff.mpr ⟨_, located, bind_ok_iff.mpr
    ⟨(), validateWriter_ok_iff.mpr writing, rfl⟩⟩

theorem publish_ok {worker : UInt32} (writing : entry.state = .writing worker) {length : Nat}
    (fits : length ≤ ref.capacity.toNat) :
    arena.publish ref worker length =
      .ok (arena.put slab slot { entry with state := .ready length }) := by
  obtain ⟨owner, isOwner, located⟩ := current.located sound.planned
  rw [current.capacity sound.planned isOwner] at fits
  exact bind_ok_iff.mpr ⟨_, located, bind_ok_iff.mpr ⟨(), validateWriter_ok_iff.mpr writing,
    if_neg (Nat.not_lt.mpr fits)⟩⟩

theorem deliver_ok {length : Nat} (ready : entry.state = .ready length) (references : Nat) :
    arena.deliver ref references =
      .ok { arena.put slab slot { entry with state := .delivered references length } with
        views := List.replicate references ref ++ arena.views } := by
  obtain ⟨owner, -, located⟩ := current.located sound.planned
  apply bind_ok_iff.mpr
  refine ⟨_, located, ?_⟩
  dsimp only
  rw [ready]

theorem toVec_ok {remaining length : Nat} (held : entry.state = .delivered remaining length) :
    ∃ bytes, arena.toVec ref = .ok bytes ∧ bytes.length = length := by
  obtain ⟨owner, -, located⟩ := current.located sound.planned
  have read : arena.toVec ref = .ok ((List.range length).map fun index =>
      arena.bytes slab (ref.offset.toNat + index)) := by
    apply bind_ok_iff.mpr
    refine ⟨_, located, ?_⟩
    dsimp only
    rw [held]
  exact ⟨_, read, (List.length_map _).trans List.length_range⟩

end

end

theorem reclaimPoisoned_ok (sound : Core.Sound first arena.core)
    (current : Current arena.slabs ref slab slot entry) (lost : entry.state = .poisoned) :
    ∃ after, arena.reclaimPoisoned ref = .ok after ∧
      after.core = Core.put { arena.core with poisoned := arena.core.poisoned - 1 } slab slot
        entry.recycle := by
  obtain ⟨owner, -, located⟩ := current.located sound.planned
  exact ⟨_, bind_ok_iff.mpr ⟨_, located, if_neg fun other => other lost⟩, rfl⟩

end Succeeds

/-! ### Other slots stay -/

/-- A slot nobody has. -/
def Idle (slabs : List Slab) (slab slot : Nat) : Prop :=
  ∃ entry, slotAt slabs slab slot = some entry ∧ entry.state = .free

/-- Slots that were idle are so, or lent under one of the references. -/
def Lent (base : List Slab) (loose : List SlotRef) (slabs : List Slab) : Prop :=
  ∀ slab slot, Idle base slab slot →
    Idle slabs slab slot ∨ ∃ ref ∈ loose, ∃ entry, Current slabs ref slab slot entry

section Others

variable {slabs base : List Slab} {first slab slot : Nat} {ref : SlotRef} {entry entry' : SlotMeta}

theorem lent_refl (slabs : List Slab) (loose : List SlotRef) : Lent slabs loose slabs :=
  fun _ _ idle => Or.inl idle

/-- Another reference names its slot behind a change. -/
theorem Current.other (current : Current slabs ref slab slot entry) {other : SlotRef}
    (different : other ≠ ref) {slab' slot' : Nat} {third : SlotMeta}
    (named : Current slabs other slab' slot' third) :
    Current (setSlot slabs slab slot entry') other slab' slot' third := by
  apply (current_setSlot_iff current.found).mpr
  rw [if_neg]
  · exact named
  · rintro ⟨rfl, rfl⟩
    cases Option.some.inj (named.found.symm.trans current.found)
    exact different (Option.some.inj (named.named.symm.trans current.named))

/-- A slot that is lent. -/
theorem Lent.lend {loose : List SlotRef} (lent : Lent base loose slabs)
    (current : Current slabs ref slab slot entry) (same : entry'.generation = entry.generation) :
    Lent base (ref :: loose) (setSlot slabs slab slot entry') := by
  intro slab' slot' was
  have here : Current (setSlot slabs slab slot entry') ref slab slot entry' := by
    apply (current_setSlot_iff current.found).mpr
    rw [if_pos ⟨rfl, rfl⟩, same]
    exact ⟨rfl, current.named⟩
  by_cases its : slab' = slab ∧ slot' = slot
  · obtain ⟨rfl, rfl⟩ := its
    exact Or.inr ⟨ref, List.mem_cons_self, entry', here⟩
  · rcases lent slab' slot' was with ⟨idle, found, free⟩ | ⟨other, member, third, named⟩
    · refine Or.inl ⟨idle, ?_, free⟩
      rw [slotAt_setSlot current.found, if_neg its]
      exact found
    · refine Or.inr ⟨other, List.mem_cons_of_mem _ member, third, ?_⟩
      apply (current_setSlot_iff current.found).mpr
      rw [if_neg its]
      exact named

/-- A lent slot that comes back. -/
theorem Lent.return {loose : List SlotRef} (planned : Planned first slabs)
    (lent : Lent base (ref :: loose) slabs) (current : Current slabs ref slab slot entry)
    (free : entry'.state = .free) : Lent base loose (setSlot slabs slab slot entry') := by
  intro slab' slot' was
  by_cases its : slab' = slab ∧ slot' = slot
  · obtain ⟨rfl, rfl⟩ := its
    refine Or.inl ⟨entry', ?_, free⟩
    rw [slotAt_setSlot current.found, if_pos ⟨rfl, rfl⟩]
  · rcases lent slab' slot' was with ⟨idle, found, open_⟩ | ⟨other, member, third, named⟩
    · refine Or.inl ⟨idle, ?_, open_⟩
      rw [slotAt_setSlot current.found, if_neg its]
      exact found
    · rcases List.mem_cons.mp member with rfl | rest
      · obtain ⟨sameSlab, sameSlot, -⟩ := named.unique planned current
        exact absurd ⟨sameSlab, sameSlot⟩ its
      · refine Or.inr ⟨other, rest, third, ?_⟩
        apply (current_setSlot_iff current.found).mpr
        rw [if_neg its]
        exact named

end Others

/-! ### Slots that are written -/

/-- Exactly the slots of a list are written, each by the worker beside it. -/
structure Writing (first : Nat) (held : List (UInt32 × SlotRef)) (arena : ArenaAllocator) :
    Prop where
  sound : Core.Sound first arena.core
  distinct : (held.map Prod.snd).Nodup
  written : ∀ ref worker, writer arena.slabs ref = some worker ↔ (worker, ref) ∈ held

section Writer

variable {slabs : List Slab} {first slab slot : Nat} {ref other : SlotRef}
  {entry entry' : SlotMeta} {worker : UInt32}

theorem writer_eq_some_iff (planned : Planned first slabs) :
    writer slabs ref = some worker ↔
      ∃ slab slot entry, Current slabs ref slab slot entry ∧ entry.state = .writing worker := by
  constructor
  · intro written
    have some : observed SlotState.worker none slabs ref ≠ none := by
      intro missing
      exact Option.some_ne_none worker (written.symm.trans missing)
    obtain ⟨slab, slot, entry, current, sees⟩ := current_of_observed planned some
    exact ⟨slab, slot, entry, current, worker_eq_some_iff.mp (sees.symm.trans written)⟩
  · rintro ⟨slab, slot, entry, current, writing⟩
    exact (observed_of_current planned current).trans (worker_eq_some_iff.mpr writing)

/-- A slot that is not written behind a change: its reference holds nothing, the others what
they held. -/
theorem writer_closed (planned : Planned first slabs)
    (current : Current slabs ref slab slot entry) (closed : entry'.state.worker = none) :
    writer (setSlot slabs slab slot entry') other =
      if other = ref then none else writer slabs other := by
  refine (observed_setSlot planned current entry' other).trans ?_
  by_cases renewed : refAt slabs slab slot entry'.generation = some other
  · rw [if_pos renewed, closed]
    by_cases same : other = ref
    · rw [if_pos same]
    · have moved : entry'.generation ≠ entry.generation := by
        intro equal
        rw [equal] at renewed
        exact same (Option.some.inj (renewed.symm.trans current.named))
      rw [if_neg same]
      exact (observed_of_stale planned
        (stale_of_generation planned current.found renewed moved)).symm
  · rw [if_neg renewed]

/-- A slot that is written behind a change. -/
theorem writer_opened (planned : Planned first slabs) (current : Current slabs ref slab slot entry)
    (same : entry'.generation = entry.generation) (opened : entry'.state = .writing worker) :
    writer (setSlot slabs slab slot entry') other =
      if other = ref then some worker else writer slabs other := by
  refine (observed_setSlot planned current entry' other).trans ?_
  rw [same, current.named, opened]
  by_cases equal : other = ref
  · rw [if_pos (congrArg some equal.symm), if_pos equal]
    rfl
  · rw [if_neg fun named => equal (Option.some.inj named).symm, if_neg equal, if_neg equal]

end Writer

namespace Writing

variable {first : Nat} {held : List (UInt32 × SlotRef)} {arena : ArenaAllocator}
  {worker : UInt32} {ref : SlotRef}

theorem planned (writing : Writing first held arena) : Planned first arena.slabs :=
  writing.sound.planned

variable {after : ArenaAllocator}

theorem congr (writing : Writing first held arena) (same : after.core = arena.core) :
    Writing first held after := by
  have slabs : after.slabs = arena.slabs := congrArg Core.slabs same
  exact ⟨same ▸ writing.sound, writing.distinct, slabs ▸ writing.written⟩

theorem perm (writing : Writing first held arena) {held' : List (UInt32 × SlotRef)}
    (permuted : held.Perm held') : Writing first held' arena := by
  refine ⟨writing.sound, (permuted.map Prod.snd).nodup_iff.mp writing.distinct, fun ref worker => ?_⟩
  exact (writing.written ref worker).trans permuted.mem_iff

/-- The slot of a reference that is held. -/
theorem current (writing : Writing first held arena) (member : (worker, ref) ∈ held) :
    ∃ slab slot entry, Current arena.slabs ref slab slot entry ∧
      entry.state = .writing worker :=
  (writer_eq_some_iff writing.sound.planned).mp ((writing.written ref worker).mpr member)

variable {slab slot : Nat}

/-- One reference fewer, where its slot closes. -/
theorem close (writing : Writing first ((worker, ref) :: held) arena) {entry entry' : SlotMeta}
    (current : Current arena.slabs ref slab slot entry) (closed : entry'.state.worker = none)
    (sound : Core.Sound first after.core)
    (slabs : after.slabs = setSlot arena.slabs slab slot entry') : Writing first held after := by
  obtain ⟨absent, distinct⟩ := List.nodup_cons.mp writing.distinct
  refine ⟨sound, distinct, fun other worker' => ?_⟩
  rw [slabs, writer_closed writing.planned current closed]
  by_cases same : other = ref
  · rw [if_pos same, same]
    refine iff_of_false nofun fun member => absent ?_
    exact List.mem_map.mpr ⟨(worker', ref), member, rfl⟩
  · rw [if_neg same, writing.written]
    constructor
    · intro member
      rcases List.mem_cons.mp member with equal | rest
      · exact absurd (congrArg Prod.snd equal) same
      · exact rest
    · exact List.mem_cons_of_mem _

/-- A slot nobody writes, in another state nobody writes it in. -/
theorem idle (writing : Writing first held arena) {entry entry' : SlotMeta}
    (current : Current arena.slabs ref slab slot entry) (was : entry.state.worker = none)
    (closed : entry'.state.worker = none) (sound : Core.Sound first after.core)
    (slabs : after.slabs = setSlot arena.slabs slab slot entry') : Writing first held after := by
  refine ⟨sound, writing.distinct, fun other worker' => ?_⟩
  rw [slabs, writer_closed writing.planned current closed]
  by_cases same : other = ref
  · have none : writer arena.slabs other = none := by
      rw [same]
      exact (observed_of_current writing.sound.planned current).trans was
    rw [if_pos same, ← writing.written, none]
  · rw [if_neg same, writing.written]

theorem reserve (writing : Writing first held arena) (create : Creation) (required : Nat)
    (worker : UInt32) :
    let reserved := arena.reserve create required worker
    ((∃ error, reserved.1 = .error error) ∧ reserved.2.core = arena.core) ∨
      ∃ ref, reserved.1 = .ok ref ∧ Writing first ((worker, ref) :: held) reserved.2 ∧
        ∀ base loose, Lent base loose arena.slabs → Lent base (ref :: loose) reserved.2.slabs := by
  intro reserved
  rcases reserve_cases writing.sound.planned create required worker with
    refused | ⟨ref, grown, slab, slot, owner, entry, done, growth, -, -, current, free, after⟩
  · exact Or.inl refused
  · refine Or.inr ⟨ref, done, ?_, ?_⟩
    · have turned : Turn arena.core (.reserve create required worker) reserved.2.core :=
        after ▸ .reserved growth current free
      have middle := growth.sound writing.sound
      have slabs : reserved.2.slabs = setSlot grown.slabs slab slot
        { entry with state := .writing worker } := congrArg Core.slabs after
      have before (other : SlotRef) : writer grown.slabs other = writer arena.slabs other := by
        cases growth with
        | kept => rfl
        | grown growable => exact observed_grow writing.sound.planned middle.planned other
      have fresh : writer arena.slabs ref = none := by
        rw [← before]
        exact (observed_of_current middle.planned current).trans (by rw [free]; rfl)
      have written (other : SlotRef) : writer reserved.2.slabs other =
          if other = ref then some worker else writer arena.slabs other := by
        rw [slabs, ← before]
        exact writer_opened middle.planned current rfl rfl
      refine ⟨turned.sound writing.sound, ?_, fun other worker' => ?_⟩
      · apply List.nodup_cons.mpr ⟨?_, writing.distinct⟩
        intro member
        obtain ⟨⟨worker', ref'⟩, listed, rfl⟩ := List.mem_map.mp member
        exact Option.some_ne_none worker'
          (((writing.written _ _).mpr listed).symm.trans fresh)
      · rw [written]
        by_cases same : other = ref
        · rw [if_pos same, same, Option.some_inj]
          constructor
          · rintro rfl
            exact List.mem_cons_self
          · intro member
            rcases List.mem_cons.mp member with equal | rest
            · exact (congrArg Prod.fst equal).symm
            · exact absurd (((writing.written _ _).mpr rest).symm.trans fresh)
                (Option.some_ne_none worker')
        · rw [if_neg same, writing.written]
          constructor
          · exact List.mem_cons_of_mem _
          · intro member
            rcases List.mem_cons.mp member with equal | rest
            · exact absurd (congrArg Prod.snd equal) same
            · exact rest
    · intro base loose lent
      have slabs : reserved.2.slabs = setSlot grown.slabs slab slot
        { entry with state := .writing worker } := congrArg Core.slabs after
      rw [slabs]
      refine Lent.lend ?_ current rfl
      cases growth with
      | kept => exact lent
      | grown growable =>
          intro slab' slot' was
          rcases lent slab' slot' was with ⟨third, found, open_⟩ | ⟨other, member, third, named⟩
          · exact Or.inl ⟨third, (Grown.grown growable).keeps_slot found, open_⟩
          · exact Or.inr ⟨other, member, third, named.append _⟩

theorem cancel (writing : Writing first ((worker, ref) :: held) arena) :
    ∃ after, arena.cancel ref worker = .ok after ∧ Writing first held after ∧
      (∀ base loose, Lent base (ref :: loose) arena.slabs → Lent base loose after.slabs) ∧
      ∀ other slab slot entry, other ≠ ref → Current arena.slabs other slab slot entry →
        Current after.slabs other slab slot entry := by
  obtain ⟨slab, slot, entry, current, state⟩ := writing.current List.mem_cons_self
  have turned : Turn arena.core (.cancel ref worker) (arena.put slab slot entry.recycle).core :=
    .cancelled current state
  refine ⟨_, cancel_ok writing.sound current state, ?_, ?_, ?_⟩
  · exact writing.close current rfl (turned.sound writing.sound) rfl
  · intro base loose lent
    exact lent.return writing.sound.planned current rfl
  · intro other slab' slot' third different named
    exact current.other different named

theorem publish (writing : Writing first ((worker, ref) :: held) arena) {length : Nat}
    (fits : length ≤ ref.capacity.toNat) :
    ∃ after slab slot entry, arena.publish ref worker length = .ok after ∧
      Writing first held after ∧ Current after.slabs ref slab slot entry ∧
      entry.state = .ready length := by
  obtain ⟨slab, slot, entry, current, state⟩ := writing.current List.mem_cons_self
  let entry' : SlotMeta := { entry with state := .ready length }
  have turned : Turn arena.core (.publish ref worker length) (arena.put slab slot entry').core :=
    .published current state
  refine ⟨_, slab, slot, entry', publish_ok writing.sound current state fits, ?_, ?_, rfl⟩
  · exact writing.close current rfl (turned.sound writing.sound) rfl
  · apply (current_setSlot_iff current.found).mpr
    rw [if_pos ⟨rfl, rfl⟩]
    exact ⟨rfl, current.named⟩

theorem deliver (writing : Writing first held arena) {slab slot length : Nat} {entry : SlotMeta}
    (current : Current arena.slabs ref slab slot entry) (ready : entry.state = .ready length) :
    ∃ after entry', arena.deliver ref 1 = .ok after ∧ Writing first held after ∧
      Current after.slabs ref slab slot entry' ∧ entry'.state = .delivered 1 length := by
  let entry' : SlotMeta := { entry with state := .delivered 1 length }
  have turned := @Turn.delivered arena.core ref 1 length slab slot Nat.one_pos entry current ready
  refine ⟨_, entry', deliver_ok writing.sound current ready 1, ?_, ?_, rfl⟩
  · exact writing.idle current (by rw [ready]; rfl) rfl (turned.sound writing.sound) rfl
  · apply (current_setSlot_iff current.found).mpr
    rw [if_pos ⟨rfl, rfl⟩]
    exact ⟨rfl, current.named⟩

theorem drop (writing : Writing first held arena) (view : SlotRef) :
    Writing first held (arena.drop view) := by
  have turned := turn_drop writing.sound view
  have sound := turned.sound writing.sound
  generalize isAfter : (arena.drop view).core = after at turned
  cases turned with
  | absent dead => exact writing.congr isAfter
  | dropped alive current state =>
      refine writing.idle current (by rw [state]; rfl) ?_ sound (congrArg Core.slabs isAfter)
      split <;> rfl

theorem mem_writtenBy_iff :
    ref ∈ arena.writtenBy worker ↔
      ∃ slab slot entry, Current arena.slabs ref slab slot entry ∧
        entry.state = .writing worker := by
  unfold ArenaAllocator.writtenBy
  rw [List.mem_flatMap]
  constructor
  · rintro ⟨owner, member, listed⟩
    obtain ⟨⟨entry, index⟩, filtered, rfl⟩ := List.mem_map.mp listed
    obtain ⟨within, state⟩ := List.mem_filter.mp filtered
    obtain ⟨slab, isOwner⟩ := List.mem_iff_getElem?.mp member
    exact ⟨slab, index, entry,
      current_iff.mpr ⟨owner, isOwner, List.mem_zipIdx_iff_getElem?.mp within, rfl⟩,
      beq_iff_eq.mp state⟩
  · rintro ⟨slab, slot, entry, current, state⟩
    obtain ⟨owner, isOwner, member, rfl⟩ := current_iff.mp current
    refine ⟨owner, List.mem_of_getElem? isOwner, List.mem_map.mpr ⟨(entry, slot), ?_, rfl⟩⟩
    exact List.mem_filter.mpr ⟨List.mem_zipIdx_iff_getElem?.mpr member, beq_iff_eq.mpr state⟩

/-- No slot is listed twice. -/
theorem nodup_writtenBy (planned : Planned first arena.slabs) (worker : UInt32) :
    (arena.writtenBy worker).Nodup := by
  unfold ArenaAllocator.writtenBy
  apply List.nodup_flatMap.mpr
  constructor
  · intro owner member
    have sound := planned.sound owner member
    apply List.Nodup.map_on
    · rintro ⟨one, first_⟩ isOne ⟨two, second⟩ isTwo same
      have left := List.mem_zipIdx_iff_getElem?.mp (List.mem_of_mem_filter isOne)
      have right := List.mem_zipIdx_iff_getElem?.mp (List.mem_of_mem_filter isTwo)
      have small := (sound.bounds (List.getElem?_eq_some_iff.mp left).1).1
      have little := (sound.bounds (List.getElem?_eq_some_iff.mp right).1).1
      have index := congrArg (fun ref => ref.slotIndex.toNat) same
      have equal : first_ = second :=
        ((UInt32.toNat_ofNat_of_lt' small).symm.trans index).trans
          (UInt32.toNat_ofNat_of_lt' little)
      subst equal
      cases Option.some.inj (left.symm.trans right)
      rfl
    · apply List.Nodup.filter
      apply List.Nodup.of_map Prod.snd
      rw [List.zipIdx_map_snd]
      exact List.nodup_range'
  · apply List.pairwise_iff_getElem.mpr
    intro one two isOne isTwo before ref left right
    obtain ⟨_, _, rfl⟩ := List.mem_map.mp left
    obtain ⟨_, _, same⟩ := List.mem_map.mp right
    have equal := planned.sequence_inj (List.getElem?_eq_getElem isOne)
      (List.getElem?_eq_getElem isTwo) (congrArg SlotRef.regionSequence same).symm
    exact Nat.ne_of_lt before equal

theorem poison (writing : Writing first held arena) (worker : UInt32) :
    Writing first (held.filter fun entry => entry.1 ≠ worker) (arena.poisonWriter worker).2 ∧
      ∀ ref ∈ (arena.poisonWriter worker).1, ∃ slab slot entry,
        Current (arena.poisonWriter worker).2.slabs ref slab slot entry ∧
          entry.state = .poisoned := by
  have sound := (turn_poison worker).sound writing.sound
  refine ⟨⟨sound, (List.filter_sublist.map _).nodup writing.distinct, fun ref other => ?_⟩, ?_⟩
  · have planned : Planned first (arena.poisonWriter worker).2.slabs := sound.planned
    rw [writer_eq_some_iff planned, List.mem_filter, ← writing.written,
      writer_eq_some_iff writing.planned, decide_eq_true_iff]
    constructor
    · rintro ⟨slab, slot, after, current, state⟩
      obtain ⟨before, was, rfl⟩ := (current_poison_iff worker).mp current
      unfold ArenaAllocator.poisonSlot at state
      split at state
      · nomatch state
      · rename_i different
        refine ⟨⟨slab, slot, before, was, state⟩, ?_⟩
        rintro rfl
        exact different state
    · rintro ⟨⟨slab, slot, before, was, state⟩, different⟩
      refine ⟨slab, slot, before, (current_poison_iff worker).mpr ⟨before, was, ?_⟩, state⟩
      unfold ArenaAllocator.poisonSlot
      rw [if_neg]
      intro same
      exact different (SlotState.writing.inj (state.symm.trans same))
  · intro ref member
    obtain ⟨slab, slot, entry, current, state⟩ := mem_writtenBy_iff.mp member
    refine ⟨slab, slot, _, (current_poison_iff worker).mpr ⟨entry, current, rfl⟩, ?_⟩
    unfold ArenaAllocator.poisonSlot
    rw [if_pos state]

theorem reclaim (writing : Writing first held arena) {entry : SlotMeta}
    (current : Current arena.slabs ref slab slot entry) (lost : entry.state = .poisoned) :
    ∃ after, arena.reclaimPoisoned ref = .ok after ∧ Writing first held after ∧
      ∀ other slab slot entry, other ≠ ref → Current arena.slabs other slab slot entry →
        Current after.slabs other slab slot entry := by
  obtain ⟨after, done, core⟩ := reclaimPoisoned_ok writing.sound current lost
  have turned : Turn arena.core (.reclaimPoisoned ref) after.core := core ▸ .reclaimed current lost
  have slabs : after.slabs = setSlot arena.slabs slab slot entry.recycle := congrArg Core.slabs core
  refine ⟨after, done, ?_, ?_⟩
  · exact writing.idle current (by rw [lost]; rfl) rfl (turned.sound writing.sound) slabs
  · intro other slab' slot' third different named
    rw [slabs]
    exact current.other different named

end Writing

end Hyperloader.Arena
