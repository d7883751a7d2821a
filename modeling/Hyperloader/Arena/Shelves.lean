/-
Module: Hyperloader.Arena.Shelves
Purpose: The classes of an allocator that grows: which class a reservation takes a slot of, how many
  of each are free behind it, and the slabs that stay unused for overflow.
Trusted boundary: none
Main exports: Shelved, Stocked, freeOf, Stocked.reserve, Stocked.slots_le
-/
import Hyperloader.Arena.Reservations

namespace Hyperloader.Arena

open Foundations
open Transport (SlotRef)

def freeState (slot : SlotMeta) : Bool := slot.state == .free

/-- The free slots of a class. -/
def freeOf (spec : SlabSpec) (slabs : List Slab) : Nat :=
  countSlots (fun other => other == spec) freeState slabs

/-- Slabs of some classes, and others for overflow that nothing uses. -/
structure Shelved (classes : List SlabSpec) (slabs : List Slab) : Prop where
  fixed : ∀ slab ∈ slabs, slab.spec.overflow = false → slab.spec ∈ classes
  present : ∀ spec ∈ classes, ∃ slab ∈ slabs, slab.spec = spec
  spare : ∃ slab ∈ slabs, slab.spec.overflow = true
  unused : ∀ slab ∈ slabs, slab.spec.overflow = true → ∀ entry ∈ slab.slots, entry.state = .free

section Shelves

variable {classes : List SlabSpec} {slabs : List Slab} {slab slot : Nat} {owner : Slab}
  {entry entry' : SlotMeta} {spec : SlabSpec}

theorem freeOf_pos_iff :
    0 < freeOf spec slabs ↔
      ∃ owner ∈ slabs, owner.spec = spec ∧ ∃ entry ∈ owner.slots, entry.state = .free := by
  unfold freeOf countSlots
  rw [List.countP_pos_iff]
  constructor
  · rintro ⟨entry, member, free⟩
    obtain ⟨owner, listed, inside⟩ := List.mem_flatMap.mp member
    obtain ⟨isOwner, same⟩ := List.mem_filter.mp listed
    exact ⟨owner, isOwner, beq_iff_eq.mp same, entry, inside, beq_iff_eq.mp free⟩
  · rintro ⟨owner, isOwner, same, entry, inside, free⟩
    refine ⟨entry, List.mem_flatMap.mpr ⟨owner, ?_, inside⟩, beq_iff_eq.mpr free⟩
    exact List.mem_filter.mpr ⟨isOwner, beq_iff_eq.mpr same⟩

/-- A slot that was free and is taken. -/
theorem freeOf_take (isOwner : slabs[slab]? = some owner) (member : owner.slots[slot]? = some entry)
    (free : entry.state = .free) (taken : entry'.state ≠ .free) :
    freeOf spec (setSlot slabs slab slot entry') + (if owner.spec = spec then 1 else 0) =
      freeOf spec slabs := by
  have change := @countSlots_setSlot _ _ _ _ (fun other => other == spec) freeState owner isOwner
    member entry'
  have was : freeState entry = true := beq_iff_eq.mpr free
  have now : freeState entry' = false := beq_eq_false_iff_ne.mpr taken
  simp only [was, now, and_true, Bool.false_eq_true, and_false, if_false, beq_iff_eq,
    Nat.add_zero] at change
  exact change

theorem countP_newSlots (count : UInt32) : (newSlots count).countP freeState = count.toNat := by
  unfold newSlots
  rw [List.countP_replicate, if_pos]
  rfl

theorem freeOf_grow (core : Core) (grown : SlabSpec) :
    freeOf spec (core.grow grown).slabs =
      freeOf spec core.slabs + if grown = spec then grown.slotsPerSlab.toNat else 0 := by
  unfold freeOf Core.grow
  rw [countSlots_append, countSlots_cons]
  simp only [beq_iff_eq, countP_newSlots]
  rfl

theorem mem_setSlot {after : Slab} (member : after ∈ setSlot slabs slab slot entry') :
    ∃ before ∈ slabs, after.spec = before.spec ∧
      (after = before ∨ slabs[slab]? = some before ∧
        after.slots = before.slots.set slot entry') := by
  obtain ⟨index, isAfter⟩ := List.mem_iff_getElem?.mp member
  unfold setSlot at isAfter
  rw [List.getElem?_modify] at isAfter
  obtain ⟨before, isBefore, rfl⟩ := Option.map_eq_some_iff.mp isAfter
  refine ⟨before, List.mem_of_getElem? isBefore, ?_⟩
  split
  · rename_i same
    exact ⟨rfl, Or.inr ⟨same ▸ isBefore, rfl⟩⟩
  · exact ⟨rfl, Or.inl rfl⟩

theorem exists_mem_setSlot {before : Slab} (member : before ∈ slabs) :
    ∃ after ∈ setSlot slabs slab slot entry', after.spec = before.spec := by
  obtain ⟨index, isBefore⟩ := List.mem_iff_getElem?.mp member
  have isAfter := List.getElem?_modify
    (fun owner : Slab => { owner with slots := owner.slots.set slot entry' }) slab slabs index
  rw [isBefore] at isAfter
  refine ⟨_, List.mem_of_getElem? isAfter, ?_⟩
  dsimp only
  split <;> rfl

/-- A change to a slot of a class, which leaves the slabs for overflow alone. -/
theorem Shelved.put (shelved : Shelved classes slabs) (isOwner : slabs[slab]? = some owner)
    (standard : owner.spec.overflow = false) : Shelved classes (setSlot slabs slab slot entry') := by
  refine ⟨fun after member => ?_, fun spec isClass => ?_, ?_, fun after member flag => ?_⟩
  · obtain ⟨before, listed, same, -⟩ := mem_setSlot member
    rw [same]
    exact shelved.fixed before listed
  · obtain ⟨before, listed, same⟩ := shelved.present spec isClass
    obtain ⟨after, member, kept⟩ := exists_mem_setSlot listed
    exact ⟨after, member, kept.trans same⟩
  · obtain ⟨before, listed, flag⟩ := shelved.spare
    obtain ⟨after, member, kept⟩ := exists_mem_setSlot listed
    exact ⟨after, member, kept ▸ flag⟩
  · obtain ⟨before, listed, same, rfl | ⟨its, -⟩⟩ := mem_setSlot member
    · exact shelved.unused after listed flag
    · cases Option.some.inj (its.symm.trans isOwner)
      rw [same, standard] at flag
      nomatch flag

theorem Shelved.grow {core : Core} (shelved : Shelved classes core.slabs) (isClass : spec ∈ classes)
    (standard : spec.overflow = false) : Shelved classes (core.grow spec).slabs := by
  unfold Core.grow
  refine ⟨fun after member => ?_, fun other listed => ?_, ?_, fun after member flag => ?_⟩
  · rcases List.mem_append.mp member with old | new
    · exact shelved.fixed after old
    · cases List.mem_singleton.mp new
      exact fun _ => isClass
  · obtain ⟨before, member, same⟩ := shelved.present other listed
    exact ⟨before, List.mem_append_left _ member, same⟩
  · obtain ⟨before, member, flag⟩ := shelved.spare
    exact ⟨before, List.mem_append_left _ member, flag⟩
  · rcases List.mem_append.mp member with old | new
    · exact shelved.unused after old flag
    · cases List.mem_singleton.mp new
      exact absurd flag (by rw [standard]; exact Bool.false_ne_true)

/-- A slot that is not free is one of a class. -/
theorem Shelved.standard (shelved : Shelved classes slabs) (isOwner : slabs[slab]? = some owner)
    (member : owner.slots[slot]? = some entry) (taken : entry.state ≠ .free) :
    owner.spec.overflow = false := by
  cases flag : owner.spec.overflow with
  | false => rfl
  | true =>
      exact absurd (shelved.unused owner (List.mem_of_getElem? isOwner) flag entry
        (List.mem_of_getElem? member)) taken

end Shelves

/-! ### Reservations -/

/-- A class a value of a length fits, among the smallest of those that some predicate has. -/
structure Smallest (classes : List SlabSpec) (required : Nat) (offers : SlabSpec → Prop)
    (spec : SlabSpec) : Prop where
  isClass : spec ∈ classes
  fits : required ≤ spec.slotCapacity
  offered : offers spec
  least : ∀ other ∈ classes, required ≤ other.slotCapacity → offers other →
    spec.slotCapacity ≤ other.slotCapacity

/-- An allocator that grows, over classes up to a capacity. -/
structure Stocked (first : Nat) (classes : List SlabSpec) (largest : Nat)
    (arena : ArenaAllocator) : Prop where
  sound : Core.Sound first arena.core
  shelved : Shelved classes arena.slabs
  policy : arena.inner.policy = .safe
  largest : arena.inner.maxStandardCapacity = largest

/-- The classes are not for overflow. -/
def Standard (classes : List SlabSpec) : Prop := ∀ spec ∈ classes, spec.overflow = false

section Reserve

variable {arena : ArenaAllocator} {classes : List SlabSpec} {first largest required : Nat}

/-- A slot that is found is one of the smallest fitting class with a free one. -/
theorem findFreeSlot_smallest {slabs : List Slab} (shelved : Shelved classes slabs)
    (standard : Standard classes) {slab slot : Nat}
    (found : findFreeSlot slabs required false = some (slab, slot)) :
    ∃ owner entry, slabs[slab]? = some owner ∧ owner.slots[slot]? = some entry ∧
      entry.state = .free ∧
      Smallest classes required (fun spec => 0 < freeOf spec slabs) owner.spec := by
  unfold findFreeSlot at found
  obtain ⟨⟨capacity, slab', slot'⟩, least, same⟩ := Option.map_eq_some_iff.mp found
  obtain ⟨rfl, rfl⟩ : slab' = slab ∧ slot' = slot := by simpa using same
  obtain ⟨owner, isOwner, serves, position, rfl⟩ := mem_free_iff.mp (List.argmin_mem least)
  obtain ⟨inside, free, -⟩ := List.findIdx?_eq_some_iff_getElem.mp position
  have listed := List.mem_of_getElem? isOwner
  have member := List.getElem?_eq_getElem inside
  have open_ := beq_iff_eq.mp free
  refine ⟨owner, owner.slots[slot'], isOwner, member, open_,
    shelved.fixed owner listed serves.1, serves.2,
    freeOf_pos_iff.mpr ⟨owner, listed, rfl, _, List.mem_of_getElem? member, open_⟩, ?_⟩
  intro other isClass fits offered
  obtain ⟨rival, isRival, rfl, entry, within, idle⟩ := freeOf_pos_iff.mp offered
  obtain ⟨index, isAt⟩ := List.mem_iff_getElem?.mp isRival
  have some : rival.slots.findIdx? (fun slot => slot.state == .free) ≠ none := by
    intro missing
    have every := List.findIdx?_eq_none_iff.mp missing entry within
    rw [idle] at every
    nomatch every
  obtain ⟨first, isFirst⟩ := Option.ne_none_iff_exists'.mp some
  have candidate := mem_free_iff.mpr
    ⟨rival, isAt, ⟨standard rival.spec isClass, fits⟩, isFirst, rfl⟩
  have smaller := List.le_of_mem_argmin candidate least
  exact smaller

/-- Without a free slot no fitting class has one. -/
theorem freeOf_eq_zero_of_none {slabs : List Slab} (standard : Standard classes)
    (none : findFreeSlot slabs required false = none) :
    ∀ spec ∈ classes, required ≤ spec.slotCapacity → freeOf spec slabs = 0 := by
  intro spec isClass fits
  apply Nat.eq_zero_of_not_pos
  intro some
  obtain ⟨owner, member, rfl, entry, inside, free⟩ := freeOf_pos_iff.mp some
  exact findFreeSlot_none none owner member ⟨standard owner.spec isClass, fits⟩ entry inside free

/-- Growth takes the smallest fitting class. -/
theorem growthSpec_smallest (shelved : Shelved classes arena.slabs) (standard : Standard classes)
    (served : ∃ spec ∈ classes, required ≤ spec.slotCapacity) :
    ∃ spec, arena.growthSpec required false = .ok spec ∧
      Smallest classes required (fun _ => True) spec := by
  have listed {owner : Slab} : owner ∈ arena.slabs.filter (fun slab =>
      slab.spec.overflow == false && required ≤ slab.spec.slotCapacity) ↔
      owner ∈ arena.slabs ∧ owner.Serves required false := by
    rw [List.mem_filter]
    unfold Slab.Serves
    simp
  unfold ArenaAllocator.growthSpec
  dsimp only
  split
  · rename_i slab least
    obtain ⟨member, serves⟩ := listed.mp (List.argmin_mem least)
    refine ⟨slab.spec, rfl, shelved.fixed slab member serves.1, serves.2, trivial, ?_⟩
    intro other isClass fits _
    obtain ⟨rival, isRival, rfl⟩ := shelved.present other isClass
    have smaller := List.le_of_mem_argmin
      (listed.mpr ⟨isRival, standard rival.spec isClass, fits⟩) least
    exact smaller
  · rename_i none
    obtain ⟨spec, isClass, fits⟩ := served
    obtain ⟨owner, member, rfl⟩ := shelved.present spec isClass
    have here := listed.mpr ⟨member, standard owner.spec isClass, fits⟩
    rw [List.argmin_eq_none.mp none] at here
    nomatch here

/-- What a reservation in the classes does. -/
inductive Taking (arena : ArenaAllocator) (classes : List SlabSpec) (create : Creation)
    (required : Nat) (worker : UInt32) : Except ArenaError SlotRef × ArenaAllocator → Prop
  | found {ref : SlotRef} {slab slot : Nat} {owner : Slab} {entry : SlotMeta}
      (smallest : Smallest classes required (fun spec => 0 < freeOf spec arena.slabs) owner.spec)
      (isOwner : arena.slabs[slab]? = some owner) (member : owner.slots[slot]? = some entry)
      (free : entry.state = .free) :
      Taking arena classes create required worker
        (.ok ref, arena.put slab slot { entry with state := .writing worker })
  | grown {ref : SlotRef} {spec : SlabSpec} {after : ArenaAllocator}
      (full : ∀ other ∈ classes, required ≤ other.slotCapacity → freeOf other arena.slabs = 0)
      (smallest : Smallest classes required (fun _ => True) spec)
      (room : arena.inner.nextSequence ≤ MAX_REGION_SEQUENCE)
      (policy : after.inner.policy = arena.inner.policy)
      (largest : after.inner.maxStandardCapacity = arena.inner.maxStandardCapacity)
      (core : after.core = (arena.core.grow spec).put arena.slabs.length 0 ⟨0, .writing worker⟩) :
      Taking arena classes create required worker (.ok ref, after)
  | refused {error : ArenaError} {spec : SlabSpec} {after : ArenaAllocator}
      (full : ∀ other ∈ classes, required ≤ other.slotCapacity → freeOf other arena.slabs = 0)
      (smallest : Smallest classes required (fun _ => True) spec)
      (policy : after.inner.policy = arena.inner.policy)
      (largest : after.inner.maxStandardCapacity = arena.inner.maxStandardCapacity)
      (core : after.core = arena.core)
      (denied : MAX_REGION_SEQUENCE < arena.inner.nextSequence ∨
        2 ^ 64 ≤ spec.slotCapacity * spec.slotsPerSlab.toNat ∨
        ∃ reason, create arena.inner.nextSequence
          (spec.slotCapacity * spec.slotsPerSlab.toNat) = .error reason) :
      Taking arena classes create required worker (.error error, after)

theorem addSlab_error {inner : ArenaInner} {create : Creation} {spec : SlabSpec} {growth : Bool}
    {error : ArenaError} (failed : inner.addSlab create spec growth = .error error) :
    MAX_REGION_SEQUENCE < inner.nextSequence ∨
      2 ^ 64 ≤ spec.slotCapacity * spec.slotsPerSlab.toNat ∨
      ∃ reason, create inner.nextSequence (spec.slotCapacity * spec.slotsPerSlab.toNat) =
        .error reason := by
  unfold ArenaInner.addSlab at failed
  split at failed
  · rename_i past
    exact Or.inl past
  · dsimp only at failed
    split at failed
    · rename_i large
      exact Or.inr (Or.inl large)
    · split at failed
      · rename_i reason denied
        exact Or.inr (Or.inr ⟨reason, denied⟩)
      · nomatch failed

/-- Every reservation within the classes takes a slot of the smallest fitting class that has one
free, or of another slab of the smallest fitting class. -/
theorem Stocked.reserve (stocked : Stocked first classes largest arena)
    (standard : Standard classes) (positive : 0 < required) (small : required ≤ largest)
    (served : ∃ spec ∈ classes, required ≤ spec.slotCapacity) (create : Creation)
    (worker : UInt32) :
    Taking arena classes create required worker (arena.reserve create required worker) := by
  have within : decide (arena.inner.maxStandardCapacity < required) = false := by
    rw [stocked.largest]
    exact decide_eq_false (Nat.not_lt.mpr small)
  unfold ArenaAllocator.reserve
  rw [if_neg (Nat.ne_of_gt positive)]
  dsimp only
  rw [within]
  have kept : (arena.countOverflow false).slabs = arena.slabs := rfl
  rw [kept]
  cases found : findFreeSlot arena.slabs required false with
  | some place =>
      obtain ⟨slab, slot⟩ := place
      obtain ⟨owner, entry, isOwner, member, free, smallest⟩ :=
        findFreeSlot_smallest stocked.shelved standard found
      change Taking arena classes create required worker (arena.reserveSlot slab slot worker)
      rw [reserveSlot_of_free isOwner member free]
      exact .found smallest isOwner member free
  | none =>
      dsimp only
      have safe : ¬(arena.countOverflow false).inner.policy = .strictError := by
        show ¬arena.inner.policy = .strictError
        rw [stocked.policy]
        decide
      rw [if_neg safe]
      obtain ⟨spec, chosen, smallest⟩ := growthSpec_smallest stocked.shelved standard served
      have same : (arena.countOverflow false).growthSpec required false = .ok spec := chosen
      rw [same]
      dsimp only
      have held : ((arena.countOverflow false).countHold required false spec).core = arena.core :=
        core_countHold required false spec
      have policy : ((arena.countOverflow false).countHold required false spec).inner.policy =
          arena.inner.policy := by
        unfold ArenaAllocator.countHold
        dsimp only
        split <;> rfl
      have capacity : ((arena.countOverflow false).countHold required false
          spec).inner.maxStandardCapacity = arena.inner.maxStandardCapacity := by
        unfold ArenaAllocator.countHold
        dsimp only
        split <;> rfl
      generalize (arena.countOverflow false).countHold required false spec = counting at *
      have number : counting.inner.nextSequence = arena.inner.nextSequence :=
        congrArg Core.nextSequence held
      have before : counting.inner.slabs = arena.inner.slabs := congrArg Core.slabs held
      cases added : counting.inner.addSlab create spec true with
      | error error =>
          have denied := addSlab_error added
          rw [number] at denied
          exact .refused (freeOf_eq_zero_of_none standard found) smallest policy capacity held
            denied
      | ok inner =>
          obtain ⟨limit, -, policies, capacities, following, extended, poisoned⟩ := addSlab_ok added
          have full := freeOf_eq_zero_of_none standard found
          rw [number] at limit following extended
          rw [before] at extended
          dsimp only
          have grown : ({ counting with inner } : ArenaAllocator).core = arena.core.grow spec := by
            unfold ArenaAllocator.core Core.grow
            rw [extended, following, poisoned]
            have views := congrArg Core.views held
            have bytes := congrArg Core.bytes held
            have lost := congrArg Core.poisoned held
            simp only [ArenaAllocator.core] at views bytes lost ⊢
            rw [views, bytes, lost]
          have position : (ArenaAllocator.slabs { counting with inner }).length - 1 =
              arena.slabs.length := by
            show inner.slabs.length - 1 = _
            rw [extended, List.length_append, List.length_singleton, Nat.add_sub_cancel]
            rfl
          have last : (ArenaAllocator.slabs { counting with inner })[arena.slabs.length]? =
              some (freshSlab arena.inner.nextSequence spec) := by
            show inner.slabs[arena.inner.slabs.length]? = _
            rw [extended]
            exact List.getElem?_concat_length
          have slots : 0 < spec.slotsPerSlab.toNat := by
            obtain ⟨owner, member, same⟩ := stocked.shelved.present spec smallest.isClass
            have sound := stocked.sound.planned.sound owner member
            exact same ▸ sound.full ▸ sound.nonempty
          have fresh : (newSlots spec.slotsPerSlab)[0]? = some ⟨0, .free⟩ := by
            unfold newSlots
            rw [List.getElem?_replicate, if_pos slots]
          rw [position, reserveSlot_of_free last fresh rfl]
          refine .grown full smallest limit (policies.trans policy) (capacities.trans capacity) ?_
          rw [core_put, grown]

variable {worker : UInt32}

/-- The classes behind a reservation. -/
theorem Stocked.taking (stocked : Stocked first classes largest arena) (standard : Standard classes)
    {create : Creation}
    (taking : Taking arena classes create required worker (arena.reserve create required worker)) :
    Stocked first classes largest (arena.reserve create required worker).2 := by
  have sound : Core.Sound first (arena.reserve create required worker).2.core := by
    rcases call_turn stocked.sound (.reserve create required worker) with ⟨-, same⟩ | ⟨-, turn⟩
    · exact same ▸ stocked.sound
    · exact turn.sound stocked.sound
  generalize arena.reserve create required worker = answer at taking sound
  cases taking with
  | found smallest isOwner member free =>
      exact ⟨sound, stocked.shelved.put isOwner (standard _ smallest.isClass), stocked.policy,
        stocked.largest⟩
  | @grown ref spec after full smallest room policy capacity core =>
      have slabs : after.slabs = setSlot (arena.core.grow spec).slabs arena.slabs.length 0 _ :=
        congrArg Core.slabs core
      have last : (arena.core.grow spec).slabs[arena.slabs.length]? =
          some (freshSlab arena.inner.nextSequence spec) := List.getElem?_concat_length
      have flag := standard spec smallest.isClass
      refine ⟨sound, ?_, policy.trans stocked.policy, capacity.trans stocked.largest⟩
      rw [slabs]
      exact (stocked.shelved.grow smallest.isClass flag).put last flag
  | @refused error spec after full smallest policy capacity core denied =>
      have slabs : after.slabs = arena.slabs := congrArg Core.slabs core
      exact ⟨sound, slabs ▸ stocked.shelved, policy.trans stocked.policy,
        capacity.trans stocked.largest⟩

variable {ref : SlotRef} {after : ArenaAllocator}

/-- The classes behind a change to a slot that somebody has. -/
theorem Stocked.put (stocked : Stocked first classes largest arena) {slab slot : Nat}
    {entry entry' : SlotMeta} (current : Current arena.slabs ref slab slot entry)
    (taken : entry.state ≠ .free) (sound : Core.Sound first after.core)
    (slabs : after.slabs = setSlot arena.slabs slab slot entry')
    (policy : after.inner.policy = arena.inner.policy)
    (capacity : after.inner.maxStandardCapacity = arena.inner.maxStandardCapacity) :
    Stocked first classes largest after := by
  obtain ⟨owner, isOwner, member, -⟩ := current_iff.mp current
  have standard := stocked.shelved.standard isOwner member taken
  exact ⟨sound, slabs ▸ stocked.shelved.put isOwner standard, policy.trans stocked.policy,
    capacity.trans stocked.largest⟩

theorem ne_free_of_writing {state : SlotState} (writing : state = .writing worker) :
    state ≠ .free := by
  rw [writing]
  nofun

section

variable (stocked : Stocked first classes largest arena)

include stocked

theorem Stocked.publish {length : Nat} (done : arena.publish ref worker length = .ok after) :
    Stocked first classes largest after := by
  have sound := (turn_publish stocked.sound.planned done).sound stocked.sound
  unfold ArenaAllocator.publish at done
  obtain ⟨found, located, done⟩ := bind_ok_iff.mp done
  obtain ⟨⟨⟩, writing, done⟩ := bind_ok_iff.mp done
  obtain ⟨-, done⟩ := if_error_ok_iff.mp done
  cases Except.ok.inj done
  obtain ⟨-, current⟩ := (locateSlot_ok_iff stocked.sound.planned).mp located
  exact stocked.put current (ne_free_of_writing (validateWriter_ok_iff.mp writing)) sound rfl rfl rfl

theorem Stocked.cancel (done : arena.cancel ref worker = .ok after) :
    Stocked first classes largest after := by
  have sound := (turn_cancel stocked.sound.planned done).sound stocked.sound
  unfold ArenaAllocator.cancel at done
  obtain ⟨found, located, done⟩ := bind_ok_iff.mp done
  obtain ⟨⟨⟩, writing, done⟩ := bind_ok_iff.mp done
  cases Except.ok.inj done
  obtain ⟨-, current⟩ := (locateSlot_ok_iff stocked.sound.planned).mp located
  exact stocked.put current (ne_free_of_writing (validateWriter_ok_iff.mp writing)) sound rfl rfl rfl

theorem Stocked.deliver {references : Nat} (nonzero : 0 < references)
    (done : arena.deliver ref references = .ok after) : Stocked first classes largest after := by
  have sound := (turn_deliver stocked.sound.planned nonzero done).sound stocked.sound
  unfold ArenaAllocator.deliver at done
  obtain ⟨found, located, done⟩ := bind_ok_iff.mp done
  obtain ⟨-, current⟩ := (locateSlot_ok_iff stocked.sound.planned).mp located
  split at done
  · rename_i length ready
    have taken : found.entry.state ≠ .free := by
      rw [ready]
      nofun
    cases Except.ok.inj done
    exact stocked.put current taken sound rfl rfl rfl
  · nomatch done

theorem Stocked.reclaimPoisoned (done : arena.reclaimPoisoned ref = .ok after) :
    Stocked first classes largest after := by
  have sound := (turn_reclaim stocked.sound.planned done).sound stocked.sound
  unfold ArenaAllocator.reclaimPoisoned at done
  obtain ⟨found, located, done⟩ := bind_ok_iff.mp done
  obtain ⟨lost, done⟩ := if_error_ok_iff.mp done
  have taken : found.entry.state ≠ .free := by
    rw [not_not.mp lost]
    nofun
  cases Except.ok.inj done
  obtain ⟨-, current⟩ := (locateSlot_ok_iff stocked.sound.planned).mp located
  exact stocked.put current taken sound rfl rfl rfl

theorem Stocked.drop (view : SlotRef) : Stocked first classes largest (arena.drop view) := by
  have turned := turn_drop stocked.sound view
  have sound := turned.sound stocked.sound
  have static : (arena.drop view).inner.policy = arena.inner.policy ∧
      (arena.drop view).inner.maxStandardCapacity = arena.inner.maxStandardCapacity := by
    unfold ArenaAllocator.drop ArenaAllocator.release
    split
    · split
      · exact ⟨rfl, rfl⟩
      · split
        · split <;> exact ⟨rfl, rfl⟩
        · exact ⟨rfl, rfl⟩
    · exact ⟨rfl, rfl⟩
  generalize isAfter : (arena.drop view).core = after at turned
  cases turned with
  | absent dead =>
      have slabs : (arena.drop view).slabs = arena.slabs := congrArg Core.slabs isAfter
      exact ⟨sound, slabs ▸ stocked.shelved, static.1.trans stocked.policy,
        static.2.trans stocked.largest⟩
  | @dropped _ _ _ _ _ entry alive current held =>
      have taken : entry.state ≠ .free := by
        rw [held]
        nofun
      exact stocked.put current taken sound (congrArg Core.slabs isAfter) static.1 static.2

theorem Stocked.poison (worker : UInt32) :
    Stocked first classes largest (arena.poisonWriter worker).2 := by
  have sound := (turn_poison worker).sound stocked.sound
  have slabs : (arena.poisonWriter worker).2.slabs = arena.slabs.map (poisonSlab worker) := rfl
  have shelved := stocked.shelved
  refine ⟨sound, ?_, stocked.policy, stocked.largest⟩
  rw [slabs]
  refine ⟨fun after member => ?_, fun spec isClass => ?_, ?_, fun after member flag => ?_⟩
  · obtain ⟨before, listed, rfl⟩ := List.mem_map.mp member
    exact shelved.fixed before listed
  · obtain ⟨before, listed, same⟩ := shelved.present spec isClass
    exact ⟨_, List.mem_map_of_mem listed, same⟩
  · obtain ⟨before, listed, flag⟩ := shelved.spare
    exact ⟨_, List.mem_map_of_mem listed, flag⟩
  · obtain ⟨before, listed, rfl⟩ := List.mem_map.mp member
    intro entry inside
    obtain ⟨old, within, rfl⟩ := List.mem_map.mp inside
    have free := shelved.unused before listed flag old within
    unfold ArenaAllocator.poisonSlot
    rw [if_neg (by rw [free]; nofun)]
    exact free

/-- Bytes written behind the allocator's back. -/
theorem Stocked.write (bytes : Nat → Nat → UInt8) :
    Stocked first classes largest { arena with bytes } := by
  have sound := stocked.sound
  exact ⟨⟨sound.planned, sound.next, sound.balanced, sound.positive, sound.poisoned⟩,
    stocked.shelved, stocked.policy, stocked.largest⟩

/-- References of slots that are not free, each listed once, are no more than the slots of all
slabs but one. -/
theorem Stocked.slots_le {slots : Nat} (sized : ∀ spec ∈ classes, spec.slotsPerSlab.toNat ≤ slots)
    {refs : List SlotRef} (distinct : refs.Nodup)
    (taken : ∀ ref ∈ refs, ∃ slab slot entry, Current arena.slabs ref slab slot entry ∧
      entry.state ≠ .free) : refs.length ≤ (arena.slabs.length - 1) * slots := by
  let shelf := arena.slabs.filter fun slab => !slab.spec.overflow
  let named := shelf.flatMap fun slab =>
    slab.slots.zipIdx.map fun place => slab.slotRef place.2 place.1
  have listed : refs ⊆ named := by
    intro ref member
    obtain ⟨slab, slot, entry, current, state⟩ := taken ref member
    obtain ⟨owner, isOwner, within, rfl⟩ := current_iff.mp current
    have flag := stocked.shelved.standard isOwner within state
    refine List.mem_flatMap.mpr ⟨owner, List.mem_filter.mpr ⟨List.mem_of_getElem? isOwner, ?_⟩,
      List.mem_map.mpr ⟨(entry, slot), List.mem_zipIdx_iff_getElem?.mpr within, rfl⟩⟩
    rw [flag]
    rfl
  have rows (rest : List Slab) (inside : ∀ slab ∈ rest, slab ∈ arena.slabs ∧
      slab.spec.overflow = false) :
      (rest.flatMap fun slab => slab.slots.zipIdx.map fun place =>
        slab.slotRef place.2 place.1).length ≤ rest.length * slots := by
    induction rest with
    | nil => exact Nat.zero_le _
    | cons slab rest ih =>
        have tail := ih fun other member =>
          inside other (List.mem_cons_of_mem _ member)
        obtain ⟨member, flag⟩ := inside slab List.mem_cons_self
        have full := (stocked.sound.planned.sound slab member).full
        have few := sized slab.spec (stocked.shelved.fixed slab member flag)
        rw [List.flatMap_cons, List.length_append, List.length_map, List.length_zipIdx,
          List.length_cons, Nat.succ_mul]
        omega
  have shorter : shelf.length < arena.slabs.length := by
    obtain ⟨spare, member, flag⟩ := stocked.shelved.spare
    apply List.length_filter_lt_length_iff_exists.mpr
    exact ⟨spare, member, by rw [flag]; exact Bool.false_ne_true⟩
  calc refs.length
      ≤ named.length := List.Nodup.length_le_of_subset distinct listed
    _ ≤ shelf.length * slots := rows shelf fun slab member => by
        obtain ⟨listed, flag⟩ := List.mem_filter.mp member
        exact ⟨listed, by simpa using flag⟩
    _ ≤ (arena.slabs.length - 1) * slots := Nat.mul_le_mul_right slots (by omega)

/-- Every region can be created. -/
def createAll : Creation := fun _ _ => .ok ()

/-- A reservation that is granted: by a slot of the class, or by another slab of it. -/
inductive Granted (arena : ArenaAllocator) (classes : List SlabSpec) (required : Nat)
    (after : ArenaAllocator) (spec : SlabSpec) : Prop
  | found (smallest : Smallest classes required (fun spec => 0 < freeOf spec arena.slabs) spec)
      (free : ∀ other, freeOf other after.slabs + (if spec = other then 1 else 0) =
        freeOf other arena.slabs)
      (next : after.inner.nextSequence = arena.inner.nextSequence)
  | grown (full : ∀ other ∈ classes, required ≤ other.slotCapacity → freeOf other arena.slabs = 0)
      (smallest : Smallest classes required (fun _ => True) spec)
      (free : ∀ other, freeOf other after.slabs + (if spec = other then 1 else 0) =
        freeOf other arena.slabs + if spec = other then spec.slotsPerSlab.toNat else 0)
      (next : after.inner.nextSequence = arena.inner.nextSequence + 1)

/-- With room for a region where the classes have no slot left, a reservation is granted. -/
theorem Stocked.grant (standard : Standard classes) (positive : 0 < required)
    (small : required ≤ largest) (served : ∃ spec ∈ classes, required ≤ spec.slotCapacity)
    (sized : ∀ spec ∈ classes, spec.slotCapacity * spec.slotsPerSlab.toNat < 2 ^ 64)
    (room : (∀ other ∈ classes, required ≤ other.slotCapacity → freeOf other arena.slabs = 0) →
      arena.inner.nextSequence ≤ MAX_REGION_SEQUENCE) (worker : UInt32) :
    ∃ ref after spec, arena.reserve createAll required worker = (.ok ref, after) ∧
      Stocked first classes largest after ∧ Granted arena classes required after spec := by
  have taking := stocked.reserve standard positive small served createAll worker
  have lasting := stocked.taking standard taking
  generalize arena.reserve createAll required worker = answer at taking lasting
  cases taking with
  | @found ref slab slot owner entry smallest isOwner member free =>
      refine ⟨ref, _, owner.spec, rfl, lasting, .found smallest (fun other => ?_) rfl⟩
      exact freeOf_take isOwner member free (ne_free_of_writing rfl)
  | @grown ref spec after full smallest fits policy capacity core =>
      refine ⟨ref, after, spec, rfl, lasting, .grown full smallest (fun other => ?_)
        (congrArg Core.nextSequence core)⟩
      have slabs : after.slabs = setSlot (arena.core.grow spec).slabs arena.slabs.length 0 _ :=
        congrArg Core.slabs core
      have last : (arena.core.grow spec).slabs[arena.slabs.length]? =
          some (freshSlab arena.inner.nextSequence spec) := List.getElem?_concat_length
      have slots : 0 < spec.slotsPerSlab.toNat := by
        obtain ⟨owner, member, same⟩ := stocked.shelved.present spec smallest.isClass
        have sound := stocked.sound.planned.sound owner member
        exact same ▸ sound.full ▸ sound.nonempty
      have fresh : (freshSlab arena.inner.nextSequence spec).slots[0]? = some ⟨0, .free⟩ := by
        show (newSlots spec.slotsPerSlab)[0]? = _
        unfold newSlots
        rw [List.getElem?_replicate, if_pos slots]
      rw [slabs]
      exact (freeOf_take last fresh rfl (ne_free_of_writing rfl)).trans (freeOf_grow arena.core spec)
  | @refused error spec after full smallest policy capacity core denied =>
      exfalso
      rcases denied with past | large | ⟨reason, failed⟩
      · exact absurd (room full) (Nat.not_le.mpr past)
      · exact absurd large (Nat.not_le.mpr (sized spec smallest.isClass))
      · nomatch failed

end

end Reserve

end Hyperloader.Arena
