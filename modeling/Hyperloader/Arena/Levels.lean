/-
Module: Hyperloader.Arena.Levels
Purpose: How many slots of each class are free while an allocator with one class, or with two of as
  many slots, grants reservations only, and which sequences it has handed out by then.
Trusted boundary: none
Main exports: ArenaAllocator.new_ok, Stocked.of_new, Single.serve, Double.serve_ascending,
  Double.serve_descending
-/
import Hyperloader.Arena.Shelves

namespace Hyperloader.Arena

open Foundations
open Transport (SlotRef)

/-! ### A new allocator -/

theorem map_spec_freshSlabs (specs : List SlabSpec) (sequence : Nat) :
    (freshSlabs sequence specs).map Slab.spec = specs := by
  induction specs generalizing sequence with
  | nil => rfl
  | cons spec specs ih =>
      show spec :: (freshSlabs (sequence + 1) specs).map Slab.spec = spec :: specs
      rw [ih]

theorem freeOf_freshSlabs (spec other : SlabSpec) (specs : List SlabSpec) (sequence : Nat) :
    freeOf spec (freshSlabs sequence (other :: specs)) =
      (if other = spec then other.slotsPerSlab.toNat else 0) +
        freeOf spec (freshSlabs (sequence + 1) specs) := by
  unfold freeOf
  show countSlots _ _ (freshSlab sequence other :: freshSlabs (sequence + 1) specs) = _
  rw [countSlots_cons]
  simp only [freshSlab, beq_iff_eq, countP_newSlots]

/-- With room for a region each, all classes get their first slab. -/
theorem foldlM_addSlab_ok {specs : List SlabSpec}
    (sized : ∀ spec ∈ specs, spec.slotCapacity * spec.slotsPerSlab.toNat < 2 ^ 64)
    {inner : ArenaInner} (room : inner.nextSequence + specs.length ≤ MAX_REGION_SEQUENCE + 1) :
    ∃ after, specs.foldlM (fun inner spec => inner.addSlab createAll spec false) inner =
      .ok after := by
  induction specs generalizing inner with
  | nil => exact ⟨inner, rfl⟩
  | cons spec specs ih =>
      rw [List.length_cons] at room
      have small := sized spec List.mem_cons_self
      obtain ⟨next, one⟩ : ∃ next, inner.addSlab createAll spec false = .ok next := by
        unfold ArenaInner.addSlab
        rw [if_neg (by omega)]
        dsimp only
        rw [if_neg (Nat.not_le.mpr small)]
        exact ⟨_, rfl⟩
      obtain ⟨-, -, -, -, following, -⟩ := addSlab_ok one
      obtain ⟨after, rest⟩ := @ih
        (fun other member => sized other (List.mem_cons_of_mem _ member)) next (by omega)
      refine ⟨after, ?_⟩
      rw [List.foldlM_cons]
      exact bind_ok_iff.mpr ⟨next, one, rest⟩

theorem ArenaAllocator.new_ok {specs : List SlabSpec} (valid : validateSpecs specs = .ok ())
    {largest : Nat}
    (isLargest : ((specs.filter fun spec => !spec.overflow).map SlabSpec.slotCapacity).max? =
      some largest) (sized : ∀ spec ∈ specs, spec.slotCapacity * spec.slotsPerSlab.toNat < 2 ^ 64)
    (policy : GrowthPolicy) {firstSequence : UInt16}
    (room : firstSequence.toNat + specs.length ≤ MAX_REGION_SEQUENCE + 1)
    (bytes : Nat → Nat → UInt8) :
    ∃ arena, ArenaAllocator.new createAll specs policy firstSequence bytes = .ok arena := by
  obtain ⟨inner, added⟩ := @foldlM_addSlab_ok specs sized
    { policy, nextSequence := firstSequence.toNat, maxStandardCapacity := largest, slabs := []
      stats := ⟨0, 0, 0, 0, 0⟩ } room
  unfold ArenaAllocator.new
  rw [valid, isLargest]
  exact ⟨_, bind_ok_iff.mpr ⟨(), rfl, bind_ok_iff.mpr ⟨inner, added, rfl⟩⟩⟩

variable {overflow : SlabSpec}

theorem filter_standard {classes : List SlabSpec} (standard : Standard classes)
    (flag : overflow.overflow = true) :
    (classes ++ [overflow]).filter (fun spec => !spec.overflow) = classes := by
  rw [List.filter_append, List.filter_cons_of_neg (by rw [flag]; exact Bool.false_ne_true),
    List.filter_nil, List.append_nil]
  apply List.filter_eq_self.mpr
  intro spec member
  rw [standard spec member]
  rfl

/-- A new allocator that grows is stocked with its classes. -/
theorem Stocked.of_new {create : Creation} {classes : List SlabSpec} {firstSequence : UInt16}
    {bytes : Nat → Nat → UInt8} {arena : ArenaAllocator}
    (opened : ArenaAllocator.new create (classes ++ [overflow]) .safe firstSequence bytes =
      .ok arena) (standard : Standard classes) (flag : overflow.overflow = true) {largest : Nat}
    (isLargest : (classes.map SlabSpec.slotCapacity).max? = some largest) :
    Stocked firstSequence.toNat classes largest arena := by
  obtain ⟨slabs, policy, capacity⟩ := ArenaAllocator.new_slabs opened
  have specs : arena.slabs.map Slab.spec = classes ++ [overflow] := by
    rw [slabs, map_spec_freshSlabs]
  have listed {slab : Slab} (member : slab ∈ arena.slabs) : slab.spec ∈ classes ++ [overflow] :=
    specs ▸ List.mem_map_of_mem member
  have there {spec : SlabSpec} (member : spec ∈ classes ++ [overflow]) :
      ∃ slab ∈ arena.slabs, slab.spec = spec := by
    rw [← specs] at member
    exact List.mem_map.mp member
  refine ⟨ArenaAllocator.new_sound opened, ⟨?_, ?_, ?_, ?_⟩, policy, ?_⟩
  · intro slab member fixed
    rcases List.mem_append.mp (listed member) with isClass | last
    · exact isClass
    · rw [List.mem_singleton.mp last, flag] at fixed
      cases fixed
  · exact fun spec isClass => there (List.mem_append_left _ isClass)
  · obtain ⟨slab, member, same⟩ := there (List.mem_append_right classes List.mem_cons_self)
    exact ⟨slab, member, same ▸ flag⟩
  · intro slab member _
    rw [slabs] at member
    exact free_of_mem_freshSlabs member
  · rw [filter_standard standard flag, isLargest] at capacity
    exact (Option.some.inj capacity).symm

theorem overflow_ne {overflow spec : SlabSpec} (flag : overflow.overflow = true)
    (standard : spec.overflow = false) : overflow ≠ spec := by
  rintro rfl
  rw [flag] at standard
  cases standard

section Levels

variable {first largest queue : Nat} {arena : ArenaAllocator} {spec small large : SlabSpec}

/-! ### One class -/

/-- One class after a number of reservations. -/
structure Single (spec : SlabSpec) (base reservations : Nat) (arena : ArenaAllocator) : Prop where
  level : ∃ slabs, freeOf spec arena.slabs + reservations = slabs * spec.slotsPerSlab.toNat ∧
    arena.inner.nextSequence = base + slabs

variable {required : Nat}

/-- The class grows when its slabs are used up. -/
theorem Single.reserve {base reservations : Nat} (single : Single spec base reservations arena)
    (stocked : Stocked first [spec] largest arena) (standard : spec.overflow = false)
    (positive : 0 < required) (fits : required ≤ spec.slotCapacity) (within : required ≤ largest)
    (sized : spec.slotCapacity * spec.slotsPerSlab.toNat < 2 ^ 64)
    (room : ∀ slabs, slabs * spec.slotsPerSlab.toNat = reservations →
      base + slabs ≤ MAX_REGION_SEQUENCE) (worker : UInt32) :
    ∃ ref after, arena.reserve createAll required worker = (.ok ref, after) ∧
      Stocked first [spec] largest after ∧ Single spec base (reservations + 1) after := by
  obtain ⟨slabs, level, next⟩ := single.level
  have only : ∀ other ∈ [spec], other = spec := fun other => List.mem_singleton.mp
  have open_ : (∀ other ∈ [spec], required ≤ other.slotCapacity → freeOf other arena.slabs = 0) →
      arena.inner.nextSequence ≤ MAX_REGION_SEQUENCE := by
    intro full
    have empty := full spec List.mem_cons_self fits
    rw [empty, Nat.zero_add] at level
    rw [next]
    exact room slabs level.symm
  obtain ⟨ref, after, taken, granted, lasting, grant⟩ := stocked.grant
    (fun other member => only other member ▸ standard) positive within
    ⟨spec, List.mem_cons_self, fits⟩ (fun other member => only other member ▸ sized) open_ worker
  refine ⟨ref, after, granted, lasting, ?_⟩
  cases grant with
  | found smallest free same =>
      have here := free spec
      rw [only taken smallest.isClass, if_pos rfl] at here
      exact ⟨slabs, by omega, same.trans next⟩
  | grown full smallest free more =>
      have here := free spec
      rw [only taken smallest.isClass, if_pos rfl, if_pos rfl] at here
      refine ⟨slabs + 1, ?_, by omega⟩
      rw [Nat.succ_mul]
      omega

theorem Single.of_new {sequence : Nat} (slabs : arena.slabs = freshSlabs sequence [spec, overflow])
    (flag : overflow.overflow = true) (standard : spec.overflow = false) {base : Nat}
    (next : arena.inner.nextSequence = base + 1) : Single spec base 0 arena := by
  refine ⟨1, ?_, next⟩
  rw [slabs, freeOf_freshSlabs, freeOf_freshSlabs, if_pos rfl, if_neg (overflow_ne flag standard)]
  exact (Nat.one_mul _).symm

/-- A payload and then an exception reserved for one worker. -/
def BothReserved (payload exception : Nat) (worker : UInt32) (arena after : ArenaAllocator) : Prop :=
  ∃ primary middle spare, arena.reserve createAll payload worker = (.ok primary, middle) ∧
    middle.reserve createAll exception worker = (.ok spare, after)

variable {base commands : Nat}

/-- With slots for whole commands a slab is used up between two commands only. -/
theorem Single.serve (single : Single spec base (2 * commands) arena)
    (stocked : Stocked first [spec] largest arena) (standard : spec.overflow = false)
    (positive : 0 < spec.slotCapacity) (within : spec.slotCapacity ≤ largest)
    (sized : spec.slotCapacity * spec.slotsPerSlab.toNat < 2 ^ 64)
    (paired : spec.slotsPerSlab.toNat = 2 * queue)
    (room : ∀ slabs, slabs * queue = commands → base + slabs ≤ MAX_REGION_SEQUENCE)
    (worker : UInt32) :
    ∃ after, BothReserved spec.slotCapacity spec.slotCapacity worker arena after ∧
      Stocked first [spec] largest after ∧ Single spec base (2 * (commands + 1)) after := by
  have whole (slabs : Nat) : slabs * spec.slotsPerSlab.toNat = 2 * (slabs * queue) := by
    rw [paired, Nat.mul_left_comm]
  obtain ⟨primary, middle, payload, stocked, single⟩ :=
    single.reserve stocked standard positive (Nat.le_refl _) within sized (fun slabs used =>
      room slabs (by have := whole slabs; omega)) worker
  obtain ⟨spare, after, exception, stocked, single⟩ :=
    single.reserve stocked standard positive (Nat.le_refl _) within sized (fun slabs used =>
      absurd used (by have := whole slabs; omega)) worker
  exact ⟨after, ⟨primary, middle, spare, payload, exception⟩, stocked, single⟩

/-! ### Two classes -/

/-- Two classes of as many slots, one of smaller values than the other. -/
structure Double (small large : SlabSpec) (queue : Nat) : Prop where
  smaller : small.slotCapacity < large.slotCapacity
  nonempty : 0 < queue
  standard : Standard [small, large]
  slots : small.slotsPerSlab.toNat = queue ∧ large.slotsPerSlab.toNat = queue
  sized : ∀ spec ∈ [small, large], spec.slotCapacity * spec.slotsPerSlab.toNat < 2 ^ 64

variable (double : Double small large queue)
  (stocked : Stocked first [small, large] largest arena)

include double

theorem Double.different : small ≠ large := by
  rintro rfl
  exact Nat.lt_irrefl _ double.smaller

theorem Double.cases {spec : SlabSpec} (isClass : spec ∈ [small, large]) :
    spec = small ∨ spec = large := by
  rcases List.mem_cons.mp isClass with rfl | rest
  · exact Or.inl rfl
  · exact Or.inr (List.mem_singleton.mp rest)

/-- How many slots of two classes are free, and the sequence the next slab would get. -/
structure Stands (small large : SlabSpec) (smalls larges next : Nat) (arena : ArenaAllocator) :
    Prop where
  small : freeOf small arena.slabs = smalls
  large : freeOf large arena.slabs = larges
  next : arena.inner.nextSequence = next

theorem Double.stands_new {sequence next : Nat}
    (slabs : arena.slabs = freshSlabs sequence [small, large, overflow])
    (flag : overflow.overflow = true) (isNext : arena.inner.nextSequence = next) :
    Stands small large queue queue next arena := by
  have different := double.different
  have isFirst := overflow_ne flag (double.standard small List.mem_cons_self)
  have isSecond := overflow_ne flag (double.standard large (by simp))
  refine ⟨?_, ?_, isNext⟩
  · rw [slabs, freeOf_freshSlabs, freeOf_freshSlabs, freeOf_freshSlabs, if_pos rfl,
      if_neg different.symm, if_neg isFirst]
    exact double.slots.1
  · rw [slabs, freeOf_freshSlabs, freeOf_freshSlabs, freeOf_freshSlabs, if_neg different,
      if_pos rfl, if_neg isSecond, Nat.zero_add]
    exact double.slots.2

include stocked

/-- A value only the larger class holds. -/
theorem Double.reserve_large {smalls larges next : Nat}
    (stands : Stands small large smalls larges next arena) (above : small.slotCapacity < required)
    (fits : required ≤ large.slotCapacity) (within : required ≤ largest)
    (room : larges = 0 → next ≤ MAX_REGION_SEQUENCE) (worker : UInt32) :
    ∃ ref after, arena.reserve createAll required worker = (.ok ref, after) ∧
      Stocked first [small, large] largest after ∧
      if larges = 0 then Stands small large smalls (queue - 1) (next + 1) after
      else Stands small large smalls (larges - 1) next after := by
  have listed : large ∈ [small, large] := by simp
  have positive : 0 < required := Nat.lt_of_le_of_lt (Nat.zero_le _) above
  have only {offers : SlabSpec → Prop} {taken : SlabSpec}
      (smallest : Smallest [small, large] required offers taken) : taken = large := by
    rcases double.cases smallest.isClass with rfl | same
    · exact absurd smallest.fits (Nat.not_le.mpr above)
    · exact same
  obtain ⟨isSmall, isLarge, isNext⟩ := stands
  obtain ⟨ref, after, taken, granted, lasting, grant⟩ := stocked.grant double.standard positive
    within ⟨large, listed, fits⟩ double.sized (fun full => isNext ▸ room
      (isLarge ▸ full large listed fits)) worker
  refine ⟨ref, after, granted, lasting, ?_⟩
  have different := double.different
  have slots := double.slots.2
  cases grant with
  | found smallest free same =>
      have some := smallest.offered
      have at_small := free small
      have at_large := free large
      rw [only smallest] at some at_small at_large
      rw [if_neg different.symm] at at_small
      rw [if_pos rfl] at at_large
      rw [if_neg (by omega)]
      exact ⟨by omega, by omega, same.trans isNext⟩
  | grown full smallest free more =>
      have none := full large listed fits
      have at_small := free small
      have at_large := free large
      rw [only smallest] at at_small at_large
      rw [if_neg different.symm, if_neg different.symm] at at_small
      rw [if_pos rfl, if_pos rfl] at at_large
      rw [if_pos (by omega)]
      exact ⟨by omega, by omega, by omega⟩

/-- A value either class holds: it goes where a slot is free, the smaller class first. -/
theorem Double.reserve_small {smalls larges next : Nat}
    (stands : Stands small large smalls larges next arena) (positive : 0 < required)
    (fits : required ≤ small.slotCapacity) (within : required ≤ largest)
    (room : smalls = 0 ∧ larges = 0 → next ≤ MAX_REGION_SEQUENCE) (worker : UInt32) :
    ∃ ref after, arena.reserve createAll required worker = (.ok ref, after) ∧
      Stocked first [small, large] largest after ∧
      if smalls = 0 then
        if larges = 0 then Stands small large (queue - 1) 0 (next + 1) after
        else Stands small large 0 (larges - 1) next after
      else Stands small large (smalls - 1) larges next after := by
  have isFirst : small ∈ [small, large] := List.mem_cons_self
  have isSecond : large ∈ [small, large] := by simp
  have wide : required ≤ large.slotCapacity := Nat.le_trans fits (Nat.le_of_lt double.smaller)
  obtain ⟨isSmall, isLarge, isNext⟩ := stands
  obtain ⟨ref, after, taken, granted, lasting, grant⟩ := stocked.grant double.standard positive
    within ⟨small, isFirst, fits⟩ double.sized (fun full => isNext ▸ room
      ⟨isSmall ▸ full small isFirst fits, isLarge ▸ full large isSecond wide⟩) worker
  refine ⟨ref, after, granted, lasting, ?_⟩
  have different := double.different
  have slots := double.slots.1
  have smaller := double.smaller
  cases grant with
  | found smallest free same =>
      have at_small := free small
      have at_large := free large
      rcases double.cases smallest.isClass with rfl | rfl
      · rw [if_pos rfl] at at_small
        rw [if_neg different] at at_large
        rw [if_neg (by omega)]
        exact ⟨by omega, by omega, same.trans isNext⟩
      · -- The larger class is taken only where the smaller one has none free.
        have none : ¬0 < freeOf small arena.slabs := fun offered =>
          absurd (smallest.least small isFirst fits offered) (Nat.not_le.mpr smaller)
        rw [if_neg different.symm] at at_small
        rw [if_pos rfl] at at_large
        rw [if_pos (by omega), if_neg (by omega)]
        exact ⟨by omega, by omega, same.trans isNext⟩
  | grown full smallest free more =>
      have at_small := free small
      have at_large := free large
      have none := full small isFirst fits
      have neither := full large isSecond wide
      have isSmallest : taken = small := by
        rcases double.cases smallest.isClass with same | rfl
        · exact same
        · exact absurd (smallest.least small isFirst fits trivial) (Nat.not_le.mpr smaller)
      rw [isSmallest] at at_small at_large
      rw [if_pos rfl, if_pos rfl] at at_small
      rw [if_neg different, if_neg different] at at_large
      rw [if_pos (by omega), if_pos (by omega)]
      exact ⟨by omega, by omega, by omega⟩

/-- Payloads of the smaller class: both classes are used up at once. -/
structure Ascending (small large : SlabSpec) (queue base commands : Nat) (arena : ArenaAllocator) :
    Prop where
  level : ∃ free rounds, Stands small large free free (base + 2 * rounds) arena ∧
    free + commands = rounds * queue

theorem Double.serve_ascending (ascending : Ascending small large queue base commands arena)
    {payload exception : Nat} (positive : 0 < payload) (fits : payload ≤ small.slotCapacity)
    (above : small.slotCapacity < exception) (wide : exception ≤ large.slotCapacity)
    (within : exception ≤ largest)
    (room : ∀ rounds, rounds * queue = commands → base + 2 * rounds + 1 ≤ MAX_REGION_SEQUENCE)
    (worker : UInt32) :
    ∃ after, BothReserved payload exception worker arena after ∧
      Stocked first [small, large] largest after ∧
      Ascending small large queue base (commands + 1) after := by
  obtain ⟨free, rounds, stands, level⟩ := ascending.level
  have used (none : free = 0) : base + 2 * rounds + 1 ≤ MAX_REGION_SEQUENCE :=
    room rounds (by omega)
  obtain ⟨primary, middle, first_, stocked, left⟩ := double.reserve_small stocked stands positive
    fits (by omega) (fun both => Nat.le_of_succ_le (used both.1)) worker
  by_cases none : free = 0
  · rw [if_pos none, if_pos none] at left
    obtain ⟨spare, after, second, stocked, left⟩ := double.reserve_large stocked left above wide
      within (fun _ => used none) worker
    rw [if_pos rfl] at left
    refine ⟨after, ⟨primary, middle, spare, first_, second⟩, stocked,
      ⟨queue - 1, rounds + 1, left, ?_⟩⟩
    rw [Nat.succ_mul]
    have nonempty := double.nonempty
    omega
  · rw [if_neg none] at left
    obtain ⟨spare, after, second, stocked, left⟩ := double.reserve_large stocked left above wide
      within (fun all => absurd all none) worker
    rw [if_neg none] at left
    exact ⟨after, ⟨primary, middle, spare, first_, second⟩, stocked,
      ⟨free - 1, rounds, left, by omega⟩⟩

/-- Payloads of the larger class: its free slots go in pairs where the smaller class has none. -/
structure Descending (small large : SlabSpec) (queue base commands : Nat)
    (arena : ArenaAllocator) : Prop where
  level : ∃ smalls larges slabs, Stands small large smalls larges (base + slabs) arena ∧
    smalls + larges + 2 * commands = slabs * queue ∧
    (smalls = larges ∨ smalls = 0 ∧ larges % 2 = 0)

theorem Double.serve_descending (even : queue % 2 = 0)
    (descending : Descending small large queue base commands arena) {payload exception : Nat}
    (positive : 0 < exception) (fits : exception ≤ small.slotCapacity)
    (above : small.slotCapacity < payload) (wide : payload ≤ large.slotCapacity)
    (within : payload ≤ largest)
    (room : ∀ slabs, slabs * queue = 2 * commands → base + slabs ≤ MAX_REGION_SEQUENCE)
    (worker : UInt32) :
    ∃ after, BothReserved payload exception worker arena after ∧
      Stocked first [small, large] largest after ∧
      Descending small large queue base (commands + 1) after := by
  obtain ⟨smalls, larges, slabs, stands, level, shape⟩ := descending.level
  obtain ⟨primary, middle, first_, stocked, left⟩ := double.reserve_large stocked stands above wide
    within (fun none => room slabs (by omega)) worker
  have nonempty := double.nonempty
  by_cases none : larges = 0
  · have empty : smalls = 0 := by omega
    rw [if_pos none] at left
    obtain ⟨spare, after, second, stocked, left⟩ := double.reserve_small stocked left positive fits
      (by omega) (fun both => absurd both.2 (by omega)) worker
    rw [if_pos empty, if_neg (by omega)] at left
    refine ⟨after, ⟨primary, middle, spare, first_, second⟩, stocked,
      ⟨0, queue - 1 - 1, slabs + 1, left, ?_, Or.inr ⟨rfl, by omega⟩⟩⟩
    rw [Nat.succ_mul slabs queue]
    omega
  · rw [if_neg none] at left
    -- The payload left a slot: without a smaller one free, the free larger ones were even.
    obtain ⟨spare, after, second, stocked, left⟩ := double.reserve_small stocked left positive fits
      (by omega) (fun both => absurd both.2 (by omega)) worker
    by_cases empty : smalls = 0
    · rw [if_pos empty, if_neg (by omega)] at left
      exact ⟨after, ⟨primary, middle, spare, first_, second⟩, stocked,
        ⟨0, larges - 1 - 1, slabs, left, by omega, Or.inr ⟨rfl, by omega⟩⟩⟩
    · rw [if_neg empty] at left
      exact ⟨after, ⟨primary, middle, spare, first_, second⟩, stocked,
        ⟨smalls - 1, larges - 1, slabs, left, by omega, Or.inl (by omega)⟩⟩

end Levels

end Hyperloader.Arena
