/-
Module: Hyperloader.Owner.RegionPlan
Purpose: The region plan of a process pool's owner: its classes, the sequences its rings and slabs
  get, and how many commands its classes hold before the sequences run out.
Trusted boundary: as in `Resources`; the system creates every region it is asked for.
Main exports: fixedClasses, Configured, Configured.new_eq, Level, Level.serve
-/
import Hyperloader.Arena.Levels
import Hyperloader.Owner.Provided

namespace Hyperloader.Owner

open Foundations
open Arena (ArenaAllocator Creation SlabSpec Standard Stocked createAll BothReserved Single Double
  Ascending Descending)

/-! ### The plan -/

/-- The classes of `process_slab_specs`, smallest first. -/
def fixedClasses (queueCapacity payloadCapacity exceptionCapacity : Nat) : List SlabSpec :=
  if payloadCapacity = exceptionCapacity then
    [⟨payloadCapacity, UInt32.ofNat queueCapacity * 2, false⟩]
  else
    [⟨min payloadCapacity exceptionCapacity, UInt32.ofNat queueCapacity, false⟩,
      ⟨max payloadCapacity exceptionCapacity, UInt32.ofNat queueCapacity, false⟩]

/-- One slot of twice the larger capacity for each worker. -/
def overflowClass (workerCount : UInt32) (payloadCapacity exceptionCapacity : Nat) : SlabSpec :=
  ⟨max payloadCapacity exceptionCapacity * 2, workerCount, true⟩

section Plan

variable {workerCount : UInt32} {queueCapacity payloadCapacity exceptionCapacity : Nat}
  {specs : List SlabSpec}

/-- The classes of an accepted plan. -/
theorem processSlabSpecs_ok
    (planned : processSlabSpecs workerCount queueCapacity payloadCapacity exceptionCapacity =
      .ok specs) :
    queueCapacity < 2 ^ 32 ∧
      (payloadCapacity = exceptionCapacity → queueCapacity * 2 < 2 ^ 32) ∧
      specs = fixedClasses queueCapacity payloadCapacity exceptionCapacity ++
        [overflowClass workerCount payloadCapacity exceptionCapacity] := by
  unfold processSlabSpecs at planned
  obtain ⟨narrow, planned⟩ := if_error_ok_iff.mp planned
  dsimp only at planned
  obtain ⟨-, planned⟩ := if_error_ok_iff.mp planned
  have few : queueCapacity < 2 ^ 32 := Nat.not_le.mp narrow
  unfold fixedClasses overflowClass
  split at planned
  · rename_i same
    obtain ⟨double, planned⟩ := if_error_ok_iff.mp planned
    rw [UInt32.toNat_ofNat_of_lt' few] at double
    rw [if_pos same]
    exact ⟨few, fun _ => Nat.not_le.mp double, (Except.ok.inj planned).symm⟩
  · rename_i different
    rw [if_neg different]
    refine ⟨few, fun same => absurd same different, (Except.ok.inj planned).symm.trans ?_⟩
    congr 1
    rcases Nat.lt_or_gt_of_ne different with less | greater
    · rw [Nat.min_eq_left (Nat.le_of_lt less), Nat.max_eq_right (Nat.le_of_lt less)]
      simp [List.insertionSort, Nat.le_of_lt less]
    · rw [Nat.min_eq_right (Nat.le_of_lt greater), Nat.max_eq_left (Nat.le_of_lt greater)]
      simp [List.insertionSort, List.orderedInsert, Nat.not_le.mpr greater]

theorem serves_fixedClasses :
    Serves (fixedClasses queueCapacity payloadCapacity exceptionCapacity)
      (max payloadCapacity exceptionCapacity) := by
  unfold fixedClasses
  split
  · rename_i same
    refine ⟨by simp [Standard], ?_⟩
    exact ⟨_, List.mem_cons_self, Nat.max_le.mpr ⟨Nat.le_refl _, Nat.le_of_eq same.symm⟩⟩
  · refine ⟨by simp [Standard], ?_⟩
    exact ⟨_, List.mem_cons_of_mem _ List.mem_cons_self, Nat.le_refl _⟩

/-- What the constructor and its transports accept, with classes of which no size overflows. -/
structure Configured (workerCount : UInt32)
    (queueCapacity payloadCapacity exceptionCapacity : Nat) (specs : List SlabSpec) : Prop where
  workers : 0 < workerCount.toNat ∧ workerCount.toNat ≤ MAX_WORKERS
  queue : ∃ layout, Transport.SharedLayout.new queueCapacity queueCapacity = .ok layout
  positive : 0 < payloadCapacity ∧ 0 < exceptionCapacity
  planned : processSlabSpecs workerCount queueCapacity payloadCapacity exceptionCapacity = .ok specs
  sized : ∀ spec ∈ specs, spec.slotCapacity * spec.slotsPerSlab.toNat < 2 ^ 64

variable
  (configured : Configured workerCount queueCapacity payloadCapacity exceptionCapacity specs)

include configured

theorem Configured.valid_queue : Transport.validateCapacity queueCapacity = .ok () := by
  obtain ⟨layout, accepted⟩ := configured.queue
  rcases Transport.SharedLayout.new_cases queueCapacity queueCapacity with
    ⟨valid, -⟩ | refused | refused
  · exact valid
  · nomatch accepted.symm.trans refused
  · nomatch accepted.symm.trans refused

theorem Configured.queue_pos : 0 < queueCapacity ∧ queueCapacity % 2 = 0 := by
  obtain ⟨wide, -, power, rfl⟩ :=
    Transport.validateCapacity_ok_iff.mp configured.valid_queue
  cases power with
  | zero => exact absurd wide (by decide)
  | succ power =>
      refine ⟨Nat.lt_of_lt_of_le Nat.zero_lt_two wide, ?_⟩
      rw [Nat.pow_succ]
      exact Nat.mul_mod_left _ _

theorem Configured.specs_eq :
    specs = fixedClasses queueCapacity payloadCapacity exceptionCapacity ++
      [overflowClass workerCount payloadCapacity exceptionCapacity] :=
  (processSlabSpecs_ok configured.planned).2.2

theorem Configured.slots : (UInt32.ofNat queueCapacity).toNat = queueCapacity :=
  UInt32.toNat_ofNat_of_lt' (processSlabSpecs_ok configured.planned).1

/-- Payloads and exceptions share a class that is large enough for both. -/
theorem Configured.paired (same : payloadCapacity = exceptionCapacity) :
    (UInt32.ofNat queueCapacity * 2).toNat = 2 * queueCapacity := by
  have small := (processSlabSpecs_ok configured.planned).2.1 same
  rw [UInt32.toNat_mul, configured.slots]
  exact (Nat.mod_eq_of_lt small).trans (Nat.mul_comm _ _)

/-- An accepted configuration gives specs that the arena accepts. -/
theorem Configured.valid_specs : Arena.validateSpecs specs = .ok () := by
  obtain ⟨some, even⟩ := configured.queue_pos
  obtain ⟨payload, exception⟩ := configured.positive
  have workers := configured.workers.1
  have slots := configured.slots
  rw [configured.specs_eq, Arena.validateSpecs_ok_iff]
  unfold fixedClasses overflowClass
  split
  · rename_i same
    have paired := configured.paired same
    refine ⟨by simp, ?_, ?_, rfl, rfl⟩
    · simp only [List.cons_append, List.nil_append, List.forall_mem_cons, paired]
      refine ⟨⟨payload, by omega⟩, ⟨by omega, workers⟩, nofun⟩
    · simp only [Arena.ascending, List.cons_append, List.nil_append, List.tail_cons,
        List.zip_cons_cons, List.zip_nil_right, List.forall_mem_cons]
      exact ⟨⟨by omega, trivial⟩, nofun⟩
  · rename_i different
    refine ⟨by simp, ?_, ?_, rfl, rfl⟩
    · simp only [List.cons_append, List.nil_append, List.forall_mem_cons, slots]
      exact ⟨⟨by omega, some⟩, ⟨by omega, some⟩, ⟨by omega, workers⟩, nofun⟩
    · simp only [Arena.ascending, List.cons_append, List.nil_append, List.tail_cons,
        List.zip_cons_cons, List.zip_nil_right, List.forall_mem_cons]
      exact ⟨⟨by omega, trivial⟩, ⟨by omega, trivial⟩, nofun⟩

end Plan

/-! ### New resources -/

/-- The sequences of the rings and of the slabs. -/
def ProcessResources.sequences (resources : ProcessResources) : List Nat :=
  resources.transports.flatMap (fun ring => (ring.map fun ring => ring.sequence.toNat).toList) ++
    resources.allocator.slabs.map fun slab => slab.sequence.toNat

/-- The rings of the workers, numbered as they are. -/
def rings (workerCount queueCapacity : Nat) : List CommandTransport :=
  (List.range workerCount).map fun worker =>
    ⟨UInt16.ofNat worker, queueCapacity, queueCapacity⟩

theorem mapM_rings {queueCapacity : Nat}
    (queue : ∃ layout, Transport.SharedLayout.new queueCapacity queueCapacity = .ok layout)
    (workers : List Nat) :
    (workers.mapM fun worker => (CommandTransport.create createAll (UInt16.ofNat worker)
      queueCapacity queueCapacity).mapError ResourcesError.transport) =
      .ok (workers.map fun worker => ⟨UInt16.ofNat worker, queueCapacity, queueCapacity⟩) := by
  obtain ⟨layout, accepted⟩ := queue
  induction workers with
  | nil => rfl
  | cons worker workers ih =>
      have created : CommandTransport.create createAll (UInt16.ofNat worker) queueCapacity
          queueCapacity = .ok ⟨UInt16.ofNat worker, queueCapacity, queueCapacity⟩ := by
        unfold CommandTransport.create
        rw [accepted]
        rfl
      rw [List.mapM_cons, created, ih]
      rfl

section Opening

variable {workerCount : UInt32} {queueCapacity payloadCapacity exceptionCapacity : Nat}
  {specs : List SlabSpec}
  (configured : Configured workerCount queueCapacity payloadCapacity exceptionCapacity specs)

include configured

theorem Configured.first : (UInt16.ofNat workerCount.toNat).toNat = workerCount.toNat := by
  apply UInt16.toNat_ofNat_of_lt'
  have few := configured.workers.2
  unfold MAX_WORKERS at few
  exact Nat.lt_of_le_of_lt few (by decide)

/-- Only the regions of the slabs may be too many. -/
theorem Configured.new_eq (bytes : Nat → Nat → UInt8) :
    ProcessResources.new createAll workerCount queueCapacity payloadCapacity exceptionCapacity
        bytes =
      (ArenaAllocator.new createAll specs .safe (UInt16.ofNat workerCount.toNat) bytes).mapError
          .arena >>= fun allocator =>
        .ok { allocator, transports := (rings workerCount.toNat queueCapacity).map some,
              queueCapacity, payloadCapacity, exceptionCapacity, pending := [] } := by
  have some : ¬(workerCount = 0 ∨ MAX_WORKERS < workerCount.toNat) := by
    rintro (rfl | many)
    · exact absurd configured.workers.1 (by decide)
    · exact absurd configured.workers.2 (Nat.not_le.mpr many)
  have positive : ¬(payloadCapacity = 0 ∨ exceptionCapacity = 0) := by
    have both := configured.positive
    omega
  unfold ProcessResources.new
  rw [if_neg some, if_neg positive, mapM_rings configured.queue, configured.planned]
  rfl

omit configured in
theorem max_fixedClasses :
    ((fixedClasses queueCapacity payloadCapacity exceptionCapacity).map
      SlabSpec.slotCapacity).max? = some (max payloadCapacity exceptionCapacity) := by
  unfold fixedClasses
  split
  · rename_i same
    rw [same, Nat.max_self]
    rfl
  · show some (max (min _ _) (max _ _)) = _
    rw [Nat.max_eq_right (by omega)]

/-- With a sequence for each class the resources open. -/
theorem Configured.opens (room : workerCount.toNat + specs.length ≤ Arena.MAX_REGION_SEQUENCE + 1)
    (bytes : Nat → Nat → UInt8) :
    ∃ resources, ProcessResources.new createAll workerCount queueCapacity payloadCapacity
      exceptionCapacity bytes = .ok resources := by
  have classes := configured.specs_eq
  have valid := configured.valid_specs
  have isLargest : ((specs.filter fun spec => !spec.overflow).map SlabSpec.slotCapacity).max? =
      some (max payloadCapacity exceptionCapacity) := by
    rw [classes, Arena.filter_standard serves_fixedClasses.1 rfl]
    exact max_fixedClasses
  obtain ⟨allocator, made⟩ := ArenaAllocator.new_ok valid isLargest configured.sized .safe
    (configured.first ▸ room) bytes
  rw [configured.new_eq, made]
  exact ⟨_, rfl⟩

end Opening

/-! ### Levels of the classes -/

/-- The classes of a plan that has only been filled, after a number of commands. -/
inductive Level (queue payload exception base commands : Nat) (arena : ArenaAllocator) : Prop
  | merged (same : payload = exception)
      (single : Single ⟨payload, UInt32.ofNat queue * 2, false⟩ base (2 * commands) arena)
  | ascending (less : payload < exception)
      (level : Ascending ⟨payload, UInt32.ofNat queue, false⟩
        ⟨exception, UInt32.ofNat queue, false⟩ queue base commands arena)
  | descending (greater : exception < payload)
      (level : Descending ⟨exception, UInt32.ofNat queue, false⟩
        ⟨payload, UInt32.ofNat queue, false⟩ queue base commands arena)

/-- The worker counts whose queues the sequences are enough for. -/
def Fits (workers payload exception : Nat) : Prop :=
  payload = exception ∧ workers ≤ 511 ∨ payload ≠ exception ∧ workers ≤ 341

theorem fixedClasses_of_lt (queue : Nat) {payload exception : Nat} (less : payload < exception) :
    fixedClasses queue payload exception =
      [⟨payload, UInt32.ofNat queue, false⟩, ⟨exception, UInt32.ofNat queue, false⟩] := by
  unfold fixedClasses
  rw [if_neg (Nat.ne_of_lt less), Nat.min_eq_left (Nat.le_of_lt less),
    Nat.max_eq_right (Nat.le_of_lt less)]

theorem fixedClasses_of_gt (queue : Nat) {payload exception : Nat} (greater : exception < payload) :
    fixedClasses queue payload exception =
      [⟨exception, UInt32.ofNat queue, false⟩, ⟨payload, UInt32.ofNat queue, false⟩] := by
  unfold fixedClasses
  rw [if_neg (Nat.ne_of_gt greater), Nat.min_eq_right (Nat.le_of_lt greater),
    Nat.max_eq_left (Nat.le_of_lt greater)]

/-- One fixed class serves at most 511 workers. -/
theorem Fits.merged {workers payload : Nat} (fits : Fits workers payload payload) :
    workers ≤ 511 := by
  rcases fits with ⟨-, limit⟩ | ⟨different, -⟩
  · exact limit
  · exact absurd rfl different

/-- Two fixed classes serve at most 341 workers. -/
theorem Fits.separate {workers payload exception : Nat} (fits : Fits workers payload exception)
    (different : payload ≠ exception) : workers ≤ 341 := by
  rcases fits with ⟨same, -⟩ | ⟨-, limit⟩
  · exact absurd same different
  · exact limit

section Filling

variable {workerCount : UInt32} {queueCapacity payloadCapacity exceptionCapacity : Nat}
  {specs : List SlabSpec}
  (configured : Configured workerCount queueCapacity payloadCapacity exceptionCapacity specs)

include configured

theorem Configured.double {small large : Nat} (less : small < large)
    (classes : fixedClasses queueCapacity payloadCapacity exceptionCapacity =
      [⟨small, UInt32.ofNat queueCapacity, false⟩, ⟨large, UInt32.ofNat queueCapacity, false⟩]) :
    Double ⟨small, UInt32.ofNat queueCapacity, false⟩ ⟨large, UInt32.ofNat queueCapacity, false⟩
      queueCapacity := by
  refine ⟨less, configured.queue_pos.1, ?_, ⟨configured.slots, configured.slots⟩, ?_⟩
  · exact classes ▸ serves_fixedClasses.1
  · intro spec isClass
    apply configured.sized
    rw [configured.specs_eq, classes]
    exact List.mem_append_left _ isClass

/-- Another command while some queue has room. -/
theorem Level.serve {commands : Nat} {arena : ArenaAllocator}
    (fits : Fits workerCount.toNat payloadCapacity exceptionCapacity)
    (level : Level queueCapacity payloadCapacity exceptionCapacity (workerCount.toNat + 1) commands
      arena) {first : Nat}
    (stocked : Stocked first (fixedClasses queueCapacity payloadCapacity exceptionCapacity)
      (max payloadCapacity exceptionCapacity) arena)
    (room : commands < workerCount.toNat * queueCapacity) (worker : UInt32) :
    ∃ after, BothReserved payloadCapacity exceptionCapacity worker arena after ∧
      Stocked first (fixedClasses queueCapacity payloadCapacity exceptionCapacity)
        (max payloadCapacity exceptionCapacity) after ∧
      Level queueCapacity payloadCapacity exceptionCapacity (workerCount.toNat + 1) (commands + 1)
        after := by
  obtain ⟨some, even⟩ := configured.queue_pos
  obtain ⟨payload, exception⟩ := configured.positive
  have few {rounds : Nat} (used : rounds * queueCapacity ≤ commands) :
      rounds < workerCount.toNat :=
    Nat.lt_of_mul_lt_mul_right (Nat.lt_of_le_of_lt used room)
  cases level with
  | merged same single =>
      subst same
      have classes : fixedClasses queueCapacity payloadCapacity payloadCapacity =
          [⟨payloadCapacity, UInt32.ofNat queueCapacity * 2, false⟩] := if_pos rfl
      have sized := configured.sized
      rw [configured.specs_eq] at sized
      rw [classes] at stocked sized ⊢
      obtain ⟨after, both, lasting, next⟩ := single.serve stocked rfl payload (Nat.le_max_left _ _)
        (sized _ List.mem_cons_self) (configured.paired rfl) (fun slabs used => by
          have less := few (Nat.le_of_eq used)
          have limit := fits.merged
          show _ ≤ 1023
          omega) worker
      exact ⟨after, both, lasting, .merged rfl next⟩
  | ascending less level =>
      have classes := fixedClasses_of_lt queueCapacity less
      have double := configured.double less classes
      rw [classes] at stocked ⊢
      obtain ⟨after, both, lasting, next⟩ := double.serve_ascending stocked level payload
        (Nat.le_refl _) less (Nat.le_refl _) (Nat.le_max_right _ _) (fun rounds used => by
          have behind := few (Nat.le_of_eq used)
          have limit := fits.separate (Nat.ne_of_lt less)
          show _ ≤ 1023
          omega) worker
      exact ⟨after, both, lasting, .ascending less next⟩
  | descending greater level =>
      have classes := fixedClasses_of_gt queueCapacity greater
      have double := configured.double greater classes
      rw [classes] at stocked ⊢
      obtain ⟨after, both, lasting, next⟩ := double.serve_descending stocked even level exception
        (Nat.le_refl _) greater (Nat.le_refl _) (Nat.le_max_left _ _) (fun slabs used => by
          have less : slabs < 2 * workerCount.toNat := by
            apply Nat.lt_of_mul_lt_mul_right (a := queueCapacity)
            rw [used, Nat.mul_assoc]
            omega
          have limit := fits.separate (Nat.ne_of_gt greater)
          show _ ≤ 1023
          omega) worker
      exact ⟨after, both, lasting, .descending greater next⟩

/-- The classes of new resources. -/
theorem Configured.level_new {create : Creation} {bytes : Nat → Nat → UInt8}
    {arena : ArenaAllocator}
    (made : ArenaAllocator.new create specs .safe (UInt16.ofNat workerCount.toNat) bytes =
      .ok arena) :
    Level queueCapacity payloadCapacity exceptionCapacity (workerCount.toNat + 1) 0 arena := by
  obtain ⟨slabs, -, -⟩ := ArenaAllocator.new_slabs made
  have next : arena.inner.nextSequence = workerCount.toNat + specs.length := by
    have counted := (ArenaAllocator.new_sound made).next
    have count := congrArg List.length (Arena.map_spec_freshSlabs specs workerCount.toNat)
    rw [List.length_map] at count
    rw [configured.first] at counted slabs
    rw [← count, ← slabs]
    exact counted
  have classes := configured.specs_eq
  rcases Nat.lt_trichotomy payloadCapacity exceptionCapacity with less | rfl | greater
  · have fixed := fixedClasses_of_lt queueCapacity less
    have double := configured.double less fixed
    rw [fixed] at classes
    rw [classes] at slabs next
    have stands := double.stands_new slabs rfl next
    exact .ascending less ⟨queueCapacity, 1, stands, by omega⟩
  · have fixed : fixedClasses queueCapacity payloadCapacity payloadCapacity =
        [⟨payloadCapacity, UInt32.ofNat queueCapacity * 2, false⟩] := if_pos rfl
    rw [fixed] at classes
    rw [classes] at slabs next
    exact .merged rfl (.of_new slabs rfl rfl next)
  · have fixed := fixedClasses_of_gt queueCapacity greater
    have double := configured.double greater fixed
    rw [fixed] at classes
    rw [classes] at slabs next
    have stands := double.stands_new slabs rfl next
    exact .descending greater ⟨queueCapacity, queueCapacity, 2, stands, by omega, Or.inl rfl⟩

end Filling

end Hyperloader.Owner
