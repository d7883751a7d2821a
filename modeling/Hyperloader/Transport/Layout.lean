/-
Module: Hyperloader.Transport.Layout
Purpose: The shared region of one transport as exec/transport/layout.rs lays it out: the sizes
  and offsets of a pair of capacities, the preparation of a mapped region, and the check of a
  worker that attaches to it.
Trusted boundary: none
Main exports: SharedLayout.new, alignedBase, initializeRegion, validate, SharedLayout.objects,
  SharedLayout.words, layout_sound
-/
import Hyperloader.Foundations.MemoryLayout
import Hyperloader.Transport.Ring

namespace Hyperloader.Transport

open Foundations

def CACHE_LINE : Nat := 64

namespace Layout

def MAGIC : List UInt8 := [0x48, 0x4C, 0x43, 0x4D, 0x44, 0x52, 0x4E, 0x47]

def VERSION : UInt32 := 1

def READY : UInt32 := 1

end Layout

/-! ### Records of the region -/

/-- The first 128 bytes of a region. -/
@[ext]
structure TransportHeader where
  magic : List UInt8
  version : UInt32
  ready : UInt32
  dispatchCapacity : UInt32
  completionCapacity : UInt32
  payloadSize : UInt64
  dispatchOffset : UInt64
  completionOffset : UInt64
  reserved : List UInt8

/-- `#[repr(C, align(64))]`: the magic, four words of 32 bits, three of 64, the reserve. -/
def TransportHeader.record : Record where
  align := 64
  fields := [⟨8, 1⟩, ⟨4, 4⟩, ⟨4, 4⟩, ⟨4, 4⟩, ⟨4, 4⟩, ⟨8, 8⟩, ⟨8, 8⟩, ⟨8, 8⟩, ⟨80, 1⟩]
  positive := by decide
  divides := by decide

/-- Two positions, each padded to a cache line. -/
def RingHeader.record : Record where
  align := 64
  fields := [⟨8, 8⟩, ⟨56, 1⟩, ⟨8, 8⟩, ⟨56, 1⟩]
  positive := by decide
  divides := by decide

/-- A sequence and a frame. -/
def RingSlot.record : Record where
  align := 64
  fields := [⟨8, 8⟩, ⟨FRAME_SIZE, 1⟩]
  positive := by decide
  divides := by decide

/-- The bytes of the fields, which leave no gap. -/
def TransportHeader.bytes (header : TransportHeader) : List (List UInt8) :=
  [header.magic, toLittleEndian 4 header.version.toNat, toLittleEndian 4 header.ready.toNat,
    toLittleEndian 4 header.dispatchCapacity.toNat,
    toLittleEndian 4 header.completionCapacity.toNat,
    toLittleEndian 8 header.payloadSize.toNat, toLittleEndian 8 header.dispatchOffset.toNat,
    toLittleEndian 8 header.completionOffset.toNat, header.reserved]

def RingHeader.bytes : List UInt8 :=
  toLittleEndian 8 0 ++ List.replicate 56 0 ++ toLittleEndian 8 0 ++ List.replicate 56 0

/-- A new slot; the bytes after its frame are padding and not written. -/
def RingSlot.bytes (sequence : UInt64) : List UInt8 :=
  toLittleEndian 8 sequence.toNat ++ List.replicate FRAME_SIZE 0

/-! ### Sizes -/

/-- The result of a checked operation on `usize`. -/
def checkedSize (value : Nat) : Except LayoutError Nat :=
  if value < 2 ^ 64 then .ok value else .error .layoutOverflow

def queueSize (capacity : Nat) : Except LayoutError Nat := do
  let slots ← checkedSize (RingSlot.record.size * capacity)
  checkedSize (RingHeader.record.size + slots)

/-- Where the two queues of a region begin and how long it is. -/
structure SharedLayout where
  dispatchCapacity : Nat
  completionCapacity : Nat
  dispatchOffset : Nat
  completionOffset : Nat
  layoutSize : Nat
  payloadSize : Nat

def SharedLayout.new (dispatchCapacity completionCapacity : Nat) :
    Except LayoutError SharedLayout := do
  validateCapacity dispatchCapacity
  validateCapacity completionCapacity
  let dispatchOffset := TransportHeader.record.size
  let dispatchSize ← queueSize dispatchCapacity
  let completionOffset ← checkedSize (dispatchOffset + dispatchSize)
  let completionSize ← queueSize completionCapacity
  let layoutSize ← checkedSize (completionOffset + completionSize)
  let payloadSize ← checkedSize (layoutSize + (CACHE_LINE - 1))
  return { dispatchCapacity, completionCapacity, dispatchOffset, completionOffset, layoutSize,
           payloadSize }

def TransportHeader.new (layout : SharedLayout) : TransportHeader where
  magic := Layout.MAGIC
  version := Layout.VERSION
  ready := 0
  dispatchCapacity := UInt32.ofNat layout.dispatchCapacity
  completionCapacity := UInt32.ofNat layout.completionCapacity
  payloadSize := UInt64.ofNat layout.payloadSize
  dispatchOffset := UInt64.ofNat layout.dispatchOffset
  completionOffset := UInt64.ofNat layout.completionOffset
  reserved := List.replicate 80 0

/-! ### Regions -/

/-- Where a process maps the payload of a region. -/
structure Mapping (payloadSize : Nat) where
  payload : Nat
  small : payloadSize < 2 ^ 64
  fits : payload + payloadSize ≤ 2 ^ 64

/-- A queue where a process maps it: the addresses of its header and of its slots. -/
structure MappedQueue where
  header : Nat
  slots : Nat
  view : QueueView

def MappedQueue.new (header capacity : Nat) : MappedQueue :=
  ⟨header, header + RingHeader.record.size, QueueView.new capacity⟩

/-- The addresses of a queue from the start of the payload. -/
def MappedQueue.relative (queue : MappedQueue) (payload : Nat) : Int × Int × QueueView :=
  (queue.header - payload, queue.slots - payload, queue.view)

variable {payloadSize : Nat}

/-- `payload.align_offset(CACHE_LINE)` -/
def alignOffset (payload : Nat) : Nat := alignUp CACHE_LINE payload - payload

/-- The first cache line of the payload, where the region fits behind it. -/
def alignedBase (mapping : Mapping payloadSize) (layout : SharedLayout) :
    Except LayoutError Nat :=
  let padding := alignOffset mapping.payload
  if padding + layout.layoutSize < 2 ^ 64 ∧ padding + layout.layoutSize ≤ payloadSize then
    .ok (mapping.payload + padding)
  else .error (.headerMismatch "alignment")

/-- `ptr::write` of the bytes of a value at an address of the mapping. -/
def Mapping.write (mapping : Mapping payloadSize) (memory : Frame payloadSize) (address : Nat)
    (bytes : List UInt8) : Frame payloadSize :=
  memory.copy (address - mapping.payload) bytes

def Mapping.read (mapping : Mapping payloadSize) (memory : Frame payloadSize)
    (address width : Nat) : List UInt8 :=
  memory.slice (address - mapping.payload) width

def Mapping.initializeQueue (mapping : Mapping payloadSize) (memory : Frame payloadSize)
    (base capacity : Nat) : Frame payloadSize :=
  let slots := base + RingHeader.record.size
  (List.range capacity).foldl (fun memory index =>
    mapping.write memory (slots + RingSlot.record.size * index)
      (RingSlot.bytes (UInt64.ofNat index)))
    (mapping.write memory base RingHeader.bytes)

def mappedQueues (base : Nat) (layout : SharedLayout) : MappedQueue × MappedQueue :=
  (.new (base + layout.dispatchOffset) layout.dispatchCapacity,
    .new (base + layout.completionOffset) layout.completionCapacity)

/-- The offset of `ready` in the header. -/
def readyOffset : Nat := 12

/-- Write the header and both queues into the mapping. -/
def initializeRegion (mapping : Mapping payloadSize) (layout : SharedLayout)
    (memory : Frame payloadSize) :
    Except LayoutError (Frame payloadSize × MappedQueue × MappedQueue) := do
  let base ← alignedBase mapping layout
  let memory := mapping.write memory base (TransportHeader.new layout).bytes.flatten
  let memory := mapping.initializeQueue memory (base + layout.dispatchOffset)
    layout.dispatchCapacity
  let memory := mapping.initializeQueue memory (base + layout.completionOffset)
    layout.completionCapacity
  let memory := mapping.write memory (base + readyOffset)
    (toLittleEndian 4 Layout.READY.toNat)
  return (memory, mappedQueues base layout)

/-- The header at an address. -/
def TransportHeader.load (mapping : Mapping payloadSize) (memory : Frame payloadSize)
    (base : Nat) : TransportHeader where
  magic := mapping.read memory base 8
  version := UInt32.ofNat (fromLittleEndian (mapping.read memory (base + 8) 4))
  ready := UInt32.ofNat (fromLittleEndian (mapping.read memory (base + 12) 4))
  dispatchCapacity := UInt32.ofNat (fromLittleEndian (mapping.read memory (base + 16) 4))
  completionCapacity := UInt32.ofNat (fromLittleEndian (mapping.read memory (base + 20) 4))
  payloadSize := UInt64.ofNat (fromLittleEndian (mapping.read memory (base + 24) 8))
  dispatchOffset := UInt64.ofNat (fromLittleEndian (mapping.read memory (base + 32) 8))
  completionOffset := UInt64.ofNat (fromLittleEndian (mapping.read memory (base + 40) 8))
  reserved := mapping.read memory (base + 48) 80

/-- Check a mapped region against the layout and find its queues. -/
def validate (mapping : Mapping payloadSize) (layout : SharedLayout)
    (memory : Frame payloadSize) : Except LayoutError (MappedQueue × MappedQueue) := do
  let base ← alignedBase mapping layout
  let header := TransportHeader.load mapping memory base
  if header.ready ≠ Layout.READY then .error (.headerMismatch "publication state")
  else if header.magic ≠ Layout.MAGIC then .error (.headerMismatch "magic")
  else if header.version ≠ Layout.VERSION then .error (.headerMismatch "version")
  else if header.dispatchCapacity ≠ UInt32.ofNat layout.dispatchCapacity ∨
      header.completionCapacity ≠ UInt32.ofNat layout.completionCapacity then
    .error (.headerMismatch "capacities")
  else if header.payloadSize ≠ UInt64.ofNat layout.payloadSize ∨
      header.dispatchOffset ≠ UInt64.ofNat layout.dispatchOffset ∨
      header.completionOffset ≠ UInt64.ofNat layout.completionOffset ∨
      header.reserved.any (fun byte => byte != 0) = true then
    .error (.headerMismatch "layout")
  else .ok (mappedQueues base layout)

/-! ### Accepted capacities -/

/-- The sizes of a pair of capacities. -/
def SharedLayout.sized (dispatchCapacity completionCapacity : Nat) : SharedLayout where
  dispatchCapacity := dispatchCapacity
  completionCapacity := completionCapacity
  dispatchOffset := 128
  completionOffset := 256 + 192 * dispatchCapacity
  layoutSize := 384 + 192 * dispatchCapacity + 192 * completionCapacity
  payloadSize := 447 + 192 * dispatchCapacity + 192 * completionCapacity

theorem SharedLayout.layoutSize_sized (dispatch completion : Nat) :
    (SharedLayout.sized dispatch completion).layoutSize =
      384 + 192 * dispatch + 192 * completion := rfl

@[simp] theorem TransportHeader.size_record : TransportHeader.record.size = 128 := rfl

@[simp] theorem RingHeader.size_record : RingHeader.record.size = 128 := rfl

@[simp] theorem RingSlot.size_record : RingSlot.record.size = 192 := rfl

theorem checkedSize_of_lt {value : Nat} (small : value < 2 ^ 64) :
    checkedSize value = .ok value := if_pos small

theorem queueSize_of_lt {capacity : Nat} (small : capacity < 2 ^ 32) :
    queueSize capacity = .ok (128 + 192 * capacity) := by
  have slots : checkedSize (192 * capacity) = .ok (192 * capacity) :=
    checkedSize_of_lt (by omega)
  have queue : checkedSize (128 + 192 * capacity) = .ok (128 + 192 * capacity) :=
    checkedSize_of_lt (by omega)
  unfold queueSize
  rw [RingSlot.size_record, RingHeader.size_record, slots]
  exact queue

theorem lt_of_validateCapacity {capacity : Nat} (valid : validateCapacity capacity = .ok ()) :
    capacity < 2 ^ 32 := (validateCapacity_ok_iff.mp valid).2.1

/-- Past the two checks the layout of the capacities is exact: no checked operation fails. -/
theorem SharedLayout.new_of_valid {dispatch completion : Nat}
    (dispatchValid : validateCapacity dispatch = .ok ())
    (completionValid : validateCapacity completion = .ok ()) :
    SharedLayout.new dispatch completion = .ok (.sized dispatch completion) := by
  have few := lt_of_validateCapacity dispatchValid
  have little := lt_of_validateCapacity completionValid
  have first : checkedSize (128 + (128 + 192 * dispatch)) =
      .ok (128 + (128 + 192 * dispatch)) := checkedSize_of_lt (by omega)
  have second : checkedSize (128 + (128 + 192 * dispatch) + (128 + 192 * completion)) =
      .ok (128 + (128 + 192 * dispatch) + (128 + 192 * completion)) :=
    checkedSize_of_lt (by omega)
  have third : checkedSize (128 + (128 + 192 * dispatch) + (128 + 192 * completion) + 63) =
      .ok (128 + (128 + 192 * dispatch) + (128 + 192 * completion) + 63) :=
    checkedSize_of_lt (by omega)
  have same : SharedLayout.sized dispatch completion =
      ⟨dispatch, completion, 128, 128 + (128 + 192 * dispatch),
        128 + (128 + 192 * dispatch) + (128 + 192 * completion),
        128 + (128 + 192 * dispatch) + (128 + 192 * completion) + 63⟩ := by
    unfold sized
    congr 1 <;> omega
  apply bind_ok_iff.mpr ⟨_, dispatchValid, ?_⟩
  apply bind_ok_iff.mpr ⟨_, completionValid, ?_⟩
  apply bind_ok_iff.mpr ⟨_, queueSize_of_lt few, ?_⟩
  apply bind_ok_iff.mpr ⟨_, first, ?_⟩
  apply bind_ok_iff.mpr ⟨_, queueSize_of_lt little, ?_⟩
  apply bind_ok_iff.mpr ⟨_, second, ?_⟩
  apply bind_ok_iff.mpr ⟨_, third, ?_⟩
  rw [same]
  rfl

theorem validateCapacity_cases (capacity : Nat) :
    validateCapacity capacity = .ok () ∨
      validateCapacity capacity = .error (.invalidCapacity capacity) := by
  unfold validateCapacity
  split
  · exact Or.inr rfl
  · exact Or.inl rfl

/-- A layout is refused for one of its capacities only. -/
theorem SharedLayout.new_cases (dispatch completion : Nat) :
    (validateCapacity dispatch = .ok () ∧ validateCapacity completion = .ok () ∧
      SharedLayout.new dispatch completion = .ok (.sized dispatch completion)) ∨
    SharedLayout.new dispatch completion = .error (.invalidCapacity dispatch) ∨
    SharedLayout.new dispatch completion = .error (.invalidCapacity completion) := by
  rcases validateCapacity_cases dispatch with first | first
  · rcases validateCapacity_cases completion with second | second
    · exact Or.inl ⟨first, second, new_of_valid first second⟩
    · right; right
      unfold new
      rw [first, second]
      rfl
  · right; left
    unfold new
    rw [first]
    rfl

variable {layout : SharedLayout}

/-- An accepted layout has 32-bit capacities and is the computed one. -/
theorem SharedLayout.new_ok {dispatch completion : Nat}
    (accepted : SharedLayout.new dispatch completion = .ok layout) :
    dispatch < 2 ^ 32 ∧ completion < 2 ^ 32 ∧ layout = .sized dispatch completion := by
  rcases new_cases dispatch completion with ⟨first, second, exact⟩ | refused | refused
  · rw [exact] at accepted
    exact ⟨lt_of_validateCapacity first, lt_of_validateCapacity second,
      (Except.ok.inj accepted).symm⟩
  · rw [refused] at accepted
    nomatch accepted
  · rw [refused] at accepted
    nomatch accepted

/-! ### Places -/

/-- The header and the slots of a queue, as the code addresses them. -/
def MappedQueue.objects (queue : MappedQueue) : List Place :=
  RingHeader.record.placed queue.header ::
    (RingSlot.record.elements queue.slots queue.view.capacity.toNat).map RingSlot.record.placed

/-- Every control word, frame and padding of a queue. -/
def MappedQueue.words (queue : MappedQueue) : List Place :=
  RingHeader.record.placedFields queue.header ++
    (RingSlot.record.elements queue.slots queue.view.capacity.toNat).flatMap
      RingSlot.record.placedFields

/-- The typed objects of a region whose header is at `base`. -/
def regionObjects (base : Nat) (queues : MappedQueue × MappedQueue) : List Place :=
  TransportHeader.record.placed base :: (queues.1.objects ++ queues.2.objects)

/-- The words of these objects. -/
def regionWords (base : Nat) (queues : MappedQueue × MappedQueue) : List Place :=
  TransportHeader.record.placedFields base ++ (queues.1.words ++ queues.2.words)

theorem dvd_sum {base offset : Nat} (aligned : 64 ∣ base) (whole : 64 ∣ offset) :
    64 ∣ base + offset := Nat.dvd_add aligned whole

variable {header capacity : Nat}

theorem MappedQueue.capacity_new (small : capacity < 2 ^ 32) :
    (MappedQueue.new header capacity).view.capacity.toNat = capacity :=
  UInt64.toNat_ofNat_of_lt' (Nat.lt_trans small (by decide))

/-- The objects of a queue follow each other without overlap. -/
theorem MappedQueue.packed_objects (small : capacity < 2 ^ 32) (aligned : 64 ∣ header) :
    Packed header (MappedQueue.new header capacity).objects (header + 128 + 192 * capacity) := by
  have slots : Packed (header + 128)
      ((RingSlot.record.elements (header + 128) capacity).map RingSlot.record.placed)
      (header + 128 + 192 * capacity) :=
    RingSlot.record.packed_elements (dvd_sum aligned (by decide)) capacity
  unfold objects
  rw [capacity_new small]
  exact ⟨Nat.le_refl header, aligned, slots⟩

theorem MappedQueue.packed_words (small : capacity < 2 ^ 32) (aligned : 64 ∣ header) :
    Packed header (MappedQueue.new header capacity).words (header + 128 + 192 * capacity) := by
  have positions : Packed header (RingHeader.record.placedFields header) (header + 128) :=
    RingHeader.record.packed_placedFields aligned
  have slots : Packed (header + 128)
      ((RingSlot.record.elements (header + 128) capacity).flatMap RingSlot.record.placedFields)
      (header + 128 + 192 * capacity) :=
    RingSlot.record.packed_elementFields (dvd_sum aligned (by decide)) capacity
  unfold words
  rw [capacity_new small]
  exact positions.append slots

section Regions

variable {base dispatch completion : Nat}

/-- Both queues start at multiples of a cache line. -/
theorem aligned_queues (aligned : 64 ∣ base) :
    64 ∣ base + 128 ∧ 64 ∣ base + (256 + 192 * dispatch) := by
  constructor
  · exact dvd_sum aligned (by decide)
  · apply dvd_sum aligned
    exact Nat.dvd_add (by decide) (Nat.dvd_trans (by decide) (Nat.dvd_mul_right 192 dispatch))

/-- So do the objects of a region. -/
theorem packed_regionObjects (few : dispatch < 2 ^ 32) (little : completion < 2 ^ 32)
    (aligned : 64 ∣ base) :
    Packed base (regionObjects base (mappedQueues base (.sized dispatch completion)))
      (base + (SharedLayout.sized dispatch completion).layoutSize) := by
  obtain ⟨first, second⟩ := @aligned_queues base dispatch aligned
  have dispatched := MappedQueue.packed_objects few first
  have completed := MappedQueue.packed_objects little second
  have stop : base + 128 + 128 + 192 * dispatch = base + (256 + 192 * dispatch) := by omega
  rw [stop] at dispatched
  refine ⟨Nat.le_refl base, aligned, ?_⟩
  apply (dispatched.append completed).weaken (Nat.le_refl _)
  rw [SharedLayout.layoutSize_sized]
  omega

theorem packed_regionWords (few : dispatch < 2 ^ 32) (little : completion < 2 ^ 32)
    (aligned : 64 ∣ base) :
    Packed base (regionWords base (mappedQueues base (.sized dispatch completion)))
      (base + (SharedLayout.sized dispatch completion).layoutSize) := by
  obtain ⟨first, second⟩ := @aligned_queues base dispatch aligned
  have header : Packed base (TransportHeader.record.placedFields base) (base + 128) :=
    TransportHeader.record.packed_placedFields aligned
  have dispatched := MappedQueue.packed_words few first
  have completed := MappedQueue.packed_words little second
  have stop : base + 128 + 128 + 192 * dispatch = base + (256 + 192 * dispatch) := by omega
  rw [stop] at dispatched
  apply header.append
  apply (dispatched.append completed).weaken (Nat.le_refl _)
  rw [SharedLayout.layoutSize_sized]
  omega

end Regions

/-! ### The base of a mapping -/

/-- The padding brings the payload to the next cache line and depends on its place in one. -/
theorem alignOffset_eq (payload : Nat) : alignOffset payload = (64 - payload % 64) % 64 := by
  unfold alignOffset alignUp CACHE_LINE
  omega

theorem dvd_add_alignOffset (payload : Nat) : 64 ∣ payload + alignOffset payload := by
  rw [alignOffset_eq]
  omega

theorem alignOffset_le (payload : Nat) : alignOffset payload ≤ 63 := by
  rw [alignOffset_eq]
  omega

variable {mapping : Mapping payloadSize}

/-- The base is aligned, and the region ends inside the payload. -/
theorem alignedBase_ok_iff {base : Nat} :
    alignedBase mapping layout = .ok base ↔
      base = mapping.payload + alignOffset mapping.payload ∧
        alignOffset mapping.payload + layout.layoutSize ≤ payloadSize := by
  have bound := mapping.small
  unfold alignedBase
  dsimp only
  split
  · rename_i accepted
    rw [Except.ok.injEq, eq_comm]
    exact (and_iff_left accepted.2).symm
  · rename_i refused
    apply iff_of_false nofun
    rintro ⟨-, fits⟩
    exact refused ⟨Nat.lt_of_le_of_lt fits bound, fits⟩

/-! ### The header of a prepared region -/

section Prepared

variable (mapping : Mapping payloadSize) (layout : SharedLayout) (memory : Frame payloadSize)

/-- The memory once both queues are written and the header is published. -/
def prepared (base : Nat) : Frame payloadSize :=
  let header := mapping.write memory base (TransportHeader.new layout).bytes.flatten
  let dispatched := mapping.initializeQueue header (base + layout.dispatchOffset)
    layout.dispatchCapacity
  let completed := mapping.initializeQueue dispatched (base + layout.completionOffset)
    layout.completionCapacity
  mapping.write completed (base + readyOffset) (toLittleEndian 4 Layout.READY.toNat)

/-- A region is initialised wherever it has a base. -/
theorem initializeRegion_ok_iff {result : Frame payloadSize × MappedQueue × MappedQueue} :
    initializeRegion mapping layout memory = .ok result ↔
      ∃ base, alignedBase mapping layout = .ok base ∧
        result = (prepared mapping layout memory base, mappedQueues base layout) := by
  unfold initializeRegion
  rw [bind_ok_iff]
  apply exists_congr
  intro base
  apply and_congr_right
  intro _
  exact ⟨fun same => (Except.ok.inj same).symm, fun same => congrArg Except.ok same.symm⟩

variable {mapping layout memory}

theorem Mapping.read_write_of_apart {address other width : Nat} {bytes : List UInt8}
    (least : mapping.payload ≤ address) (low : mapping.payload ≤ other)
    (apart : other + width ≤ address ∨ address + bytes.length ≤ other) :
    mapping.read (mapping.write memory address bytes) other width =
      mapping.read memory other width := by
  apply Frame.slice_copy_of_disjoint
  omega

theorem Mapping.read_initializeQueue {base other width capacity : Nat}
    (low : mapping.payload ≤ other) (before : other + width ≤ base) :
    mapping.read (mapping.initializeQueue memory base capacity) other width =
      mapping.read memory other width := by
  unfold initializeQueue
  induction capacity with
  | zero => exact read_write_of_apart (by omega) low (Or.inl before)
  | succ capacity ih =>
      rw [List.range_succ, List.foldl_append, List.foldl_cons, List.foldl_nil,
        read_write_of_apart (by omega) low (Or.inl (by omega))]
      exact ih

/-- Past the publication word the header is read as it was first written. -/
theorem read_prepared {base offset width : Nat} (least : mapping.payload ≤ base)
    (dispatchFar : 128 ≤ layout.dispatchOffset) (completionFar : 128 ≤ layout.completionOffset)
    (apart : offset + width ≤ 12 ∨ 16 ≤ offset) (within : offset + width ≤ 128) :
    mapping.read (prepared mapping layout memory base) (base + offset) width =
      mapping.read (mapping.write memory base (TransportHeader.new layout).bytes.flatten)
        (base + offset) width := by
  have low : mapping.payload ≤ base + offset := by omega
  have word : (toLittleEndian 4 Layout.READY.toNat).length = 4 := length_toLittleEndian _ _
  unfold prepared
  rw [Mapping.read_write_of_apart (by omega) low (by rw [word, readyOffset]; omega),
    Mapping.read_initializeQueue low (by omega), Mapping.read_initializeQueue low (by omega)]

theorem load_word32 (value : UInt32) :
    UInt32.ofNat (fromLittleEndian (toLittleEndian 4 value.toNat)) = value := by
  rw [fromLittleEndian_toLittleEndian value.toNat_lt, UInt32.ofNat_toNat]

theorem load_word64 (value : UInt64) :
    UInt64.ofNat (fromLittleEndian (toLittleEndian 8 value.toNat)) = value := by
  rw [fromLittleEndian_toLittleEndian value.toNat_lt, UInt64.ofNat_toNat]

def TransportHeader.widths : List Nat := [8, 4, 4, 4, 4, 8, 8, 8, 80]

theorem slices_written {base : Nat} (within : base - mapping.payload + 128 ≤ payloadSize) :
    (mapping.write memory base (TransportHeader.new layout).bytes.flatten).slices TransportHeader.widths
      (base - mapping.payload) = (TransportHeader.new layout).bytes := by
  have fits : base - mapping.payload +
      (([] : List UInt8) ++ (TransportHeader.new layout).bytes.flatten).length ≤ payloadSize := by
    simp only [TransportHeader.bytes, List.nil_append, List.flatten_cons, List.length_append,
      length_toLittleEndian, TransportHeader.new, List.length_replicate, List.flatten_nil,
      List.length_nil, Layout.MAGIC, List.length_cons]
    omega
  have copied := Frame.slices_copy memory fits
  have widths : (TransportHeader.new layout).bytes.map List.length = TransportHeader.widths := by
    simp only [TransportHeader.bytes, List.map_cons, length_toLittleEndian, TransportHeader.new,
      List.length_replicate, List.map_nil, Layout.MAGIC, List.length_cons, List.length_nil]
    rfl
  rw [widths] at copied
  exact copied

/-- A prepared region shows its header, published. -/
theorem load_prepared {base : Nat} (least : mapping.payload ≤ base)
    (within : base - mapping.payload + 128 ≤ payloadSize)
    (dispatchFar : 128 ≤ layout.dispatchOffset) (completionFar : 128 ≤ layout.completionOffset) :
    TransportHeader.load mapping (prepared mapping layout memory base) base =
      { TransportHeader.new layout with ready := Layout.READY } := by
  have kept {offset width : Nat} (apart : offset + width ≤ 12 ∨ 16 ≤ offset)
      (inside : offset + width ≤ 128) :
      mapping.read (prepared mapping layout memory base) (base + offset) width =
        (mapping.write memory base (TransportHeader.new layout).bytes.flatten).slice
          (base - mapping.payload + offset) width := by
    rw [read_prepared least dispatchFar completionFar apart inside, Mapping.read,
      Nat.sub_add_comm least]
  have published : mapping.read (prepared mapping layout memory base) (base + 12) 4 =
      toLittleEndian 4 Layout.READY.toNat := by
    apply Frame.slice_copy
    rw [length_toLittleEndian, readyOffset]
    omega
  have first := @kept 0 8 (by decide) (by decide)
  have written := @slices_written _ mapping layout memory base within
  generalize mapping.write memory base (TransportHeader.new layout).bytes.flatten = shown
    at kept first written
  simp only [TransportHeader.widths, Frame.slices, TransportHeader.bytes, Nat.add_assoc,
    Nat.reduceAdd, List.cons.injEq] at written
  obtain ⟨magic, version, -, dispatch, completion, size, dispatchAt, completionAt, reserved, -⟩ :=
    written
  unfold TransportHeader.load
  rw [published, @kept 8 4 (by decide) (by decide), @kept 16 4 (by decide) (by decide),
    @kept 20 4 (by decide) (by decide), @kept 24 8 (by decide) (by decide),
    @kept 32 8 (by decide) (by decide), @kept 40 8 (by decide) (by decide),
    @kept 48 80 (by decide) (by decide), version, dispatch, completion, size, dispatchAt,
    completionAt, reserved]
  rw [Nat.add_zero, Nat.add_zero, magic] at first
  rw [first]
  simp only [load_word32, load_word64]

end Prepared

/-! ### The check of an attaching worker -/

variable {queues : MappedQueue × MappedQueue}

/-- A region is accepted exactly when it shows the published header of the layout. -/
theorem validate_ok_iff {memory : Frame payloadSize} :
    validate mapping layout memory = .ok queues ↔
      ∃ base, alignedBase mapping layout = .ok base ∧
        TransportHeader.load mapping memory base =
          { TransportHeader.new layout with ready := Layout.READY } ∧
        queues = mappedQueues base layout := by
  have reserved (base : Nat) :
      (TransportHeader.load mapping memory base).reserved = List.replicate 80 0 ↔
        ¬(TransportHeader.load mapping memory base).reserved.any (fun byte => byte != 0) = true :=
    Frame.slice_eq_zeros_iff memory _ 80
  unfold validate
  rw [bind_ok_iff]
  apply exists_congr
  intro base
  apply and_congr_right
  intro _
  specialize reserved base
  generalize TransportHeader.load mapping memory base = header at reserved
  rw [if_error_ok_iff, if_error_ok_iff, if_error_ok_iff, if_error_ok_iff, if_error_ok_iff,
    not_or, not_or, not_or, not_or, ← reserved, Except.ok.injEq]
  simp only [ne_eq, Decidable.not_not]
  constructor
  · rintro ⟨ready, magic, version, ⟨dispatch, completion⟩,
      ⟨size, dispatchAt, completionAt, clear⟩, rfl⟩
    exact ⟨TransportHeader.ext magic version ready dispatch completion size dispatchAt
      completionAt clear, rfl⟩
  · rintro ⟨rfl, rfl⟩
    exact ⟨rfl, rfl, rfl, ⟨rfl, rfl⟩, ⟨rfl, rfl, rfl, rfl⟩, rfl⟩

/-- Two processes read the same header at the same place of the payload. -/
theorem load_congr (one two : Mapping payloadSize) (memory : Frame payloadSize) (padding : Nat) :
    TransportHeader.load one memory (one.payload + padding) =
      TransportHeader.load two memory (two.payload + padding) := by
  simp only [TransportHeader.load, Mapping.read, Nat.add_assoc, Nat.add_sub_cancel_left]

theorem toNat_inj_of_lt {one two : Nat} (small : one < 2 ^ 32) (less : two < 2 ^ 32)
    (same : UInt32.ofNat one = UInt32.ofNat two) : one = two := by
  have numbers := congrArg UInt32.toNat same
  rwa [UInt32.toNat_ofNat_of_lt' small, UInt32.toNat_ofNat_of_lt' less] at numbers

variable {dispatch completion dispatch' completion' : Nat}

/-- A header names the capacities of its layout. -/
theorem capacities_of_header (few : dispatch < 2 ^ 32) (little : completion < 2 ^ 32)
    (few' : dispatch' < 2 ^ 32) (little' : completion' < 2 ^ 32)
    (same : ({ TransportHeader.new (.sized dispatch completion) with ready := Layout.READY } :
        TransportHeader) =
      { TransportHeader.new (.sized dispatch' completion') with ready := Layout.READY }) :
    dispatch = dispatch' ∧ completion = completion' := by
  constructor
  · exact toNat_inj_of_lt few few' (congrArg TransportHeader.dispatchCapacity same)
  · exact toNat_inj_of_lt little little' (congrArg TransportHeader.completionCapacity same)

/-- Queues mapped behind equal paddings are at the same places of the payload. -/
theorem relative_mappedQueues {payload other padding : Nat} :
    (mappedQueues (payload + padding) layout).1.relative payload =
        (mappedQueues (other + padding) layout).1.relative other ∧
      (mappedQueues (payload + padding) layout).2.relative payload =
        (mappedQueues (other + padding) layout).2.relative other := by
  constructor <;> simp only [mappedQueues, MappedQueue.relative, MappedQueue.new, Prod.mk.injEq,
    and_true] <;> omega

/-- A worker attaches exactly when both capacities are the creator's. -/
theorem attach_iff {creator worker : Mapping payloadSize} {memory shared : Frame payloadSize}
    (few : dispatch < 2 ^ 32) (little : completion < 2 ^ 32) (few' : dispatch' < 2 ^ 32)
    (little' : completion' < 2 ^ 32) (same : creator.payload % 64 = worker.payload % 64)
    (ready : initializeRegion creator (.sized dispatch completion) memory =
      .ok (shared, queues)) (attached : MappedQueue × MappedQueue) :
    validate worker (.sized dispatch' completion') shared = .ok attached ↔
      (dispatch = dispatch' ∧ completion = completion') ∧
        attached = mappedQueues (worker.payload + alignOffset worker.payload)
          (.sized dispatch' completion') := by
  obtain ⟨base, found, written⟩ := (initializeRegion_ok_iff _ _ _).mp ready
  obtain ⟨rfl, fits⟩ := alignedBase_ok_iff.mp found
  obtain ⟨rfl, rfl⟩ := Prod.mk.inj written
  have padding : alignOffset creator.payload = alignOffset worker.payload := by
    rw [alignOffset_eq, alignOffset_eq, same]
  have shown : TransportHeader.load worker (prepared creator (.sized dispatch completion) memory
      (creator.payload + alignOffset creator.payload))
        (worker.payload + alignOffset worker.payload) =
      { TransportHeader.new (.sized dispatch completion) with ready := Layout.READY } := by
    rw [SharedLayout.layoutSize_sized] at fits
    have early : (SharedLayout.sized dispatch completion).completionOffset =
      256 + 192 * dispatch := rfl
    rw [← padding, load_congr worker creator]
    apply load_prepared
    · exact Nat.le_add_right _ _
    · omega
    · exact Nat.le_refl 128
    · omega
  rw [validate_ok_iff]
  constructor
  · rintro ⟨base, located, header, rfl⟩
    obtain ⟨rfl, -⟩ := alignedBase_ok_iff.mp located
    rw [shown] at header
    exact ⟨capacities_of_header few little few' little' header, rfl⟩
  · rintro ⟨⟨rfl, rfl⟩, rfl⟩
    refine ⟨_, alignedBase_ok_iff.mpr ⟨rfl, ?_⟩, shown, rfl⟩
    rwa [← padding]

/-- The objects and the words of every accepted layout lie apart, aligned and inside the payload
wherever it is mapped, no size overflows, and a prepared region is accepted under the capacities
it was prepared for and no others, with its queues at the same places of the payload. -/
theorem layout_sound :
    (∀ dispatch completion, SharedLayout.new dispatch completion ≠ .error .layoutOverflow) ∧
    (∀ dispatch completion layout, SharedLayout.new dispatch completion = .ok layout →
      ∀ payloadSize (mapping : Mapping payloadSize), layout.payloadSize ≤ payloadSize →
        ∃ base, alignedBase mapping layout = .ok base ∧
          ∀ places, places = regionObjects base (mappedQueues base layout) ∨
              places = regionWords base (mappedQueues base layout) →
            places.Pairwise Place.Apart ∧ ∀ place ∈ places,
              place.align ∣ place.offset ∧ mapping.payload ≤ place.offset ∧
                place.stop ≤ mapping.payload + payloadSize) ∧
    (∀ dispatch completion layout, SharedLayout.new dispatch completion = .ok layout →
      ∀ dispatch' completion' layout', SharedLayout.new dispatch' completion' = .ok layout' →
      ∀ payloadSize (creator worker : Mapping payloadSize) memory shared queues,
        creator.payload % 64 = worker.payload % 64 →
        initializeRegion creator layout memory = .ok (shared, queues) →
          ((∃ attached, validate worker layout' shared = .ok attached) ↔
            dispatch = dispatch' ∧ completion = completion') ∧
          ∀ attached, validate worker layout' shared = .ok attached →
            attached.1.relative worker.payload = queues.1.relative creator.payload ∧
              attached.2.relative worker.payload = queues.2.relative creator.payload) := by
  refine ⟨?_, ?_, ?_⟩
  · intro dispatch completion overflow
    rcases SharedLayout.new_cases dispatch completion with ⟨-, -, exact⟩ | refused | refused
    · rw [exact] at overflow
      nomatch overflow
    · rw [refused] at overflow
      nomatch overflow
    · rw [refused] at overflow
      nomatch overflow
  · intro dispatch completion layout accepted payloadSize mapping fits
    obtain ⟨few, little, rfl⟩ := SharedLayout.new_ok accepted
    have near := alignOffset_le mapping.payload
    have aligned := dvd_add_alignOffset mapping.payload
    have roomy : alignOffset mapping.payload +
        (SharedLayout.sized dispatch completion).layoutSize ≤ payloadSize := by
      have exact : (SharedLayout.sized dispatch completion).payloadSize =
        447 + 192 * dispatch + 192 * completion := rfl
      rw [SharedLayout.layoutSize_sized]
      omega
    refine ⟨_, alignedBase_ok_iff.mpr ⟨rfl, roomy⟩, fun places either => ?_⟩
    have packed : Packed (mapping.payload + alignOffset mapping.payload) places
        (mapping.payload + alignOffset mapping.payload +
          (SharedLayout.sized dispatch completion).layoutSize) := by
      rcases either with rfl | rfl
      · exact packed_regionObjects few little aligned
      · exact packed_regionWords few little aligned
    refine ⟨packed.pairwise, fun place member => ?_⟩
    obtain ⟨after, before, onTime⟩ := packed.inside place member
    refine ⟨onTime, ?_, ?_⟩ <;> omega
  · intro dispatch completion layout accepted dispatch' completion' layout' accepted'
      payloadSize creator worker memory shared queues same ready
    obtain ⟨few, little, rfl⟩ := SharedLayout.new_ok accepted
    obtain ⟨few', little', rfl⟩ := SharedLayout.new_ok accepted'
    have attach := attach_iff few little few' little' same ready
    constructor
    · constructor
      · rintro ⟨attached, valid⟩
        exact ((attach attached).mp valid).1
      · intro equal
        exact ⟨_, (attach _).mpr ⟨equal, rfl⟩⟩
    · intro attached valid
      obtain ⟨⟨rfl, rfl⟩, rfl⟩ := (attach attached).mp valid
      obtain ⟨base, found, written⟩ := (initializeRegion_ok_iff _ _ _).mp ready
      obtain ⟨rfl, -⟩ := alignedBase_ok_iff.mp found
      obtain ⟨-, rfl⟩ := Prod.mk.inj written
      have padding : alignOffset creator.payload = alignOffset worker.payload := by
        rw [alignOffset_eq, alignOffset_eq, same]
      rw [padding]
      exact relative_mappedQueues

/-- Queues of two messages in a region mapped at address 8. -/
theorem layout_sound_two :
    ∃ base, alignedBase (⟨8, by decide, by decide⟩ : Mapping 65536) (.sized 2 2) = .ok base ∧
      (regionObjects base (mappedQueues base (.sized 2 2))).Pairwise Place.Apart := by
  obtain ⟨base, found, apart⟩ :=
    layout_sound.2.1 2 2 (.sized 2 2) rfl 65536 ⟨8, by decide, by decide⟩ (by decide)
  exact ⟨base, found, (apart _ (Or.inl rfl)).1⟩

end Hyperloader.Transport
