/-
Module: Hyperloader.Transport.Message
Purpose: The fixed command frames of exec/transport/message.rs: the dispatch and
  completion codecs, and the layouts both directions of a codec agree with.
Trusted boundary: none
Main exports:
  SlotRef, DispatchMessage, CompletionMessage, encodeDispatch, decodeDispatch,
  encodeCompletion, decodeCompletion, DispatchFrame, CompletionFrame, codecs_exact
-/
import Hyperloader.Foundations.ByteFrame
import Hyperloader.Foundations.Fallible

namespace Hyperloader.Transport

open Foundations

/-! ### Messages -/

/-- One slot of an arena region, named portably. -/
structure SlotRef where
  regionSequence : UInt16
  regionSize : UInt64
  slotIndex : UInt32
  offset : UInt64
  capacity : UInt64
  generation : UInt64
deriving DecidableEq

/-- One scheduler-to-worker command. -/
structure DispatchMessage where
  position : UInt64
  epoch : UInt64
  stagePlan : UInt32
  index : UInt64
  worker : UInt32
  batchLen : UInt32
  slot : SlotRef
  exceptionSlot : SlotRef

/-- How a worker answers a command. -/
inductive CompletionStatus where
  | ready
  | readyBatch
  | exception

/-- One exception payload stored outside the ring. -/
structure ExceptionRef where
  slot : SlotRef
  length : UInt64
deriving DecidableEq

/-- One worker-to-delivery completion. -/
structure CompletionMessage where
  position : UInt64
  worker : UInt32
  costNs : UInt64
  status : CompletionStatus
  slot : SlotRef
  producedLength : UInt64
  exception : Option ExceptionRef

inductive TransportError where
  | invalidMessage (field : String)

def FRAME_SIZE : Nat := 128

/-- `b"HLCM"` -/
def MAGIC : List UInt8 := [0x48, 0x4C, 0x43, 0x4D]

def VERSION : UInt8 := 1

def DISPATCH_KIND : UInt8 := 1

def COMPLETION_KIND : UInt8 := 2

def READY_STATUS : UInt8 := 1

def EXCEPTION_STATUS : UInt8 := 2

def BATCH_STATUS : UInt8 := 3

def SIDE_PRESENT : UInt8 := 1

/-! ### Fields -/

abbrev CommandFrame := Frame FRAME_SIZE

section

variable (frame : CommandFrame)

def setByte (offset : Nat) (value : UInt8) : CommandFrame :=
  frame.copy offset [value]

def putU16 (offset : Nat) (value : UInt16) : CommandFrame :=
  frame.copy offset (toLittleEndian 2 value.toNat)

def putU32 (offset : Nat) (value : UInt32) : CommandFrame :=
  frame.copy offset (toLittleEndian 4 value.toNat)

def putU64 (offset : Nat) (value : UInt64) : CommandFrame :=
  frame.copy offset (toLittleEndian 8 value.toNat)

def getU16 (offset : Nat) : UInt16 :=
  UInt16.ofNat (fromLittleEndian (frame.slice offset 2))

def getU32 (offset : Nat) : UInt32 :=
  UInt32.ofNat (fromLittleEndian (frame.slice offset 4))

def getU64 (offset : Nat) : UInt64 :=
  UInt64.ofNat (fromLittleEndian (frame.slice offset 8))

end

def checkedAdd (one two : UInt64) : Option UInt64 :=
  if one.toNat + two.toNat < 2 ^ 64 then some (one + two) else none

/-- A slot is refused when it is empty or ends outside its region. -/
def validateSlot (slot : SlotRef) : Except String Unit :=
  if slot.regionSize = 0 ∨ slot.capacity = 0 ∨
      (checkedAdd slot.offset slot.capacity).all (fun stop => decide (slot.regionSize < stop)) then
    .error "slot reference"
  else .ok ()

def validateException (exception : ExceptionRef) : Except String Unit := do
  validateSlot exception.slot
  if exception.length = 0 ∨ exception.slot.capacity < exception.length then
    .error "exception length"
  else .ok ()

def putSlot (frame : CommandFrame) (offset : Nat) (slot : SlotRef) : CommandFrame :=
  let frame := putU16 frame offset slot.regionSequence
  let frame := putU32 frame (offset + 4) slot.slotIndex
  let frame := putU64 frame (offset + 8) slot.offset
  let frame := putU64 frame (offset + 16) slot.capacity
  let frame := putU64 frame (offset + 24) slot.generation
  putU64 frame (offset + 32) slot.regionSize

def getSlot (frame : CommandFrame) (offset : Nat) : Except String SlotRef :=
  if getU16 frame (offset + 2) ≠ 0 then .error "slot reserved field"
  else do
    let slot : SlotRef :=
      { regionSequence := getU16 frame offset
        regionSize := getU64 frame (offset + 32)
        slotIndex := getU32 frame (offset + 4)
        offset := getU64 frame (offset + 8)
        capacity := getU64 frame (offset + 16)
        generation := getU64 frame (offset + 24) }
    validateSlot slot
    .ok slot

/-! ### Codecs -/

def frameHeader (kind status flags : UInt8) (position : UInt64) (worker : UInt32) :
    CommandFrame :=
  let frame := (Frame.zeros FRAME_SIZE).copy 0 MAGIC
  let frame := setByte frame 4 VERSION
  let frame := setByte frame 5 kind
  let frame := setByte frame 6 status
  let frame := setByte frame 7 flags
  let frame := putU64 frame 8 position
  putU32 frame 16 worker

def validateHeader (frame : CommandFrame) (kind : UInt8) : Except String Unit :=
  if frame.slice 0 4 ≠ MAGIC then .error "magic"
  else if frame.byte 4 ≠ VERSION then .error "version"
  else if frame.byte 5 ≠ kind then .error "kind"
  else .ok ()

/-- The frame of a command. -/
def encodeDispatch (message : DispatchMessage) : Except TransportError CommandFrame := do
  (validateSlot message.slot).mapError .invalidMessage
  let frame := frameHeader DISPATCH_KIND 0 0 message.position message.worker
  let frame := putU32 frame 20 message.stagePlan
  let frame := putU64 frame 24 message.index
  let frame := putSlot frame 32 message.slot
  (validateSlot message.exceptionSlot).mapError .invalidMessage
  let frame := putSlot frame 72 message.exceptionSlot
  let frame := putU64 frame 112 message.epoch
  .ok (putU32 frame 120 message.batchLen)

/-- The command of a frame, or what is wrong with it. -/
def decodeDispatch (frame : CommandFrame) : Except String DispatchMessage := do
  validateHeader frame DISPATCH_KIND
  if frame.byte 6 ≠ 0 ∨ frame.byte 7 ≠ 0 ∨ (frame.slice 124 4).any (fun byte => byte != 0) then
    .error "dispatch reserved fields"
  else
    let slot ← getSlot frame 32
    let exceptionSlot ← getSlot frame 72
    .ok
      { position := getU64 frame 8
        epoch := getU64 frame 112
        worker := getU32 frame 16
        stagePlan := getU32 frame 20
        index := getU64 frame 24
        batchLen := getU32 frame 120
        slot := slot
        exceptionSlot := exceptionSlot }

/-- The status and flag bytes of a completion. -/
def statusBytes (message : CompletionMessage) : Except TransportError (UInt8 × UInt8) :=
  match message.status, message.exception with
  | .ready, none => .ok (READY_STATUS, 0)
  | .readyBatch, none => .ok (BATCH_STATUS, 0)
  | .exception, some exception => do
      (validateException exception).mapError .invalidMessage
      if message.producedLength ≠ 0 then .error (.invalidMessage "exception produced length")
      else .ok (EXCEPTION_STATUS, SIDE_PRESENT)
  | _, _ => .error (.invalidMessage "completion side slab")

def putException (frame : CommandFrame) : Option ExceptionRef → CommandFrame
  | none => frame
  | some exception => putU64 (putSlot frame 80 exception.slot) 120 exception.length

/-- The frame of an answer. -/
def encodeCompletion (message : CompletionMessage) :
    Except TransportError CommandFrame := do
  (validateSlot message.slot).mapError .invalidMessage
  if message.slot.capacity < message.producedLength then
    .error (.invalidMessage "produced length")
  else
    let (status, flags) ← statusBytes message
    let frame := frameHeader COMPLETION_KIND status flags message.position message.worker
    if message.costNs = 0 then .error (.invalidMessage "completion cost")
    else
      let frame := putU64 frame 20 message.costNs
      let frame := putSlot frame 32 message.slot
      let frame := putU64 frame 72 message.producedLength
      .ok (putException frame message.exception)

/-- The outcome the status and flag bytes of a frame name. -/
def decodeOutcome (frame : CommandFrame) (producedLength : UInt64) :
    Except String (CompletionStatus × Option ExceptionRef) :=
  if frame.byte 6 = READY_STATUS ∧ frame.byte 7 = 0 then
    if (frame.slice 80 48).any (fun byte => byte != 0) then .error "ready side slab"
    else .ok (.ready, none)
  else if frame.byte 6 = BATCH_STATUS ∧ frame.byte 7 = 0 then
    if (frame.slice 80 48).any (fun byte => byte != 0) then .error "batch side slab"
    else .ok (.readyBatch, none)
  else if frame.byte 6 = EXCEPTION_STATUS ∧ frame.byte 7 = SIDE_PRESENT then
    if producedLength ≠ 0 then .error "exception produced length"
    else do
      let slot ← getSlot frame 80
      let exception : ExceptionRef := { slot := slot, length := getU64 frame 120 }
      validateException exception
      .ok (.exception, some exception)
  else .error "completion status"

/-- The answer of a frame, or what is wrong with it. -/
def decodeCompletion (frame : CommandFrame) : Except String CompletionMessage := do
  validateHeader frame COMPLETION_KIND
  if (frame.slice 28 4).any (fun byte => byte != 0) then .error "completion reserved fields"
  else
    let costNs := getU64 frame 20
    if costNs = 0 then .error "completion cost"
    else
      let slot ← getSlot frame 32
      let producedLength := getU64 frame 72
      if slot.capacity < producedLength then .error "produced length"
      else
        let (status, exception) ← decodeOutcome frame producedLength
        .ok
          { position := getU64 frame 8
            worker := getU32 frame 16
            costNs := costNs
            status := status
            slot := slot
            producedLength := producedLength
            exception := exception }

/-! ### What an accepted slot is -/

/-- A slot inside its region. -/
structure SlotRef.Valid (slot : SlotRef) : Prop where
  region : 0 < slot.regionSize
  capacity : 0 < slot.capacity
  inside : slot.offset.toNat + slot.capacity.toNat ≤ slot.regionSize.toNat

structure ExceptionRef.Valid (exception : ExceptionRef) : Prop where
  slot : exception.slot.Valid
  length : 0 < exception.length
  fits : exception.length ≤ exception.slot.capacity

/-- The check passes exactly the valid slots. -/
theorem validateSlot_ok_iff (slot : SlotRef) : validateSlot slot = .ok () ↔ slot.Valid := by
  have inside : (checkedAdd slot.offset slot.capacity).all
      (fun stop => decide (slot.regionSize < stop)) = true ↔
      slot.regionSize.toNat < slot.offset.toNat + slot.capacity.toNat := by
    have bound := slot.regionSize.toNat_lt
    unfold checkedAdd
    split
    · rename_i small
      simp only [Option.all_some, decide_eq_true_eq, UInt64.lt_iff_toNat_lt, UInt64.toNat_add,
        Nat.mod_eq_of_lt small]
    · simp only [Option.all_none, true_iff]
      omega
  have positive : ∀ word : UInt64, ¬word = 0 ↔ 0 < word := by
    intro word
    rw [UInt64.lt_iff_toNat_lt, ← UInt64.toNat_inj]
    exact Nat.pos_iff_ne_zero.symm
  unfold validateSlot
  constructor
  · intro accepted
    split at accepted
    · cases accepted
    · rename_i clear
      rw [not_or, not_or, inside, positive, positive, Nat.not_lt] at clear
      exact ⟨clear.1, clear.2.1, clear.2.2⟩
  · intro valid
    rw [if_neg]
    rw [not_or, not_or, inside, positive, positive, Nat.not_lt]
    exact ⟨valid.region, valid.capacity, valid.inside⟩

theorem validateException_ok_iff (exception : ExceptionRef) :
    validateException exception = .ok () ↔ exception.Valid := by
  have positive : ¬exception.length = 0 ↔ 0 < exception.length := by
    rw [UInt64.lt_iff_toNat_lt, ← UInt64.toNat_inj]
    exact Nat.pos_iff_ne_zero.symm
  unfold validateException
  rw [bind_ok_iff]
  constructor
  · rintro ⟨_, slot, accepted⟩
    obtain ⟨clear, _⟩ := if_error_ok_iff.mp accepted
    rw [not_or, positive, UInt64.not_lt] at clear
    exact ⟨(validateSlot_ok_iff _).mp slot, clear.1, clear.2⟩
  · intro valid
    refine ⟨(), (validateSlot_ok_iff _).mpr valid.slot, if_error_ok_iff.mpr ⟨?_, rfl⟩⟩
    rw [not_or, positive, UInt64.not_lt]
    exact ⟨valid.length, valid.fits⟩

/-! ### Fields as slices -/

theorem toLittleEndian_eq_iff {width value : Nat} {bytes : List UInt8}
    (length : bytes.length = width) (small : value < 256 ^ width) :
    bytes = toLittleEndian width value ↔ fromLittleEndian bytes = value := by
  constructor
  · intro same
    rw [same, fromLittleEndian_toLittleEndian small]
  · intro same
    rw [← same, ← length, toLittleEndian_fromLittleEndian]

section

variable (frame : CommandFrame)

include frame

theorem getU16_eq_iff (offset : Nat) (value : UInt16) :
    getU16 frame offset = value ↔ frame.slice offset 2 = toLittleEndian 2 value.toNat := by
  have length := Frame.length_slice frame offset 2
  have bound := fromLittleEndian_lt (frame.slice offset 2)
  rw [length] at bound
  rw [toLittleEndian_eq_iff length value.toNat_lt, getU16, ← UInt16.toNat_inj,
    UInt16.toNat_ofNat_of_lt' bound]

theorem getU32_eq_iff (offset : Nat) (value : UInt32) :
    getU32 frame offset = value ↔ frame.slice offset 4 = toLittleEndian 4 value.toNat := by
  have length := Frame.length_slice frame offset 4
  have bound := fromLittleEndian_lt (frame.slice offset 4)
  rw [length] at bound
  rw [toLittleEndian_eq_iff length value.toNat_lt, getU32, ← UInt32.toNat_inj,
    UInt32.toNat_ofNat_of_lt' bound]

theorem getU64_eq_iff (offset : Nat) (value : UInt64) :
    getU64 frame offset = value ↔ frame.slice offset 8 = toLittleEndian 8 value.toNat := by
  have length := Frame.length_slice frame offset 8
  have bound := fromLittleEndian_lt (frame.slice offset 8)
  rw [length] at bound
  rw [toLittleEndian_eq_iff length value.toNat_lt, getU64, ← UInt64.toNat_inj,
    UInt64.toNat_ofNat_of_lt' bound]

theorem byte_eq_iff (offset : Nat) (value : UInt8) :
    frame.byte offset = value ↔ frame.slice offset 1 = [value] := by
  rw [Frame.slice_one, List.cons.injEq]
  exact ⟨fun same => ⟨same, rfl⟩, fun both => both.1⟩

end

section Copies

variable {frame : CommandFrame} {start offset width : Nat}

@[simp] theorem slice_setByte {value : UInt8} (fits : start < FRAME_SIZE) :
    (setByte frame start value).slice start 1 = [value] :=
  Frame.slice_copy frame fits

@[simp] theorem slice_putU16 {value : UInt16} (fits : start + 2 ≤ FRAME_SIZE) :
    (putU16 frame start value).slice start 2 = toLittleEndian 2 value.toNat := by
  have copied := @Frame.slice_copy _ frame start (toLittleEndian 2 value.toNat)
  rw [length_toLittleEndian] at copied
  exact copied fits

variable {value : UInt32}

@[simp] theorem slice_putU32 (fits : start + 4 ≤ FRAME_SIZE) :
    (putU32 frame start value).slice start 4 = toLittleEndian 4 value.toNat := by
  have copied := @Frame.slice_copy _ frame start (toLittleEndian 4 value.toNat)
  rw [length_toLittleEndian] at copied
  exact copied fits

@[simp] theorem slice_putU64 {value : UInt64} (fits : start + 8 ≤ FRAME_SIZE) :
    (putU64 frame start value).slice start 8 = toLittleEndian 8 value.toNat := by
  have copied := @Frame.slice_copy _ frame start (toLittleEndian 8 value.toNat)
  rw [length_toLittleEndian] at copied
  exact copied fits

theorem slice_setByte_of_disjoint {value : UInt8}
    (apart : offset + width ≤ start ∨ start + 1 ≤ offset) :
    (setByte frame start value).slice offset width = frame.slice offset width :=
  Frame.slice_copy_of_disjoint frame apart

theorem slice_putU16_of_disjoint {value : UInt16}
    (apart : offset + width ≤ start ∨ start + 2 ≤ offset) :
    (putU16 frame start value).slice offset width = frame.slice offset width := by
  apply Frame.slice_copy_of_disjoint
  rwa [length_toLittleEndian]

/-- A word written leaves the other bytes. -/
theorem slice_putU32_of_disjoint (apart : offset + width ≤ start ∨ start + 4 ≤ offset) :
    (putU32 frame start value).slice offset width = frame.slice offset width := by
  apply Frame.slice_copy_of_disjoint
  rwa [length_toLittleEndian]

theorem slice_putU64_of_disjoint {value : UInt64}
    (apart : offset + width ≤ start ∨ start + 8 ≤ offset) :
    (putU64 frame start value).slice offset width = frame.slice offset width := by
  apply Frame.slice_copy_of_disjoint
  rwa [length_toLittleEndian]

variable {widths : List Nat}

theorem slices_putU32_of_disjoint (apart : offset + widths.sum ≤ start ∨ start + 4 ≤ offset) :
    (putU32 frame start value).slices widths offset = frame.slices widths offset := by
  apply Frame.slices_copy_of_disjoint
  rwa [length_toLittleEndian]

theorem slices_putU64_of_disjoint {value : UInt64}
    (apart : offset + widths.sum ≤ start ∨ start + 8 ≤ offset) :
    (putU64 frame start value).slices widths offset = frame.slices widths offset := by
  apply Frame.slices_copy_of_disjoint
  rwa [length_toLittleEndian]

end Copies

/-! ### Slots -/

def slotWidths : List Nat := [2, 2, 4, 8, 8, 8, 8]

/-- The bytes of a slot, field by field; the second field is reserved. -/
def slotFields (slot : SlotRef) : List (List UInt8) :=
  [toLittleEndian 2 slot.regionSequence.toNat, [0, 0], toLittleEndian 4 slot.slotIndex.toNat,
    toLittleEndian 8 slot.offset.toNat, toLittleEndian 8 slot.capacity.toNat,
    toLittleEndian 8 slot.generation.toNat, toLittleEndian 8 slot.regionSize.toNat]

section Slots

variable {frame : CommandFrame} {start offset width : Nat} {slot : SlotRef}

theorem slice_putSlot_of_disjoint (apart : offset + width ≤ start ∨ start + 40 ≤ offset) :
    (putSlot frame start slot).slice offset width = frame.slice offset width := by
  unfold putSlot
  simp (disch := omega) only [slice_putU16_of_disjoint, slice_putU32_of_disjoint,
    slice_putU64_of_disjoint]

theorem slices_putSlot_of_disjoint {widths : List Nat}
    (apart : offset + widths.sum ≤ start ∨ start + 40 ≤ offset) :
    (putSlot frame start slot).slices widths offset = frame.slices widths offset := by
  induction widths generalizing offset with
  | nil => rw [Frame.slices, Frame.slices]
  | cons width widths ih =>
      rw [List.sum_cons] at apart
      rw [Frame.slices, Frame.slices, ih (by omega),
        slice_putSlot_of_disjoint (by omega)]

/-- A slot put where its reserved bytes are clear. -/
theorem slices_putSlot (fits : start + 40 ≤ FRAME_SIZE)
    (clear : frame.slice (start + 2) 2 = [0, 0]) :
    (putSlot frame start slot).slices slotWidths start = slotFields slot := by
  unfold putSlot slotFields slotWidths
  simp (disch := omega) only [Frame.slices, Nat.add_assoc, Nat.reduceAdd, slice_putU16,
    slice_putU32, slice_putU64, slice_putU16_of_disjoint, slice_putU32_of_disjoint,
    slice_putU64_of_disjoint, clear]

/-- A slot is read exactly from its own bytes. -/
theorem getSlot_ok_iff :
    getSlot frame start = .ok slot ↔
      slot.Valid ∧ frame.slices slotWidths start = slotFields slot := by
  have reserved : ¬getU16 frame (start + 2) ≠ 0 ↔ frame.slice (start + 2) 2 = [0, 0] := by
    rw [not_not, getU16_eq_iff]
    rfl
  unfold getSlot
  rw [if_error_ok_iff, reserved, bind_ok_iff]
  unfold slotFields slotWidths
  simp only [Frame.slices, Nat.add_assoc, Nat.reduceAdd, List.cons.injEq, and_true,
    ← getU16_eq_iff, ← getU32_eq_iff, ← getU64_eq_iff]
  constructor
  · rintro ⟨clear, _, accepted, same⟩
    cases same
    exact ⟨(validateSlot_ok_iff _).mp accepted, rfl, clear, rfl, rfl, rfl, rfl, rfl⟩
  · rintro ⟨valid, sequence, clear, index, offset, capacity, generation, region⟩
    rw [sequence, index, offset, capacity, generation, region]
    exact ⟨clear, (), (validateSlot_ok_iff _).mpr valid, rfl⟩

end Slots

/-! ### Headers -/

def headerWidths : List Nat := [4, 1, 1, 1, 1, 8, 4]

def headerFields (kind status flags : UInt8) (position : UInt64) (worker : UInt32) :
    List (List UInt8) :=
  [MAGIC, [VERSION], [kind], [status], [flags], toLittleEndian 8 position.toNat,
    toLittleEndian 4 worker.toNat]

section Headers

variable {frame : CommandFrame} {kind status flags : UInt8} {position : UInt64}
  {worker : UInt32} {offset width : Nat}

theorem slices_frameHeader :
    (frameHeader kind status flags position worker).slices headerWidths 0 =
      headerFields kind status flags position worker := by
  have magic : ((Frame.zeros FRAME_SIZE).copy 0 MAGIC).slice 0 4 = MAGIC :=
    Frame.slice_copy _ (by decide)
  unfold frameHeader headerFields headerWidths
  simp (disch := decide) only [Frame.slices, Nat.reduceAdd, slice_setByte, slice_putU32,
    slice_putU64, slice_setByte_of_disjoint, slice_putU32_of_disjoint,
    slice_putU64_of_disjoint, magic]

/-- A fresh header is clear after its fields. -/
theorem slice_frameHeader_of_le (past : 20 ≤ offset) :
    (frameHeader kind status flags position worker).slice offset width =
      List.replicate width 0 := by
  have magic : ((Frame.zeros FRAME_SIZE).copy 0 MAGIC).slice offset width =
      (Frame.zeros FRAME_SIZE).slice offset width := by
    apply Frame.slice_copy_of_disjoint
    have length : MAGIC.length = 4 := rfl
    omega
  unfold frameHeader
  simp (disch := omega) only [slice_setByte_of_disjoint, slice_putU32_of_disjoint,
    slice_putU64_of_disjoint, magic, Frame.slice_zeros]

/-- The header's check reads magic, version and kind. -/
theorem validateHeader_ok_iff :
    validateHeader frame kind = .ok () ↔
      frame.slice 0 4 = MAGIC ∧ frame.slice 4 1 = [VERSION] ∧ frame.slice 5 1 = [kind] := by
  unfold validateHeader
  rw [if_error_ok_iff, if_error_ok_iff, if_error_ok_iff, not_not, not_not, not_not,
    byte_eq_iff, byte_eq_iff]
  exact ⟨fun accepted => ⟨accepted.1, accepted.2.1, accepted.2.2.1⟩,
    fun fields => ⟨fields.1, fields.2.1, fields.2.2, rfl⟩⟩

theorem slices_header_iff :
    frame.slices headerWidths 0 = headerFields kind status flags position worker ↔
      validateHeader frame kind = .ok () ∧ frame.byte 6 = status ∧ frame.byte 7 = flags ∧
        getU64 frame 8 = position ∧ getU32 frame 16 = worker := by
  rw [validateHeader_ok_iff, byte_eq_iff, byte_eq_iff, getU64_eq_iff, getU32_eq_iff]
  unfold headerWidths headerFields
  simp only [Frame.slices, Nat.reduceAdd, List.cons.injEq, and_true, and_assoc]

end Headers

/-! ### Dispatch frames -/

/-- The layout of a dispatch frame: every byte belongs to one of its fields. -/
structure DispatchFrame (frame : CommandFrame) (message : DispatchMessage) : Prop where
  header : frame.slices headerWidths 0 =
    headerFields DISPATCH_KIND 0 0 message.position message.worker
  stagePlan : frame.slice 20 4 = toLittleEndian 4 message.stagePlan.toNat
  index : frame.slice 24 8 = toLittleEndian 8 message.index.toNat
  slot : frame.slices slotWidths 32 = slotFields message.slot
  exceptionSlot : frame.slices slotWidths 72 = slotFields message.exceptionSlot
  epoch : frame.slice 112 8 = toLittleEndian 8 message.epoch.toNat
  batchLen : frame.slice 120 4 = toLittleEndian 4 message.batchLen.toNat
  reserved : frame.slice 124 4 = List.replicate 4 0
  slotValid : message.slot.Valid
  exceptionSlotValid : message.exceptionSlot.Valid

def dispatchWidths : List Nat :=
  headerWidths ++ [4, 8] ++ slotWidths ++ slotWidths ++ [8, 4, 4]

variable {message : DispatchMessage}

/-- A dispatch message has one frame. -/
theorem DispatchFrame.unique {one two : CommandFrame} (first : DispatchFrame one message)
    (second : DispatchFrame two message) : one = two := by
  have fields : ∀ frame, DispatchFrame frame message → frame.slices dispatchWidths 0 =
      headerFields DISPATCH_KIND 0 0 message.position message.worker ++
        [toLittleEndian 4 message.stagePlan.toNat, toLittleEndian 8 message.index.toNat] ++
        slotFields message.slot ++ slotFields message.exceptionSlot ++
        [toLittleEndian 8 message.epoch.toNat, toLittleEndian 4 message.batchLen.toNat,
          List.replicate 4 0] := by
    intro frame laid
    have header : headerWidths.sum = 20 := by decide
    have slots : slotWidths.sum = 40 := by decide
    simp only [dispatchWidths, Frame.slices_append, List.sum_append, header, slots, laid.header,
      Nat.zero_add, List.sum_cons, List.sum_nil, Nat.reduceAdd, laid.slot, laid.exceptionSlot,
      Frame.slices, laid.stagePlan, laid.index, laid.epoch, laid.batchLen, laid.reserved]
  have covers : dispatchWidths.sum = FRAME_SIZE := by decide
  apply Frame.eq_of_slices_eq covers
  rw [fields one first, fields two second]

/-- The fields written over a header. -/
def dispatchBody (header : CommandFrame) (message : DispatchMessage) : CommandFrame :=
  putU32 (putU64 (putSlot (putSlot (putU64 (putU32 header 20 message.stagePlan) 24
    message.index) 32 message.slot) 72 message.exceptionSlot) 112 message.epoch) 120
    message.batchLen

theorem dispatchBody_frame {header : CommandFrame} (laid : header.slices headerWidths 0 =
      headerFields DISPATCH_KIND 0 0 message.position message.worker)
    (clear : ∀ offset width, 20 ≤ offset → header.slice offset width = List.replicate width 0)
    (slotValid : message.slot.Valid) (exceptionSlotValid : message.exceptionSlot.Valid) :
    DispatchFrame (dispatchBody header message) message := by
  have slotClear : header.slice (32 + 2) 2 = [0, 0] := clear _ _ (by decide)
  have exceptionClear : header.slice (72 + 2) 2 = [0, 0] := clear _ _ (by decide)
  unfold dispatchBody
  refine ⟨?_, ?_, ?_, ?_, ?_, ?_, ?_, ?_, slotValid, exceptionSlotValid⟩
  · simp (disch := decide) only [slices_putU32_of_disjoint, slices_putU64_of_disjoint,
      slices_putSlot_of_disjoint, laid]
  · simp (disch := decide) only [slice_putU32, slice_putU32_of_disjoint,
      slice_putU64_of_disjoint, slice_putSlot_of_disjoint]
  · simp (disch := decide) only [slice_putU64, slice_putU32_of_disjoint,
      slice_putU64_of_disjoint, slice_putSlot_of_disjoint]
  · rw [slices_putU32_of_disjoint (by decide), slices_putU64_of_disjoint (by decide),
      slices_putSlot_of_disjoint (by decide)]
    apply slices_putSlot (by decide)
    simp (disch := decide) only [slice_putU32_of_disjoint, slice_putU64_of_disjoint, slotClear]
  · rw [slices_putU32_of_disjoint (by decide), slices_putU64_of_disjoint (by decide)]
    apply slices_putSlot (by decide)
    simp (disch := decide) only [slice_putU32_of_disjoint, slice_putU64_of_disjoint,
      slice_putSlot_of_disjoint, exceptionClear]
  · simp (disch := decide) only [slice_putU64, slice_putU32_of_disjoint]
  · simp (disch := decide) only [slice_putU32]
  · simp (disch := decide) only [slice_putU32_of_disjoint, slice_putU64_of_disjoint,
      slice_putSlot_of_disjoint, clear]

/-- Encoding is the relation between a command and its frame. -/
theorem encodeDispatch_ok_iff (message : DispatchMessage) (frame : CommandFrame) :
    encodeDispatch message = .ok frame ↔ DispatchFrame frame message := by
  have laid : message.slot.Valid → message.exceptionSlot.Valid →
      DispatchFrame (dispatchBody
        (frameHeader DISPATCH_KIND 0 0 message.position message.worker) message) message :=
    dispatchBody_frame slices_frameHeader fun _ _ past => slice_frameHeader_of_le past
  have encodes : ∀ frame, encodeDispatch message = .ok frame ↔
      message.slot.Valid ∧ message.exceptionSlot.Valid ∧
        dispatchBody (frameHeader DISPATCH_KIND 0 0 message.position message.worker) message =
          frame := by
    intro frame
    unfold encodeDispatch
    rw [bind_ok_iff]
    simp only [bind_ok_iff, mapError_ok_iff, Except.ok.injEq]
    constructor
    · rintro ⟨⟨⟩, slot, ⟨⟩, exceptionSlot, same⟩
      exact ⟨(validateSlot_ok_iff _).mp slot, (validateSlot_ok_iff _).mp exceptionSlot, same⟩
    · rintro ⟨slot, exceptionSlot, same⟩
      exact ⟨(), (validateSlot_ok_iff _).mpr slot, (), (validateSlot_ok_iff _).mpr exceptionSlot,
        same⟩
  rw [encodes]
  constructor
  · rintro ⟨slot, exceptionSlot, rfl⟩
    exact laid slot exceptionSlot
  · intro framed
    exact ⟨framed.slotValid, framed.exceptionSlotValid,
      (laid framed.slotValid framed.exceptionSlotValid).unique framed⟩

/-- Decoding is the same relation. -/
theorem decodeDispatch_ok_iff (message : DispatchMessage) (frame : CommandFrame) :
    decodeDispatch frame = .ok message ↔ DispatchFrame frame message := by
  unfold decodeDispatch
  simp only [bind_ok_iff, if_error_ok_iff, not_or, not_not, getSlot_ok_iff,
    ← Frame.slice_eq_zeros_iff]
  constructor
  · rintro ⟨⟨⟩, header, ⟨status, flags, reserved⟩, slot, ⟨slotValid, slotLaid⟩, exceptionSlot,
      ⟨exceptionValid, exceptionLaid⟩, same⟩
    have fields := Except.ok.inj same
    subst fields
    exact
      { header := slices_header_iff.mpr ⟨header, status, flags, rfl, rfl⟩
        stagePlan := (getU32_eq_iff _ _ _).mp rfl
        index := (getU64_eq_iff _ _ _).mp rfl
        slot := slotLaid
        exceptionSlot := exceptionLaid
        epoch := (getU64_eq_iff _ _ _).mp rfl
        batchLen := (getU32_eq_iff _ _ _).mp rfl
        reserved := reserved
        slotValid := slotValid
        exceptionSlotValid := exceptionValid }
  · intro framed
    obtain ⟨header, status, flags, position, worker⟩ := slices_header_iff.mp framed.header
    refine ⟨(), header, ⟨status, flags, framed.reserved⟩, message.slot,
      ⟨framed.slotValid, framed.slot⟩, message.exceptionSlot,
      ⟨framed.exceptionSlotValid, framed.exceptionSlot⟩, ?_⟩
    rw [position, worker, (getU32_eq_iff _ _ _).mpr framed.stagePlan,
      (getU64_eq_iff _ _ _).mpr framed.index, (getU64_eq_iff _ _ _).mpr framed.epoch,
      (getU32_eq_iff _ _ _).mpr framed.batchLen]

/-! ### Completion frames -/

def CompletionStatus.statusByte : CompletionStatus → UInt8
  | .ready => READY_STATUS
  | .readyBatch => BATCH_STATUS
  | .exception => EXCEPTION_STATUS

def CompletionStatus.flagsByte : CompletionStatus → UInt8
  | .ready => 0
  | .readyBatch => 0
  | .exception => SIDE_PRESENT

/-- An exception has its side slab and produces nothing; success has none. -/
def OutcomeValid (status : CompletionStatus) (exception : Option ExceptionRef)
    (producedLength : UInt64) : Prop :=
  match status, exception with
  | .ready, none => True
  | .readyBatch, none => True
  | .exception, some exception => exception.Valid ∧ producedLength = 0
  | _, _ => False

/-- The bytes of the side slab. -/
def SideLaid (frame : CommandFrame) : Option ExceptionRef → Prop
  | none => frame.slice 80 48 = List.replicate 48 0
  | some exception =>
      frame.slices slotWidths 80 = slotFields exception.slot ∧
        frame.slice 120 8 = toLittleEndian 8 exception.length.toNat

/-- The layout of a completion frame. -/
structure CompletionFrame (frame : CommandFrame) (message : CompletionMessage) : Prop where
  header : frame.slices headerWidths 0 =
    headerFields COMPLETION_KIND message.status.statusByte message.status.flagsByte
      message.position message.worker
  costNs : frame.slice 20 8 = toLittleEndian 8 message.costNs.toNat
  reserved : frame.slice 28 4 = List.replicate 4 0
  slot : frame.slices slotWidths 32 = slotFields message.slot
  producedLength : frame.slice 72 8 = toLittleEndian 8 message.producedLength.toNat
  side : SideLaid frame message.exception
  costPositive : message.costNs ≠ 0
  slotValid : message.slot.Valid
  producedFits : message.producedLength ≤ message.slot.capacity
  outcome : OutcomeValid message.status message.exception message.producedLength

/-- A completion message has one frame. -/
theorem CompletionFrame.unique {one two : CommandFrame} {message : CompletionMessage}
    (first : CompletionFrame one message) (second : CompletionFrame two message) : one = two := by
  have header : headerWidths.sum = 20 := by decide
  have slots : slotWidths.sum = 40 := by decide
  have front : ∀ frame, CompletionFrame frame message →
      frame.slices (headerWidths ++ [8, 4] ++ slotWidths ++ [8]) 0 =
        headerFields COMPLETION_KIND message.status.statusByte message.status.flagsByte
          message.position message.worker ++
        [toLittleEndian 8 message.costNs.toNat, List.replicate 4 0] ++
        slotFields message.slot ++ [toLittleEndian 8 message.producedLength.toNat] := by
    intro frame laid
    simp only [Frame.slices_append, List.sum_append, header, slots, laid.header, Nat.zero_add,
      List.sum_cons, List.sum_nil, Nat.reduceAdd, laid.slot, Frame.slices, laid.costNs,
      laid.reserved, laid.producedLength]
  have width : (headerWidths ++ [8, 4] ++ slotWidths ++ [8]).sum = 80 := by decide
  have behind : ∀ (frame : CommandFrame) (tail : List Nat),
      frame.slices (headerWidths ++ [8, 4] ++ slotWidths ++ [8] ++ tail) 0 =
        frame.slices (headerWidths ++ [8, 4] ++ slotWidths ++ [8]) 0 ++
          frame.slices tail 80 := by
    intro frame tail
    rw [Frame.slices_append frame (headerWidths ++ [8, 4] ++ slotWidths ++ [8]) tail, width]
  have firstSide := first.side
  have secondSide := second.side
  cases side : message.exception with
  | none =>
      rw [side] at firstSide secondSide
      have covers : (headerWidths ++ [8, 4] ++ slotWidths ++ [8] ++ [48]).sum = FRAME_SIZE := by
        decide
      have tails : one.slices [48] 80 = two.slices [48] 80 := by
        simp only [SideLaid] at firstSide secondSide
        simp only [Frame.slices, firstSide, secondSide]
      apply Frame.eq_of_slices_eq covers
      rw [behind, behind, front one first, front two second, tails]
  | some exception =>
      rw [side] at firstSide secondSide
      have covers : (headerWidths ++ [8, 4] ++ slotWidths ++ [8] ++ (slotWidths ++ [8])).sum =
          FRAME_SIZE := by
        decide
      obtain ⟨firstSlot, firstLength⟩ := firstSide
      obtain ⟨secondSlot, secondLength⟩ := secondSide
      have tails : one.slices (slotWidths ++ [8]) 80 = two.slices (slotWidths ++ [8]) 80 := by
        simp only [Frame.slices_append, Frame.slices, slots, Nat.reduceAdd, firstSlot,
          firstLength, secondSlot, secondLength]
      apply Frame.eq_of_slices_eq covers
      rw [behind, behind, front one first, front two second, tails]

/-- The fields written over a header. -/
def completionBody (header : CommandFrame) (message : CompletionMessage) : CommandFrame :=
  putException (putU64 (putSlot (putU64 header 20 message.costNs) 32 message.slot) 72
    message.producedLength) message.exception

section SideSlab

variable {frame : CommandFrame} {exception : Option ExceptionRef} {offset width : Nat}

/-- The side slab lies behind the other fields. -/
theorem slice_putException (before : offset + width ≤ 80) :
    (putException frame exception).slice offset width = frame.slice offset width := by
  cases exception with
  | none => rw [putException]
  | some exception =>
      rw [putException]
      simp (disch := omega) only [slice_putU64_of_disjoint, slice_putSlot_of_disjoint]

theorem slices_putException {widths : List Nat} (before : offset + widths.sum ≤ 80) :
    (putException frame exception).slices widths offset = frame.slices widths offset := by
  cases exception with
  | none => rw [putException]
  | some exception =>
      rw [putException]
      simp (disch := omega) only [slices_putU64_of_disjoint, slices_putSlot_of_disjoint]

theorem putException_laid
    (clear : ∀ offset width, 80 ≤ offset → frame.slice offset width = List.replicate width 0) :
    SideLaid (putException frame exception) exception := by
  cases exception with
  | none => exact clear 80 48 (Nat.le_refl _)
  | some exception =>
      constructor
      · rw [putException, slices_putU64_of_disjoint (by decide)]
        exact slices_putSlot (by decide) (clear 82 2 (by decide))
      · rw [putException]
        exact slice_putU64 (by decide)

end SideSlab

theorem completionBody_frame {header : CommandFrame} {message : CompletionMessage}
    (laid : header.slices headerWidths 0 =
      headerFields COMPLETION_KIND message.status.statusByte message.status.flagsByte
        message.position message.worker)
    (clear : ∀ offset width, 20 ≤ offset → header.slice offset width = List.replicate width 0)
    (costPositive : message.costNs ≠ 0) (slotValid : message.slot.Valid)
    (producedFits : message.producedLength ≤ message.slot.capacity)
    (outcome : OutcomeValid message.status message.exception message.producedLength) :
    CompletionFrame (completionBody header message) message := by
  have slotClear : header.slice (32 + 2) 2 = [0, 0] := clear _ _ (by decide)
  unfold completionBody
  refine ⟨?_, ?_, ?_, ?_, ?_, ?_, costPositive, slotValid, producedFits, outcome⟩
  · simp (disch := decide) only [slices_putException, slices_putU64_of_disjoint,
      slices_putSlot_of_disjoint, laid]
  · simp (disch := decide) only [slice_putException, slice_putU64, slice_putU64_of_disjoint,
      slice_putSlot_of_disjoint]
  · simp (disch := decide) only [slice_putException, slice_putU64_of_disjoint,
      slice_putSlot_of_disjoint, clear]
  · rw [slices_putException (by decide), slices_putU64_of_disjoint (by decide)]
    apply slices_putSlot (by decide)
    rw [slice_putU64_of_disjoint (by decide)]
    exact slotClear
  · simp (disch := decide) only [slice_putException, slice_putU64]
  · apply putException_laid
    intro offset width past
    rw [slice_putU64_of_disjoint (Or.inr past),
      slice_putSlot_of_disjoint (Or.inr (Nat.le_trans (by decide) past)),
      slice_putU64_of_disjoint (Or.inr (Nat.le_trans (by decide) past))]
    exact clear _ _ (Nat.le_trans (by decide) past)

theorem statusBytes_ok_iff (message : CompletionMessage) (bytes : UInt8 × UInt8) :
    statusBytes message = .ok bytes ↔
      OutcomeValid message.status message.exception message.producedLength ∧ bytes = (message.status.statusByte, message.status.flagsByte) := by
  unfold statusBytes OutcomeValid CompletionStatus.statusByte
    CompletionStatus.flagsByte
  cases message.status <;> cases message.exception <;>
    simp only [bind_ok_iff, mapError_ok_iff, if_error_ok_iff, not_not, Except.ok.injEq,
      true_and, false_and, reduceCtorEq]
  · exact eq_comm
  · exact eq_comm
  · constructor
    · rintro ⟨⟨⟩, valid, produced, rfl⟩
      exact ⟨⟨(validateException_ok_iff _).mp valid, produced⟩, rfl⟩
    · rintro ⟨⟨valid, produced⟩, rfl⟩
      exact ⟨(), (validateException_ok_iff _).mpr valid, produced, rfl⟩

/-- Encoding is the relation between an answer and its frame. -/
theorem encodeCompletion_ok_iff (message : CompletionMessage) (frame : CommandFrame) :
    encodeCompletion message = .ok frame ↔ CompletionFrame frame message := by
  have laid := @completionBody_frame
    (frameHeader COMPLETION_KIND message.status.statusByte message.status.flagsByte
      message.position message.worker) message slices_frameHeader
    fun _ _ past => slice_frameHeader_of_le past
  have encodes : encodeCompletion message = .ok frame ↔
      message.slot.Valid ∧ message.producedLength ≤ message.slot.capacity ∧
        OutcomeValid message.status message.exception message.producedLength ∧ message.costNs ≠ 0 ∧
        completionBody (frameHeader COMPLETION_KIND message.status.statusByte
          message.status.flagsByte message.position message.worker) message = frame := by
    unfold encodeCompletion
    rw [bind_ok_iff]
    simp only [if_error_ok_iff, bind_ok_iff, mapError_ok_iff, statusBytes_ok_iff,
      Except.ok.injEq, UInt64.not_lt]
    constructor
    · rintro ⟨⟨⟩, slot, produced, bytes, ⟨outcome, rfl⟩, cost, same⟩
      exact ⟨(validateSlot_ok_iff _).mp slot, produced, outcome, cost, same⟩
    · rintro ⟨slot, produced, outcome, cost, same⟩
      exact ⟨(), (validateSlot_ok_iff _).mpr slot, produced, _, ⟨outcome, rfl⟩, cost, same⟩
  rw [encodes]
  constructor
  · rintro ⟨slot, produced, outcome, cost, rfl⟩
    exact laid cost slot produced outcome
  · intro framed
    exact ⟨framed.slotValid, framed.producedFits, framed.outcome, framed.costPositive,
      (laid framed.costPositive framed.slotValid framed.producedFits framed.outcome).unique
        framed⟩

theorem decodeOutcome_ok_iff (frame : CommandFrame) (producedLength : UInt64)
    (status : CompletionStatus) (exception : Option ExceptionRef) :
    decodeOutcome frame producedLength = .ok (status, exception) ↔
      frame.byte 6 = status.statusByte ∧ frame.byte 7 = status.flagsByte ∧
        SideLaid frame exception ∧ OutcomeValid status exception producedLength := by
  have readyBatch : READY_STATUS ≠ BATCH_STATUS := by decide
  have readyException : READY_STATUS ≠ EXCEPTION_STATUS := by decide
  have batchException : BATCH_STATUS ≠ EXCEPTION_STATUS := by decide
  unfold decodeOutcome
  constructor
  · intro decoded
    split at decoded
    · rename_i bytes
      obtain ⟨clear, same⟩ := if_error_ok_iff.mp decoded
      cases same
      exact ⟨bytes.1, bytes.2, (Frame.slice_eq_zeros_iff _ _ _).mpr clear, trivial⟩
    · split at decoded
      · rename_i bytes
        obtain ⟨clear, same⟩ := if_error_ok_iff.mp decoded
        cases same
        exact ⟨bytes.1, bytes.2, (Frame.slice_eq_zeros_iff _ _ _).mpr clear, trivial⟩
      · split at decoded
        · rename_i bytes
          obtain ⟨produced, decoded⟩ := if_error_ok_iff.mp decoded
          obtain ⟨slot, slotRead, decoded⟩ := bind_ok_iff.mp decoded
          obtain ⟨⟨⟩, valid, same⟩ := bind_ok_iff.mp decoded
          cases same
          obtain ⟨_, slotLaid⟩ := getSlot_ok_iff.mp slotRead
          exact ⟨bytes.1, bytes.2, ⟨slotLaid, (getU64_eq_iff _ _ _).mp rfl⟩,
            (validateException_ok_iff _).mp valid, not_not.mp produced⟩
        · cases decoded
  · rintro ⟨statusByte, flagsByte, side, outcome⟩
    cases status with
    | ready =>
        cases exception with
        | some exception => cases outcome
        | none =>
            rw [if_pos ⟨statusByte, flagsByte⟩]
            exact if_error_ok_iff.mpr ⟨(Frame.slice_eq_zeros_iff _ _ _).mp side, rfl⟩
    | readyBatch =>
        cases exception with
        | some exception => cases outcome
        | none =>
            have other : ¬(frame.byte 6 = READY_STATUS ∧ frame.byte 7 = 0) :=
              fun both => readyBatch (both.1.symm.trans statusByte)
            rw [if_neg other, if_pos ⟨statusByte, flagsByte⟩]
            exact if_error_ok_iff.mpr ⟨(Frame.slice_eq_zeros_iff _ _ _).mp side, rfl⟩
    | exception =>
        cases exception with
        | none => cases outcome
        | some exception =>
            have notReady : ¬(frame.byte 6 = READY_STATUS ∧ frame.byte 7 = 0) :=
              fun both => readyException (both.1.symm.trans statusByte)
            have notBatch : ¬(frame.byte 6 = BATCH_STATUS ∧ frame.byte 7 = 0) :=
              fun both => batchException (both.1.symm.trans statusByte)
            obtain ⟨valid, produced⟩ := outcome
            obtain ⟨slotLaid, lengthLaid⟩ := side
            rw [if_neg notReady, if_neg notBatch, if_pos ⟨statusByte, flagsByte⟩,
              if_error_ok_iff, bind_ok_iff]
            refine ⟨not_not.mpr produced, exception.slot,
              getSlot_ok_iff.mpr ⟨valid.slot, slotLaid⟩, ?_⟩
            rw [(getU64_eq_iff _ _ _).mpr lengthLaid]
            exact bind_ok_iff.mpr ⟨(), (validateException_ok_iff _).mpr valid, rfl⟩

/-- Decoding is the same relation. -/
theorem decodeCompletion_ok_iff (message : CompletionMessage) (frame : CommandFrame) :
    decodeCompletion frame = .ok message ↔ CompletionFrame frame message := by
  unfold decodeCompletion
  simp only [bind_ok_iff, if_error_ok_iff, ← Frame.slice_eq_zeros_iff, getSlot_ok_iff,
    Prod.exists, decodeOutcome_ok_iff, UInt64.not_lt]
  constructor
  · rintro ⟨⟨⟩, header, reserved, cost, slot, ⟨slotValid, slotLaid⟩, produced, status, exception,
      ⟨statusByte, flagsByte, side, outcome⟩, same⟩
    have fields := Except.ok.inj same
    subst fields
    exact
      { header := slices_header_iff.mpr ⟨header, statusByte, flagsByte, rfl, rfl⟩
        costNs := (getU64_eq_iff _ _ _).mp rfl
        reserved := reserved
        slot := slotLaid
        producedLength := (getU64_eq_iff _ _ _).mp rfl
        side := side
        costPositive := cost
        slotValid := slotValid
        producedFits := produced
        outcome := outcome }
  · intro framed
    obtain ⟨header, statusByte, flagsByte, position, worker⟩ :=
      slices_header_iff.mp framed.header
    have cost := (getU64_eq_iff _ _ _).mpr framed.costNs
    have produced := (getU64_eq_iff _ _ _).mpr framed.producedLength
    refine ⟨(), header, framed.reserved, ?_, message.slot, ⟨framed.slotValid, framed.slot⟩, ?_,
      message.status, message.exception, ⟨statusByte, flagsByte, framed.side, ?_⟩, ?_⟩
    · rw [cost]
      exact framed.costPositive
    · rw [produced]
      exact framed.producedFits
    · rw [produced]
      exact framed.outcome
    · rw [position, worker, cost, produced]

/-! ### Exactness -/

variable {frame : CommandFrame}

/-- The reserved bytes of a slot are clear. -/
theorem reserved_of_slotFields {start : Nat} {slot : SlotRef}
    (laid : frame.slices slotWidths start = slotFields slot) :
    frame.byte (start + 2) = 0 ∧ frame.byte (start + 3) = 0 := by
  unfold slotWidths slotFields at laid
  simp only [Frame.slices, List.cons.injEq] at laid
  have clear : frame.slice (start + 2) 2 = List.replicate 2 0 := laid.2.1
  exact ⟨Frame.byte_of_slice_eq_zeros clear (Nat.le_refl _) (by omega),
    Frame.byte_of_slice_eq_zeros clear (by omega) (by omega)⟩

/-- What every accepted dispatch frame satisfies. -/
structure DispatchAccepted (frame : CommandFrame) (message : DispatchMessage) : Prop where
  status : frame.byte 6 = 0
  flags : frame.byte 7 = 0
  slotReserved : frame.byte 34 = 0 ∧ frame.byte 35 = 0
  exceptionSlotReserved : frame.byte 74 = 0 ∧ frame.byte 75 = 0
  reserved : ∀ index, 124 ≤ index → index < 128 → frame.byte index = 0
  slot : message.slot.Valid
  exceptionSlot : message.exceptionSlot.Valid

/-- What every accepted completion frame satisfies. -/
structure CompletionAccepted (frame : CommandFrame) (message : CompletionMessage) : Prop where
  status : frame.byte 6 = message.status.statusByte
  flags : frame.byte 7 = message.status.flagsByte
  reserved : ∀ index, 28 ≤ index → index < 32 → frame.byte index = 0
  slotReserved : frame.byte 34 = 0 ∧ frame.byte 35 = 0
  sideAbsent : message.exception = none →
    ∀ index, 80 ≤ index → index < 128 → frame.byte index = 0
  sideReserved : message.exception ≠ none → frame.byte 82 = 0 ∧ frame.byte 83 = 0
  outcome : OutcomeValid message.status message.exception message.producedLength
  slot : message.slot.Valid
  producedLength : message.producedLength ≤ message.slot.capacity
  costNs : message.costNs ≠ 0

theorem DispatchFrame.accepted (framed : DispatchFrame frame message) :
    DispatchAccepted frame message := by
  obtain ⟨_, status, flags, _, _⟩ := slices_header_iff.mp framed.header
  exact
    { status := status
      flags := flags
      slotReserved := reserved_of_slotFields framed.slot
      exceptionSlotReserved := reserved_of_slotFields framed.exceptionSlot
      reserved := fun _ least most => Frame.byte_of_slice_eq_zeros framed.reserved least most
      slot := framed.slotValid
      exceptionSlot := framed.exceptionSlotValid }

theorem CompletionFrame.accepted {message : CompletionMessage}
    (framed : CompletionFrame frame message) : CompletionAccepted frame message := by
  obtain ⟨_, status, flags, _, _⟩ := slices_header_iff.mp framed.header
  have side := framed.side
  refine
    { status := status
      flags := flags
      reserved := fun _ least most => Frame.byte_of_slice_eq_zeros framed.reserved least most
      slotReserved := reserved_of_slotFields framed.slot
      sideAbsent := ?_
      sideReserved := ?_
      outcome := framed.outcome
      slot := framed.slotValid
      producedLength := framed.producedFits
      costNs := framed.costPositive }
  · intro absent index least most
    rw [absent] at side
    exact Frame.byte_of_slice_eq_zeros side least most
  · intro present
    obtain ⟨exception, some_eq⟩ := Option.ne_none_iff_exists'.mp present
    rw [some_eq] at side
    exact reserved_of_slotFields side.1

/-- The codecs are exact inverses: encoding and decoding are one relation between
messages and frames, read in the two directions.  So a decoder accepts the image of its
encoder and nothing else, and no frame is accepted twice. -/
theorem codecs_exact :
    (∀ message frame,
      encodeDispatch message = .ok frame → decodeDispatch frame = .ok message) ∧
    (∀ frame message,
      decodeDispatch frame = .ok message → encodeDispatch message = .ok frame) ∧
    (∀ message frame,
      encodeCompletion message = .ok frame → decodeCompletion frame = .ok message) ∧
    (∀ frame message,
      decodeCompletion frame = .ok message → encodeCompletion message = .ok frame) ∧
    (∀ frame, (∃ message, decodeDispatch frame = .ok message) ↔
      ∃ message, encodeDispatch message = .ok frame) ∧
    (∀ frame, (∃ message, decodeCompletion frame = .ok message) ↔
      ∃ message, encodeCompletion message = .ok frame) ∧
    (∀ frame message, decodeDispatch frame = .ok message → DispatchAccepted frame message) ∧
    (∀ frame message,
      decodeCompletion frame = .ok message → CompletionAccepted frame message) ∧
    (∀ frame dispatch completion, ¬(decodeDispatch frame = .ok dispatch ∧
      decodeCompletion frame = .ok completion)) := by
  have dispatch : ∀ message frame,
      encodeDispatch message = .ok frame ↔ decodeDispatch frame = .ok message :=
    fun message frame =>
      (encodeDispatch_ok_iff message frame).trans (decodeDispatch_ok_iff message frame).symm
  have completion : ∀ message frame,
      encodeCompletion message = .ok frame ↔ decodeCompletion frame = .ok message :=
    fun message frame =>
      (encodeCompletion_ok_iff message frame).trans (decodeCompletion_ok_iff message frame).symm
  refine ⟨fun message frame => (dispatch message frame).mp,
    fun frame message => (dispatch message frame).mpr,
    fun message frame => (completion message frame).mp,
    fun frame message => (completion message frame).mpr,
    fun frame => exists_congr fun message => (dispatch message frame).symm,
    fun frame => exists_congr fun message => (completion message frame).symm,
    fun frame message decoded => ((decodeDispatch_ok_iff message frame).mp decoded).accepted,
    fun frame message decoded => ((decodeCompletion_ok_iff message frame).mp decoded).accepted,
    ?_⟩
  rintro frame dispatched completed ⟨decodedDispatch, decodedCompletion⟩
  have dispatchFrame := (decodeDispatch_ok_iff dispatched frame).mp decodedDispatch
  have completionFrame := (decodeCompletion_ok_iff completed frame).mp decodedCompletion
  obtain ⟨dispatchHeader, _⟩ := slices_header_iff.mp dispatchFrame.header
  obtain ⟨completionHeader, _⟩ := slices_header_iff.mp completionFrame.header
  have dispatchKind := (validateHeader_ok_iff.mp dispatchHeader).2.2
  have completionKind := (validateHeader_ok_iff.mp completionHeader).2.2
  rw [dispatchKind] at completionKind
  have kinds : DISPATCH_KIND = COMPLETION_KIND := (List.cons.inj completionKind).1
  exact absurd kinds (by decide)

end Hyperloader.Transport
