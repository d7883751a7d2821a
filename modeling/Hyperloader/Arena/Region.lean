/-
Module: Hyperloader.Arena.Region
Purpose: The attachment of named regions of arena/named/region.rs: shared objects and slices of
  their mappings, the header a region is checked by, and the payload behind it.
Trusted boundary: `System` is what the operating system answers to the calls of one attachment.
Main exports: Memory, Slice, RegionError, System, NamedRegion, NamedRegion.attach, payload_eq
-/
import Hyperloader.Arena.Registry

namespace Hyperloader.Arena

open Foundations

/-! ### Memory and slices -/

/-- Every byte of every shared object. -/
abbrev Memory := Nat → Nat → UInt8

inductive RegionError where
  | sequenceOutOfRange (sequence : Nat)
  | invalidSize (size : Nat)
  | notFound (name : Bytes)
  | headerMismatch (field : String)
  | os (operation : String)

/-- How a call ends early: with an error it returns, or in a panic. -/
inductive Failure (Error : Type) where
  | panic
  | returned (error : Error)

/-- Part of a mapped object. -/
structure Slice where
  object : Nat
  start : Nat
  length : Nat

namespace Slice

/-- `slice[start..stop]` -/
def index {Error : Type} (slice : Slice) (start stop : Nat) : Except (Failure Error) Slice :=
  if start ≤ stop ∧ stop ≤ slice.length then
    .ok ⟨slice.object, slice.start + start, stop - start⟩
  else .error .panic

def bytes (slice : Slice) (memory : Memory) : Bytes :=
  (List.range slice.length).map fun index => memory slice.object (slice.start + index)

/-- The memory with other bytes in a slice. -/
def overwrite (slice : Slice) (memory : Memory) (source : Bytes) : Memory :=
  fun object offset =>
    if object = slice.object ∧ slice.start ≤ offset ∧ offset < slice.start + slice.length then
      source.getD (offset - slice.start) 0
    else memory object offset

def copyFromSlice {Error : Type} (slice : Slice) (memory : Memory) (source : Bytes) :
    Except (Failure Error) Memory :=
  if slice.length = source.length then .ok (slice.overwrite memory source) else .error .panic

end Slice

/-- One past the largest `usize`. -/
def usizeLimit : Nat := 2 ^ 64

/-- An addition the source does not check. -/
def addition {Error : Type} (one two : Nat) : Except (Failure Error) Nat :=
  if one + two < usizeLimit then .ok (one + two) else .error .panic

/-! ### Named regions -/

def MAGIC : Bytes := [0x48, 0x4C, 0x41, 0x52, 0x45, 0x4E, 0x41, 0x00]
def SIZE_BYTES : Nat := 8
def HEADER_LEN : Nat := MAGIC.length + tokenBytes + SIZE_BYTES

/-- What the operating system answers while a region is opened: the object of a name, its
length, and whether it is mapped. -/
structure System where
  shmOpen : Bytes → Except RegionError Nat
  fstat : Nat → Except RegionError Nat
  mmap : Nat → Nat → Except RegionError Unit

/-- The object a mapping of the given length shows. -/
def System.openMapping (system : System) (name : Bytes) (length : Nat) :
    Except RegionError Nat := do
  let object ← system.shmOpen name
  let actual ← system.fstat object
  if actual < length then .error (.headerMismatch "size")
  else do
    system.mmap object length
    return object

def totalSize (payloadSize : Nat) : Except RegionError Nat :=
  if payloadSize = 0 ∨ 2 ^ 64 ≤ payloadSize then .error (.invalidSize payloadSize)
  else if HEADER_LEN + payloadSize < usizeLimit then .ok (HEADER_LEN + payloadSize)
  else .error (.invalidSize payloadSize)

def validateHeader (mapping : Bytes) (token : RegionToken) (payloadSize : Nat) :
    Except RegionError Unit :=
  let tokenStart := MAGIC.length
  let tokenEnd := tokenStart + tokenBytes
  if mapping.take MAGIC.length ≠ MAGIC then .error (.headerMismatch "magic")
  else if (mapping.drop tokenStart).take tokenBytes ≠ token.toList then
    .error (.headerMismatch "token")
  else if fromLittleEndian ((mapping.drop tokenEnd).take SIZE_BYTES) ≠ payloadSize then
    .error (.headerMismatch "size")
  else .ok ()

/-- An attachment under a name: its mapping covers the header and the payload. -/
structure NamedRegion (token : RegionToken) (sequence : UInt16) where
  name : Bytes
  payloadSize : Nat
  mapping : Slice
  named : RegionName.new token sequence.toNat = some name
  whole : totalSize payloadSize = .ok mapping.length

variable {token : RegionToken} {sequence : UInt16}

def NamedRegion.attach (system : System) (memory : Memory) (token : RegionToken)
    (sequence : UInt16) (payloadSize : Nat) : Except RegionError (NamedRegion token sequence) :=
  match named : RegionName.new token sequence.toNat with
  | none => .error (.sequenceOutOfRange sequence.toNat)
  | some name =>
      match whole : totalSize payloadSize with
      | .error error => .error error
      | .ok total => do
          let object ← system.openMapping name total
          let mapping : Slice := ⟨object, 0, total⟩
          validateHeader (mapping.bytes memory) token payloadSize
          return ⟨name, payloadSize, mapping, named, whole⟩

/-- `payload()` and `payload_mut()` -/
def NamedRegion.payload {Error : Type} (region : NamedRegion token sequence) :
    Except (Failure Error) Slice := do
  let stop ← addition HEADER_LEN region.payloadSize
  region.mapping.index HEADER_LEN stop

/-! ### The payload -/

theorem totalSize_ok_iff {payloadSize total : Nat} :
    totalSize payloadSize = .ok total ↔
      payloadSize ≠ 0 ∧ HEADER_LEN + payloadSize < usizeLimit ∧
        total = HEADER_LEN + payloadSize := by
  unfold totalSize
  split
  · rename_i refused
    apply iff_of_false nofun
    rintro ⟨positive, fits, -⟩
    rcases refused with empty | wide
    · exact positive empty
    · have least : payloadSize ≤ HEADER_LEN + payloadSize := Nat.le_add_left _ _
      exact Nat.not_lt.mpr (Nat.le_trans wide least) fits
  · rename_i accepted
    rw [not_or] at accepted
    split
    · rename_i fits
      rw [Except.ok.injEq, eq_comm, and_iff_right fits, and_iff_right accepted.1]
    · rename_i wide
      exact iff_of_false nofun fun parts => wide parts.2.1

/-- The payload of a region is the whole of its mapping past the header. -/
theorem NamedRegion.payload_eq {Error : Type} (region : NamedRegion token sequence) :
    (region.payload : Except (Failure Error) Slice) =
      .ok ⟨region.mapping.object, region.mapping.start + HEADER_LEN, region.payloadSize⟩ := by
  obtain ⟨-, fits, covers⟩ := totalSize_ok_iff.mp region.whole
  have bounds : HEADER_LEN ≤ HEADER_LEN + region.payloadSize ∧
      HEADER_LEN + region.payloadSize ≤ region.mapping.length :=
    ⟨Nat.le_add_right _ _, Nat.le_of_eq covers.symm⟩
  have sum : (addition HEADER_LEN region.payloadSize : Except (Failure Error) Nat) =
    .ok (HEADER_LEN + region.payloadSize) := if_pos fits
  unfold payload
  rw [sum]
  dsimp only [bind, Except.bind]
  rw [Slice.index, if_pos bounds, Nat.add_sub_cancel_left]

end Hyperloader.Arena
