/-
Module: Hyperloader.Arena.Writer
Purpose: The worker's side of arena/writer.rs: the cache of attachments by sequence, and reads
  and writes through slot references that crossed a ring.
Trusted boundary: none
Main exports: validateSlot, ArenaWriter.writeAt, ArenaWriter.read, ArenaWriter.run,
  stays_in_slot
-/
import Hyperloader.Arena.Region
import Hyperloader.Transport.Message

namespace Hyperloader.Arena

open Foundations
open Transport (SlotRef)

variable {token : RegionToken} {sequence : UInt16}

inductive ArenaWriterError where
  | invalidSlot (field : String)
  | slotOverflow (capacity actual : Nat)
  | region (source : RegionError)

def checkedAdd (one two : Nat) (field : String) : Except (Failure ArenaWriterError) Nat :=
  if one + two < usizeLimit then .ok (one + two) else .error (.returned (.invalidSlot field))

/-- `usize::try_from(value)` -/
def usizeTryFrom (value : UInt64) (field : String) : Except (Failure ArenaWriterError) Nat :=
  if value.toNat < usizeLimit then .ok value.toNat
  else .error (.returned (.invalidSlot field))

/-! ### The writer -/

/-- `validate_slot` of the writer, which also bounds the part of the slot a call asks for. -/
def validateSlot (slot : SlotRef) (relativeOffset payloadLength : Nat) :
    Except (Failure ArenaWriterError) Unit := do
  let stop ← checkedAdd slot.offset.toNat slot.capacity.toNat "slot range"
  if slot.regionSize = 0 ∨ slot.capacity = 0 ∨ slot.regionSize.toNat < stop then
    .error (.returned (.invalidSlot "slot range"))
  else do
    let produced ← checkedAdd relativeOffset payloadLength "slot range"
    if slot.capacity.toNat < produced then
      .error (.returned (.slotOverflow slot.capacity.toNat produced))
    else .ok ()

/-- The cache of one worker. -/
structure ArenaWriter (token : RegionToken) where
  regions : (sequence : UInt16) → Option (NamedRegion token sequence)

namespace ArenaWriter

def new (token : RegionToken) : ArenaWriter token := ⟨fun _ => none⟩

variable (system : System) (memory : Memory) (writer : ArenaWriter token)

/-- The cached region of a sequence, attached first where none is cached. -/
def region (sequence : UInt16) (payloadSize : Nat) :
    Except (Failure ArenaWriterError) (NamedRegion token sequence × ArenaWriter token) :=
  match writer.regions sequence with
  | some region => .ok (region, writer)
  | none =>
      match NamedRegion.attach system memory token sequence payloadSize with
      | .error error => .error (.returned (.region error))
      | .ok region => .ok (region, ⟨Function.update writer.regions sequence (some region)⟩)

/-- The bytes of a slot a call asks for, in a region of the size the slot names. -/
def locate (region : NamedRegion token sequence) (slot : SlotRef)
    (payloadSize relativeOffset length : Nat) : Except (Failure ArenaWriterError) Slice := do
  if region.payloadSize ≠ payloadSize then
    .error (.returned (.invalidSlot "cached region size"))
  else do
    let offset ← usizeTryFrom slot.offset "slot offset"
    let start ← checkedAdd offset relativeOffset "slot range"
    let stop ← checkedAdd start length "slot range"
    let payload ← region.payload
    payload.index start stop

/-- Both calls up to the access of the payload; the cache keeps a region attached on the way
also where the access is refused. -/
def access (slot : SlotRef) (relativeOffset length : Nat) :
    Except (Failure ArenaWriterError) Slice × ArenaWriter token :=
  match validateSlot slot relativeOffset length with
  | .error failure => (.error failure, writer)
  | .ok () =>
      match usizeTryFrom slot.regionSize "region size" with
      | .error failure => (.error failure, writer)
      | .ok payloadSize =>
          match writer.region system memory slot.regionSequence payloadSize with
          | .error failure => (.error failure, writer)
          | .ok (region, writer) =>
              (locate region slot payloadSize relativeOffset length, writer)

end ArenaWriter

/-- What a call returns and leaves behind. -/
structure Outcome (token : RegionToken) (Result : Type) where
  result : Except (Failure ArenaWriterError) Result
  memory : Memory
  writer : ArenaWriter token

namespace ArenaWriter

variable (system : System) (memory : Memory) (writer : ArenaWriter token)

def writeAt (slot : SlotRef) (relativeOffset : Nat) (payload : Bytes) : Outcome token Unit :=
  let (found, writer) := writer.access system memory slot relativeOffset payload.length
  match found >>= fun slice => slice.copyFromSlice memory payload with
  | .error failure => ⟨.error failure, memory, writer⟩
  | .ok written => ⟨.ok (), written, writer⟩

def write (slot : SlotRef) (payload : Bytes) : Outcome token Unit :=
  writer.writeAt system memory slot 0 payload

/-- A read asks for the start of a slot. -/
def read (slot : SlotRef) (length : Nat) : Outcome token Bytes :=
  let (found, writer) := writer.access system memory slot 0 length
  ⟨found.map fun slice => slice.bytes memory, memory, writer⟩

end ArenaWriter

/-! ### Calls -/

inductive Access where
  | write (payload : Bytes)
  | writeAt (relativeOffset : Nat) (payload : Bytes)
  | read (length : Nat)

structure Call where
  slot : SlotRef
  access : Access

def Call.relativeOffset (call : Call) : Nat :=
  match call.access with
  | .writeAt relativeOffset _ => relativeOffset
  | _ => 0

def Call.length (call : Call) : Nat :=
  match call.access with
  | .write payload => payload.length
  | .writeAt _ payload => payload.length
  | .read length => length

/-- A call of any kind; a write returns no bytes. -/
def ArenaWriter.run (writer : ArenaWriter token) (system : System) (memory : Memory)
    (call : Call) : Outcome token Bytes :=
  match call.access with
  | .write payload =>
      let outcome := writer.write system memory call.slot payload
      { outcome with result := outcome.result.map fun _ => [] }
  | .writeAt relativeOffset payload =>
      let outcome := writer.writeAt system memory call.slot relativeOffset payload
      { outcome with result := outcome.result.map fun _ => [] }
  | .read length => writer.read system memory call.slot length

/-- The writer after any calls, whatever other processes leave in memory before each. -/
def ArenaWriter.after (token : RegionToken) (history : List (System × Memory × Call)) :
    ArenaWriter token :=
  history.foldl (fun writer (system, memory, call) => (writer.run system memory call).writer)
    (.new token)

/-! ### Where a call reaches -/

theorem checkedAdd_ok_iff {one two sum : Nat} {field : String} :
    checkedAdd one two field = .ok sum ↔ one + two < usizeLimit ∧ sum = one + two := by
  unfold checkedAdd
  split
  · rename_i fits
    rw [Except.ok.injEq, eq_comm, and_iff_right fits]
  · rename_i wide
    exact iff_of_false nofun fun both => wide both.1

/-- A checked addition refuses with its error. -/
theorem checkedAdd_returned {one two : Nat} {field : String} {failure : Failure ArenaWriterError}
    (refused : checkedAdd one two field = .error failure) : ∃ error, failure = .returned error := by
  unfold checkedAdd at refused
  split at refused
  · nomatch refused
  · exact ⟨_, (Except.error.inj refused).symm⟩

/-- What `validate_slot` lets through: the part asked for lies in the slot and the slot in a
region of the size it names. -/
structure InSlot (slot : SlotRef) (relativeOffset length : Nat) : Prop where
  part : relativeOffset + length ≤ slot.capacity.toNat
  slot : slot.offset.toNat + slot.capacity.toNat ≤ slot.regionSize.toNat

theorem validateSlot_cases (slot : SlotRef) (relativeOffset length : Nat) :
    (∃ error, validateSlot slot relativeOffset length = .error (.returned error)) ∨
      validateSlot slot relativeOffset length = .ok () ∧ InSlot slot relativeOffset length := by
  unfold validateSlot
  cases range : checkedAdd slot.offset.toNat slot.capacity.toNat "slot range" with
  | error failure =>
      obtain ⟨error, rfl⟩ := checkedAdd_returned range
      exact Or.inl ⟨error, rfl⟩
  | ok stop =>
      obtain ⟨-, rfl⟩ := checkedAdd_ok_iff.mp range
      dsimp only [bind, Except.bind]
      split
      · exact Or.inl ⟨_, rfl⟩
      · rename_i bounded
        rw [not_or, not_or, Nat.not_lt] at bounded
        cases asked : checkedAdd relativeOffset length "slot range" with
        | error failure =>
            obtain ⟨error, rfl⟩ := checkedAdd_returned asked
            exact Or.inl ⟨error, rfl⟩
        | ok produced =>
            obtain ⟨-, rfl⟩ := checkedAdd_ok_iff.mp asked
            dsimp only
            split
            · exact Or.inl ⟨_, rfl⟩
            · rename_i fits
              exact Or.inr ⟨rfl, Nat.not_lt.mp fits, bounded.2.2⟩

/-- The part of the payload a reference and a call ask for. -/
def NamedRegion.part (region : NamedRegion token sequence) (slot : SlotRef)
    (relativeOffset length : Nat) : Slice :=
  ⟨region.mapping.object, region.mapping.start + HEADER_LEN + (slot.offset.toNat + relativeOffset),
    length⟩

/-- Behind the checks an access is refused with an error or reaches its part of the payload. -/
theorem ArenaWriter.locate_cases (region : NamedRegion token sequence) {slot : SlotRef}
    {relativeOffset length : Nat} (inside : InSlot slot relativeOffset length) :
    (∃ error, locate region slot slot.regionSize.toNat relativeOffset length =
        .error (.returned error)) ∨
      locate region slot slot.regionSize.toNat relativeOffset length =
          .ok (region.part slot relativeOffset length) ∧
        region.payloadSize = slot.regionSize.toNat := by
  obtain ⟨part, within⟩ := inside
  have small := slot.regionSize.toNat_lt
  unfold locate
  split
  · exact Or.inl ⟨_, rfl⟩
  · rename_i same
    rw [Decidable.not_not] at same
    have offset : usizeTryFrom slot.offset "slot offset" = .ok slot.offset.toNat :=
      if_pos slot.offset.toNat_lt
    have start : checkedAdd slot.offset.toNat relativeOffset "slot range" =
        .ok (slot.offset.toNat + relativeOffset) := by
      apply checkedAdd_ok_iff.mpr ⟨?_, rfl⟩
      unfold usizeLimit
      omega
    have stop : checkedAdd (slot.offset.toNat + relativeOffset) length "slot range" =
        .ok (slot.offset.toNat + relativeOffset + length) := by
      apply checkedAdd_ok_iff.mpr ⟨?_, rfl⟩
      unfold usizeLimit
      omega
    have bounds : slot.offset.toNat + relativeOffset ≤
          slot.offset.toNat + relativeOffset + length ∧
        slot.offset.toNat + relativeOffset + length ≤ region.payloadSize := by
      constructor <;> omega
    right
    refine ⟨?_, same⟩
    apply bind_ok_iff.mpr ⟨_, offset, ?_⟩
    apply bind_ok_iff.mpr ⟨_, start, ?_⟩
    apply bind_ok_iff.mpr ⟨_, stop, ?_⟩
    apply bind_ok_iff.mpr ⟨_, region.payload_eq, ?_⟩
    rw [Slice.index, if_pos bounds, Nat.add_sub_cancel_left]
    rfl

/-- An access that is let through reaches its part of a cached region as large as the reference
names. -/
structure Reaches (writer : ArenaWriter token) (slot : SlotRef) (relativeOffset length : Nat)
    (region : NamedRegion token slot.regionSequence) : Prop where
  inSlot : InSlot slot relativeOffset length
  sized : region.payloadSize = slot.regionSize.toNat
  cached : writer.regions slot.regionSequence = some region

theorem ArenaWriter.region_cases (system : System) (memory : Memory)
    (writer : ArenaWriter token) (sequence : UInt16) (payloadSize : Nat) :
    (∃ error, writer.region system memory sequence payloadSize = .error (.returned error)) ∨
      ∃ (region : NamedRegion token sequence) (cached : ArenaWriter token),
        cached.regions sequence = some region ∧
          writer.region system memory sequence payloadSize = .ok (region, cached) := by
  unfold region
  split
  · rename_i region found
    exact Or.inr ⟨region, writer, found, rfl⟩
  · split
    · exact Or.inl ⟨_, rfl⟩
    · rename_i region _
      exact Or.inr ⟨region, _, Function.update_self _ _ _, rfl⟩

theorem ArenaWriter.access_cases (system : System) (memory : Memory)
    (writer : ArenaWriter token) (slot : SlotRef) (relativeOffset length : Nat) :
    (∃ error, (writer.access system memory slot relativeOffset length).1 =
        .error (.returned error)) ∨
      ∃ region : NamedRegion token slot.regionSequence,
        Reaches (writer.access system memory slot relativeOffset length).2 slot relativeOffset
            length region ∧
          (writer.access system memory slot relativeOffset length).1 =
            .ok (region.part slot relativeOffset length) := by
  have size : usizeTryFrom slot.regionSize "region size" = .ok slot.regionSize.toNat :=
    if_pos slot.regionSize.toNat_lt
  unfold access
  rcases validateSlot_cases slot relativeOffset length with ⟨error, refused⟩ | ⟨valid, inside⟩
  · rw [refused]
    exact Or.inl ⟨error, rfl⟩
  · rw [valid, size]
    dsimp only
    rcases writer.region_cases system memory slot.regionSequence slot.regionSize.toNat with
      ⟨error, refused⟩ | ⟨region, cached, held, found⟩
    · rw [refused]
      exact Or.inl ⟨error, rfl⟩
    · rw [found]
      dsimp only
      rcases locate_cases region inside with ⟨error, refused⟩ | ⟨reached, same⟩
      · exact Or.inl ⟨error, refused⟩
      · exact Or.inr ⟨region, ⟨inside, same, held⟩, reached⟩

/-- What a call that reaches a part of the payload returns, and the memory it leaves. -/
def Call.effect (call : Call) (part : Slice) (memory : Memory) : Bytes × Memory :=
  match call.access with
  | .write payload => ([], part.overwrite memory payload)
  | .writeAt _ payload => ([], part.overwrite memory payload)
  | .read _ => (part.bytes memory, memory)

theorem ArenaWriter.writeAt_cases (system : System) (memory : Memory)
    (writer : ArenaWriter token) (slot : SlotRef) (relativeOffset : Nat) (payload : Bytes) :
    let outcome := writer.writeAt system memory slot relativeOffset payload
    (∃ error, outcome.result = .error (.returned error) ∧ outcome.memory = memory) ∨
      ∃ region, Reaches outcome.writer slot relativeOffset payload.length region ∧
        outcome.result = .ok () ∧
          outcome.memory =
            (region.part slot relativeOffset payload.length).overwrite memory payload := by
  intro outcome
  rcases writer.access_cases system memory slot relativeOffset payload.length with
    ⟨error, refused⟩ | ⟨region, reaches, found⟩
  · left
    refine ⟨error, ?_⟩
    show (writer.writeAt _ _ _ _ _).result = _ ∧ (writer.writeAt _ _ _ _ _).memory = _
    unfold writeAt
    dsimp only
    rw [refused]
    exact ⟨rfl, rfl⟩
  · right
    refine ⟨region, ?_⟩
    show Reaches (writer.writeAt _ _ _ _ _).writer _ _ _ _ ∧
      (writer.writeAt _ _ _ _ _).result = _ ∧ (writer.writeAt _ _ _ _ _).memory = _
    have copied : ((region.part slot relativeOffset payload.length).copyFromSlice memory payload :
        Except (Failure ArenaWriterError) Memory) =
      .ok ((region.part slot relativeOffset payload.length).overwrite memory payload) := if_pos rfl
    unfold writeAt
    dsimp only
    rw [found]
    dsimp only [bind, Except.bind]
    rw [copied]
    exact ⟨reaches, rfl, rfl⟩

theorem ArenaWriter.run_cases (system : System) (memory : Memory)
    (writer : ArenaWriter token) (call : Call) :
    let outcome := writer.run system memory call
    (∃ error, outcome.result = .error (.returned error) ∧ outcome.memory = memory) ∨
      ∃ region, Reaches outcome.writer call.slot call.relativeOffset call.length region ∧
        let part := region.part call.slot call.relativeOffset call.length
        outcome.result = .ok (call.effect part memory).1 ∧
          outcome.memory = (call.effect part memory).2 := by
  obtain ⟨slot, access⟩ := call
  cases access with
  | write payload =>
      rcases writer.writeAt_cases system memory slot 0 payload with
        ⟨error, refused, kept⟩ | ⟨region, reaches, done, left⟩
      · exact Or.inl ⟨error, congrArg (Except.map fun _ => []) refused, kept⟩
      · exact Or.inr ⟨region, reaches, congrArg (Except.map fun _ => []) done, left⟩
  | writeAt relativeOffset payload =>
      rcases writer.writeAt_cases system memory slot relativeOffset payload with
        ⟨error, refused, kept⟩ | ⟨region, reaches, done, left⟩
      · exact Or.inl ⟨error, congrArg (Except.map fun _ => []) refused, kept⟩
      · exact Or.inr ⟨region, reaches, congrArg (Except.map fun _ => []) done, left⟩
  | read length =>
      rcases writer.access_cases system memory slot 0 length with
        ⟨error, refused⟩ | ⟨region, reaches, found⟩
      · left
        exact ⟨error, congrArg (Except.map fun slice : Slice => slice.bytes memory) refused, rfl⟩
      · right
        exact ⟨region, reaches,
          congrArg (Except.map fun slice : Slice => slice.bytes memory) found, rfl⟩

/-- After any calls, with any references, whatever other processes leave in memory between
them: a call returns an error and leaves every region as it was, or it reads or writes exactly
its part of the slot, which lies in the payload of the attached region. None panics. -/
theorem stays_in_slot (token : RegionToken) (history : List (System × Memory × Call))
    (system : System) (memory : Memory) (call : Call) :
    let outcome := (ArenaWriter.after token history).run system memory call
    (∃ error, outcome.result = .error (.returned error) ∧ outcome.memory = memory) ∨
      ∃ region : NamedRegion token call.slot.regionSequence,
        let start := call.slot.offset.toNat + call.relativeOffset
        let part : Slice := ⟨region.mapping.object, region.mapping.start + HEADER_LEN + start,
          call.length⟩
        outcome.writer.regions call.slot.regionSequence = some region ∧
          region.payloadSize = call.slot.regionSize.toNat ∧
          start + call.length ≤ call.slot.offset.toNat + call.slot.capacity.toNat ∧
          call.slot.offset.toNat + call.slot.capacity.toNat ≤ region.payloadSize ∧
          HEADER_LEN + region.payloadSize = region.mapping.length ∧
          outcome.result = .ok (call.effect part memory).1 ∧
          outcome.memory = (call.effect part memory).2 := by
  intro outcome
  rcases ArenaWriter.run_cases system memory (ArenaWriter.after token history) call with
    refused | ⟨region, reaches, result, left⟩
  · exact Or.inl refused
  · obtain ⟨-, -, covers⟩ := totalSize_ok_iff.mp region.whole
    have part := reaches.inSlot.part
    right
    refine ⟨region, reaches.cached, reaches.sized, ?_, ?_, covers.symm, result, left⟩
    · omega
    · rw [reaches.sized]
      exact reaches.inSlot.slot

end Hyperloader.Arena
