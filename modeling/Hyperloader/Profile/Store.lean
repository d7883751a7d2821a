/-
Module: Hyperloader.Profile.Store
Purpose: Binary profile persistence, engine/src/state/profile/store.rs, over 64-bit patterns: what
  is saved is loaded again, and what is loaded is what would be saved.
Trusted boundary: pointers have 64 bits; the file system keeps bytes; the fused multiply-add of
  binary64 is a parameter.
Main exports: FileBytes, save, load, Storable, profile_store_exact
-/
import Hyperloader.Foundations.ByteFrame
import Hyperloader.Profile.CostProfile

namespace Hyperloader.Profile

open Foundations

/-! ### Patterns -/

/-- The exponent bits of a binary64 pattern. -/
def EXPONENT : Nat := 0x7FF * 2 ^ 52

def SIGN : Nat := 2 ^ 63

/-- `f64::is_nan` -/
def isNan (bits : UInt64) : Bool := EXPONENT < bits.toNat % SIGN

/-- `f64::is_finite` -/
def isFinite (bits : UInt64) : Bool := bits.toNat % SIGN < EXPONENT

/-- `> 0.0` of a number; the patterns of positive numbers are ordered as the numbers. -/
def isPositive (bits : UInt64) : Bool := 0 < bits.toNat ∧ bits.toNat ≤ EXPONENT

def ONE : Nat := 0x3FF * 2 ^ 52

/-- A shift to the right that rounds to the nearest, on a tie to the even. -/
def roundedShift (value bits : Nat) : Nat :=
  let quotient := value / 2 ^ bits
  let remainder := 2 * (value % 2 ^ bits)
  if 2 ^ bits < remainder ∨ (remainder = 2 ^ bits ∧ quotient % 2 = 1) then quotient + 1
  else quotient

/-- `as f64` -/
def f64OfU64 (value : UInt64) : UInt64 :=
  if value = 0 then 0
  else
    let exponent := value.toNat.log2
    let mantissa :=
      if exponent ≤ 52 then value.toNat * 2 ^ (52 - exponent)
      else roundedShift value.toNat (exponent - 52)
    UInt64.ofNat ((exponent + 1022) * 2 ^ 52 + mantissa)

/-- Costs as patterns. -/
def binary64 (blend : UInt64 → UInt64 → UInt64 → UInt64) : Costs UInt64 where
  nan := 0x7FF8000000000000
  isNan := isNan
  factor alpha := 0 < alpha.toNat ∧ alpha.toNat ≤ ONE
  ofCost := f64OfU64
  blend := blend

/-! ### Files -/

/-- The bytes of a file that has been read. -/
structure FileBytes where
  bytes : List UInt8
  fits : bytes.length ≤ ISIZE_MAX

/-- The bytes of `b"HLPR"`. -/
def MAGIC : List UInt8 := [72, 76, 80, 82]

def HEADER_BYTES : Nat := 28

def encoded (bits : UInt64) : List UInt8 := toLittleEndian 8 bits.toNat

/-- What `save` writes. -/
def fileOf (profile : CostProfile UInt64) : List UInt8 :=
  MAGIC ++ (encoded profile.positionCount ++ (toLittleEndian 8 profile.values.length ++
    (encoded profile.alpha ++ profile.values.flatMap encoded)))

theorem length_flatMap_encoded (values : List UInt64) :
    (values.flatMap encoded).length = values.length * 8 := by
  induction values with
  | nil => rfl
  | cons value values ih =>
      rw [List.flatMap_cons, List.length_append, ih, encoded,
        length_toLittleEndian, List.length_cons]
      omega

theorem length_fileOf (profile : CostProfile UInt64) :
    (fileOf profile).length = HEADER_BYTES + profile.values.length * 8 := by
  unfold fileOf encoded
  simp only [List.length_append, length_toLittleEndian]
  have := length_flatMap_encoded profile.values
  unfold encoded at this
  rw [this]
  have : MAGIC.length = 4 := rfl
  unfold HEADER_BYTES
  omega

/-- `save`; a vector beyond the largest allocation aborts. -/
def save (profile : CostProfile UInt64) : Except ProfileFailure FileBytes :=
  if fits : (fileOf profile).length ≤ ISIZE_MAX then .ok ⟨fileOf profile, fits⟩
  else .error .aborted

/-- `read_u64` -/
def readU64 (bytes : List UInt8) (offset : Nat) : Except ProfileFailure UInt64 :=
  if offset + 8 ≤ bytes.length then
    .ok (UInt64.ofNat (fromLittleEndian ((bytes.drop offset).take 8)))
  else .error .aborted

def U64_MAX : Nat := 2 ^ 64 - 1

def saturatingMul (left right : Nat) : Nat := min (left * right) U64_MAX

def checkedMul (left right : Nat) : Option Nat :=
  if left * right ≤ U64_MAX then some (left * right) else none

def checkedAdd (left right : Nat) : Option Nat :=
  if left + right ≤ U64_MAX then some (left + right) else none

def refuse {Result : Type} (text : String) : Except ProfileFailure Result :=
  .error (.refused text)

/-- The loop of `load` over the entries from an offset on. -/
def readCosts (bytes : List UInt8) (offset : Nat) : Nat → Except ProfileFailure (List UInt64)
  | 0 => .ok []
  | remaining + 1 => do
      let value ← readU64 bytes offset
      if !isNan value ∧ (!isFinite value ∨ !isPositive value) then
        refuse "profile cache contains an invalid cost"
      else
        let rest ← readCosts bytes (offset + 8) remaining
        return value :: rest

def OVERFLOWED : String := "profile cache size overflowed"

/-- The part of `load` behind the checks of the header. -/
def loadEntries (file : FileBytes) (positionCount storedEntries alpha : UInt64) :
    Except ProfileFailure (CostProfile UInt64) :=
  let entries := storedEntries.toNat
  match checkedMul entries 8 with
  | none => refuse OVERFLOWED
  | some payload =>
      match checkedAdd HEADER_BYTES payload with
      | none => refuse OVERFLOWED
      | some expectedBytes =>
          if file.bytes.length ≠ expectedBytes ∨ positionCount < storedEntries then
            refuse "profile cache length is invalid"
          else if ISIZE_MAX < entries * 8 then .error .aborted
          else do
            -- the offsets of `(HEADER_BYTES..expected_bytes).step_by(8)`
            let offsets := (expectedBytes - HEADER_BYTES + 7) / 8
            let values ← readCosts file.bytes HEADER_BYTES offsets
            return ⟨positionCount, alpha, values⟩

/-- `load` of the bytes of a file. -/
def load (file : FileBytes) (positionCount maxBytes alpha : UInt64) :
    Except ProfileFailure (CostProfile UInt64) := do
  let bytes := file.bytes
  if bytes.length < HEADER_BYTES ∨ bytes.take 4 ≠ MAGIC then
    refuse "profile cache header is invalid"
  else
    let storedPositions ← readU64 bytes 4
    let storedEntries ← readU64 bytes 12
    let storedAlpha ← readU64 bytes 20
    if storedPositions ≠ positionCount then refuse "profile cache position count changed"
    else if storedAlpha ≠ alpha then refuse "profile cache alpha changed"
    else if maxBytes.toNat < saturatingMul storedEntries.toNat 8 then
      refuse "profile cache exceeds the current size budget"
    else loadEntries file positionCount storedEntries alpha

/-! ### Entries -/

/-- No number, or a finite positive one. -/
def Entry (value : UInt64) : Prop :=
  isNan value = true ∨ (isFinite value = true ∧ isPositive value = true)

theorem entry_iff (value : UInt64) :
    ¬(!isNan value ∧ (!isFinite value ∨ !isPositive value)) ↔ Entry value := by
  unfold Entry
  cases isNan value <;> cases isFinite value <;> cases isPositive value <;> simp

theorem readU64_append {before field after : List UInt8} (width : field.length = 8) :
    readU64 (before ++ (field ++ after)) before.length =
      .ok (UInt64.ofNat (fromLittleEndian field)) := by
  unfold readU64
  rw [if_pos, List.drop_left, List.take_append_of_le_length (Nat.le_of_eq width.symm),
    List.take_of_length_le (Nat.le_of_eq width)]
  rw [List.length_append, List.length_append, width]
  omega

theorem fromLittleEndian_encoded (bits : UInt64) :
    UInt64.ofNat (fromLittleEndian (encoded bits)) = bits := by
  unfold encoded
  rw [fromLittleEndian_toLittleEndian bits.toNat_lt, UInt64.ofNat_toNat]

/-- Entries that have been written are read back. -/
theorem readCosts_flatMap {values : List UInt64} (valid : ∀ value ∈ values, Entry value)
    (before : List UInt8) :
    readCosts (before ++ values.flatMap encoded) before.length values.length = .ok values := by
  induction values generalizing before with
  | nil => rfl
  | cons value values ih =>
      obtain ⟨here, later⟩ := List.forall_mem_cons.mp valid
      have width : (encoded value).length = 8 := length_toLittleEndian _ _
      have rest := ih later (before ++ encoded value)
      rw [List.append_assoc, List.length_append, width] at rest
      rw [List.flatMap_cons, List.length_cons, readCosts, readU64_append width,
        fromLittleEndian_encoded]
      show (if _ ∧ _ then _ else _ : Except ProfileFailure (List UInt64)) = _
      rw [if_neg ((entry_iff value).mpr here), rest]
      rfl

theorem readU64_ok_iff {bytes : List UInt8} {offset : Nat} {value : UInt64} :
    readU64 bytes offset = .ok value ↔
      offset + 8 ≤ bytes.length ∧ (bytes.drop offset).take 8 = encoded value := by
  unfold readU64
  split
  · rename_i within
    have width : ((bytes.drop offset).take 8).length = 8 := by
      rw [List.length_take, List.length_drop]
      omega
    have again := toLittleEndian_fromLittleEndian ((bytes.drop offset).take 8)
    have bound := fromLittleEndian_lt ((bytes.drop offset).take 8)
    rw [width] at again bound
    have exact : (UInt64.ofNat (fromLittleEndian ((bytes.drop offset).take 8))).toNat =
        fromLittleEndian ((bytes.drop offset).take 8) := UInt64.toNat_ofNat_of_lt' bound
    constructor
    · intro same
      obtain rfl := Except.ok.inj same
      refine ⟨within, ?_⟩
      unfold encoded
      rw [exact, again]
    · rintro ⟨-, same⟩
      rw [same, fromLittleEndian_encoded]
  · rename_i beyond
    exact iff_of_false nofun fun both => beyond both.1

/-- Entries that have been read are those written. -/
theorem readCosts_ok {bytes : List UInt8} {offset count : Nat} {values : List UInt64}
    (read : readCosts bytes offset count = .ok values) :
    values.length = count ∧ (∀ value ∈ values, Entry value) ∧
      (bytes.drop offset).take (count * 8) = values.flatMap encoded := by
  induction count generalizing offset values with
  | zero =>
      obtain rfl := Except.ok.inj read
      exact ⟨rfl, nofun, rfl⟩
  | succ count ih =>
      unfold readCosts at read
      obtain ⟨value, first, rest⟩ := bind_ok_iff.mp read
      obtain ⟨valid, rest⟩ := if_error_ok_iff.mp rest
      obtain ⟨others, later, same⟩ := bind_ok_iff.mp rest
      obtain rfl := Except.ok.inj same
      obtain ⟨length, all, bytesEq⟩ := ih later
      obtain ⟨-, here⟩ := readU64_ok_iff.mp first
      refine ⟨by rw [List.length_cons, length],
        List.forall_mem_cons.mpr ⟨(entry_iff value).mp valid, all⟩, ?_⟩
      rw [List.flatMap_cons, ← here, ← bytesEq, Nat.succ_mul, Nat.add_comm (count * 8),
        List.take_add, List.drop_drop]

/-- Reading within the bytes does not abort. -/
theorem readCosts_ne_aborted {bytes : List UInt8} {offset count : Nat}
    (within : offset + count * 8 ≤ bytes.length) :
    readCosts bytes offset count ≠ .error .aborted := by
  induction count generalizing offset with
  | zero => nofun
  | succ count ih =>
      have first : readU64 bytes offset = .ok _ := if_pos (by omega)
      have later := @ih (offset + 8) (by omega)
      unfold readCosts
      rw [first]
      show (if _ ∧ _ then _ else _ : Except ProfileFailure (List UInt64)) ≠ _
      split
      · nofun
      · intro aborted
        cases restEq : readCosts bytes (offset + 8) count with
        | error failure =>
            rw [restEq] at aborted
            exact later (restEq.trans aborted)
        | ok rest =>
            rw [restEq] at aborted
            nomatch aborted

/-! ### Profiles and files -/

/-- What a file can hold of a profile. -/
structure Storable (profile : CostProfile UInt64) : Prop where
  entries : profile.values.length ≤ profile.positionCount.toNat
  sized : profile.values.length * 8 ≤ ISIZE_MAX
  valid : ∀ value ∈ profile.values, Entry value

theorem checkedMul_ok {left right : Nat} (fits : left * right ≤ U64_MAX) :
    checkedMul left right = some (left * right) := if_pos fits

theorem checkedAdd_ok {left right : Nat} (fits : left + right ≤ U64_MAX) :
    checkedAdd left right = some (left + right) := if_pos fits

/-- The header of a file whose length is that of its entries. -/
structure Headed (file : FileBytes) (positionCount maxBytes alpha entries : UInt64) : Prop where
  magic : file.bytes.take 4 = MAGIC
  positions : readU64 file.bytes 4 = .ok positionCount
  count : readU64 file.bytes 12 = .ok entries
  factor : readU64 file.bytes 20 = .ok alpha
  budget : entries.toNat * 8 ≤ maxBytes.toNat
  length : file.bytes.length = HEADER_BYTES + entries.toNat * 8
  within : entries ≤ positionCount

/-- Entries that are not those of the file are refused. -/
theorem loadEntries_cases (file : FileBytes) (positionCount entries alpha : UInt64) :
    ((∃ text, loadEntries file positionCount entries alpha = .error (.refused text)) ∧
        ¬(file.bytes.length = HEADER_BYTES + entries.toNat * 8 ∧ entries ≤ positionCount)) ∨
      (file.bytes.length = HEADER_BYTES + entries.toNat * 8 ∧ entries ≤ positionCount) ∧
        loadEntries file positionCount entries alpha =
          (readCosts file.bytes HEADER_BYTES entries.toNat).bind fun values =>
            .ok ⟨positionCount, alpha, values⟩ := by
  have room := file.fits
  unfold ISIZE_MAX at room
  unfold loadEntries
  dsimp only
  by_cases fits : entries.toNat * 8 ≤ U64_MAX
  · rw [checkedMul_ok fits]
    dsimp only
    by_cases whole : HEADER_BYTES + entries.toNat * 8 ≤ U64_MAX
    · rw [checkedAdd_ok whole]
      dsimp only
      by_cases other : file.bytes.length ≠ HEADER_BYTES + entries.toNat * 8 ∨
          positionCount < entries
      · rw [if_pos other]
        refine Or.inl ⟨⟨_, rfl⟩, fun both => ?_⟩
        rcases other with different | more
        · exact different both.1
        · exact absurd both.2 (UInt64.not_le.mpr more)
      · obtain ⟨same, within⟩ := not_or.mp other
        have same := not_not.mp same
        have small : ¬ISIZE_MAX < entries.toNat * 8 := by
          unfold ISIZE_MAX
          omega
        have steps : (HEADER_BYTES + entries.toNat * 8 - HEADER_BYTES + 7) / 8 =
            entries.toNat := by omega
        rw [if_neg other, if_neg small, steps]
        exact Or.inr ⟨⟨same, UInt64.not_lt.mp within⟩, rfl⟩
    · have overflow : checkedAdd HEADER_BYTES (entries.toNat * 8) = none := if_neg whole
      rw [overflow]
      unfold U64_MAX at whole
      exact Or.inl ⟨⟨_, rfl⟩, by omega⟩
  · have overflow : checkedMul entries.toNat 8 = none := if_neg fits
    rw [overflow]
    unfold U64_MAX at fits
    exact Or.inl ⟨⟨_, rfl⟩, by omega⟩

/-- A file is refused, or it has its header and its entries are read. -/
theorem load_cases (file : FileBytes) (positionCount maxBytes alpha : UInt64) :
    ((∃ text, load file positionCount maxBytes alpha = .error (.refused text)) ∧
        ¬∃ entries, Headed file positionCount maxBytes alpha entries) ∨
      ∃ entries, Headed file positionCount maxBytes alpha entries ∧
        load file positionCount maxBytes alpha =
          (readCosts file.bytes HEADER_BYTES entries.toNat).bind fun values =>
            .ok ⟨positionCount, alpha, values⟩ := by
  unfold load
  dsimp only
  by_cases header : file.bytes.length < HEADER_BYTES ∨ file.bytes.take 4 ≠ MAGIC
  · rw [if_pos header]
    refine Or.inl ⟨⟨_, rfl⟩, ?_⟩
    rintro ⟨entries, headed⟩
    have length := headed.length
    rcases header with short | other
    · omega
    · exact other headed.magic
  · rw [if_neg header]
    obtain ⟨long, magic⟩ := not_or.mp header
    have magic := not_not.mp magic
    have long : 28 ≤ file.bytes.length := Nat.le_of_not_lt long
    have field (offset : Nat) (within : offset + 8 ≤ 28) :
        ∃ value, readU64 file.bytes offset = .ok value :=
      ⟨_, if_pos (Nat.le_trans within long)⟩
    obtain ⟨positions, positionsEq⟩ := field 4 (by decide)
    obtain ⟨entries, entriesEq⟩ := field 12 (by decide)
    obtain ⟨factor, factorEq⟩ := field 20 (by decide)
    simp only [positionsEq, entriesEq, factorEq, bind, Except.bind]
    -- a header of other fields is not this one
    have unlike : ∀ other, Headed file positionCount maxBytes alpha other →
        positions = positionCount ∧ other = entries ∧ factor = alpha := fun other headed =>
      ⟨Except.ok.inj (positionsEq.symm.trans headed.positions),
        Except.ok.inj (headed.count.symm.trans entriesEq),
        Except.ok.inj (factorEq.symm.trans headed.factor)⟩
    by_cases samePositions : positions = positionCount
    · by_cases sameFactor : factor = alpha
      · subst samePositions sameFactor
        rw [if_neg (not_not.mpr rfl), if_neg (not_not.mpr rfl)]
        by_cases large : maxBytes.toNat < saturatingMul entries.toNat 8
        · rw [if_pos large]
          refine Or.inl ⟨⟨_, rfl⟩, ?_⟩
          rintro ⟨other, headed⟩
          obtain ⟨-, rfl, -⟩ := unlike other headed
          have budget := headed.budget
          unfold saturatingMul at large
          omega
        · rw [if_neg large]
          rcases loadEntries_cases file positions entries factor with ⟨refused, not⟩ |
            ⟨⟨length, within⟩, read⟩
          · refine Or.inl ⟨refused, ?_⟩
            rintro ⟨other, headed⟩
            obtain ⟨-, rfl, -⟩ := unlike other headed
            exact not ⟨headed.length, headed.within⟩
          · have room := file.fits
            have bounded : entries.toNat * 8 ≤ maxBytes.toNat := by
              unfold saturatingMul U64_MAX at large
              unfold ISIZE_MAX at room
              omega
            exact Or.inr ⟨entries, ⟨magic, positionsEq, entriesEq, factorEq, bounded, length,
              within⟩, read⟩
      · rw [if_neg (not_not.mpr samePositions), if_pos sameFactor]
        refine Or.inl ⟨⟨_, rfl⟩, ?_⟩
        rintro ⟨other, headed⟩
        exact sameFactor (unlike other headed).2.2
    · rw [if_pos samePositions]
      refine Or.inl ⟨⟨_, rfl⟩, ?_⟩
      rintro ⟨other, headed⟩
      exact samePositions (unlike other headed).1

variable {profile : CostProfile UInt64}

/-- The header of what has been saved. -/
theorem headed_fileOf (storable : Storable profile) {file : FileBytes}
    (bytesEq : file.bytes = fileOf profile) {maxBytes : UInt64}
    (budget : profile.payloadBytes ≤ maxBytes.toNat) :
    Headed file profile.positionCount maxBytes profile.alpha
        (UInt64.ofNat profile.values.length) ∧
      (UInt64.ofNat profile.values.length).toNat = profile.values.length := by
  have counted : (UInt64.ofNat profile.values.length).toNat = profile.values.length :=
    UInt64.toNat_ofNat_of_lt' (Nat.lt_of_le_of_lt storable.entries profile.positionCount.toNat_lt)
  have width (value : UInt64) : (encoded value).length = 8 := length_toLittleEndian _ _
  have lengthEq : toLittleEndian 8 profile.values.length =
      encoded (UInt64.ofNat profile.values.length) := by
    unfold encoded
    rw [counted]
  refine ⟨⟨?_, ?_, ?_, ?_, ?_, ?_, ?_⟩, counted⟩
  · rw [bytesEq]
    show List.take MAGIC.length (MAGIC ++ _) = MAGIC
    exact List.take_left
  · rw [bytesEq]
    have field := @readU64_append MAGIC (encoded profile.positionCount)
      (toLittleEndian 8 profile.values.length ++
        (encoded profile.alpha ++ profile.values.flatMap encoded)) (width _)
    rwa [fromLittleEndian_encoded] at field
  · rw [bytesEq]
    have field := @readU64_append (MAGIC ++ encoded profile.positionCount)
      (encoded (UInt64.ofNat profile.values.length))
      (encoded profile.alpha ++ profile.values.flatMap encoded) (width _)
    rw [fromLittleEndian_encoded, ← lengthEq, List.append_assoc, List.length_append, width] at field
    exact field
  · rw [bytesEq]
    have field := @readU64_append
      (MAGIC ++ encoded profile.positionCount ++ toLittleEndian 8 profile.values.length)
      (encoded profile.alpha) (profile.values.flatMap encoded) (width _)
    rw [fromLittleEndian_encoded, List.append_assoc, List.append_assoc, List.length_append,
      List.length_append, width, length_toLittleEndian] at field
    exact field
  · rw [counted]
    exact budget
  · rw [bytesEq, length_fileOf, counted]
  · rw [UInt64.le_iff_toNat_le, counted]
    exact storable.entries

/-- What has been saved is loaded, under every budget that admits it. -/
theorem load_save (storable : Storable profile) {file : FileBytes} (saved : save profile = .ok file)
    {maxBytes : UInt64} (budget : profile.payloadBytes ≤ maxBytes.toNat) :
    load file profile.positionCount maxBytes profile.alpha = .ok profile := by
  have bytesEq : file.bytes = fileOf profile := by
    unfold save at saved
    split at saved
    · obtain rfl := Except.ok.inj saved
      rfl
    · nomatch saved
  obtain ⟨headed, counted⟩ := headed_fileOf storable bytesEq budget
  rcases load_cases file profile.positionCount maxBytes profile.alpha with ⟨-, not⟩ |
    ⟨entries, other, read⟩
  · exact absurd ⟨_, headed⟩ not
  · obtain rfl := Except.ok.inj (headed.count.symm.trans other.count)
    rw [read, counted, bytesEq]
    have body : fileOf profile = (MAGIC ++ encoded profile.positionCount ++
        toLittleEndian 8 profile.values.length ++ encoded profile.alpha) ++
        profile.values.flatMap encoded := by
      unfold fileOf
      simp only [List.append_assoc]
    have entriesRead := readCosts_flatMap storable.valid (MAGIC ++
      encoded profile.positionCount ++ toLittleEndian 8 profile.values.length ++
      encoded profile.alpha)
    rw [← body] at entriesRead
    have offset : (MAGIC ++ encoded profile.positionCount ++
        toLittleEndian 8 profile.values.length ++ encoded profile.alpha).length =
        HEADER_BYTES := by
      simp only [List.length_append, encoded, length_toLittleEndian]
      rfl
    rw [offset] at entriesRead
    rw [entriesRead]
    rfl

/-- What is loaded is what would be saved. -/
theorem load_ok {file : FileBytes} {positionCount maxBytes alpha : UInt64}
    (loaded : load file positionCount maxBytes alpha = .ok profile) :
    (profile.positionCount = positionCount ∧ profile.alpha = alpha ∧
      profile.payloadBytes ≤ maxBytes.toNat ∧ ∀ value ∈ profile.values, Entry value) ∧
      save profile = .ok file := by
  rcases load_cases file positionCount maxBytes alpha with ⟨⟨text, refused⟩, -⟩ |
    ⟨entries, headed, read⟩
  · nomatch refused.symm.trans loaded
  · rw [loaded] at read
    obtain ⟨values, readEq, made⟩ := bind_ok_iff.mp read.symm
    obtain rfl := Except.ok.inj made
    obtain ⟨length, valid, body⟩ := readCosts_ok readEq
    obtain ⟨magic, positions, count, factor, budget, size, -⟩ := headed
    refine ⟨⟨rfl, rfl, ?_, valid⟩, ?_⟩
    · unfold CostProfile.payloadBytes ENTRY_BYTES
      rwa [length]
    · have fileEq : fileOf ⟨positionCount, alpha, values⟩ = file.bytes := by
        have counted : toLittleEndian 8 values.length = encoded entries := by
          rw [length]
          rfl
        have rest : (file.bytes.drop HEADER_BYTES).take (entries.toNat * 8) =
            file.bytes.drop HEADER_BYTES :=
          List.take_of_length_le (by rw [List.length_drop]; omega)
        have split (offset : Nat) : file.bytes.drop offset =
            (file.bytes.drop offset).take 8 ++ file.bytes.drop (offset + 8) := by
          rw [← List.drop_drop, List.take_append_drop]
        unfold fileOf
        rw [counted, ← body, rest, ← magic, ← (readU64_ok_iff.mp positions).2,
          ← (readU64_ok_iff.mp count).2, ← (readU64_ok_iff.mp factor).2]
        rw [show HEADER_BYTES = 20 + 8 from rfl, ← split, ← split 12, ← split 4,
          List.take_append_drop]
      have fits : (fileOf ⟨positionCount, alpha, values⟩).length ≤ ISIZE_MAX :=
        fileEq ▸ file.fits
      unfold save
      rw [dif_pos fits]
      congr 1
      cases file
      simp only [FileBytes.mk.injEq]
      exact fileEq

theorem load_ne_aborted (file : FileBytes) (positionCount maxBytes alpha : UInt64) :
    load file positionCount maxBytes alpha ≠ .error .aborted := by
  rcases load_cases file positionCount maxBytes alpha with ⟨⟨text, refused⟩, -⟩ |
    ⟨entries, headed, read⟩
  · rw [refused]
    nofun
  · rw [read]
    have within := @readCosts_ne_aborted file.bytes HEADER_BYTES entries.toNat
      (Nat.le_of_eq headed.length.symm)
    cases readEq : readCosts file.bytes HEADER_BYTES entries.toNat with
    | error failure =>
        rw [readEq] at within
        cases failure with
        | refused text => nofun
        | aborted => exact absurd rfl within
    | ok values => nofun

/-! ### Reachable profiles -/

/-- A finite positive number. -/
def FinitePositive (bits : UInt64) : Prop := isFinite bits = true ∧ isPositive bits = true

/-- A profile that has been made and has observed. -/
inductive Reachable {Value : Type} (costs : Costs Value) : CostProfile Value → Prop where
  | made {positionCount maxBytes : UInt64} {alpha : Value} {profile : CostProfile Value}
      (newEq : CostProfile.new costs positionCount maxBytes alpha = .ok profile) :
      Reachable costs profile
  | observed {profile after : CostProfile Value} {position costNs : UInt64}
      (reachable : Reachable costs profile)
      (observeEq : profile.observe costs position costNs = .ok after) :
      Reachable costs after

theorem roundedShift_le {value bits bound : Nat} (less : value < bound * 2 ^ bits) :
    roundedShift value bits ≤ bound := by
  have quotient : value / 2 ^ bits < bound := Nat.div_lt_of_lt_mul (by rwa [Nat.mul_comm])
  unfold roundedShift
  dsimp only
  split <;> omega

/-- A positive count is a finite positive number. -/
theorem finitePositive_f64OfU64 {value : UInt64} (positive : value ≠ 0) :
    FinitePositive (f64OfU64 value) := by
  have nonzero : value.toNat ≠ 0 := fun zero => positive (UInt64.toNat_inj.mp zero)
  have top : value.toNat < 2 ^ (value.toNat.log2 + 1) := Nat.lt_log2_self
  have exponent : value.toNat.log2 < 64 := (Nat.log2_lt nonzero).mpr value.toNat_lt
  unfold f64OfU64
  rw [if_neg positive]
  dsimp only
  generalize value.toNat.log2 = e at top exponent
  have mantissa : (if e ≤ 52 then value.toNat * 2 ^ (52 - e)
      else roundedShift value.toNat (e - 52)) ≤ 2 ^ 53 := by
    split
    · rename_i small
      have product : 2 ^ (e + 1) * 2 ^ (52 - e) = 2 ^ 53 := by
        rw [← Nat.pow_add]
        congr 1
        omega
      rw [← product]
      exact Nat.le_of_lt (Nat.mul_lt_mul_of_pos_right top (Nat.two_pow_pos _))
    · rename_i large
      apply roundedShift_le
      have product : 2 ^ 53 * 2 ^ (e - 52) = 2 ^ (e + 1) := by
        rw [← Nat.pow_add]
        congr 1
        omega
      rwa [product]
  generalize (if e ≤ 52 then value.toNat * 2 ^ (52 - e)
    else roundedShift value.toNat (e - 52)) = m at mantissa
  have fits : (e + 1022) * 2 ^ 52 + m < UInt64.size := by
    show _ < 2 ^ 64
    omega
  have exact := UInt64.toNat_ofNat_of_lt' fits
  unfold FinitePositive isFinite isPositive SIGN EXPONENT
  rw [exact]
  simp only [decide_eq_true_eq]
  omega

theorem observe_inside {Value : Type} {costs : Costs Value} {profile after : CostProfile Value}
    {position costNs : UInt64} (observed : profile.observe costs position costNs = .ok after) :
    position < profile.positionCount ∧ costNs ≠ 0 := by
  unfold CostProfile.observe at observed
  obtain ⟨inside, observed⟩ := if_error_ok_iff.mp observed
  exact ⟨UInt64.not_le.mp inside, (if_error_ok_iff.mp observed).1⟩

section Blends

variable {blend : UInt64 → UInt64 → UInt64 → UInt64}
  (blend_positive : ∀ alpha costNs current, (binary64 blend).factor alpha = true →
    costNs ≠ 0 → FinitePositive current →
    FinitePositive (blend alpha (f64OfU64 costNs) current))
include blend_positive

/-- Over every run a profile can be stored. -/
theorem storable_of_reachable (reachable : Reachable (binary64 blend) profile) :
    Storable profile ∧ (binary64 blend).factor profile.alpha = true := by
  induction reachable with
  | made newEq =>
      obtain ⟨factor, sized, rfl⟩ := CostProfile.new_ok_iff.mp newEq
      unfold ENTRY_BYTES at sized
      refine ⟨⟨?_, ?_, ?_⟩, factor⟩
      · rw [List.length_replicate]
        exact Nat.min_le_left _ _
      · rw [List.length_replicate]
        exact sized
      · intro value member
        rw [List.eq_of_mem_replicate member]
        exact Or.inl (show isNan 0x7FF8000000000000 = true by decide)
  | @observed profile after position costNs _ observeEq ih =>
      obtain ⟨⟨entries, sized, valid⟩, factor⟩ := ih
      obtain ⟨inside, positive⟩ := observe_inside observeEq
      rcases CostProfile.observe_cases (binary64 blend) inside positive with ⟨-, same⟩ |
        ⟨index, current, -, there, set⟩
      · obtain rfl := Except.ok.inj (same.symm.trans observeEq)
        exact ⟨⟨entries, sized, valid⟩, factor⟩
      · obtain rfl := Except.ok.inj (set.symm.trans observeEq)
        refine ⟨⟨?_, ?_, fun value member => ?_⟩, factor⟩
        · rw [List.length_set]
          exact entries
        · rw [List.length_set]
          exact sized
        · rcases List.mem_or_eq_of_mem_set member with before | rfl
          · exact valid value before
          · split
            · exact Or.inr (finitePositive_f64OfU64 positive)
            · rename_i number
              have entry := valid current (List.mem_of_getElem? there)
              exact Or.inr (blend_positive _ _ _ factor positive (entry.resolve_left number))

/-- What a reachable profile saves is loaded again; and whatever bytes are loaded, it is as the
profile that would save them, within what was asked for, and nothing aborts. -/
theorem profile_store_exact :
    (∀ profile, Reachable (binary64 blend) profile → ∀ file, save profile = .ok file →
      ∀ maxBytes : UInt64, profile.payloadBytes ≤ maxBytes.toNat →
        load file profile.positionCount maxBytes profile.alpha = .ok profile) ∧
    ∀ (file : FileBytes) (positionCount maxBytes alpha : UInt64),
      load file positionCount maxBytes alpha ≠ .error .aborted ∧
      ∀ profile, load file positionCount maxBytes alpha = .ok profile →
        (profile.positionCount = positionCount ∧ profile.alpha = alpha ∧
          profile.payloadBytes ≤ maxBytes.toNat ∧ ∀ value ∈ profile.values, Entry value) ∧
          save profile = .ok file := by
  refine ⟨fun profile reachable file saved maxBytes budget => ?_,
    fun file positionCount maxBytes alpha => ⟨?_, fun profile loaded => load_ok loaded⟩⟩
  · exact load_save (storable_of_reachable blend_positive reachable).1 saved budget
  · exact load_ne_aborted file positionCount maxBytes alpha

end Blends

/-- Two positions, of which the first is observed, under a smoothing factor of one, where an
observation replaces the estimate. -/
theorem profile_store_exact_replacing :
    ∃ profile file,
      Reachable (binary64 fun _ observation _ => observation) profile ∧
        save profile = .ok file ∧
        load file profile.positionCount 16 profile.alpha = .ok profile := by
  have made : CostProfile.new (binary64 fun _ observation _ => observation) 2 16
      0x3FF0000000000000 = .ok ⟨2, 0x3FF0000000000000,
        [0x7FF8000000000000, 0x7FF8000000000000]⟩ := rfl
  have observed : CostProfile.observe (binary64 fun _ observation _ => observation)
      ⟨2, 0x3FF0000000000000, [0x7FF8000000000000, 0x7FF8000000000000]⟩ 0 5 =
        .ok ⟨2, 0x3FF0000000000000, [f64OfU64 5, 0x7FF8000000000000]⟩ := rfl
  have reachable := Reachable.observed (.made made) observed
  have saved : save ⟨2, 0x3FF0000000000000, [f64OfU64 5, 0x7FF8000000000000]⟩ = .ok _ := rfl
  exact ⟨_, _, reachable, saved,
    (profile_store_exact fun _ _ _ _ positive _ => finitePositive_f64OfU64 positive).1
      _ reachable _ saved 16 (by decide)⟩

end Hyperloader.Profile
