/-
Module: Hyperloader.Arena.Identity
Purpose: The spellings of region tokens and names: which texts read as a token and which of
  them the printer writes, and the one sequence behind every accepted name.
Trusted boundary: none
Main exports: RegionToken.toHex, Loose, Lowercase, canonical_iff, fromRegistry_iff,
  new_injective, spellings_iff
-/
import Hyperloader.Arena.Registry

namespace Hyperloader.Arena

open Foundations
open Foundations.JsonText

/-! ### Tokens -/

/-- A byte as two lower-case hexadecimal digits. -/
def hexPair (byte : UInt8) : Bytes := [hexNibble (byte.toNat / 16), hexNibble (byte.toNat % 16)]

def RegionToken.toHex (token : RegionToken) : Bytes := token.toList.flatMap hexPair

/-- The pairs the integer parser accepts: two hexadecimal digits of either case, or a plus
sign and one. -/
def Loose : Bytes → Prop
  | [] => True
  | [_] => False
  | first :: second :: rest =>
      (first = 0x2B ∨ (hexDigit first).isSome) ∧ (hexDigit second).isSome ∧ Loose rest

/-- `0` to `9` and `a` to `f` -/
def lowercaseHex (byte : UInt8) : Bool := digit byte || (0x61 ≤ byte && byte ≤ 0x66)

def Lowercase (encoded : Bytes) : Prop := encoded.all lowercaseHex = true

instance : DecidablePred Loose := fun encoded => go encoded
where
  go : (encoded : Bytes) → Decidable (Loose encoded)
    | [] => inferInstanceAs (Decidable True)
    | [_] => inferInstanceAs (Decidable False)
    | first :: second :: rest =>
        have : Decidable (Loose rest) := go rest
        inferInstanceAs (Decidable ((first = 0x2B ∨ (hexDigit first).isSome) ∧
          (hexDigit second).isSome ∧ Loose rest))

instance (encoded : Bytes) : Decidable (Lowercase encoded) :=
  inferInstanceAs (Decidable (_ = _))

/-- What holds of the bytes of all numbers below 256 holds of every byte. -/
theorem forall_byte {property : UInt8 → Prop}
    (every : ∀ value < 256, property (UInt8.ofNat value)) (byte : UInt8) : property byte := by
  rw [← @UInt8.ofNat_toNat byte]
  exact every byte.toNat byte.toNat_lt

theorem hexDigit_lt {byte : UInt8} {value : Nat} (read : hexDigit byte = some value) :
    value < 16 := by
  have here := @forall_byte
    (fun byte => (hexDigit byte).all (fun value => decide (value < 16)) = true)
    (by decide +kernel) byte
  rw [read] at here
  exact of_decide_eq_true here

theorem hexDigit_of_lowercase {byte : UInt8} (lowercase : lowercaseHex byte = true) :
    ∃ value, hexDigit byte = some value ∧ hexNibble value = byte := by
  have written := @forall_byte
    (fun byte => lowercaseHex byte = true →
      (hexDigit byte).any (fun value => decide (hexNibble value = byte)) = true)
    (by decide +kernel) byte lowercase
  rw [Option.any_eq_true] at written
  obtain ⟨value, read, same⟩ := written
  exact ⟨value, read, of_decide_eq_true same⟩

theorem lowercase_hexNibble {value : Nat} (small : value < 16) :
    lowercaseHex (hexNibble value) = true := by
  revert small
  revert value
  decide

/-- Two characters of a token. -/
theorem fromStrRadix_pair (first second : UInt8) :
    fromStrRadix [first, second] =
      if first = 0x2B then (hexDigit second).map UInt8.ofNat
      else (hexDigit first).bind fun high => (hexDigit second).map fun low =>
        UInt8.ofNat (high * 16 + low) := by
  unfold fromStrRadix
  by_cases plus : first = 0x2B
  · rw [if_pos plus, plus]
    cases read : hexDigit second with
    | none => simp [read]
    | some low =>
        have small := hexDigit_lt read
        have fits : low < 256 := by omega
        simp [read, fits]
  · rw [if_neg plus]
    cases high : hexDigit first with
    | none => simp [plus, high]
    | some upper =>
        cases low : hexDigit second with
        | none =>
            have small := hexDigit_lt high
            have fits : upper < 256 := by omega
            simp [plus, high, low, fits]
        | some lower =>
            have upperSmall := hexDigit_lt high
            have lowerSmall := hexDigit_lt low
            have fits : upper < 256 := by omega
            have whole : upper * 16 + lower < 256 := by omega
            simp [plus, high, low, fits, whole]

/-- A token's text read pair by pair. -/
def readPairs : Bytes → Option Bytes
  | [] => some []
  | [_] => none
  | first :: second :: rest => do
      let byte ← fromStrRadix [first, second]
      let bytes ← readPairs rest
      some (byte :: bytes)

theorem mapM_pairs (count : Nat) (encoded : Bytes) (length : encoded.length = count * 2) :
    ((List.range count).mapM fun index => fromStrRadix ((encoded.drop (index * 2)).take 2)) =
      readPairs encoded := by
  induction count generalizing encoded with
  | zero =>
      rw [Nat.zero_mul, List.length_eq_zero_iff] at length
      rw [length]
      rfl
  | succ count ih =>
      match encoded, length with
      | [_], length => exact absurd length (by simp [Nat.succ_mul])
      | first :: second :: rest, length =>
          have shorter : rest.length = count * 2 := by
            simp only [List.length_cons] at length
            omega
          have later := ih rest shorter
          have shift : ∀ index, ((first :: second :: rest).drop ((index + 1) * 2)).take 2 =
              (rest.drop (index * 2)).take 2 := by
            intro index
            rw [Nat.succ_mul]
            rfl
          rw [List.range_succ_eq_map, List.mapM_cons, List.mapM_map]
          simp only [Function.comp_def, Nat.succ_eq_add_one, shift, later]
          rfl

theorem ascii_of_loose {encoded : Bytes} (loose : Loose encoded) :
    encoded.all (· < 128) = true := by
  have ascii := @forall_byte (fun byte => (hexDigit byte).isSome = true → byte < 128)
    (by decide +kernel)
  induction encoded using Loose.induct with
  | case1 => rfl
  | case2 => exact loose.elim
  | case3 first second rest ih =>
      obtain ⟨one, two, others⟩ := loose
      rw [List.all_cons, List.all_cons, ih others]
      have low : first < 128 := one.elim (fun plus => plus ▸ by decide) (ascii first)
      simp [low, ascii second two]

/-- A text reads as pairs exactly when it is spelled as the parser accepts. -/
theorem readPairs_isSome_iff (encoded : Bytes) : (readPairs encoded).isSome = true ↔ Loose encoded := by
  induction encoded using Loose.induct with
  | case1 => exact iff_of_true rfl trivial
  | case2 => exact iff_of_false nofun id
  | case3 first second rest ih =>
      rw [readPairs, Loose, ← ih, fromStrRadix_pair]
      by_cases plus : first = 0x2B
      · rw [if_pos plus]
        cases hexDigit second <;> cases readPairs rest <;> simp [plus]
      · rw [if_neg plus]
        cases hexDigit first <;> cases hexDigit second <;> cases readPairs rest <;> simp [plus]

theorem length_of_readPairs {encoded bytes : Bytes} (read : readPairs encoded = some bytes) :
    encoded.length = bytes.length * 2 := by
  induction encoded using Loose.induct generalizing bytes with
  | case1 =>
      cases read
      rfl
  | case2 => cases read
  | case3 first second rest ih =>
      simp only [readPairs, Option.bind_eq_bind, Option.bind_eq_some_iff] at read
      obtain ⟨byte, -, others, later, same⟩ := read
      obtain rfl := Option.some.inj same
      rw [List.length_cons, List.length_cons, ih later, List.length_cons]
      omega

/-- What the printer writes is read back. -/
theorem readPairs_flatMap_hexPair (bytes : Bytes) :
    readPairs (bytes.flatMap hexPair) = some bytes := by
  induction bytes with
  | nil => rfl
  | cons byte bytes ih =>
      have high : byte.toNat / 16 < 16 := by
        have bound := byte.toNat_lt
        omega
      have low : byte.toNat % 16 < 16 := Nat.mod_lt _ (by decide)
      have sign : hexNibble (byte.toNat / 16) ≠ 0x2B := by
        intro plus
        have lowercase := lowercase_hexNibble high
        rw [plus] at lowercase
        cases lowercase
      have whole : byte.toNat / 16 * 16 + byte.toNat % 16 = byte.toNat := Nat.div_add_mod' ..
      have read : fromStrRadix [hexNibble (byte.toNat / 16), hexNibble (byte.toNat % 16)] =
          some byte := by
        rw [fromStrRadix_pair, if_neg sign, Compact.hexDigit_hexNibble high,
          Compact.hexDigit_hexNibble low, Option.bind_some, Option.map_some, whole,
          UInt8.ofNat_toNat]
      rw [List.flatMap_cons]
      show (do
        let byte ← fromStrRadix [hexNibble (byte.toNat / 16), hexNibble (byte.toNat % 16)]
        let bytes ← readPairs (bytes.flatMap hexPair)
        some (byte :: bytes)) = _
      rw [read, ih]
      rfl

/-- A lowercase text is what the printer writes for the bytes it reads as. -/
theorem flatMap_hexPair_of_readPairs {encoded bytes : Bytes} (lowercase : Lowercase encoded)
    (read : readPairs encoded = some bytes) : bytes.flatMap hexPair = encoded := by
  induction encoded using Loose.induct generalizing bytes with
  | case1 =>
      cases read
      rfl
  | case2 => cases read
  | case3 first second rest ih =>
      simp only [Lowercase, List.all_cons, Bool.and_eq_true] at lowercase
      obtain ⟨one, two, others⟩ := lowercase
      simp only [readPairs, Option.bind_eq_bind, Option.bind_eq_some_iff] at read
      obtain ⟨byte, pair, bytes, later, same⟩ := read
      obtain rfl := Option.some.inj same
      obtain ⟨high, firstRead, firstWritten⟩ := hexDigit_of_lowercase one
      obtain ⟨low, secondRead, secondWritten⟩ := hexDigit_of_lowercase two
      have sign : first ≠ 0x2B := by
        rintro rfl
        cases firstRead
      have highSmall := hexDigit_lt firstRead
      have lowSmall := hexDigit_lt secondRead
      rw [fromStrRadix_pair, if_neg sign, firstRead, secondRead] at pair
      obtain rfl := Option.some.inj pair
      have value : (UInt8.ofNat (high * 16 + low)).toNat = high * 16 + low := by
        rw [UInt8.toNat_ofNat', Nat.mod_eq_of_lt (by omega)]
      have quotient : (high * 16 + low) / 16 = high := by omega
      have remainder : (high * 16 + low) % 16 = low := by omega
      rw [List.flatMap_cons, ih others later, hexPair, value, quotient,
        remainder, firstWritten, secondWritten]
      rfl

theorem lowercase_flatMap_hexPair (bytes : Bytes) : Lowercase (bytes.flatMap hexPair) := by
  induction bytes with
  | nil => rfl
  | cons byte bytes ih =>
      have high : byte.toNat / 16 < 16 := by
        have bound := byte.toNat_lt
        omega
      have low : byte.toNat % 16 < 16 := Nat.mod_lt _ (by decide)
      rw [Lowercase, List.flatMap_cons, List.all_append, ih, hexPair]
      simp [lowercase_hexNibble high, lowercase_hexNibble low]

theorem toList_ofFn_getD {bytes : Bytes} (length : bytes.length = tokenBytes) :
    (Vector.ofFn fun index : Fin tokenBytes => bytes.getD index 0).toList = bytes := by
  apply List.ext_getElem
  · rw [Vector.length_toList, length]
  · intro index inside here
    rw [Vector.getElem_toList, Vector.getElem_ofFn, List.getD_eq_getElem?_getD,
      List.getElem?_eq_getElem here]
    rfl

/-- A text is read as the token whose bytes its pairs give. -/
theorem fromHex_some_iff {encoded : Bytes} {token : RegionToken} :
    RegionToken.fromHex encoded = some token ↔ readPairs encoded = some token.toList := by
  have tokenLength : token.toList.length = tokenBytes := Vector.length_toList
  constructor
  · intro read
    rw [RegionToken.fromHex] at read
    split at read
    · cases read
    · rename_i accepted
      have length : encoded.length = tokenBytes * 2 := by
        by_contra other
        exact accepted (Or.inl other)
      rw [mapM_pairs tokenBytes encoded length] at read
      obtain ⟨bytes, pairs, same⟩ := Option.bind_eq_some_iff.mp read
      have size : bytes.length = tokenBytes := by
        have doubled := length_of_readPairs pairs
        omega
      rw [pairs, ← Option.some.inj same, toList_ofFn_getD size]
  · intro pairs
    have length : encoded.length = tokenBytes * 2 := by
      rw [length_of_readPairs pairs, tokenLength]
    have loose : Loose encoded := (readPairs_isSome_iff encoded).mp (by rw [pairs]; rfl)
    have ascii := ascii_of_loose loose
    have accepted : ¬(encoded.length ≠ tokenBytes * 2 ∨ ¬encoded.all (· < 128) = true) := by
      rintro (other | foreign)
      · exact other length
      · exact foreign ascii
    rw [RegionToken.fromHex, if_neg accepted, mapM_pairs tokenBytes encoded length, pairs]
    apply congrArg some
    apply Vector.toList_inj.mp
    exact toList_ofFn_getD tokenLength

theorem fromHex_toHex (token : RegionToken) :
    RegionToken.fromHex (RegionToken.toHex token) = some token :=
  fromHex_some_iff.mpr (readPairs_flatMap_hexPair _)

theorem fromHex_isSome_iff (encoded : Bytes) :
    (RegionToken.fromHex encoded).isSome = true ↔
      encoded.length = tokenBytes * 2 ∧ Loose encoded := by
  constructor
  · intro read
    obtain ⟨token, read⟩ := Option.isSome_iff_exists.mp read
    have pairs := fromHex_some_iff.mp read
    refine ⟨?_, (readPairs_isSome_iff encoded).mp (by rw [pairs]; rfl)⟩
    rw [length_of_readPairs pairs, Vector.length_toList]
  · rintro ⟨length, loose⟩
    obtain ⟨bytes, pairs⟩ := Option.isSome_iff_exists.mp ((readPairs_isSome_iff encoded).mpr loose)
    have size : bytes.length = tokenBytes := by
      have doubled := length_of_readPairs pairs
      omega
    have read := @fromHex_some_iff encoded (Vector.ofFn fun index => bytes.getD index 0)
    rw [toList_ofFn_getD size] at read
    rw [read.mpr pairs]
    rfl

/-- A text has one reading and one spelling: it is read exactly when some token is printed
so, and then that token is printed as the text. -/
def Canonical (encoded : Bytes) : Prop :=
  ((RegionToken.fromHex encoded).isSome = true ↔ ∃ token, encoded = RegionToken.toHex token) ∧
    ∀ token, RegionToken.fromHex encoded = some token → RegionToken.toHex token = encoded

/-- The reader and the printer agree on a text unless it is read with a plus sign or an
upper case digit in it. -/
theorem canonical_iff (encoded : Bytes) :
    Canonical encoded ↔
      (encoded.length = tokenBytes * 2 → Loose encoded → Lowercase encoded) := by
  constructor
  · rintro ⟨accepted, -⟩ length loose
    obtain ⟨token, rfl⟩ := accepted.mp ((fromHex_isSome_iff encoded).mpr ⟨length, loose⟩)
    exact lowercase_flatMap_hexPair _
  · intro lower
    have printed : ∀ token, RegionToken.fromHex encoded = some token →
        RegionToken.toHex token = encoded := by
      intro token read
      obtain ⟨length, loose⟩ := (fromHex_isSome_iff encoded).mp (by rw [read]; rfl)
      exact flatMap_hexPair_of_readPairs (lower length loose) (fromHex_some_iff.mp read)
    refine ⟨⟨fun read => ?_, ?_⟩, printed⟩
    · obtain ⟨token, read⟩ := Option.isSome_iff_exists.mp read
      exact ⟨token, (printed token read).symm⟩
    · rintro ⟨token, rfl⟩
      rw [fromHex_toHex]
      rfl

/-! ### Names -/

/-- The digits of the alphabet are found at their own places. -/
theorem findIdx_base32 {value : Nat} (small : value < 32) :
    base32.findIdx? (· == base32.getD value 0) = some value := by
  revert small
  revert value
  decide +kernel

theorem encodeBase32_succ (value width : Nat) :
    encodeBase32 value (width + 1) =
      encodeBase32 (value / 32) width ++ [base32.getD (value % 32) 0] := by
  have low : ∀ number : Nat, number &&& 31 = number % 32 := fun number =>
    Nat.and_two_pow_sub_one_eq_mod number 5
  have shifted : ∀ index, value >>> (5 * (index + 1)) = (value / 32) >>> (5 * index) := by
    intro index
    have quotient : value >>> 5 = value / 32 := Nat.shiftRight_eq_div_pow value 5
    rw [Nat.mul_succ, Nat.add_comm, Nat.shiftRight_add, quotient]
  rw [encodeBase32, List.range_succ_eq_map, List.map_cons, List.map_map, List.reverse_cons,
    encodeBase32]
  simp only [Function.comp_def, Nat.succ_eq_add_one, shifted, low]
  rfl

theorem length_encodeBase32 (value width : Nat) : (encodeBase32 value width).length = width := by
  rw [encodeBase32, List.length_reverse, List.length_map, List.length_range]

/-- One digit more. -/
def readDigit (value : Nat) (byte : UInt8) : Option Nat := do
  let digit ← base32.findIdx? (· == byte)
  if value * 32 + digit < 2 ^ 128 then some (value * 32 + digit) else none

theorem readDigit_base32 {value digit : Nat} (small : digit < 32)
    (fits : value * 32 + digit < 2 ^ 128) :
    readDigit value (base32.getD digit 0) = some (value * 32 + digit) := by
  rw [readDigit, findIdx_base32 small]
  exact if_pos fits

/-- Digits written after a number are read behind it. -/
theorem foldlM_encodeBase32 (width before value : Nat) (small : value < 32 ^ width)
    (fits : before * 32 ^ width + value < 2 ^ 128) :
    (encodeBase32 value width).foldlM readDigit before = some (before * 32 ^ width + value) := by
  induction width generalizing value with
  | zero =>
      obtain rfl := Nat.lt_one_iff.mp small
      rw [Nat.pow_zero, Nat.mul_one]
      rfl
  | succ width ih =>
      have split := Nat.div_add_mod' value 32
      have digit : value % 32 < 32 := Nat.mod_lt _ (by decide)
      have quotient : value / 32 < 32 ^ width := by
        rw [Nat.pow_succ] at small
        exact Nat.div_lt_of_lt_mul (Nat.mul_comm _ 32 ▸ small)
      have whole : (before * 32 ^ width + value / 32) * 32 + value % 32 =
          before * 32 ^ (width + 1) + value := by
        rw [Nat.add_mul, Nat.mul_assoc, ← Nat.pow_succ, Nat.add_assoc, split]
      have shorter : before * 32 ^ width + value / 32 < 2 ^ 128 := by omega
      rw [encodeBase32_succ, List.foldlM_append, ih _ quotient shorter]
      show (List.foldlM readDigit (before * 32 ^ width + value / 32)
        [base32.getD (value % 32) 0]) = _
      rw [List.foldlM_cons, readDigit_base32 digit (whole ▸ fits), whole]
      rfl

/-- What is written in base 32 is read back. -/
theorem decodeBase32_encodeBase32 {value width : Nat} (small : value < 32 ^ width)
    (word : value < 2 ^ 128) : decodeBase32 (encodeBase32 value width) = some value := by
  have read := foldlM_encodeBase32 width 0 value small (by rw [Nat.zero_mul, Nat.zero_add]; exact word)
  rw [Nat.zero_mul, Nat.zero_add] at read
  exact read

theorem encodeBase32_injective {one two width : Nat} (oneSmall : one < 32 ^ width)
    (twoSmall : two < 32 ^ width) (oneWord : one < 2 ^ 128) (twoWord : two < 2 ^ 128)
    (same : encodeBase32 one width = encodeBase32 two width) : one = two := by
  have read := decodeBase32_encodeBase32 oneSmall oneWord
  rw [same, decodeBase32_encodeBase32 twoSmall twoWord] at read
  exact (Option.some.inj read).symm

/-- The 90 low bits of a token, which its names carry. -/
def RegionToken.lowBits (token : RegionToken) : Nat := fromLittleEndian token.toList % 2 ^ 90

theorem new_eq (token : RegionToken) {sequence : Nat} (inside : sequence ≤ maxRegionSequence) :
    RegionName.new token sequence = some (namePrefix ++ encodeBase32 token.lowBits tokenNameChars ++
      encodeBase32 sequence sequenceNameChars) := by
  have low : fromLittleEndian token.toList &&& ((1 <<< 90) - 1) = token.lowBits :=
    Nat.and_two_pow_sub_one_eq_mod _ 90
  rw [RegionName.new, if_neg (Nat.not_lt.mpr inside), low]

theorem le_of_new {token : RegionToken} {sequence : Nat} {name : Bytes}
    (named : RegionName.new token sequence = some name) : sequence ≤ maxRegionSequence := by
  by_contra past
  rw [RegionName.new, if_pos (Nat.lt_of_not_le past)] at named
  cases named

/-- A name tells its sequence and the low bits of its token. -/
theorem new_injective {one two : RegionToken} {first second : Nat}
    (firstInside : first ≤ maxRegionSequence) (secondInside : second ≤ maxRegionSequence) :
    RegionName.new one first = RegionName.new two second ↔
      one.lowBits = two.lowBits ∧ first = second := by
  have sequences : ∀ {sequence}, sequence ≤ maxRegionSequence →
      sequence < 32 ^ sequenceNameChars ∧ sequence < 2 ^ 128 := by
    intro sequence inside
    have bound : maxRegionSequence = 1023 := rfl
    have width : 32 ^ sequenceNameChars = 1024 := rfl
    omega
  have tokens : ∀ token : RegionToken,
      token.lowBits < 32 ^ tokenNameChars ∧ token.lowBits < 2 ^ 128 := by
    intro token
    have bits : token.lowBits < 2 ^ 90 := Nat.mod_lt _ (Nat.two_pow_pos 90)
    have width : 32 ^ tokenNameChars = 2 ^ 90 := rfl
    omega
  rw [new_eq one firstInside, new_eq two secondInside]
  constructor
  · intro same
    have names := Option.some.inj same
    obtain ⟨starts, sequence⟩ := List.append_inj names (by
      rw [List.length_append, List.length_append, length_encodeBase32, length_encodeBase32])
    obtain ⟨-, bits⟩ := List.append_inj starts rfl
    exact ⟨encodeBase32_injective (tokens one).1 (tokens two).1 (tokens one).2 (tokens two).2 bits,
      encodeBase32_injective (sequences firstInside).1 (sequences secondInside).1
        (sequences firstInside).2 (sequences secondInside).2 sequence⟩
  · rintro ⟨bits, rfl⟩
    rw [bits]

/-- A registered name is accepted for a token exactly when it is the name of one sequence. -/
theorem fromRegistry_iff (value : Bytes) (token : RegionToken) :
    (RegionName.fromRegistry value token).isSome = true ↔
      ∃! sequence, sequence ≤ maxRegionSequence ∧ RegionName.new token sequence = some value := by
  have accepted : (RegionName.fromRegistry value token).isSome = true ↔
      RegionName.matchesToken value token = true := by
    rw [RegionName.fromRegistry]
    cases RegionName.matchesToken value token <;> simp
  rw [accepted]
  constructor
  · intro matched
    rw [RegionName.matchesToken] at matched
    cases decoded : decodeBase32 (value.drop (value.length - sequenceNameChars)) with
    | none => rw [decoded] at matched; cases matched
    | some sequence =>
        rw [decoded] at matched
        have named : RegionName.new token (sequence % 2 ^ 16) = some value := by
          simpa using matched
        refine ⟨sequence % 2 ^ 16, ⟨le_of_new named, named⟩, ?_⟩
        rintro other ⟨inside, same⟩
        exact ((new_injective inside (le_of_new named)).mp (same.trans named.symm)).2
  · rintro ⟨sequence, ⟨inside, named⟩, -⟩
    have bound : maxRegionSequence = 1023 := rfl
    have width : 32 ^ sequenceNameChars = 1024 := rfl
    have written := Option.some.inj ((new_eq token inside).symm.trans named)
    have last : value.drop (value.length - sequenceNameChars) =
        encodeBase32 sequence sequenceNameChars := by
      rw [← written, List.length_append, length_encodeBase32, Nat.add_sub_cancel,
        List.drop_left]
    rw [RegionName.matchesToken, last,
      decodeBase32_encodeBase32 (by omega) (by omega)]
    dsimp only
    rw [Nat.mod_eq_of_lt (by omega), named]
    exact beq_self_eq_true _

/-- Tokens have one spelling and names one sequence, for every text but those the reader
takes with a plus sign or an upper case digit. -/
theorem spellings_iff (encoded : Bytes) :
    (Canonical encoded ∧
      (∀ value token, (RegionName.fromRegistry value token).isSome = true ↔
        ∃! sequence, sequence ≤ maxRegionSequence ∧
          RegionName.new token sequence = some value) ∧
      (∀ one two first second, first ≤ maxRegionSequence → second ≤ maxRegionSequence →
        (RegionName.new one first = RegionName.new two second ↔
          one.lowBits = two.lowBits ∧ first = second))) ↔
      (encoded.length = tokenBytes * 2 → Loose encoded → Lowercase encoded) := by
  constructor
  · exact fun all => (canonical_iff encoded).mp all.1
  · exact fun lower => ⟨(canonical_iff encoded).mpr lower, fromRegistry_iff,
      fun _ _ _ _ => new_injective⟩

/-- A plus sign stands for a zero. -/
theorem plus_sign_read :
    ¬ ∀ text : String, Canonical (utf8 text) := by
  intro canonical
  have lower := (canonical_iff _).mp (canonical "+0000000000000000000000000000000")
  exact absurd (lower (by decide +kernel) (by decide +kernel)) (by decide +kernel)

end Hyperloader.Arena
