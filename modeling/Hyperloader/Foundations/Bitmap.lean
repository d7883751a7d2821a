/-
Module: Hyperloader.Foundations.Bitmap
Purpose: Sets of natural numbers as bytes, eight offsets to a byte, the lowest first.
Trusted boundary: none
Main exports: mask, bit, setBit, members, bit_foldl_setBit, mem_members
-/
import Mathlib.Data.Finset.Basic
import Mathlib.Data.List.Basic
import Mathlib.Data.Nat.Bitwise

namespace Hyperloader.Foundations.Bitmap

/-- `1 << offset` -/
def mask (offset : Nat) : UInt8 := 1 <<< UInt8.ofNat offset

def setBit (bitmap : List UInt8) (offset : Nat) : List UInt8 :=
  bitmap.modify (offset / 8) (· ||| mask (offset % 8))

/-- Whether an offset is marked; no offset past the end is. -/
def bit (bitmap : List UInt8) (offset : Nat) : Bool :=
  (bitmap.getD (offset / 8) 0).toNat.testBit (offset % 8)

/-- `base + index * 8 + bit` for every bit set in a byte. -/
def members (base : Nat) (bitmap : List UInt8) : Finset Nat :=
  (bitmap.zipIdx.flatMap fun entry =>
    ((List.range 8).filter fun bit => entry.1 &&& mask bit ≠ 0).map fun bit =>
      base + entry.2 * 8 + bit).toFinset

/-! ### Bits -/

theorem mask_toNat {offset : Nat} (small : offset < 8) : (mask offset).toNat = 2 ^ offset := by
  revert small
  revert offset
  decide

theorem bit_or_mask (byte : UInt8) {offset : Nat} (small : offset < 8) (other : Nat) :
    (byte ||| mask offset).toNat.testBit other =
      (decide (other = offset) || byte.toNat.testBit other) := by
  rw [UInt8.toNat_or, mask_toNat small, Nat.testBit_or, Nat.testBit_two_pow, Bool.or_comm]
  congr 1
  exact decide_eq_decide.mpr eq_comm

theorem and_mask_ne_zero (byte : UInt8) {offset : Nat} (small : offset < 8) :
    byte &&& mask offset ≠ 0 ↔ byte.toNat.testBit offset = true := by
  have value : (byte &&& mask offset).toNat = byte.toNat &&& 2 ^ offset := by
    rw [UInt8.toNat_and, mask_toNat small]
  rw [ne_eq, ← UInt8.toNat_inj, value, UInt8.toNat_zero, Nat.and_two_pow]
  cases byte.toNat.testBit offset <;> simp

theorem bit_replicate_zero (size offset : Nat) : bit (List.replicate size 0) offset = false := by
  have byte : (List.replicate size (0 : UInt8)).getD (offset / 8) 0 = 0 := by
    rw [List.getD_eq_getElem?_getD, List.getElem?_replicate]
    split <;> rfl
  rw [bit, byte, UInt8.toNat_zero, Nat.zero_testBit]

theorem length_setBit (bitmap : List UInt8) (offset : Nat) :
    (setBit bitmap offset).length = bitmap.length := List.length_modify ..

theorem bit_setBit (bitmap : List UInt8) {offset : Nat} (fits : offset / 8 < bitmap.length)
    (other : Nat) :
    bit (setBit bitmap offset) other = (decide (other = offset) || bit bitmap other) := by
  have offsets : other = offset ↔ other / 8 = offset / 8 ∧ other % 8 = offset % 8 := by omega
  by_cases same : other / 8 = offset / 8
  · have inside : other / 8 < bitmap.length := same ▸ fits
    have found := List.getElem?_eq_getElem inside
    rw [bit, setBit, List.getD_eq_getElem?_getD, List.getElem?_modify, bit,
      List.getD_eq_getElem?_getD, found]
    simp only [same, if_true, Option.map_eq_map, Option.map_some, Option.getD_some]
    rw [bit_or_mask _ (Nat.mod_lt _ (by decide))]
    congr 1
    exact decide_eq_decide.mpr ⟨fun rest => offsets.mpr ⟨same, rest⟩, fun all => all ▸ rfl⟩
  · have different : ¬ other = offset := fun all => same (all ▸ rfl)
    have elsewhere : ¬ offset / 8 = other / 8 := fun bytes => same bytes.symm
    rw [bit, setBit, List.getD_eq_getElem?_getD, List.getElem?_modify, bit,
      List.getD_eq_getElem?_getD, decide_eq_false different, Bool.false_or]
    simp only [elsewhere, if_false, Option.map_eq_map, Option.map_id']

/-- Setting bits one after the other marks the offsets given and no others. -/
theorem bit_foldl_setBit (offsets : List Nat) (bitmap : List UInt8)
    (fits : ∀ offset ∈ offsets, offset / 8 < bitmap.length) (other : Nat) :
    bit (offsets.foldl setBit bitmap) other =
      (decide (other ∈ offsets) || bit bitmap other) := by
  induction offsets generalizing bitmap with
  | nil => simp
  | cons offset offsets ih =>
      have later : ∀ next ∈ offsets, next / 8 < (setBit bitmap offset).length := by
        intro next member
        rw [length_setBit]
        exact fits next (List.mem_cons_of_mem offset member)
      have here := bit_setBit bitmap (fits offset List.mem_cons_self) other
      rw [List.foldl_cons, ih (setBit bitmap offset) later, here]
      by_cases same : other = offset <;> simp [same]

/-! ### Members -/

theorem mem_members (base : Nat) (bitmap : List UInt8) (number : Nat) :
    number ∈ members base bitmap ↔
      ∃ offset, number = base + offset ∧ bit bitmap offset = true := by
  simp only [members, List.mem_toFinset, List.mem_flatMap, List.mem_map, List.mem_filter,
    List.mem_range, decide_eq_true_eq, Prod.exists]
  constructor
  · rintro ⟨byte, index, entry, low, ⟨small, marked⟩, rfl⟩
    refine ⟨index * 8 + low, by omega, ?_⟩
    have quotient : (index * 8 + low) / 8 = index := by omega
    have remainder : (index * 8 + low) % 8 = low := by omega
    have found : bitmap[index]? = some byte := List.mem_zipIdx_iff_getElem?.mp entry
    rw [bit, quotient, remainder, List.getD_eq_getElem?_getD, found]
    exact (and_mask_ne_zero byte small).mp marked
  · rintro ⟨offset, rfl, marked⟩
    rw [bit, List.getD_eq_getElem?_getD] at marked
    cases found : bitmap[offset / 8]? with
    | none =>
        rw [found, Option.getD_none, UInt8.toNat_zero, Nat.zero_testBit] at marked
        exact absurd marked Bool.false_ne_true
    | some byte =>
        have small : offset % 8 < 8 := Nat.mod_lt _ (by decide)
        rw [found, Option.getD_some] at marked
        exact ⟨byte, offset / 8, List.mem_zipIdx_iff_getElem?.mpr found, offset % 8,
          ⟨small, (and_mask_ne_zero byte small).mpr marked⟩, by omega⟩

theorem members_nil (base : Nat) : members base [] = ∅ := rfl

theorem le_of_mem_members {base number : Nat} {bitmap : List UInt8}
    (member : number ∈ members base bitmap) : base ≤ number := by
  obtain ⟨offset, rfl, -⟩ := (mem_members base bitmap number).mp member
  exact Nat.le_add_right base offset

/-! ### Bitmaps of one set -/

theorem getD_append_replicate (bitmap : List UInt8) (size index : Nat) :
    (bitmap ++ List.replicate size 0).getD index 0 = bitmap.getD index 0 := by
  rw [List.getD_eq_getElem?_getD, List.getD_eq_getElem?_getD, List.getElem?_append]
  split
  · rfl
  · rename_i past
    rw [List.getElem?_replicate, List.getElem?_eq_none (Nat.le_of_not_lt past)]
    split <;> rfl

/-- A byte is its eight bits. -/
theorem byte_eq_of_bits {one two : UInt8}
    (same : ∀ offset < 8, one.toNat.testBit offset = two.toNat.testBit offset) : one = two := by
  apply UInt8.toNat_inj.mp
  apply Nat.eq_of_testBit_eq
  intro offset
  by_cases low : offset < 8
  · exact same offset low
  · have bound : 2 ^ 8 ≤ 2 ^ offset := Nat.pow_le_pow_right (by decide) (Nat.le_of_not_lt low)
    rw [Nat.testBit_lt_two_pow (Nat.lt_of_lt_of_le one.toNat_lt bound),
      Nat.testBit_lt_two_pow (Nat.lt_of_lt_of_le two.toNat_lt bound)]

/-- Bytes past the end count as zero, so two bitmaps with the same bytes differ in zeros at
the end. -/
theorem padded_eq_of_getD {one two : List UInt8}
    (same : ∀ index, one.getD index 0 = two.getD index 0) :
    one ++ List.replicate two.length 0 = two ++ List.replicate one.length 0 := by
  apply List.ext_getElem?
  intro index
  have bytes : (one ++ List.replicate two.length 0).getD index 0 =
      (two ++ List.replicate one.length 0).getD index 0 := by
    rw [getD_append_replicate, getD_append_replicate, same]
  by_cases inside : index < one.length + two.length
  · have first : index < (one ++ List.replicate two.length (0 : UInt8)).length := by
      rw [List.length_append, List.length_replicate]
      exact inside
    have second : index < (two ++ List.replicate one.length (0 : UInt8)).length := by
      rw [List.length_append, List.length_replicate, Nat.add_comm]
      exact inside
    rw [List.getD_eq_getElem?_getD, List.getD_eq_getElem?_getD,
      List.getElem?_eq_getElem first, List.getElem?_eq_getElem second, Option.getD_some,
      Option.getD_some] at bytes
    rw [List.getElem?_eq_getElem first, List.getElem?_eq_getElem second, bytes]
  · rw [List.getElem?_eq_none, List.getElem?_eq_none]
    · rw [List.length_append, List.length_replicate, Nat.add_comm]
      exact Nat.le_of_not_lt inside
    · rw [List.length_append, List.length_replicate]
      exact Nat.le_of_not_lt inside

/-- Two bitmaps mark the same numbers exactly when they are equal up to zeros at the end. -/
theorem members_eq_iff (base : Nat) (one two : List UInt8) :
    members base one = members base two ↔
      ∃ first second, one ++ List.replicate first 0 = two ++ List.replicate second 0 := by
  constructor
  · intro same
    refine ⟨two.length, one.length, padded_eq_of_getD fun index => byte_eq_of_bits ?_⟩
    intro offset low
    have quotient : (index * 8 + offset) / 8 = index := by omega
    have remainder : (index * 8 + offset) % 8 = offset := by omega
    have marked : ∀ bitmap : List UInt8, base + (index * 8 + offset) ∈ members base bitmap ↔
        (bitmap.getD index 0).toNat.testBit offset = true := by
      intro bitmap
      rw [mem_members]
      constructor
      · rintro ⟨other, equal, set⟩
        obtain rfl := Nat.add_left_cancel equal
        rwa [bit, quotient, remainder] at set
      · intro set
        refine ⟨_, rfl, ?_⟩
        rwa [bit, quotient, remainder]
    exact Bool.eq_iff_iff.mpr ((marked one).symm.trans (same ▸ marked two))
  · rintro ⟨first, second, same⟩
    have bits : ∀ offset, bit one offset = bit two offset := by
      intro offset
      rw [bit, bit, ← getD_append_replicate one first, ← getD_append_replicate two second, same]
    ext number
    simp only [mem_members, bits]

end Hyperloader.Foundations.Bitmap
