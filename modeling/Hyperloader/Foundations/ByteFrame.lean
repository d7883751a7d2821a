/-
Module: Hyperloader.Foundations.ByteFrame
Purpose: Frames of a fixed number of bytes: reading a slice, copying bytes over one,
  little-endian numbers, and a frame as the list of its consecutive fields.
Trusted boundary: none
Main exports:
  Frame, Frame.slice, Frame.copy, slice_copy, slice_copy_of_disjoint,
  toLittleEndian, fromLittleEndian, Frame.slices, eq_of_slices_eq
-/
import Mathlib.Algebra.GroupWithZero.Nat

namespace Hyperloader.Foundations

abbrev Frame (size : Nat) := Vector UInt8 size

namespace Frame

variable {size : Nat}

def zeros (size : Nat) : Frame size := Vector.replicate size 0

/-- The byte at an index; zero past the end. -/
def byte (frame : Frame size) (index : Nat) : UInt8 := frame[index]?.getD 0

/-- `frame[offset..offset + width]` -/
def slice (frame : Frame size) (offset width : Nat) : List UInt8 :=
  (List.range width).map fun index => frame.byte (offset + index)

/-- `frame[start..start + bytes.len()].copy_from_slice(bytes)` -/
def copy (frame : Frame size) (start : Nat) (bytes : List UInt8) : Frame size :=
  Vector.ofFn fun index =>
    if start ≤ index ∧ index < start + bytes.length then bytes.getD (index - start) 0
    else frame[index]

/-- The consecutive slices of the given widths. -/
def slices (frame : Frame size) : List Nat → Nat → List (List UInt8)
  | [], _ => []
  | width :: widths, offset =>
      frame.slice offset width :: frame.slices widths (offset + width)

end Frame

/-- The lowest bytes of a number, the least significant first. -/
def toLittleEndian : Nat → Nat → List UInt8
  | 0, _ => []
  | width + 1, value => UInt8.ofNat (value % 256) :: toLittleEndian width (value / 256)

def fromLittleEndian : List UInt8 → Nat
  | [] => 0
  | byte :: bytes => byte.toNat + 256 * fromLittleEndian bytes

/-! ### Numbers -/

@[simp] theorem length_toLittleEndian (width value : Nat) :
    (toLittleEndian width value).length = width := by
  induction width generalizing value with
  | zero => rfl
  | succ width ih =>
      rw [toLittleEndian, List.length_cons, ih]

theorem fromLittleEndian_lt (bytes : List UInt8) : fromLittleEndian bytes < 256 ^ bytes.length := by
  induction bytes with
  | nil => exact Nat.one_pos
  | cons byte bytes ih =>
      have bound := byte.toNat_lt
      rw [fromLittleEndian, List.length_cons, Nat.pow_succ]
      omega

theorem fromLittleEndian_toLittleEndian {width value : Nat} (small : value < 256 ^ width) :
    fromLittleEndian (toLittleEndian width value) = value := by
  induction width generalizing value with
  | zero =>
      rw [Nat.pow_zero] at small
      exact (Nat.lt_one_iff.mp small).symm
  | succ width ih =>
      have rest : value / 256 < 256 ^ width := by
        apply Nat.div_lt_of_lt_mul
        rwa [Nat.pow_succ, Nat.mul_comm] at small
      have low : (UInt8.ofNat (value % 256)).toNat = value % 256 :=
        UInt8.toNat_ofNat_of_lt' (Nat.mod_lt _ (by decide))
      rw [toLittleEndian, fromLittleEndian, ih rest, low]
      exact Nat.mod_add_div value 256

theorem toLittleEndian_fromLittleEndian (bytes : List UInt8) :
    toLittleEndian bytes.length (fromLittleEndian bytes) = bytes := by
  induction bytes with
  | nil => rfl
  | cons byte bytes ih =>
      have bound : byte.toNat < 256 := byte.toNat_lt
      have low : (byte.toNat + 256 * fromLittleEndian bytes) % 256 = byte.toNat := by omega
      have rest : (byte.toNat + 256 * fromLittleEndian bytes) / 256 =
          fromLittleEndian bytes := by omega
      rw [List.length_cons, fromLittleEndian, toLittleEndian, low, rest, ih,
        UInt8.ofNat_toNat]

/-! ### Slices and copies -/

namespace Frame

variable {size : Nat}

@[simp] theorem length_slice (frame : Frame size) (offset width : Nat) :
    (frame.slice offset width).length = width := by
  rw [slice, List.length_map, List.length_range]

theorem slice_one (frame : Frame size) (offset : Nat) :
    frame.slice offset 1 = [frame.byte offset] := rfl

theorem byte_of_lt (frame : Frame size) {index : Nat} (inside : index < size) :
    frame.byte index = frame[index] := by
  rw [byte, Vector.getElem?_eq_getElem inside]
  rfl

theorem byte_of_le (frame : Frame size) {index : Nat} (outside : size ≤ index) :
    frame.byte index = 0 := by
  rw [byte, Vector.getElem?_eq_none outside]
  rfl

theorem byte_zeros (index : Nat) : (zeros size).byte index = 0 := by
  by_cases inside : index < size
  · rw [byte_of_lt _ inside]
    exact Vector.getElem_replicate _
  · exact byte_of_le _ (Nat.le_of_not_lt inside)

variable {bytes : List UInt8}

theorem byte_copy_of_disjoint (frame : Frame size) {start index : Nat}
    (apart : index < start ∨ start + bytes.length ≤ index) :
    (frame.copy start bytes).byte index = frame.byte index := by
  by_cases inside : index < size
  · have outside : ¬(start ≤ index ∧ index < start + bytes.length) := by omega
    rw [byte_of_lt _ inside, byte_of_lt _ inside, copy, Vector.getElem_ofFn, if_neg outside]
    rfl
  · have past := Nat.le_of_not_lt inside
    rw [byte_of_le _ past, byte_of_le _ past]

theorem byte_copy (frame : Frame size) {start index : Nat} (fits : start + bytes.length ≤ size)
    (within : index < bytes.length) :
    (frame.copy start bytes).byte (start + index) = bytes[index] := by
  have inside : start + index < size := by omega
  have covered : start ≤ start + index ∧ start + index < start + bytes.length := by omega
  rw [byte_of_lt _ inside, copy, Vector.getElem_ofFn, if_pos covered, Nat.add_sub_cancel_left,
    List.getD_eq_getElem?_getD, List.getElem?_eq_getElem within, Option.getD_some]

/-- A copy is not seen outside its bytes. -/
theorem slice_copy_of_disjoint (frame : Frame size) {start offset width : Nat}
    (apart : offset + width ≤ start ∨ start + bytes.length ≤ offset) :
    (frame.copy start bytes).slice offset width = frame.slice offset width := by
  unfold slice
  apply List.map_congr_left
  intro index member
  have less := List.mem_range.mp member
  apply byte_copy_of_disjoint
  omega

/-- A copy is read back. -/
theorem slice_copy (frame : Frame size) {start : Nat} {bytes : List UInt8}
    (fits : start + bytes.length ≤ size) :
    (frame.copy start bytes).slice start bytes.length = bytes := by
  apply List.ext_getElem
  · exact length_slice _ _ _
  · intro index less within
    simp only [slice, List.getElem_map, List.getElem_range]
    exact byte_copy frame fits within

/-- Part of a copy is read back. -/
theorem slice_copy_within (frame : Frame size) {start offset width : Nat}
    (fits : start + bytes.length ≤ size) (within : offset + width ≤ bytes.length) :
    (frame.copy start bytes).slice (start + offset) width = (bytes.drop offset).take width := by
  apply List.ext_getElem
  · rw [length_slice, List.length_take, List.length_drop]
    omega
  · intro index less _
    rw [length_slice] at less
    simp only [slice, List.getElem_map, List.getElem_range, List.getElem_take, List.getElem_drop,
      Nat.add_assoc]
    exact byte_copy frame fits (by omega)

/-- Fields copied one after another are read back. -/
theorem slices_copy (frame : Frame size) {start : Nat} {before : List UInt8}
    {fields : List (List UInt8)} (fits : start + (before ++ fields.flatten).length ≤ size) :
    (frame.copy start (before ++ fields.flatten)).slices (fields.map List.length)
      (start + before.length) = fields := by
  induction fields generalizing before with
  | nil => rfl
  | cons field fields ih =>
      rw [List.flatten_cons] at fits ⊢
      have head : before.length + field.length ≤ (before ++ (field ++ fields.flatten)).length := by
        rw [List.length_append, List.length_append]
        omega
      have tail := @ih (before ++ field) (by rwa [List.append_assoc])
      rw [List.append_assoc, List.length_append, ← Nat.add_assoc] at tail
      rw [List.map_cons, slices, slice_copy_within frame fits head, tail, List.drop_left,
        List.take_left]

variable {widths : List Nat}

theorem slices_copy_of_disjoint (frame : Frame size) {start offset : Nat}
    (apart : offset + widths.sum ≤ start ∨ start + bytes.length ≤ offset) :
    (frame.copy start bytes).slices widths offset = frame.slices widths offset := by
  induction widths generalizing offset with
  | nil => rfl
  | cons width widths ih =>
      rw [List.sum_cons] at apart
      rw [slices, slices, ih (by omega), slice_copy_of_disjoint frame (by omega)]

theorem slices_append (frame : Frame size) (first second : List Nat) (offset : Nat) :
    frame.slices (first ++ second) offset =
      frame.slices first offset ++ frame.slices second (offset + first.sum) := by
  induction first generalizing offset with
  | nil => rfl
  | cons width first ih =>
      rw [List.cons_append, slices, slices, ih, List.sum_cons, Nat.add_assoc]
      rfl

theorem slice_zeros (offset width : Nat) :
    (zeros size).slice offset width = List.replicate width 0 := by
  unfold slice
  simp only [byte_zeros, List.map_const', List.length_range]

/-- The bytes of a slice are all zero when none is set. -/
theorem slice_eq_zeros_iff (frame : Frame size) (offset width : Nat) :
    frame.slice offset width = List.replicate width 0 ↔
      ¬(frame.slice offset width).any (fun byte => byte != 0) = true := by
  rw [List.eq_replicate_iff, length_slice]
  simp

theorem byte_of_slice_eq_zeros {frame : Frame size} {offset width index : Nat}
    (clear : frame.slice offset width = List.replicate width 0) (least : offset ≤ index)
    (most : index < offset + width) : frame.byte index = 0 := by
  have member : frame.byte (offset + (index - offset)) ∈ frame.slice offset width :=
    List.mem_map_of_mem (List.mem_range.mpr (by omega))
  rw [clear, Nat.add_sub_cancel' least] at member
  exact List.eq_of_mem_replicate member

/-- Frames with the same bytes in every field of a full layout are equal. -/
theorem byte_eq_of_slices_eq {one two : Frame size} {offset : Nat}
    (same : one.slices widths offset = two.slices widths offset) {index : Nat}
    (least : offset ≤ index) (most : index < offset + widths.sum) :
    one.byte index = two.byte index := by
  induction widths generalizing offset with
  | nil =>
      rw [List.sum_nil] at most
      omega
  | cons width widths ih =>
      rw [slices, slices] at same
      obtain ⟨first, rest⟩ := List.cons.inj same
      rw [List.sum_cons] at most
      by_cases here : index < offset + width
      · have inside : index - offset < width := by omega
        have entry := congrArg (fun bytes : List UInt8 => bytes[index - offset]?) first
        simp only [slice, List.getElem?_map, List.getElem?_range inside, Option.map_some,
          Option.some.injEq] at entry
        rwa [Nat.add_sub_cancel' least] at entry
      · exact ih rest (Nat.le_of_not_lt here) (by omega)

theorem eq_of_slices_eq {one two : Frame size} (covers : widths.sum = size)
    (same : one.slices widths 0 = two.slices widths 0) : one = two := by
  apply Vector.ext
  intro index inside
  rw [← byte_of_lt _ inside, ← byte_of_lt _ inside]
  apply byte_eq_of_slices_eq same (Nat.zero_le _)
  omega

end Frame

end Hyperloader.Foundations
