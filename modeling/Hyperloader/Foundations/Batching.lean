/-
Module: Hyperloader.Foundations.Batching
Purpose: A range of positions cut into consecutive batches of one width, the last of
  which may be shorter, and how many positions a set of batches has.
Trusted boundary: none
Main exports:
  Batching, Batching.batch, Batching.samples, mem_batch, samples_eq_length_iff
-/
import Mathlib.Algebra.BigOperators.Group.Finset.Basic
import Mathlib.Algebra.Order.BigOperators.Group.Finset
import Mathlib.Data.Finset.Image
import Mathlib.Data.List.Basic

namespace Hyperloader.Foundations

/-- Positions below `length`, in batches of `width`. -/
structure Batching where
  length : Nat
  width : Nat
  positive : 0 < width

namespace Batching

variable (batching : Batching)

/-- `(length + width - 1) // width` -/
def count : Nat := (batching.length + batching.width - 1) / batching.width

def size (ordinal : Nat) : Nat :=
  min batching.width (batching.length - ordinal * batching.width)

/-- The positions of a batch. -/
def batch (ordinal : Nat) : List Nat :=
  List.range' (ordinal * batching.width) (batching.size ordinal)

/-- How many positions a set of batches has. -/
def samples (ordinals : Finset Nat) : Nat := ordinals.sum batching.size

def batches : List (List Nat) := (List.range batching.count).map batching.batch

variable {batching}

variable {ordinal : Nat}

theorem lt_count_iff :
    ordinal < batching.count ↔ ordinal * batching.width < batching.length := by
  have positive := batching.positive
  rw [count, Nat.lt_div_iff_mul_lt positive]
  omega

theorem size_pos_iff : 0 < batching.size ordinal ↔ ordinal < batching.count := by
  have positive := batching.positive
  rw [lt_count_iff, size]
  omega

theorem div_lt_count {position : Nat} (inside : position < batching.length) :
    position / batching.width < batching.count := by
  rw [lt_count_iff]
  exact Nat.lt_of_le_of_lt (Nat.div_mul_le_self position batching.width) inside

theorem mem_batch {ordinal position : Nat} :
    position ∈ batching.batch ordinal ↔
      position < batching.length ∧ position / batching.width = ordinal := by
  have positive := batching.positive
  have quotient : position / batching.width = ordinal ↔
      ordinal * batching.width ≤ position ∧
        position < ordinal * batching.width + batching.width := by
    rw [Nat.div_eq_iff positive]
    omega
  rw [batch, List.mem_range'_1, size, quotient]
  omega

theorem batch_nodup (ordinal : Nat) : (batching.batch ordinal).Nodup := List.nodup_range'

theorem length_batch (ordinal : Nat) :
    (batching.batch ordinal).length = batching.size ordinal := List.length_range'

theorem batch_ne_nil (inside : ordinal < batching.count) : batching.batch ordinal ≠ [] := by
  have more := size_pos_iff.mpr inside
  intro empty
  rw [batch, List.range'_eq_nil_iff] at empty
  omega

/-- Different batches of the range have different positions. -/
theorem batch_injective {one two : Nat} (inside : one < batching.count)
    (same : batching.batch one = batching.batch two) : one = two := by
  obtain ⟨position, member⟩ := List.exists_mem_of_ne_nil _ (batch_ne_nil inside)
  have other : position ∈ batching.batch two := same ▸ member
  exact (mem_batch.mp member).2.symm.trans (mem_batch.mp other).2

theorem mem_batches {batch : List Nat} :
    batch ∈ batching.batches ↔ ∃ ordinal < batching.count, batching.batch ordinal = batch := by
  simp [batches]

theorem length_batches : batching.batches.length = batching.count := by
  rw [batches, List.length_map, List.length_range]

theorem getElem?_batches (inside : ordinal < batching.count) :
    batching.batches[ordinal]? = some (batching.batch ordinal) := by
  rw [batches, List.getElem?_map, List.getElem?_range inside]
  rfl

theorem batches_nodup : batching.batches.Nodup := by
  refine List.Nodup.map_on ?_ List.nodup_range
  intro one inside two _ same
  exact batch_injective (List.mem_range.mp inside) same

variable {ordinals : Finset Nat}

theorem samples_insert (fresh : ordinal ∉ ordinals) :
    batching.samples (insert ordinal ordinals) =
      batching.samples ordinals + batching.size ordinal := by
  rw [samples, Finset.sum_insert fresh, Nat.add_comm]
  rfl

/-- The first batches have the positions before the next one. -/
theorem samples_range (ordinal : Nat) :
    batching.samples (Finset.range ordinal) =
      min batching.length (ordinal * batching.width) := by
  induction ordinal with
  | zero => simp [samples]
  | succ ordinal ih =>
      rw [Finset.range_add_one, samples_insert Finset.notMem_range_self,
        ih, size, Nat.succ_mul]
      omega

/-- The batches up to a boundary, counted from its position. -/
theorem count_of_boundary (inside : ordinal ≤ batching.count) :
    (min batching.length (ordinal * batching.width) + batching.width - 1) / batching.width =
      ordinal := by
  have positive := batching.positive
  rcases Nat.lt_or_eq_of_le inside with early | rfl
  · have low := Nat.le_of_lt (lt_count_iff.mp early)
    rw [Nat.min_eq_right low, Nat.add_sub_assoc positive, Nat.mul_comm,
      Nat.mul_add_div positive, Nat.div_eq_of_lt (Nat.sub_lt positive Nat.one_pos),
      Nat.add_zero]
  · have past : ¬ batching.count < batching.count := Nat.lt_irrefl _
    rw [lt_count_iff, Nat.not_lt] at past
    rw [Nat.min_eq_left past]
    rfl

theorem samples_count : batching.samples (Finset.range batching.count) = batching.length := by
  have past : ¬ batching.count < batching.count := Nat.lt_irrefl _
  rw [lt_count_iff] at past
  rw [samples_range]
  omega

theorem samples_lt {some all : Finset Nat} (inside : some ⊆ all) (member : ordinal ∈ all)
    (missing : ordinal ∉ some) (real : ordinal < batching.count) :
    batching.samples some < batching.samples all :=
  Finset.sum_lt_sum_of_subset inside member missing (size_pos_iff.mpr real)
    fun _ _ _ => Nat.zero_le _

theorem samples_le_length (inside : ∀ ordinal ∈ ordinals, ordinal < batching.count) :
    batching.samples ordinals ≤ batching.length := by
  rw [← samples_count]
  exact Finset.sum_le_sum_of_subset fun ordinal member =>
    Finset.mem_range.mpr (inside ordinal member)

/-- A set of batches has all positions exactly when it has all batches. -/
theorem samples_eq_length_iff (inside : ∀ ordinal ∈ ordinals, ordinal < batching.count) :
    batching.samples ordinals = batching.length ↔ ordinals = Finset.range batching.count := by
  have subset : ordinals ⊆ Finset.range batching.count := fun ordinal member =>
    Finset.mem_range.mpr (inside ordinal member)
  constructor
  · intro all
    refine Finset.Subset.antisymm subset fun ordinal member => ?_
    by_contra missing
    have fewer := samples_lt subset member missing (Finset.mem_range.mp member)
    rw [samples_count] at fewer
    omega
  · intro all
    rw [all, samples_count]

/-! ### What a set of batches contains -/

/-- The batches of a set, as lists of positions. -/
def contents (batching : Batching) (ordinals : Finset Nat) : Finset (List Nat) :=
  ordinals.image batching.batch

/-- All batches of the range. -/
def everything (batching : Batching) : Finset (List Nat) :=
  batching.contents (Finset.range batching.count)

theorem mem_everything {batch : List Nat} :
    batch ∈ batching.everything ↔ batch ∈ batching.batches := by
  simp [everything, contents, batches]

theorem contents_insert (ordinals : Finset Nat) (ordinal : Nat) :
    batching.contents (insert ordinal ordinals) =
      insert (batching.batch ordinal) (batching.contents ordinals) :=
  Finset.image_insert ..

theorem batch_mem_contents (inside : ordinal < batching.count) :
    batching.batch ordinal ∈ batching.contents ordinals ↔ ordinal ∈ ordinals := by
  rw [contents, Finset.mem_image]
  constructor
  · rintro ⟨other, member, same⟩
    exact batch_injective inside same.symm ▸ member
  · intro member
    exact ⟨ordinal, member, rfl⟩

theorem contents_subset (inside : ∀ ordinal ∈ ordinals, ordinal < batching.count) :
    batching.contents ordinals ⊆ batching.everything :=
  Finset.image_subset_image fun ordinal member => Finset.mem_range.mpr (inside ordinal member)

/-- A set of batches that has all positions has all batches. -/
theorem contents_of_samples (inside : ∀ ordinal ∈ ordinals, ordinal < batching.count)
    (all : batching.length ≤ batching.samples ordinals) :
    batching.contents ordinals = batching.everything := by
  have equal := Nat.le_antisymm (samples_le_length inside) all
  rw [(samples_eq_length_iff inside).mp equal, everything]

/-- While a position is missing, a batch is. -/
theorem exists_missing (fewer : batching.samples ordinals < batching.length) :
    ∃ ordinal < batching.count, ordinal ∉ ordinals := by
  by_contra none
  have all : Finset.range batching.count ⊆ ordinals := by
    intro ordinal member
    by_contra absent
    exact none ⟨ordinal, Finset.mem_range.mp member, absent⟩
  have more : batching.samples (Finset.range batching.count) ≤ batching.samples ordinals :=
    Finset.sum_le_sum_of_subset all
  rw [samples_count] at more
  omega

end Batching

end Hyperloader.Foundations
