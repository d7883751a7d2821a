/-
Module: Hyperloader.Foundations.OrderStatistic
Purpose: Order statistics of a list of numbers, and how a table of counts finds them: the first
  number at which the running count reaches a rank is the number of that rank.
Trusted boundary: none
Main exports:
  ranked, ranked_mono, ranked_append, ranked_map, countTable, firstReaching,
  firstReaching_countTable
-/
import Mathlib.Algebra.Order.Ring.Nat
import Mathlib.Data.List.Sort
import Mathlib.Data.Nat.SuccPred

namespace Hyperloader.Foundations

/-- The value of a rank, counted from zero. -/
def ranked (values : List Nat) (rank : Nat) : Option Nat :=
  (values.mergeSort (· ≤ ·))[rank]?

/-- How often each number below `width` occurs. -/
def countTable (values : List Nat) (width : Nat) : List Nat :=
  (List.range width).map fun value => values.count value

/-- The first place, from `index` on, at which the running count reaches the target. -/
def firstReaching (target : Nat) : List Nat → (index cumulative : Nat) → Option Nat
  | [], _, _ => none
  | count :: counts, index, cumulative =>
      if target ≤ cumulative + count then some index
      else firstReaching target counts (index + 1) (cumulative + count)

variable {values : List Nat}

theorem ranked_isSome {rank : Nat} (inside : rank < values.length) :
    ∃ value, ranked values rank = some value := by
  refine ⟨_, List.getElem?_eq_getElem ?_⟩
  rw [List.length_mergeSort]
  exact inside

theorem mem_of_ranked {rank value : Nat} (there : ranked values rank = some value) :
    value ∈ values :=
  List.mem_mergeSort.mp (List.mem_of_getElem? there)

/-! ### Counting below a bound -/

theorem countP_lt_succ (values : List Nat) (bound : Nat) :
    values.countP (· < bound + 1) = values.countP (· < bound) + values.count bound := by
  induction values with
  | nil => rfl
  | cons value values ih =>
      rw [List.countP_cons, List.countP_cons, List.count_cons, ih]
      by_cases same : value = bound
      · simp [same]
        omega
      · have either : value < bound + 1 ↔ value < bound := by omega
        simp [same, either]
        omega

theorem sum_countTable (values : List Nat) (width : Nat) :
    (countTable values width).sum = values.countP (· < width) := by
  induction width with
  | zero =>
      symm
      exact List.countP_eq_zero.mpr fun value _ => by simp
  | succ width ih =>
      unfold countTable at ih ⊢
      rw [List.range_succ, List.map_append, List.sum_append, ih, countP_lt_succ]
      simp

theorem take_countTable (values : List Nat) {count width : Nat} (within : count ≤ width) :
    (countTable values width).take count = countTable values count := by
  unfold countTable
  rw [← List.map_take, List.take_range, Nat.min_eq_left within]

/-! ### Ranks and counts -/

/-- In an ordered list at most `rank` values lie below the one at `rank`, and more than `rank` do
not lie above it. -/
theorem counts_of_ordered {ordered : List Nat} (sorted : ordered.Pairwise (· ≤ ·))
    {rank value : Nat} (there : ordered[rank]? = some value) :
    ordered.countP (· < value) ≤ rank ∧ rank < ordered.countP (· < value + 1) := by
  induction ordered generalizing rank with
  | nil => cases there
  | cons first rest ih =>
      obtain ⟨least, sorted⟩ := List.pairwise_cons.mp sorted
      rw [List.countP_cons, List.countP_cons]
      cases rank with
      | zero =>
          cases there
          have none : rest.countP (· < value) = 0 :=
            List.countP_eq_zero.mpr fun other member => by simpa using least other member
          simp [none]
      | succ rank =>
          obtain ⟨few, many⟩ := ih sorted there
          have below : first < value + 1 :=
            Nat.lt_succ_of_le (least value (List.mem_of_getElem? there))
          rw [if_pos (decide_eq_true below)]
          refine ⟨?_, Nat.succ_lt_succ many⟩
          split
          · exact Nat.succ_le_succ few
          · exact Nat.le_succ_of_le few

theorem counts_of_ranked {rank value : Nat} (there : ranked values rank = some value) :
    values.countP (· < value) ≤ rank ∧ rank < values.countP (· < value + 1) := by
  have order := List.mergeSort_perm values (· ≤ ·)
  rw [← order.countP_eq, ← order.countP_eq]
  exact counts_of_ordered List.sortedLE_mergeSort.pairwise there

variable {rank later one two : Nat}

/-- A later rank of a list with no more values below the first has no smaller value. -/
theorem ranked_le_of_counts {values others : List Nat} (there : ranked values rank = some one)
    (other : ranked others later = some two) (order : rank ≤ later)
    (few : others.countP (· < one) ≤ values.countP (· < one)) : one ≤ two := by
  by_contra! less
  have below := (counts_of_ranked there).1
  have reached := (counts_of_ranked other).2
  have fewer : others.countP (· < two + 1) ≤ others.countP (· < one) :=
    List.countP_mono_left fun value _ under =>
      decide_eq_true (Nat.lt_of_lt_of_le (of_decide_eq_true under) less)
  omega

theorem ranked_mono (order : rank ≤ later) (there : ranked values rank = some one)
    (other : ranked values later = some two) : one ≤ two :=
  ranked_le_of_counts there other order (Nat.le_refl _)

/-- Values not below the one of a rank lower none of its later ranks. -/
theorem ranked_append {values added : List Nat} (order : rank ≤ later)
    (above : ∀ value ∈ added, one ≤ value) (there : ranked values rank = some one)
    (other : ranked (values ++ added) later = some two) : one ≤ two := by
  refine ranked_le_of_counts there other order ?_
  have none : added.countP (· < one) = 0 :=
    List.countP_eq_zero.mpr fun value member => by simpa using above value member
  rw [List.countP_append, none]
  exact Nat.le_refl _

/-- A monotone map takes the value of a rank to that of the same rank. -/
theorem ranked_map {f : Nat → Nat} (monotone : ∀ one two, one ≤ two → f one ≤ f two)
    (values : List Nat) (rank : Nat) : ranked (values.map f) rank = (ranked values rank).map f := by
  have sorted : ((values.mergeSort (· ≤ ·)).map f).Pairwise (· ≤ ·) :=
    List.pairwise_map.mpr (List.sortedLE_mergeSort.pairwise.imp (monotone _ _))
  have order : ((values.map f).mergeSort (· ≤ ·)).Perm ((values.mergeSort (· ≤ ·)).map f) :=
    (List.mergeSort_perm _ _).trans ((List.mergeSort_perm values _).map f).symm
  have same : (values.map f).mergeSort (· ≤ ·) = (values.mergeSort (· ≤ ·)).map f :=
    order.eq_of_pairwise' List.sortedLE_mergeSort.pairwise sorted
  unfold ranked
  rw [same, List.getElem?_map]

/-- The running count reaches the target at `count` places further on. -/
theorem firstReaching_eq {target : Nat} {counts : List Nat} {index cumulative count : Nat}
    (inside : count < counts.length) (below : cumulative + (counts.take count).sum < target)
    (reached : target ≤ cumulative + (counts.take (count + 1)).sum) :
    firstReaching target counts index cumulative = some (index + count) := by
  induction counts generalizing index cumulative count with
  | nil => cases inside
  | cons first counts ih =>
      unfold firstReaching
      rw [List.take_succ_cons, List.sum_cons] at reached
      cases count with
      | zero =>
          rw [List.take_zero, List.sum_nil] at reached
          exact if_pos reached
      | succ count =>
          rw [List.take_succ_cons, List.sum_cons, ← Nat.add_assoc] at below
          have early : ¬ target ≤ cumulative + first := by omega
          rw [← Nat.add_assoc] at reached
          rw [if_neg early, ih (Nat.lt_of_succ_lt_succ inside) below reached,
            Nat.succ_add_eq_add_succ]

/-- The running counts of a table first reach a positive target at the value of that rank. -/
theorem firstReaching_countTable {width rank : Nat} (narrow : ∀ value ∈ values, value < width)
    (inside : rank < values.length) :
    firstReaching (rank + 1) (countTable values width) 0 0 = ranked values rank := by
  obtain ⟨value, there⟩ := ranked_isSome inside
  obtain ⟨few, many⟩ := counts_of_ranked there
  have within : value < width := narrow value (mem_of_ranked there)
  have sized : (countTable values width).length = width := by
    unfold countTable
    rw [List.length_map, List.length_range]
  have found := @firstReaching_eq (rank + 1) (countTable values width) 0 0 value
    (sized.symm ▸ within)
    (by rw [take_countTable values within.le, sum_countTable, Nat.zero_add]
        exact Nat.lt_succ_of_le few)
    (by rw [take_countTable values within, sum_countTable, Nat.zero_add]
        exact many)
  rw [there, found, Nat.zero_add]

end Hyperloader.Foundations
