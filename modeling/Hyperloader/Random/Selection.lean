/-
Module: Hyperloader.Random.Selection
Purpose: The index every position of a dataset selects, as one function for the native
  module and the fallback, on either side of the threshold and for any number of passes.
Trusted boundary: none
Main exports:
  Selection, exists_selection, Selection.small, Selection.large
-/
import Hyperloader.Random.Fallback

namespace Hyperloader.Random

open Foundations

/-- The index every source position of a dataset selects. -/
structure Selection (rootSeed epoch datasetLen : UInt64) where
  select : Nat → Nat
  below : ∀ index < datasetLen.toNat, select index < datasetLen.toNat
  injective : ∀ one < datasetLen.toNat, ∀ two < datasetLen.toNat,
    select one = select two → one = two
  listed : ∀ passes permutation,
    Fallback.materializedPermutation passes rootSeed.toNat epoch.toNat datasetLen.toNat =
      some (.ok permutation) →
    ∀ index < datasetLen.toNat, permutation[index]? = some (select index)
  walked : FEISTEL_THRESHOLD ≤ datasetLen → ∀ passes, 2 ^ 64 ≤ passes →
    ∀ index < datasetLen.toNat,
      feistelPermute passes rootSeed epoch datasetLen (UInt64.ofNat index) =
        some (.ok (UInt64.ofNat (select index)))

/-! ### The list of the fallback -/

variable {key : Nat × Nat}

theorem fallback_drawSelected_mono {upper limit passes more : Nat} {drawOrdinal : Nat}
    {result : Nat × Nat} (le : passes ≤ more)
    (drawn : Fallback.drawSelected key upper limit passes drawOrdinal = some result) :
    Fallback.drawSelected key upper limit more drawOrdinal = some result := by
  induction passes generalizing more drawOrdinal with
  | zero => cases drawn
  | succ passes ih =>
      obtain ⟨more, rfl⟩ := Nat.exists_eq_add_of_le' le
      rw [Fallback.drawSelected] at drawn
      rw [← Nat.add_assoc, Fallback.drawSelected]
      split
      · rename_i accepted
        rwa [if_pos accepted] at drawn
      · rename_i rejected
        rw [if_neg rejected] at drawn
        exact ih (Nat.le_add_left _ _) drawn

variable {permutation : Array Nat}

theorem fallback_shuffleDown_mono {passes more upper : Nat} {drawOrdinal : Nat}
    {result : Array Nat × Nat} (le : passes ≤ more)
    (shuffled : Fallback.shuffleDown key passes upper permutation drawOrdinal = some result) :
    Fallback.shuffleDown key more upper permutation drawOrdinal = some result := by
  induction upper using Nat.strongRecOn generalizing permutation drawOrdinal with
  | _ upper ih =>
      match upper with
      | 0 => exact shuffled
      | 1 => exact shuffled
      | upper + 2 =>
          rw [Fallback.shuffleDown] at shuffled ⊢
          split at shuffled
          · cases shuffled
          · rename_i selected next drawn
            rw [fallback_drawSelected_mono le drawn]
            exact ih (upper + 1) (Nat.lt_succ_self _) shuffled

/-- A shuffle rearranges its array. -/
theorem fallback_shuffleDown_perm {passes upper : Nat} {permutation result : Array Nat}
    {drawOrdinal draws : Nat}
    (shuffled : Fallback.shuffleDown key passes upper permutation drawOrdinal =
      some (result, draws)) : result.Perm permutation := by
  induction upper using Nat.strongRecOn generalizing permutation drawOrdinal with
  | _ upper ih =>
      match upper with
      | 0 =>
          cases shuffled
          exact Array.Perm.refl result
      | 1 =>
          cases shuffled
          exact Array.Perm.refl result
      | upper + 2 =>
          rw [Fallback.shuffleDown] at shuffled
          split at shuffled
          · cases shuffled
          · exact (ih (upper + 1) (Nat.lt_succ_self _) shuffled).trans
              (swapIfInBounds_perm permutation _ _)

theorem fallback_materializedPermutation_mono {passes more rootSeed epoch domain : Nat}
    (le : passes ≤ more) (returned : Fallback.materializedPermutation passes rootSeed epoch domain =
      some (.ok permutation)) :
    Fallback.materializedPermutation more rootSeed epoch domain = some (.ok permutation) := by
  unfold Fallback.materializedPermutation at returned ⊢
  split
  · rename_i refused
    rwa [if_pos refused] at returned
  · rename_i allowed
    rw [if_neg allowed] at returned
    obtain ⟨drawn, shuffled, same⟩ := Option.map_eq_some_iff.mp returned
    rw [Fallback.materialize, fallback_shuffleDown_mono le shuffled, Option.map_some, same]

theorem fallback_materializedPermutation_perm {passes rootSeed epoch domain : Nat}
    (returned : Fallback.materializedPermutation passes rootSeed epoch domain =
      some (.ok permutation)) : permutation.toList.Perm (List.range domain) := by
  unfold Fallback.materializedPermutation at returned
  split at returned
  · cases returned
  · obtain ⟨drawn, shuffled, same⟩ := Option.map_eq_some_iff.mp returned
    cases same
    have perm := Array.perm_iff_toList_perm.mp (fallback_shuffleDown_perm shuffled)
    rwa [Array.toList_range] at perm

/-! ### The selection -/

/-- A permutation of the positions below a bound, as a function on numbers. -/
def extendPerm {bound : Nat} (σ : Equiv.Perm (Fin bound)) (index : Nat) : Nat :=
  if inside : index < bound then (σ ⟨index, inside⟩).val else index

theorem extendPerm_of_lt {bound index : Nat} (σ : Equiv.Perm (Fin bound))
    (inside : index < bound) : extendPerm σ index = (σ ⟨index, inside⟩).val := dif_pos inside

theorem extendPerm_lt {bound index : Nat} (σ : Equiv.Perm (Fin bound))
    (inside : index < bound) : extendPerm σ index < bound := by
  rw [extendPerm_of_lt σ inside]
  exact Fin.isLt _

theorem extendPerm_injective {bound one two : Nat} (σ : Equiv.Perm (Fin bound))
    (oneInside : one < bound) (twoInside : two < bound)
    (same : extendPerm σ one = extendPerm σ two) : one = two := by
  rw [extendPerm_of_lt σ oneInside, extendPerm_of_lt σ twoInside] at same
  exact congrArg Fin.val (σ.injective (Fin.ext same))

variable {answer : Except PermutationFailure UInt64}

theorem feistelPermute_mono {passes more : Nat} {rootSeed epoch domain position : UInt64}
    (le : passes ≤ more)
    (walked : feistelPermute passes rootSeed epoch domain position = some answer) :
    feistelPermute more rootSeed epoch domain position = some answer := by
  unfold feistelPermute at walked ⊢
  split
  · rename_i refused
    rwa [if_pos refused] at walked
  · rename_i allowed
    rw [if_neg allowed] at walked
    obtain ⟨result, ended, rfl⟩ := Option.map_eq_some_iff.mp walked
    dsimp only
    rw [cycleWalk_mono le ended]
    rfl

/-- The list the fallback returns, read as a selection. -/
theorem selection_of_list {bound : Nat} (perm : permutation.toList.Perm (List.range bound)) :
    (∀ index < bound, permutation[index]? = some (permutation.getD index 0)) ∧
      (∀ index < bound, permutation.getD index 0 < bound) ∧
      ∀ one < bound, ∀ two < bound,
        permutation.getD one 0 = permutation.getD two 0 → one = two := by
  have size : permutation.size = bound := by
    have lengths := perm.length_eq
    rwa [List.length_range, Array.length_toList] at lengths
  have entry : ∀ index, (less : index < permutation.size) →
      permutation.getD index 0 = permutation[index] := fun index less =>
    Array.getElem_eq_getD 0 ▸ rfl
  refine ⟨?_, ?_, ?_⟩
  · intro index inside
    have less : index < permutation.size := by rwa [size]
    rw [Array.getElem?_eq_getElem less, entry index less]
  · intro index inside
    have less : index < permutation.size := by rwa [size]
    rw [entry index less]
    exact List.mem_range.mp (perm.mem_iff.mp (Array.getElem_mem_toList less))
  · intro one oneInside two twoInside same
    have oneLess : one < permutation.toList.length := by rwa [Array.length_toList, size]
    have twoLess : two < permutation.toList.length := by rwa [Array.length_toList, size]
    have distinct := perm.nodup_iff.mpr List.nodup_range
    rw [entry one oneLess, entry two twoLess, ← Array.getElem_toList oneLess,
      ← Array.getElem_toList twoLess] at same
    exact (List.Nodup.getElem_inj_iff distinct).mp same

theorem exists_selection (rootSeed epoch datasetLen : UInt64) :
    Nonempty (Selection rootSeed epoch datasetLen) := by
  by_cases small : datasetLen < FEISTEL_THRESHOLD
  · have large : ¬FEISTEL_THRESHOLD ≤ datasetLen := UInt64.not_le.mpr small
    by_cases settles : ∃ passes permutation,
        Fallback.materializedPermutation passes rootSeed.toNat epoch.toNat datasetLen.toNat =
          some (.ok permutation)
    · obtain ⟨passes, permutation, returned⟩ := settles
      obtain ⟨reads, below, injective⟩ :=
        selection_of_list (fallback_materializedPermutation_perm returned)
      refine ⟨⟨fun index => permutation.getD index 0, below, injective, ?_,
        fun above => absurd above large⟩⟩
      intro other list settled index inside
      have one := fallback_materializedPermutation_mono (Nat.le_max_left passes other) returned
      have two := fallback_materializedPermutation_mono (Nat.le_max_right passes other) settled
      rw [one] at two
      cases two
      exact reads index inside
    · refine ⟨⟨id, fun _ inside => inside, fun _ _ _ _ same => same, ?_,
        fun above => absurd above large⟩⟩
      intro passes permutation returned
      exact absurd ⟨passes, permutation, returned⟩ settles
  · obtain ⟨σ, walks⟩ := feistelPermute_perm rootSeed epoch (UInt64.not_lt.mp small)
    refine ⟨⟨extendPerm σ, fun _ => extendPerm_lt σ,
      fun _ oneInside _ twoInside => extendPerm_injective σ oneInside twoInside, ?_, ?_⟩⟩
    · intro passes permutation returned
      rw [Fallback.materializedPermutation,
        if_pos (mt (lt_threshold_iff datasetLen).mpr small)] at returned
      cases returned
    · intro _ passes enough index inside
      rw [extendPerm_of_lt σ inside]
      exact walks passes enough ⟨index, inside⟩

variable {passes : Nat} {rootSeed epoch datasetLen : UInt64}

/-- A list of the native module is a list of the fallback. -/
theorem fallback_list {permutation : Array UInt32} (below : datasetLen < FEISTEL_THRESHOLD)
    (returned : materializedPermutation passes rootSeed epoch datasetLen.toUInt32 =
      some (.ok permutation)) :
    Fallback.materializedPermutation passes rootSeed.toNat epoch.toNat datasetLen.toNat =
      some (.ok (permutation.map UInt32.toNat)) := by
  have bound := (lt_threshold_iff datasetLen).mp below
  have word : UInt32.ofNat datasetLen.toNat = datasetLen.toUInt32 := rfl
  have counted := materializedPermutation_counted passes rootSeed epoch bound
  rw [word] at counted
  unfold materializedPermutation at returned
  obtain ⟨answer, drawn, same⟩ := Option.map_eq_some_iff.mp returned
  cases answer with
  | error failure => cases same
  | ok answer =>
      cases same
      rw [drawn] at counted
      rw [Fallback.materializedPermutation, if_neg (not_not.mpr bound), counted]
      rfl

/-- A small dataset fails only by its draw counter. -/
theorem materializedPermutation_error {failure : PermutationFailure}
    (below : datasetLen < FEISTEL_THRESHOLD)
    (failed : materializedPermutation passes rootSeed epoch datasetLen.toUInt32 =
      some (.error failure)) : failure = .drawOverflow := by
  have word : UInt32.ofNat datasetLen.toNat = datasetLen.toUInt32 := rfl
  have counted := materializedPermutation_counted passes rootSeed epoch
    ((lt_threshold_iff datasetLen).mp below)
  rw [word] at counted
  unfold materializedPermutation at failed
  obtain ⟨answer, drawn, same⟩ := Option.map_eq_some_iff.mp failed
  cases answer with
  | error failure =>
      cases same
      rw [drawn] at counted
      exact counted.1
  | ok answer => cases same

namespace Selection

variable {rootSeed epoch datasetLen : UInt64} (selection : Selection rootSeed epoch datasetLen)

/-- The list of the native module, when it returns one. -/
theorem small {permutation : Array UInt32} (below : datasetLen < FEISTEL_THRESHOLD)
    (returned : materializedPermutation passes rootSeed epoch datasetLen.toUInt32 =
      some (.ok permutation)) {index : Nat} (inside : index < datasetLen.toNat) :
    permutation[index]?.map UInt32.toNat = some (selection.select index) := by
  rw [← Array.getElem?_map]
  exact selection.listed passes _ (fallback_list below returned) index inside

/-- The walk of a large dataset, when it has ended. -/
theorem large {index : Nat} (above : FEISTEL_THRESHOLD ≤ datasetLen)
    (inside : index < datasetLen.toNat)
    (returned : feistelPermute passes rootSeed epoch datasetLen (UInt64.ofNat index) =
      some answer) : answer = .ok (UInt64.ofNat (selection.select index)) := by
  have one := feistelPermute_mono (Nat.le_max_left passes (2 ^ 64)) returned
  have two := selection.walked above (max passes (2 ^ 64)) (Nat.le_max_right _ _) index inside
  rw [one] at two
  exact Option.some.inj two

/-- A selection goes through the whole dataset. -/
theorem perm :
    ((List.range datasetLen.toNat).map selection.select).Perm
      (List.range datasetLen.toNat) := by
  have distinct : ((List.range datasetLen.toNat).map selection.select).Nodup := by
    apply List.Nodup.map_on _ List.nodup_range
    intro one oneMember two twoMember same
    exact selection.injective one (List.mem_range.mp oneMember) two
      (List.mem_range.mp twoMember) same
  have inside : ((List.range datasetLen.toNat).map selection.select) ⊆
      List.range datasetLen.toNat := by
    intro index member
    obtain ⟨position, less, rfl⟩ := List.mem_map.mp member
    exact List.mem_range.mpr (selection.below position (List.mem_range.mp less))
  apply (List.subperm_of_subset distinct inside).perm_of_length_le
  rw [List.length_map]

end Selection

end Hyperloader.Random
