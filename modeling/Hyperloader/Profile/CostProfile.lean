/-
Module: Hyperloader.Profile.CostProfile
Purpose: The bounded per-position cost tables of engine/src/state/profile/mod.rs, over any
  arithmetic of costs.
Trusted boundary: pointers have 64 bits.
Main exports: Costs, CostProfile, CostProfile.new, CostProfile.observe, CostProfile.estimate
-/
import Hyperloader.Foundations.Fallible
import Hyperloader.Process.Rng

namespace Hyperloader.Profile

open Foundations
open Hyperloader.Process (splitmix64)

/-- What the table computes with: `factor` is a finite number in (0, 1], and `blend` is
`alpha.mul_add(observation, (1.0 - alpha) * current)`. -/
structure Costs (Value : Type) where
  nan : Value
  isNan : Value → Bool
  factor : Value → Bool
  ofCost : UInt64 → Value
  blend : Value → Value → Value → Value

/-- `aborted` is a panic: of an index out of its bounds or of an allocation too large. -/
inductive ProfileFailure where
  | refused (text : String)
  | aborted
deriving DecidableEq

def ENTRY_BYTES : Nat := 8

/-- The largest allocation. -/
def ISIZE_MAX : Nat := 2 ^ 63 - 1

structure CostProfile (Value : Type) where
  positionCount : UInt64
  alpha : Value
  values : List Value
deriving DecidableEq

namespace CostProfile

variable {Value : Type} (costs : Costs Value)

def new (positionCount maxBytes : UInt64) (alpha : Value) :
    Except ProfileFailure (CostProfile Value) :=
  if !costs.factor alpha then .error (.refused "profile alpha must be in (0, 1]")
  else
    let budgetEntries := maxBytes.toNat / ENTRY_BYTES
    let entryCount := min positionCount.toNat budgetEntries
    if ISIZE_MAX < entryCount * ENTRY_BYTES then .error .aborted
    else .ok ⟨positionCount, alpha, List.replicate entryCount costs.nan⟩

def isDegraded (profile : CostProfile Value) : Bool :=
  profile.values.length < profile.positionCount.toNat

def payloadBytes (profile : CostProfile Value) : Nat := profile.values.length * ENTRY_BYTES

def entryIndex (profile : CostProfile Value) (position : UInt64) : Option Nat :=
  if profile.values.isEmpty then none
  else if !profile.isDegraded then some position.toNat
  else some ((splitmix64 position).toNat % profile.values.length)

def OUTSIDE : String := "profile position is outside its domain"

/-- Record one positive measured wall cost in nanoseconds. -/
def observe (profile : CostProfile Value) (position costNs : UInt64) :
    Except ProfileFailure (CostProfile Value) :=
  if profile.positionCount ≤ position then .error (.refused OUTSIDE)
  else if costNs = 0 then .error (.refused "profile cost must be positive")
  else
    match profile.entryIndex position with
    | none => .ok profile
    | some index =>
        match profile.values[index]? with
        | none => .error .aborted
        | some current =>
            let observation := costs.ofCost costNs
            let value :=
              if costs.isNan current then observation
              else costs.blend profile.alpha observation current
            .ok { profile with values := profile.values.set index value }

/-- The current estimate for one position when any observation exists. -/
def estimate (profile : CostProfile Value) (position : UInt64) :
    Except ProfileFailure (Option Value) :=
  if profile.positionCount ≤ position then .error (.refused OUTSIDE)
  else
    match profile.entryIndex position with
    | none => .ok none
    | some index =>
        match profile.values[index]? with
        | none => .error .aborted
        | some value => .ok (if costs.isNan value then none else some value)

section Calls

variable {costs} {profile after : CostProfile Value} {position costNs : UInt64}

/-- Behind an index of the table is an entry. -/
theorem entryIndex_lt {index : Nat} (inside : position < profile.positionCount)
    (found : profile.entryIndex position = some index) : index < profile.values.length := by
  have less : position.toNat < profile.positionCount.toNat := UInt64.lt_iff_toNat_lt.mp inside
  unfold entryIndex at found
  split at found
  · nomatch found
  · rename_i entries
    have some : 0 < profile.values.length := List.length_pos_iff.mpr fun empty =>
      entries (List.isEmpty_iff.mpr empty)
    split at found
    · rename_i whole
      obtain rfl := Option.some.inj found
      simp only [isDegraded, Bool.not_eq_true', decide_eq_false_iff_not] at whole
      omega
    · obtain rfl := Option.some.inj found
      exact Nat.mod_lt _ some

/-- An observation inside the domain leaves the table or sets the entry of its position. -/
theorem observe_cases (costs : Costs Value) (inside : position < profile.positionCount) (positive : costNs ≠ 0) :
    (profile.entryIndex position = none ∧ profile.observe costs position costNs = .ok profile) ∨
      ∃ index current, profile.entryIndex position = some index ∧
        profile.values[index]? = some current ∧
        profile.observe costs position costNs = .ok { profile with
          values := profile.values.set index
            (if costs.isNan current then costs.ofCost costNs
            else costs.blend profile.alpha (costs.ofCost costNs) current) } := by
  have outside : ¬profile.positionCount ≤ position := UInt64.not_le.mpr inside
  unfold observe
  rw [if_neg outside, if_neg positive]
  cases found : profile.entryIndex position with
  | none => exact Or.inl ⟨rfl, rfl⟩
  | some index =>
      have there := List.getElem?_eq_getElem (entryIndex_lt inside found)
      exact Or.inr ⟨index, _, rfl, there, by simp only [there]⟩

theorem estimate_cases (costs : Costs Value) (inside : position < profile.positionCount) :
    (profile.entryIndex position = none ∧ profile.estimate costs position = .ok none) ∨
      ∃ index value, profile.entryIndex position = some index ∧
        profile.values[index]? = some value ∧
        profile.estimate costs position =
          .ok (if costs.isNan value then none else some value) := by
  have outside : ¬profile.positionCount ≤ position := UInt64.not_le.mpr inside
  unfold estimate
  rw [if_neg outside]
  cases found : profile.entryIndex position with
  | none => exact Or.inl ⟨rfl, rfl⟩
  | some index =>
      have there := List.getElem?_eq_getElem (entryIndex_lt inside found)
      exact Or.inr ⟨index, _, rfl, there, by simp only [there]⟩

/-- A new table has an entry for each position its budget admits. -/
theorem new_ok_iff {positionCount maxBytes : UInt64} {alpha : Value} :
    new costs positionCount maxBytes alpha = .ok profile ↔
      costs.factor alpha = true ∧
        min positionCount.toNat (maxBytes.toNat / ENTRY_BYTES) * ENTRY_BYTES ≤ ISIZE_MAX ∧
        profile = ⟨positionCount, alpha,
          List.replicate (min positionCount.toNat (maxBytes.toNat / ENTRY_BYTES)) costs.nan⟩ := by
  unfold new
  rw [if_error_ok_iff, if_error_ok_iff, Bool.not_eq_true', Bool.not_eq_false, Nat.not_lt,
    Except.ok.injEq, @eq_comm _ profile]

end Calls

end CostProfile

end Hyperloader.Profile
