/-
Module: Hyperloader.Profile.Interchange
Purpose: The pure-Python cost profile, fallback/profile.py, beside the native one behind its
  binding.
Trusted boundary: costs are exact rationals.
Main exports: Fallback.CostProfile, Call, Interchangeable, profiles_interchangeable_iff
-/
import Mathlib.Algebra.Order.Ring.Rat
import Hyperloader.Foundations.FiniteMap
import Hyperloader.Foundations.Transition
import Hyperloader.Profile.CostProfile

namespace Hyperloader.Profile

open Foundations

/-- Costs as exact rationals; `none` is not a number. -/
def rationalCosts : Costs (Option ℚ) where
  nan := none
  isNan := Option.isNone
  factor
    | none => false
    | some alpha => 0 < alpha ∧ alpha ≤ 1
  ofCost costNs := some costNs.toNat
  blend
    | some alpha, some observation, some current =>
        some (alpha * observation + (1 - alpha) * current)
    | _, _, _ => none

inductive CallError where
  | valueError (text : String)
  | overflowError
  | aborted

/-- What a call of either profile is made with. -/
inductive Call where
  | observe (position costNs : Int)
  | estimate (position : Int)

def Call.position : Call → Int
  | .observe position _ | .estimate position => position

/-- An observation has nothing to return. -/
abbrev CallAnswer := Except CallError (Option ℚ)

/-! ### The native side -/

/-- The conversion of an argument to `u64`. -/
def extractU64 (value : Int) : Except CallError UInt64 :=
  if 0 ≤ value ∧ value < 2 ^ 64 then .ok (UInt64.ofNat value.toNat) else .error .overflowError

def valueError : ProfileFailure → CallError
  | .refused text => .valueError text
  | .aborted => .aborted

namespace CostProfile

abbrev Native := CostProfile (Option ℚ)

/-- `PyCostProfile::observe` -/
def pyObserve (profile : Native) (position costNs : Int) : Except CallError Native := do
  let position ← extractU64 position
  let costNs ← extractU64 costNs
  (profile.observe rationalCosts position costNs).mapError valueError

/-- `PyCostProfile::estimate` -/
def pyEstimate (profile : Native) (position : Int) : Except CallError (Option ℚ) := do
  let position ← extractU64 position
  return (← (profile.estimate rationalCosts position).mapError valueError).join

def answer (profile : Native) : Call → CallAnswer × Native
  | .observe position costNs =>
      match profile.pyObserve position costNs with
      | .ok after => (.ok none, after)
      | .error error => (.error error, profile)
  | .estimate position => (profile.pyEstimate position, profile)

def machine : Machine Native Call CallAnswer where
  step profile call := some (profile.answer call)

end CostProfile

/-! ### The pure-Python side -/

namespace Fallback

structure CostProfile where
  positionCount : Int
  alpha : ℚ
  bucketCount : Int
  degraded : Bool
  values : Finmap fun _ : Int => ℚ

namespace CostProfile

/-- `CostProfile.__init__` -/
def new (positionCount maxBytes : Int) (alpha : ℚ) : Except CallError CostProfile :=
  if positionCount < 0 ∨ maxBytes < 0 then
    .error (.valueError "profile sizes must be nonnegative")
  else if ¬(0 < alpha ∧ alpha ≤ 1) then .error (.valueError "profile alpha must be in (0, 1]")
  else
    let bucketCount := min positionCount (maxBytes / 8)
    .ok ⟨positionCount, alpha, bucketCount, bucketCount < positionCount, ∅⟩

/-- `_bucket` -/
def bucket (profile : CostProfile) (position : Int) : Except CallError Int :=
  if ¬(0 ≤ position ∧ position < profile.positionCount) then
    .error (.valueError "profile position is outside its domain")
  else if profile.bucketCount = 0 then
    .error (.valueError "profile byte budget admits no observations")
  else .ok (position % profile.bucketCount)

def observe (profile : CostProfile) (position costNs : Int) : Except CallError CostProfile := do
  let bucket ← profile.bucket position
  let value : ℚ := costNs
  let updated :=
    match profile.values.lookup bucket with
    | none => value
    | some previous => profile.alpha * value + (1 - profile.alpha) * previous
  return { profile with values := profile.values.insert bucket updated }

def estimate (profile : CostProfile) (position : Int) : Except CallError (Option ℚ) := do
  let bucket ← profile.bucket position
  return profile.values.lookup bucket

def answer (profile : CostProfile) : Call → CallAnswer × CostProfile
  | .observe position costNs =>
      match profile.observe position costNs with
      | .ok after => (.ok none, after)
      | .error error => (.error error, profile)
  | .estimate position => (profile.estimate position, profile)

def machine : Machine CostProfile Call CallAnswer where
  step profile call := some (profile.answer call)

end CostProfile

end Fallback

/-- A call within a domain of positions. -/
def Call.Within (positionCount : UInt64) (call : Call) : Prop :=
  0 ≤ call.position ∧ call.position < positionCount.toNat

def Call.Positive : Call → Prop
  | .observe _ costNs => 0 < costNs
  | .estimate _ => True

instance (call : Call) : Decidable call.Positive :=
  match call with
  | .observe _ costNs => inferInstanceAs (Decidable (0 < costNs))
  | .estimate _ => inferInstanceAs (Decidable True)

/-! ### Side by side -/

/-- Both profiles, called alike. -/
def sideBySide : Machine (CostProfile.Native × Fallback.CostProfile) Call
    (CallAnswer × CallAnswer) where
  step profiles call :=
    some (((profiles.1.answer call).1, (profiles.2.answer call).1),
      ((profiles.1.answer call).2, (profiles.2.answer call).2))

/-- Both calls succeed or neither does, and within the domain both do. -/
def Agreed (positionCount : UInt64) (call : Call) (answers : CallAnswer × CallAnswer) : Prop :=
  (answers.1.isOk = true ↔ answers.2.isOk = true) ∧
    (call.Within positionCount → answers.1.isOk = true ∧ answers.2.isOk = true)

/-- Every call agrees, and with an entry for every position its answers are the same. -/
def Interchangeable (positionCount maxBytes : UInt64)
    (trace : List (Call × (CallAnswer × CallAnswer))) : Prop :=
  (∀ entry ∈ trace, Agreed positionCount entry.1 entry.2) ∧
    (positionCount.toNat * ENTRY_BYTES ≤ maxBytes.toNat →
      ∀ entry ∈ trace, entry.2.1.toOption = entry.2.2.toOption)

/-- A cost is a `u64`. -/
def Call.Fits : Call → Prop
  | .observe _ costNs => costNs < 2 ^ 64
  | .estimate _ => True

/-- Within the domain, the budget has an entry and the cost is a `u64`. -/
def Call.Admitted (positionCount maxBytes : UInt64) (call : Call) : Prop :=
  call.Within positionCount → ENTRY_BYTES ≤ maxBytes.toNat ∧ call.Fits

/-- Profiles made of the same arguments, whatever they have been called with. -/
structure Twins (positionCount maxBytes : UInt64) (profiles : CostProfile.Native × Fallback.CostProfile) :
    Prop where
  native : profiles.1.positionCount = positionCount
  fallback : profiles.2.positionCount = positionCount.toNat
  entries : profiles.1.values.length = min positionCount.toNat (maxBytes.toNat / ENTRY_BYTES)
  buckets : profiles.2.bucketCount = profiles.1.values.length
  factor : profiles.1.alpha = some profiles.2.alpha

section Answers

variable {positionCount maxBytes : UInt64} {call : Call}
  {profiles : CostProfile.Native × Fallback.CostProfile}

theorem extractU64_ok {value : Int} (least : 0 ≤ value) (most : value < 2 ^ 64) :
    extractU64 value = .ok (UInt64.ofNat value.toNat) ∧
      (UInt64.ofNat value.toNat).toNat = value.toNat := by
  have fits : value.toNat < UInt64.size := by
    show value.toNat < 2 ^ 64
    omega
  exact ⟨if_pos ⟨least, most⟩, UInt64.toNat_ofNat_of_lt' fits⟩

theorem extractU64_error {value : Int} (large : 2 ^ 64 ≤ value) :
    extractU64 value = .error .overflowError := by
  unfold extractU64
  rw [if_neg]
  omega

/-- A position is a `u64` of the domain, one past it, or no `u64`. -/
theorem extract_cases (positionCount : UInt64) (position : Int) :
    (¬(0 ≤ position ∧ position < positionCount.toNat) ∧
        (extractU64 position = .error .overflowError ∨
          ∃ past, extractU64 position = .ok past ∧ positionCount ≤ past)) ∨
      ∃ inside, extractU64 position = .ok inside ∧ inside < positionCount ∧
        (0 ≤ position ∧ position < positionCount.toNat) ∧ inside.toNat = position.toNat := by
  have bound : (positionCount.toNat : Int) < 2 ^ 64 := by
    have := positionCount.toNat_lt
    omega
  by_cases fits : 0 ≤ position ∧ position < 2 ^ 64
  · obtain ⟨extracted, toNat⟩ := extractU64_ok fits.1 fits.2
    by_cases inside : position < positionCount.toNat
    · refine Or.inr ⟨_, extracted, ?_, ⟨fits.1, inside⟩, toNat⟩
      rw [UInt64.lt_iff_toNat_lt, toNat]
      omega
    · refine Or.inl ⟨fun both => inside both.2, Or.inr ⟨_, extracted, ?_⟩⟩
      rw [UInt64.le_iff_toNat_le, toNat]
      omega
  · exact Or.inl ⟨by omega, Or.inl (if_neg fits)⟩

section

variable (twins : Twins positionCount maxBytes profiles)

include twins

/-- With an entry for every position, a position's entry is its own. -/
theorem Twins.entryIndex_eq {position : UInt64} (inside : position < positionCount)
    (whole : positionCount.toNat * ENTRY_BYTES ≤ maxBytes.toNat) :
    profiles.1.entryIndex position = some position.toNat := by
  have less : position.toNat < positionCount.toNat := UInt64.lt_iff_toNat_lt.mp inside
  obtain ⟨native, -, entries, -, -⟩ := twins
  unfold ENTRY_BYTES at *
  have some : profiles.1.values.isEmpty = false := by
    apply List.isEmpty_eq_false_iff.mpr
    apply List.ne_nil_of_length_pos
    omega
  have degraded : profiles.1.isDegraded = false := by
    unfold CostProfile.isDegraded
    rw [native, decide_eq_false_iff_not]
    omega
  unfold CostProfile.entryIndex
  rw [some, degraded]
  rfl

/-- The native side estimates exactly within the domain. -/
theorem Twins.pyEstimate_cases (position : Int) :
    ((∃ error, profiles.1.pyEstimate position = .error error) ∧
        ¬(0 ≤ position ∧ position < positionCount.toNat)) ∨
      ∃ value, profiles.1.pyEstimate position = .ok value ∧
        (0 ≤ position ∧ position < positionCount.toNat) ∧
        (positionCount.toNat * ENTRY_BYTES ≤ maxBytes.toNat →
          profiles.1.values[position.toNat]? = some value) := by
  unfold CostProfile.pyEstimate
  rcases extract_cases positionCount position with ⟨outside, overflow | ⟨past, extracted, beyond⟩⟩ |
    ⟨inside, extracted, less, within, toNat⟩
  · rw [overflow]
    exact Or.inl ⟨⟨_, rfl⟩, outside⟩
  · have refused : profiles.1.estimate rationalCosts past =
        .error (.refused CostProfile.OUTSIDE) := if_pos (twins.native ▸ beyond)
    simp only [extracted, bind, Except.bind, refused]
    exact Or.inl ⟨⟨_, rfl⟩, outside⟩
  · have there : inside < profiles.1.positionCount := twins.native.symm ▸ less
    rcases CostProfile.estimate_cases rationalCosts there with ⟨missing, estimated⟩ |
      ⟨index, value, found, entry, estimated⟩
    · simp only [extracted, bind, Except.bind, estimated]
      refine Or.inr ⟨none, rfl, within, fun whole => ?_⟩
      nomatch missing.symm.trans (twins.entryIndex_eq less whole)
    · simp only [extracted, bind, Except.bind, estimated]
      refine Or.inr ⟨value, by cases value <;> rfl, within, fun whole => ?_⟩
      obtain rfl := Option.some.inj (found.symm.trans (twins.entryIndex_eq less whole))
      rwa [← toNat]

/-- What a cost makes of an entry. -/
def blended (alpha : ℚ) (costNs : Int) : Option ℚ → ℚ
  | none => costNs
  | some previous => alpha * costNs + (1 - alpha) * previous

/-- The native side takes a positive cost exactly within the domain, where it is a `u64`. -/
theorem Twins.pyObserve_cases (position : Int) {costNs : Int} (positive : 0 < costNs) :
    ((∃ error, profiles.1.pyObserve position costNs = .error error) ∧
        ¬((0 ≤ position ∧ position < positionCount.toNat) ∧ costNs < 2 ^ 64)) ∨
      ∃ values, profiles.1.pyObserve position costNs = .ok { profiles.1 with values } ∧
        ((0 ≤ position ∧ position < positionCount.toNat) ∧ costNs < 2 ^ 64) ∧
        values.length = profiles.1.values.length ∧
        (positionCount.toNat * ENTRY_BYTES ≤ maxBytes.toNat →
          ∃ current, profiles.1.values[position.toNat]? = some current ∧
            values = profiles.1.values.set position.toNat
              (some (blended profiles.2.alpha costNs current))) := by
  unfold CostProfile.pyObserve
  rcases extract_cases positionCount position with ⟨outside, overflow | ⟨past, extracted, beyond⟩⟩ |
    ⟨inside, extracted, less, within, toNat⟩
  · rw [overflow]
    exact Or.inl ⟨⟨_, rfl⟩, fun both => outside both.1⟩
  · have refused (cost : UInt64) : profiles.1.observe rationalCosts past cost =
        .error (.refused CostProfile.OUTSIDE) := if_pos (twins.native ▸ beyond)
    rw [extracted]
    refine Or.inl ⟨?_, fun both => outside both.1⟩
    cases extractU64 costNs with
    | error error => exact ⟨_, rfl⟩
    | ok cost =>
        simp only [bind, Except.bind, refused]
        exact ⟨_, rfl⟩
  · have there : inside < profiles.1.positionCount := twins.native.symm ▸ less
    by_cases fits : costNs < 2 ^ 64
    · obtain ⟨costExtracted, costToNat⟩ := extractU64_ok (Int.le_of_lt positive) fits
      have measured : UInt64.ofNat costNs.toNat ≠ 0 := by
        intro zero
        rw [zero] at costToNat
        have : (0 : UInt64).toNat = 0 := rfl
        omega
      right
      rcases CostProfile.observe_cases rationalCosts there measured with ⟨missing, observed⟩ |
        ⟨index, current, found, entry, observed⟩
      · simp only [extracted, costExtracted, bind, Except.bind, observed]
        refine ⟨profiles.1.values, rfl, ⟨within, fits⟩, rfl, fun whole => ?_⟩
        nomatch missing.symm.trans (twins.entryIndex_eq less whole)
      · simp only [extracted, costExtracted, bind, Except.bind, observed]
        refine ⟨_, rfl, ⟨within, fits⟩, List.length_set, fun whole => ?_⟩
        obtain rfl := Option.some.inj (found.symm.trans (twins.entryIndex_eq less whole))
        rw [toNat] at entry ⊢
        refine ⟨current, entry, ?_⟩
        have exact : ((costNs.toNat : Nat) : ℚ) = (costNs : ℚ) := by
          rw [← Int.cast_natCast, Int.toNat_of_nonneg (Int.le_of_lt positive)]
        rw [twins.factor]
        cases current with
        | none | some previous => simp [rationalCosts, blended, costToNat, exact]
    · simp only [extracted, extractU64_error (Int.not_lt.mp fits), bind, Except.bind]
      exact Or.inl ⟨⟨_, rfl⟩, fun both => fits both.2⟩

/-- The pure-Python side answers exactly where there is a bucket. -/
theorem Twins.bucket_cases (position : Int) :
    ((∃ error, profiles.2.bucket position = .error error) ∧
        ¬(0 ≤ position ∧ position < positionCount.toNat ∧ ENTRY_BYTES ≤ maxBytes.toNat)) ∨
      ∃ bucket, profiles.2.bucket position = .ok bucket ∧
        (0 ≤ position ∧ position < positionCount.toNat ∧ ENTRY_BYTES ≤ maxBytes.toNat) ∧
        (positionCount.toNat * ENTRY_BYTES ≤ maxBytes.toNat → bucket = position) := by
  obtain ⟨-, count, entries, buckets, -⟩ := twins
  rw [entries] at buckets
  unfold ENTRY_BYTES at *
  unfold Fallback.CostProfile.bucket
  rw [count]
  split
  · exact Or.inl ⟨⟨_, rfl⟩, by omega⟩
  · split
    · exact Or.inl ⟨⟨_, rfl⟩, by omega⟩
    · refine Or.inr ⟨_, rfl, by omega, fun whole => ?_⟩
      rw [buckets, Int.emod_eq_of_lt] <;> omega

theorem Twins.native_isOk_iff (positive : call.Positive) :
    (profiles.1.answer call).1.isOk = true ↔ call.Within positionCount ∧ call.Fits := by
  cases call with
  | observe position costNs =>
      unfold CostProfile.answer
      rcases twins.pyObserve_cases position positive with ⟨⟨error, refused⟩, not⟩ |
        ⟨values, taken, both, -, -⟩
      · simp only [refused]
        exact iff_of_false Bool.false_ne_true not
      · simp only [taken]
        exact iff_of_true rfl both
  | estimate position =>
      unfold CostProfile.answer
      rcases twins.pyEstimate_cases position with ⟨⟨error, refused⟩, not⟩ |
        ⟨value, estimated, within, -⟩
      · simp only [refused]
        exact iff_of_false Bool.false_ne_true fun both => not both.1
      · simp only [estimated]
        exact iff_of_true rfl ⟨within, trivial⟩

theorem Twins.fallback_isOk_iff :
    (profiles.2.answer call).1.isOk = true ↔
      call.Within positionCount ∧ ENTRY_BYTES ≤ maxBytes.toNat := by
  unfold Call.Within
  rw [and_assoc]
  rcases twins.bucket_cases call.position with ⟨⟨error, refused⟩, not⟩ | ⟨bucket, there, all, -⟩
  · cases call with
    | observe position costNs =>
        simp only [Fallback.CostProfile.answer, Fallback.CostProfile.observe, bind,
          Except.bind, show profiles.2.bucket position = _ from refused]
        exact iff_of_false Bool.false_ne_true not
    | estimate position =>
        simp only [Fallback.CostProfile.answer, Fallback.CostProfile.estimate, bind,
          Except.bind, show profiles.2.bucket position = _ from refused]
        exact iff_of_false Bool.false_ne_true not
  · cases call with
    | observe position costNs =>
        simp only [Fallback.CostProfile.answer, Fallback.CostProfile.observe, bind,
          Except.bind, show profiles.2.bucket position = _ from there]
        exact iff_of_true rfl all
    | estimate position =>
        simp only [Fallback.CostProfile.answer, Fallback.CostProfile.estimate, bind,
          Except.bind, show profiles.2.bucket position = _ from there]
        exact iff_of_true rfl all

/-- A call agrees exactly where it is admitted. -/
theorem Twins.agreed_iff (positive : call.Positive) :
    Agreed positionCount call ((profiles.1.answer call).1, (profiles.2.answer call).1) ↔
      call.Admitted positionCount maxBytes := by
  unfold Agreed Call.Admitted
  dsimp only
  rw [twins.native_isOk_iff positive, twins.fallback_isOk_iff]
  tauto

end

/-- What a call leaves of the pure-Python side. -/
theorem Twins.fallback_after (profiles : CostProfile.Native × Fallback.CostProfile) (call : Call) :
    ∃ values, (profiles.2.answer call).2 = { profiles.2 with values } := by
  cases call with
  | observe position costNs =>
      unfold Fallback.CostProfile.answer
      dsimp only
      cases observeEq : profiles.2.observe position costNs with
      | error error => exact ⟨_, rfl⟩
      | ok after =>
          unfold Fallback.CostProfile.observe at observeEq
          obtain ⟨bucket, -, rest⟩ := bind_ok_iff.mp observeEq
          exact ⟨_, (Except.ok.inj rest).symm⟩
  | estimate position => exact ⟨_, rfl⟩

theorem Twins.native_after (twins : Twins positionCount maxBytes profiles)
    (positive : call.Positive) :
    ∃ values, (profiles.1.answer call).2 = { profiles.1 with values } ∧
      values.length = profiles.1.values.length := by
  cases call with
  | observe position costNs =>
      unfold CostProfile.answer
      rcases twins.pyObserve_cases position positive with ⟨⟨error, refused⟩, -⟩ |
        ⟨values, taken, -, length, -⟩
      · simp only [refused]
        exact ⟨_, rfl, rfl⟩
      · simp only [taken]
        exact ⟨values, rfl, length⟩
  | estimate position => exact ⟨_, rfl, rfl⟩

theorem Twins.step (twins : Twins positionCount maxBytes profiles) (positive : call.Positive) :
    Twins positionCount maxBytes ((profiles.1.answer call).2, (profiles.2.answer call).2) := by
  obtain ⟨values, nativeAfter, length⟩ := twins.native_after positive
  obtain ⟨dictionary, fallbackAfter⟩ := Twins.fallback_after profiles call
  obtain ⟨native, fallback, entries, buckets, factor⟩ := twins
  rw [nativeAfter, fallbackAfter]
  exact ⟨native, fallback, length.trans entries, by rw [length]; exact buckets, factor⟩

/-- Both sides hold the same estimate of every position. -/
def Mirrors (profiles : CostProfile.Native × Fallback.CostProfile) : Prop :=
  ∀ index < profiles.1.values.length,
    profiles.1.values[index]? = some (profiles.2.values.lookup (index : Int))

/-- With an entry for every position, admitted calls are answered alike and keep the estimates
the same. -/
theorem Twins.mirrors (twins : Twins positionCount maxBytes profiles) (positive : call.Positive)
    (whole : positionCount.toNat * ENTRY_BYTES ≤ maxBytes.toNat) (mirrors : Mirrors profiles)
    (admitted : call.Admitted positionCount maxBytes) :
    (profiles.1.answer call).1.toOption = (profiles.2.answer call).1.toOption ∧
      Mirrors ((profiles.1.answer call).2, (profiles.2.answer call).2) := by
  have entries := twins.entries
  cases call with
  | estimate position =>
      refine ⟨?_, mirrors⟩
      unfold CostProfile.answer Fallback.CostProfile.answer Fallback.CostProfile.estimate
      rcases twins.pyEstimate_cases position with ⟨⟨error, refused⟩, outside⟩ |
        ⟨value, estimated, within, entry⟩
      · rcases twins.bucket_cases position with ⟨⟨other, without⟩, -⟩ | ⟨_, _, all, _⟩
        · simp only [refused, without, bind, Except.bind]
          rfl
        · exact absurd ⟨all.1, all.2.1⟩ outside
      · rcases twins.bucket_cases position with ⟨_, not⟩ | ⟨bucket, there, -, same⟩
        · exact absurd ⟨within.1, within.2, (admitted within).1⟩ not
        · have less : position.toNat < profiles.1.values.length := by
            unfold ENTRY_BYTES at *
            omega
          have both := (entry whole).symm.trans (mirrors _ less)
          rw [Int.toNat_of_nonneg within.1] at both
          simp only [estimated, there, bind, Except.bind, Option.some.inj both, same whole]
          rfl
  | observe position costNs =>
      unfold CostProfile.answer Fallback.CostProfile.answer
      rcases twins.pyObserve_cases position positive with ⟨⟨error, refused⟩, not⟩ |
        ⟨values, taken, both, length, entry⟩
      · rcases twins.bucket_cases position with ⟨⟨other, without⟩, -⟩ | ⟨_, _, all, _⟩
        · have refusedToo : profiles.2.observe position costNs = .error other := by
            unfold Fallback.CostProfile.observe
            rw [without]
            rfl
          simp only [refused, refusedToo]
          exact ⟨rfl, mirrors⟩
        · exact absurd ⟨⟨all.1, all.2.1⟩, (admitted ⟨all.1, all.2.1⟩).2⟩ not
      · rcases twins.bucket_cases position with ⟨_, not⟩ | ⟨bucket, there, -, same⟩
        · exact absurd ⟨both.1.1, both.1.2, (admitted both.1).1⟩ not
        · obtain ⟨current, there', rfl⟩ := entry whole
          have updated : profiles.2.observe position costNs = .ok { profiles.2 with
              values := profiles.2.values.insert position
                (blended profiles.2.alpha costNs (profiles.2.values.lookup position)) } := by
            unfold Fallback.CostProfile.observe
            rw [there, same whole]
            cases heldEq : profiles.2.values.lookup position <;>
              simp only [bind, Except.bind, heldEq] <;> rfl
          simp only [taken, updated]
          refine ⟨trivial, fun index less => ?_⟩
          dsimp only at less ⊢
          rw [List.length_set] at less
          rw [lookup_insert_if, List.getElem?_set]
          by_cases here : (index : Int) = position
          · have own : position.toNat = index := by omega
            rw [if_pos here, if_pos own, own, if_pos less]
            rw [own] at there'
            have held := there'.symm.trans (mirrors index less)
            rw [here] at held
            rw [Option.some.inj held]
          · have other : ¬position.toNat = index := by omega
            rw [if_neg here, if_neg other]
            exact mirrors index less

end Answers

/-! ### Runs -/

/-- Made of the same arguments, two profiles are twins, and hold no estimate. -/
theorem twins_new {positionCount maxBytes : UInt64} {alpha : ℚ} {native : CostProfile.Native}
    {fallback : Fallback.CostProfile}
    (nativeMade : CostProfile.new rationalCosts positionCount maxBytes (some alpha) = .ok native)
    (fallbackMade : Fallback.CostProfile.new positionCount.toNat maxBytes.toNat alpha =
      .ok fallback) :
    Twins positionCount maxBytes (native, fallback) ∧ Mirrors (native, fallback) := by
  obtain ⟨-, -, rfl⟩ := CostProfile.new_ok_iff.mp nativeMade
  unfold Fallback.CostProfile.new at fallbackMade
  rw [if_error_ok_iff, if_error_ok_iff] at fallbackMade
  obtain ⟨-, -, made⟩ := fallbackMade
  obtain rfl := Except.ok.inj made
  refine ⟨⟨rfl, rfl, List.length_replicate, ?_, rfl⟩, fun index less => ?_⟩
  · dsimp only
    rw [List.length_replicate]
    unfold ENTRY_BYTES
    omega
  · dsimp only at less ⊢
    rw [List.length_replicate] at less
    rw [List.getElem?_replicate, if_pos less]
    rfl

/-- A run agrees exactly where all its calls are admitted, and mirrored profiles then answer
alike. -/
theorem Twins.run {positionCount maxBytes : UInt64} {calls : List Call}
    (positive : ∀ call ∈ calls, call.Positive)
    {profiles : CostProfile.Native × Fallback.CostProfile}
    (twins : Twins positionCount maxBytes profiles) :
    ∃ trace final, sideBySide.run profiles calls = some (trace, final) ∧
      ((∀ entry ∈ trace, Agreed positionCount entry.1 entry.2) ↔
        ∀ call ∈ calls, call.Admitted positionCount maxBytes) ∧
      (positionCount.toNat * ENTRY_BYTES ≤ maxBytes.toNat → Mirrors profiles →
        (∀ call ∈ calls, call.Admitted positionCount maxBytes) →
        ∀ entry ∈ trace, entry.2.1.toOption = entry.2.2.toOption) := by
  induction calls generalizing profiles with
  | nil => exact ⟨[], profiles, rfl, iff_of_true nofun nofun, nofun⟩
  | cons call calls ih =>
      obtain ⟨first, rest⟩ := List.forall_mem_cons.mp positive
      obtain ⟨trace, final, reached, agreed, alike⟩ := ih rest (twins.step first)
      refine ⟨_, final, sideBySide.run_cons_eq_some.mpr ⟨_, _, trace, rfl, reached, rfl⟩, ?_, ?_⟩
      · rw [List.forall_mem_cons, List.forall_mem_cons, agreed]
        exact and_congr (twins.agreed_iff first) Iff.rfl
      · intro whole mirrors admitted
        obtain ⟨here, later⟩ := List.forall_mem_cons.mp admitted
        obtain ⟨same, mirrored⟩ := twins.mirrors first whole mirrors here
        exact List.forall_mem_cons.mpr ⟨same, alike whole mirrored later⟩

/-- Profiles of the same arguments are interchangeable exactly where every call is admitted: a
position of the domain needs an entry in the budget, and an observed cost is a `u64`. -/
theorem profiles_interchangeable_iff {positionCount maxBytes : UInt64} {alpha : ℚ}
    {native : CostProfile.Native} {fallback : Fallback.CostProfile}
    (nativeMade : CostProfile.new rationalCosts positionCount maxBytes (some alpha) = .ok native)
    (fallbackMade : Fallback.CostProfile.new positionCount.toNat maxBytes.toNat alpha =
      .ok fallback) {calls : List Call} (positive : ∀ call ∈ calls, call.Positive) :
    ∃ trace final, sideBySide.run (native, fallback) calls = some (trace, final) ∧
      (Interchangeable positionCount maxBytes trace ↔
        ∀ call ∈ calls, call.Admitted positionCount maxBytes) := by
  obtain ⟨twins, mirrors⟩ := twins_new nativeMade fallbackMade
  obtain ⟨trace, final, reached, agreed, alike⟩ := twins.run positive
  refine ⟨trace, final, reached, fun both => agreed.mp both.1, fun admitted => ?_⟩
  exact ⟨agreed.mpr admitted, fun whole => alike whole mirrors admitted⟩

/-- Two positions under a budget of two entries: every call is admitted. -/
theorem profiles_interchangeable_iff_two :
    ∃ native fallback trace final,
      CostProfile.new rationalCosts 2 16 (some (1 / 2)) = .ok native ∧
      Fallback.CostProfile.new (2 : UInt64).toNat (16 : UInt64).toNat (1 / 2) = .ok fallback ∧
      sideBySide.run (native, fallback) [.observe 1 100, .observe 1 200, .estimate 1] =
        some (trace, final) ∧
      (Interchangeable 2 16 trace ↔
        ∀ call ∈ [Call.observe 1 100, .observe 1 200, .estimate 1], call.Admitted 2 16) := by
  have nativeMade : CostProfile.new rationalCosts 2 16 (some (1 / 2)) =
      .ok ⟨2, some (1 / 2), [none, none]⟩ := by decide +kernel
  have fallbackMade : Fallback.CostProfile.new (2 : UInt64).toNat (16 : UInt64).toNat (1 / 2) =
      .ok ⟨2, 1 / 2, 2, false, ∅⟩ := by
    unfold Fallback.CostProfile.new
    rw [if_neg (by decide), if_neg (by decide +kernel)]
    rfl
  have positive : ∀ call ∈ [Call.observe 1 100, .observe 1 200, .estimate 1], call.Positive := by
    decide
  obtain ⟨trace, final, reached, interchangeable⟩ :=
    profiles_interchangeable_iff nativeMade fallbackMade positive
  exact ⟨_, _, trace, final, nativeMade, fallbackMade, reached, interchangeable⟩

/-- A budget of no entry: the native side takes a dispatch estimate, the pure-Python side raises. -/
theorem profiles_differ_without_entry :
    ¬∀ (positionCount maxBytes : UInt64) (alpha : ℚ) (native : CostProfile.Native)
      (fallback : Fallback.CostProfile) (calls : List Call) (trace final),
      CostProfile.new rationalCosts positionCount maxBytes (some alpha) = .ok native →
      Fallback.CostProfile.new positionCount.toNat maxBytes.toNat alpha = .ok fallback →
      (∀ call ∈ calls, call.Positive) →
      sideBySide.run (native, fallback) calls = some (trace, final) →
      Interchangeable positionCount maxBytes trace := by
  intro interchangeable
  have fallbackMade : Fallback.CostProfile.new (4 : UInt64).toNat (7 : UInt64).toNat (1 / 2) =
      .ok ⟨4, 1 / 2, 0, true, ∅⟩ := by
    unfold Fallback.CostProfile.new
    rw [if_neg (by decide), if_neg (by decide +kernel)]
    rfl
  have agreed := (interchangeable 4 7 (1 / 2) ⟨4, some (1 / 2), []⟩ ⟨4, 1 / 2, 0, true, ∅⟩
    [.estimate 0] _ _ (by decide +kernel) fallbackMade (by decide) rfl).1
  exact absurd (agreed _ List.mem_cons_self).1 (by decide +kernel)

end Hyperloader.Profile
