/-
Module: Hyperloader.Foundations.CycleWalk
Purpose: Cycle walking: apply a permutation of a finite set until the value is
  back in a part of it.  The walk ends within the size of the set, and it
  permutes the part.
Trusted boundary: none
Main exports: cycleWalk, cycleWalk_eq_some_iff, cycleWalk_isSome, cycleWalk_inj
-/
import Mathlib.Data.Finset.Card
import Mathlib.Data.Finset.Range
import Mathlib.Data.Nat.Find
import Mathlib.Logic.Function.Iterate
import Mathlib.Data.Set.Function

namespace Hyperloader.Foundations

variable {Value : Type*} (step : Value → Value) (inside : Value → Bool)

/-- Apply `step` until the value is inside, for at most the passes given. -/
def cycleWalk : Nat → Value → Option Value
  | 0, _ => none
  | passes + 1, value =>
      let next := step value
      if inside next then some next else cycleWalk passes next

variable {step inside}

/-- The walk stops at the first iterate inside. -/
theorem cycleWalk_eq_some_iff {passes : Nat} {value result : Value} :
    cycleWalk step inside passes value = some result ↔
      ∃ count < passes, step^[count + 1] value = result ∧ inside result = true ∧
        ∀ earlier < count, inside (step^[earlier + 1] value) = false := by
  induction passes generalizing value with
  | zero => simp [cycleWalk]
  | succ passes ih =>
      rw [cycleWalk]
      by_cases here : inside (step value) = true
      · rw [if_pos here]
        constructor
        · intro same
          cases same
          exact ⟨0, Nat.succ_pos _, rfl, here, fun _ impossible => absurd impossible (Nat.not_lt_zero _)⟩
        · rintro ⟨count, _, reached, _, before⟩
          cases count with
          | zero => exact congrArg some reached
          | succ count =>
              have outside := before 0 (Nat.succ_pos _)
              rw [Function.iterate_one, here] at outside
              cases outside
      · rw [if_neg here, ih]
        have outside : inside (step value) = false := by simpa using here
        constructor
        · rintro ⟨count, below, reached, stopped, before⟩
          refine ⟨count + 1, Nat.succ_lt_succ below, reached, stopped, ?_⟩
          intro earlier less
          cases earlier with
          | zero => exact outside
          | succ earlier => exact before earlier (Nat.lt_of_succ_lt_succ less)
        · rintro ⟨count, below, reached, stopped, before⟩
          cases count with
          | zero =>
              rw [← reached, Function.iterate_one, outside] at stopped
              cases stopped
          | succ count =>
              refine ⟨count, Nat.lt_of_succ_lt_succ below, reached, stopped, ?_⟩
              intro earlier less
              exact before (earlier + 1) (Nat.succ_lt_succ less)

/-- More passes change nothing once the walk has ended. -/
theorem cycleWalk_mono {passes more : Nat} {value result : Value} (le : passes ≤ more)
    (ended : cycleWalk step inside passes value = some result) :
    cycleWalk step inside more value = some result := by
  obtain ⟨count, below, rest⟩ := cycleWalk_eq_some_iff.mp ended
  exact cycleWalk_eq_some_iff.mpr ⟨count, Nat.lt_of_lt_of_le below le, rest⟩

/-- A walk seen through a map that commutes with the step on an invariant part. -/
theorem cycleWalk_map {Image : Type*} {imageStep : Image → Image} {imageInside : Image → Bool}
    {view : Value → Image} {reached : Value → Prop}
    (kept : ∀ value, reached value → reached (step value))
    (steps : ∀ value, reached value → view (step value) = imageStep (view value))
    (stops : ∀ value, reached value → inside value = imageInside (view value))
    (passes : Nat) {value : Value} (start : reached value) :
    (cycleWalk step inside passes value).map view =
      cycleWalk imageStep imageInside passes (view value) := by
  induction passes generalizing value with
  | zero => rfl
  | succ passes ih =>
      have next := kept value start
      have agree : inside (step value) = imageInside (imageStep (view value)) := by
        rw [stops _ next, steps _ start]
      rw [cycleWalk, cycleWalk, ← agree]
      cases inside (step value) with
      | true => exact congrArg some (steps value start)
      | false =>
          rw [← steps value start]
          exact ih next

section Permuted

variable {whole : Finset Value} (maps : ∀ value ∈ whole, step value ∈ whole)
  (injective : Set.InjOn step whole)

include maps

theorem iterate_mem {value : Value} (member : value ∈ whole) (count : Nat) :
    step^[count] value ∈ whole := by
  induction count generalizing value with
  | zero => exact member
  | succ count ih => exact ih (maps value member)

include injective

/-- Iterates of an injection cancel. -/
theorem iterate_cancel {one two : Value} (oneMember : one ∈ whole) (twoMember : two ∈ whole)
    (count : Nat) (same : step^[count] one = step^[count] two) : one = two := by
  induction count generalizing one two with
  | zero => exact same
  | succ count ih =>
      exact injective oneMember twoMember
        (ih (maps one oneMember) (maps two twoMember) same)

/-- Every value of the set comes back to itself within the size of the set. -/
theorem exists_iterate_eq_self {value : Value} (member : value ∈ whole) :
    ∃ count, 0 < count ∧ count ≤ whole.card ∧ step^[count] value = value := by
  have crowded : whole.card < (Finset.range (whole.card + 1)).card := by
    rw [Finset.card_range]
    exact Nat.lt_succ_self _
  obtain ⟨one, oneRange, two, twoRange, different, same⟩ :=
    Finset.exists_ne_map_eq_of_card_lt_of_maps_to crowded
      (f := fun count => step^[count] value)
      fun count _ => iterate_mem maps member count
  rw [Finset.mem_range] at oneRange twoRange
  wlog less : one < two generalizing one two
  · exact this two twoRange one oneRange different.symm same.symm
      (Nat.lt_of_le_of_ne (Nat.le_of_not_lt less) different.symm)
  refine ⟨two - one, Nat.sub_pos_of_lt less, ?_, ?_⟩
  · omega
  · have split : one + (two - one) = two := by omega
    apply iterate_cancel maps injective (iterate_mem maps member _) member one
    rw [← Function.iterate_add_apply, split]
    exact same.symm

/-- The walk from a value inside ends within the size of the set: at the latest it
meets the value itself. -/
theorem cycleWalk_isSome {value : Value} (member : value ∈ whole) (start : inside value = true) :
    ∃ result, cycleWalk step inside whole.card value = some result := by
  obtain ⟨period, positive, bounded, back⟩ :=
    exists_iterate_eq_self maps injective member
  obtain ⟨last, rfl⟩ := Nat.exists_eq_succ_of_ne_zero (Nat.ne_of_gt positive)
  have stops : ∃ count, inside (step^[count + 1] value) = true :=
    ⟨last, by rw [← Nat.succ_eq_add_one, back]; exact start⟩
  refine ⟨_, cycleWalk_eq_some_iff.mpr ⟨Nat.find stops, ?_, rfl, Nat.find_spec stops, ?_⟩⟩
  · have least : Nat.find stops ≤ last :=
      Nat.find_min' stops (by rw [← Nat.succ_eq_add_one, back]; exact start)
    omega
  · intro earlier less
    simpa using Nat.find_min stops less

/-- Walks from two values inside end apart. -/
theorem cycleWalk_inj {one two result : Value} {onePasses twoPasses : Nat} (oneMember : one ∈ whole)
    (twoMember : two ∈ whole) (oneStart : inside one = true) (twoStart : inside two = true)
    (oneEnd : cycleWalk step inside onePasses one = some result)
    (twoEnd : cycleWalk step inside twoPasses two = some result) : one = two := by
  obtain ⟨oneCount, oneBelow, oneReached, _, oneBefore⟩ := cycleWalk_eq_some_iff.mp oneEnd
  obtain ⟨twoCount, twoBelow, twoReached, _, twoBefore⟩ := cycleWalk_eq_some_iff.mp twoEnd
  clear oneEnd twoEnd oneBelow twoBelow
  wlog le : oneCount ≤ twoCount generalizing one two oneCount twoCount
  · exact (this twoMember oneMember twoStart oneStart twoCount twoReached
      twoBefore oneCount oneReached oneBefore (Nat.le_of_not_le le)).symm
  -- the later walk passes through the start of the earlier one, which is inside
  have through : one = step^[twoCount - oneCount] two := by
    apply iterate_cancel maps injective oneMember (iterate_mem maps twoMember _) (oneCount + 1)
    have split : oneCount + 1 + (twoCount - oneCount) = twoCount + 1 := by omega
    rw [← Function.iterate_add_apply, split, oneReached, twoReached]
  cases gap : twoCount - oneCount with
  | zero =>
      rw [gap] at through
      exact through
  | succ distance =>
      rw [gap] at through
      have outside := twoBefore distance (by omega)
      rw [← through, oneStart] at outside
      cases outside

end Permuted

end Hyperloader.Foundations
