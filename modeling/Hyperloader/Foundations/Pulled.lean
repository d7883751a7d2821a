/-
Module: Hyperloader.Foundations.Pulled
Purpose: Objects that hand out one value for every input until they are exhausted: what a list of
  inputs draws from one, when two draw the same, and when one stands at a position of a
  sequence of values.
Trusted boundary: none
Main exports: drain, Same, sequence, Stands, stands_drain, drain_of_stands
-/
import Mathlib.Data.List.Basic

namespace Hyperloader.Foundations.Pulled

variable {Input Value Object : Type*} (pull : Input → Object → Option Value × Object)

/-- Draw a value for every input, as long as there is one: the values, whether the object was
exhausted, and the object afterwards. -/
def drain : List Input → Object → List Value × Bool × Object
  | [], object => ([], false, object)
  | input :: inputs, object =>
      match pull input object with
      | (none, object) => ([], true, object)
      | (some value, object) =>
          let (values, exhausted, object) := drain inputs object
          (value :: values, exhausted, object)

/-- No inputs tell two objects apart by the values they draw. -/
def Same (first second : Object) : Prop :=
  ∀ inputs, (drain pull inputs first).1 = (drain pull inputs second).1

variable {pull}

variable {inputs : List Input}

theorem drain_cons_none {input : Input} {object after : Object}
    (pulled : pull input object = (none, after)) :
    drain pull (input :: inputs) object = ([], true, after) := by
  rw [drain, pulled]

theorem drain_cons_some {input : Input} {object after : Object} {value : Value}
    (pulled : pull input object = (some value, after)) :
    drain pull (input :: inputs) object =
      (value :: (drain pull inputs after).1, (drain pull inputs after).2.1,
        (drain pull inputs after).2.2) := by
  rw [drain, pulled]

theorem length_drain_le (inputs : List Input) (object : Object) :
    (drain pull inputs object).1.length ≤ inputs.length := by
  induction inputs generalizing object with
  | nil => exact Nat.le_refl 0
  | cons input inputs ih =>
      cases pulled : pull input object with
      | mk drawn after =>
          cases drawn with
          | none =>
              rw [drain_cons_none pulled]
              exact Nat.zero_le _
          | some value =>
              rw [drain_cons_some pulled]
              exact Nat.succ_le_succ (ih after)

/-- An object is exhausted exactly when it fell short of the inputs. -/
theorem exhausted_iff (inputs : List Input) (object : Object) :
    (drain pull inputs object).2.1 = true ↔
      (drain pull inputs object).1.length < inputs.length := by
  induction inputs generalizing object with
  | nil => exact iff_of_false Bool.false_ne_true (Nat.not_lt_zero _)
  | cons input inputs ih =>
      cases pulled : pull input object with
      | mk drawn after =>
          cases drawn with
          | none =>
              rw [drain_cons_none pulled]
              exact iff_of_true rfl (Nat.zero_lt_succ _)
          | some value =>
              rw [drain_cons_some pulled]
              exact (ih after).trans Nat.succ_lt_succ_iff.symm

variable {object : Object}

theorem length_of_not_exhausted (lasts : (drain pull inputs object).2.1 = false) :
    (drain pull inputs object).1.length = inputs.length := by
  apply Nat.le_antisymm (length_drain_le inputs object)
  apply Nat.le_of_not_lt
  rw [← exhausted_iff, lasts]
  exact Bool.false_ne_true

theorem drain_append (first second : List Input) (object : Object)
    (lasts : (drain pull first object).2.1 = false) :
    drain pull (first ++ second) object =
      ((drain pull first object).1 ++ (drain pull second (drain pull first object).2.2).1,
        (drain pull second (drain pull first object).2.2).2) := by
  induction first generalizing object with
  | nil => rfl
  | cons input inputs ih =>
      cases pulled : pull input object with
      | mk drawn after =>
          cases drawn with
          | none =>
              rw [drain_cons_none pulled] at lasts
              exact nomatch lasts
          | some value =>
              rw [drain_cons_some pulled] at lasts
              rw [List.cons_append, drain_cons_some pulled, drain_cons_some pulled,
                ih after lasts]
              rfl

theorem drain_append_of_exhausted (first second : List Input) (object : Object)
    (exhausted : (drain pull first object).2.1 = true) :
    drain pull (first ++ second) object = drain pull first object := by
  induction first generalizing object with
  | nil => exact nomatch exhausted
  | cons input inputs ih =>
      cases pulled : pull input object with
      | mk drawn after =>
          cases drawn with
          | none => rw [List.cons_append, drain_cons_none pulled, drain_cons_none pulled]
          | some value =>
              rw [drain_cons_some pulled] at exhausted
              rw [List.cons_append, drain_cons_some pulled, drain_cons_some pulled,
                ih after exhausted]

/-! ### Positions in a sequence -/

variable (pull) (input : Nat → Input)

/-- The values drawn at the positions from `start` on. -/
def values (start count : Nat) (object : Object) : List Value :=
  (drain pull ((List.range' start count).map input) object).1

/-- The first values an object draws from position zero. -/
def sequence (object : Object) (count : Nat) : List Value := values pull input 0 count object

/-- An object that draws, from `position` on, what is left of a sequence. -/
structure Stands (whole : Nat → List Value) (position : Nat) (object : Object) : Prop where
  reached : (whole position).length = position
  continues : ∀ count,
    whole (position + count) = whole position ++ values pull input position count object

variable {pull input}

theorem stands_start (object : Object) : Stands pull input (sequence pull input object) 0 object :=
  ⟨rfl, fun count => by rw [Nat.zero_add]; rfl⟩

/-- As many values as an object hands out, it hands out to no more inputs. -/
theorem length_values (start count : Nat) (object : Object) :
    (values pull input start (values pull input start count object).length object).length =
      (values pull input start count object).length := by
  generalize drawn : (values pull input start count object).length = length
  have within : length ≤ count := by
    have bound : (drain pull ((List.range' start count).map input) object).1.length ≤
        ((List.range' start count).map input).length := length_drain_le _ _
    rw [List.length_map, List.length_range'] at bound
    exact drawn ▸ bound
  have split : (List.range' start count).map input =
      (List.range' start length).map input ++
        (List.range' (start + length) (count - length)).map input := by
    rw [← List.map_append, List.range'_append_1, Nat.add_sub_cancel' within]
  cases lasts : (drain pull ((List.range' start length).map input) object).2.1 with
  | false =>
      have full := length_of_not_exhausted lasts
      rwa [List.length_map, List.length_range'] at full
  | true =>
      rw [values, split, drain_append_of_exhausted _ _ _ lasts] at drawn
      exact drawn

variable {whole : Nat → List Value}

variable {position : Nat}

theorem Stands.congr {first second : Object} (stands : Stands pull input whole position first)
    (same : Same pull second first) : Stands pull input whole position second :=
  ⟨stands.reached, fun count => by rw [stands.continues count, values, values, same]⟩

section

variable (stands : Stands pull input whole position object)

include stands

theorem drain_of_stands (count : Nat) :
    values pull input position count object = (whole (position + count)).drop position := by
  rw [stands.continues count, List.drop_left' stands.reached]

/-- What an object that is not exhausted leaves stands behind the values it drew. -/
theorem stands_drain {count : Nat}
    (lasts : (drain pull ((List.range' position count).map input) object).2.1 = false) :
    Stands pull input whole (position + count)
      (drain pull ((List.range' position count).map input) object).2.2 := by
  have full := length_of_not_exhausted lasts
  rw [List.length_map, List.length_range'] at full
  constructor
  · rw [stands.continues count, List.length_append, stands.reached]
    exact congrArg (position + ·) full
  · intro more
    have split : (List.range' position (count + more)).map input =
        (List.range' position count).map input ++
          (List.range' (position + count) more).map input := by
      rw [← List.map_append, List.range'_append_1]
    rw [Nat.add_assoc, stands.continues (count + more), stands.continues count, values, split,
      drain_append _ _ _ lasts, List.append_assoc]
    rfl

/-- An object drawn up to a position the sequence reaches is not exhausted. -/
theorem lasts_of_reached {count : Nat}
    (reached : (whole (position + count)).length = position + count) :
    (drain pull ((List.range' position count).map input) object).2.1 = false := by
  have drawn := congrArg List.length (drain_of_stands stands count)
  rw [List.length_drop, reached, Nat.add_sub_cancel_left] at drawn
  rw [← Bool.not_eq_true, exhausted_iff, List.length_map, List.length_range']
  exact Nat.not_lt_of_ge (Nat.le_of_eq drawn.symm)

end

end Hyperloader.Foundations.Pulled
