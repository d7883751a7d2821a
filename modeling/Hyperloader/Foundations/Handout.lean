/-
Module: Hyperloader.Foundations.Handout
Purpose: Machines that hand out the items of a finite set, each of them once: what
  every run has handed out, and that a run can always be continued to the end.
Trusted boundary: none
Main exports: handed, Handout, Moved, Handout.of_moves, Handout.run, Handout.completes
-/
import Mathlib.Data.Finset.Basic
import Hyperloader.Foundations.Transition

namespace Hyperloader.Foundations

variable {State Label Event Item : Type*}

/-- The items handed out along a trace, in order. -/
def handed (item : Event → Option Item) (trace : List (Label × Event)) : List Item :=
  trace.filterMap fun entry => item entry.2

theorem handed_append (item : Event → Option Item) (one two : List (Label × Event)) :
    handed item (one ++ two) = handed item one ++ handed item two :=
  List.filterMap_append

variable [DecidableEq Item]

/-- The rules of a machine that hands out each item of `all` once.  In every state of
the invariant some step ends the run or brings it nearer to its end. -/
structure Handout (machine : Machine State Label Event) (item : Event → Option Item)
    (failed finished : Event → Prop) (all : Finset Item) (invariant : State → Prop)
    (given : State → Finset Item) (measure : State → Nat) : Prop where
  keeps : ∀ state label event next, invariant state →
    machine.step state label = some (event, next) → invariant next
  sound : ∀ state label event next, invariant state →
    machine.step state label = some (event, next) → ¬ failed event
  within : ∀ state, invariant state → given state ⊆ all
  hands : ∀ state label event next value, invariant state →
    machine.step state label = some (event, next) → item event = some value →
    value ∉ given state ∧ given next = insert value (given state)
  still : ∀ state label event next, invariant state →
    machine.step state label = some (event, next) → item event = none →
    given next = given state
  ends : ∀ state label event next, invariant state →
    machine.step state label = some (event, next) → finished event → given state = all
  nearer : ∀ state, invariant state → ∃ label event next,
    machine.step state label = some (event, next) ∧
      (finished event ∨ measure next < measure state)

/-- What one step from a state does: it hands out one item more, or none. -/
structure Moved (item : Event → Option Item) (failed finished : Event → Prop)
    (all : Finset Item) (invariant : State → Prop) (given : State → Finset Item)
    (state : State) (event : Event) (next : State) : Prop where
  kept : invariant next
  sound : ¬ failed event
  outcome : (item event = none ∧ given next = given state) ∨
    ∃ value, item event = some value ∧ value ∉ given state ∧
      given next = insert value (given state)
  ended : finished event → given state = all

namespace Handout

variable {machine : Machine State Label Event} {item : Event → Option Item}
  {failed finished : Event → Prop} {all : Finset Item} {invariant : State → Prop}
  {given : State → Finset Item} {measure : State → Nat}
  (handout : Handout machine item failed finished all invariant given measure)

/-- The rules follow from what each single step does. -/
theorem of_moves (within : ∀ state, invariant state → given state ⊆ all)
    (moves : ∀ state label event next, invariant state →
      machine.step state label = some (event, next) →
      Moved item failed finished all invariant given state event next)
    (nearer : ∀ state, invariant state → ∃ label event next,
      machine.step state label = some (event, next) ∧
        (finished event ∨ measure next < measure state)) :
    Handout machine item failed finished all invariant given measure where
  keeps state label event next holds stepEq := (moves state label event next holds stepEq).kept
  sound state label event next holds stepEq := (moves state label event next holds stepEq).sound
  within := within
  hands state label event next value holds stepEq out := by
    rcases (moves state label event next holds stepEq).outcome with
      ⟨none, -⟩ | ⟨other, some, fresh, grown⟩
    · rw [none] at out
      cases out
    · obtain rfl := Option.some.inj (some.symm.trans out)
      exact ⟨fresh, grown⟩
  still state label event next holds stepEq out := by
    rcases (moves state label event next holds stepEq).outcome with
      ⟨-, same⟩ | ⟨other, some, -⟩
    · exact same
    · rw [out] at some
      cases some
  ends state label event next holds stepEq := (moves state label event next holds stepEq).ended
  nearer := nearer

/-- What a run has handed out: nothing twice, nothing given before, and nothing failed. -/
structure Outcome (failed finished : Event → Prop) (item : Event → Option Item)
    (all before after : Finset Item) (trace : List (Label × Event)) : Prop where
  sound : ∀ entry ∈ trace, ¬ failed entry.2
  once : (handed item trace).Nodup
  fresh : ∀ value ∈ handed item trace, value ∉ before
  total : after = before ∪ (handed item trace).toFinset
  ended : (∃ entry ∈ trace, finished entry.2) → after = all

include handout

/-- A given set never shrinks and never passes `all`. -/
theorem given_mono {state next : State} {label : Label} {event : Event} (holds : invariant state)
    (stepEq : machine.step state label = some (event, next)) : given state ⊆ given next := by
  cases out : item event with
  | none => rw [handout.still state label event next holds stepEq out]
  | some value =>
      rw [(handout.hands state label event next value holds stepEq out).2]
      exact Finset.subset_insert value (given state)

theorem extend {first state next : State} {label : Label} {event : Event}
    {trace : List (Label × Event)} (holds : invariant state)
    (sofar : Outcome failed finished item all (given first) (given state) trace)
    (stepEq : machine.step state label = some (event, next)) :
    Outcome failed finished item all (given first) (given next)
      (trace ++ [(label, event)]) := by
  have good := handout.sound state label event next holds stepEq
  have sound : ∀ entry ∈ trace ++ [(label, event)], ¬ failed entry.2 := by
    intro entry member
    rcases List.mem_append.mp member with old | new
    · exact sofar.sound entry old
    · obtain rfl := List.mem_singleton.mp new
      exact good
  have ended : (∃ entry ∈ trace ++ [(label, event)], finished entry.2) →
      given next = all := by
    rintro ⟨entry, member, spent⟩
    have before : given state = all := by
      rcases List.mem_append.mp member with old | new
      · exact sofar.ended ⟨entry, old, spent⟩
      · obtain rfl := List.mem_singleton.mp new
        exact handout.ends state label event next holds stepEq spent
    have kept := handout.keeps state label event next holds stepEq
    exact Finset.Subset.antisymm (handout.within next kept)
      (before ▸ handout.given_mono holds stepEq)
  cases out : item event with
  | none =>
      have quiet : handed item (trace ++ [(label, event)]) = handed item trace := by
        rw [handed_append]
        simp [handed, out]
      rw [handout.still state label event next holds stepEq out] at ended ⊢
      exact
        { sound := sound
          once := quiet ▸ sofar.once
          fresh := quiet ▸ sofar.fresh
          total := quiet ▸ sofar.total
          ended := ended }
  | some value =>
      have more : handed item (trace ++ [(label, event)]) = handed item trace ++ [value] := by
        rw [handed_append]
        simp [handed, out]
      obtain ⟨fresh, grown⟩ := handout.hands state label event next value holds stepEq out
      rw [sofar.total, Finset.mem_union, List.mem_toFinset, not_or] at fresh
      refine ⟨sound, ?_, ?_, ?_, ended⟩
      · rw [more, List.nodup_append]
        refine ⟨sofar.once, List.nodup_singleton value, ?_⟩
        intro one member two single same
        rw [List.mem_singleton] at single
        exact fresh.2 (single ▸ same ▸ member)
      · intro other member
        rw [more, List.mem_append, List.mem_singleton] at member
        rcases member with old | rfl
        · exact sofar.fresh other old
        · exact fresh.1
      · rw [grown, more, sofar.total]
        ext other
        simp only [Finset.mem_insert, Finset.mem_union, List.mem_toFinset, List.mem_append,
          List.mem_singleton]
        constructor
        · rintro (rfl | before | old)
          · exact Or.inr (Or.inr rfl)
          · exact Or.inl before
          · exact Or.inr (Or.inl old)
        · rintro (before | old | rfl)
          · exact Or.inr (Or.inl before)
          · exact Or.inr (Or.inr old)
          · exact Or.inl rfl

/-- Every run hands out each item at most once, and all of them by its end. -/
theorem run {state final : State} {labels : List Label} {trace : List (Label × Event)}
    (start : invariant state) (reached : machine.run state labels = some (trace, final)) :
    invariant final ∧
      Outcome failed finished item all (given state) (given final) trace := by
  have step : ∀ trace here label event next,
      (invariant here ∧ Outcome failed finished item all (given state) (given here) trace) →
      True → machine.step here label = some (event, next) →
      invariant next ∧ Outcome failed finished item all (given state) (given next)
        (trace ++ [(label, event)]) := by
    intro trace here label event next both _ stepEq
    exact ⟨handout.keeps here label event next both.1 stepEq,
      handout.extend both.1 both.2 stepEq⟩
  have initially : Outcome failed finished item all (given state) (given state)
      ([] : List (Label × Event)) :=
    { sound := fun entry member => absurd member List.not_mem_nil
      once := List.nodup_nil
      fresh := fun value member => absurd member List.not_mem_nil
      total := by simp [handed]
      ended := fun spent => absurd spent (by simp) }
  exact machine.run_induction (motive := fun trace here =>
      invariant here ∧ Outcome failed finished item all (given state) (given here) trace)
    step [] ⟨start, initially⟩ (machine.along_true state labels) reached

/-- Every state of the invariant has a run that ends. -/
theorem completes {state : State} (start : invariant state) :
    ∃ labels trace final, machine.run state labels = some (trace, final) ∧
      ∃ entry ∈ trace, finished entry.2 :=
  machine.exists_run_finished measure handout.keeps handout.nearer start

end Handout

end Hyperloader.Foundations
