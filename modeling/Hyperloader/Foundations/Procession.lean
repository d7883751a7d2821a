/-
Module: Hyperloader.Foundations.Procession
Purpose: Machines that hand out the items of a list one after the other: what every run
  has handed out, that a run can always be continued to the end, and that two machines
  with these rules agree exactly if their lists do.
Trusted boundary: none
Main exports: Procession, Procession.run, Delivers, Procession.delivers, Delivers.unique,
  Delivers.map
-/
import Hyperloader.Foundations.Handout

namespace Hyperloader.Foundations

variable {State Label Event Item : Type*}

/-- What one step from a state does: it hands out the next item of the list, or none. -/
structure Advanced (item : Event → Option Item) (failed finished : Event → Prop)
    (items : List Item) (invariant : State → Prop) (given : State → Nat)
    (state : State) (event : Event) (next : State) : Prop where
  kept : invariant next
  sound : ¬ failed event
  outcome : (item event = none ∧ given next = given state) ∨
    ∃ value, item event = some value ∧ items[given state]? = some value ∧
      given next = given state + 1
  ended : finished event → given state = items.length

/-- The rules of a machine that hands out `items` in order.  In every state of the
invariant some step ends the run or brings it nearer to its end. -/
structure Procession (machine : Machine State Label Event) (item : Event → Option Item)
    (failed finished : Event → Prop) (items : List Item) (invariant : State → Prop)
    (given : State → Nat) (measure : State → Nat) : Prop where
  within : ∀ state, invariant state → given state ≤ items.length
  moves : ∀ state label event next, invariant state →
    machine.step state label = some (event, next) →
    Advanced item failed finished items invariant given state event next
  nearer : ∀ state, invariant state → ∃ label event next,
    machine.step state label = some (event, next) ∧
      (finished event ∨ measure next < measure state)

/-- A run hands out a part of `items` from their beginning, fails nowhere, and has handed
out all of them when it ends; and some run ends. -/
structure Delivers (machine : Machine State Label Event) (item : Event → Option Item)
    (failed finished : Event → Prop) (state : State) (items : List Item) : Prop where
  runs : ∀ labels trace final, machine.run state labels = some (trace, final) →
    handed item trace <+: items ∧ (∀ entry ∈ trace, ¬ failed entry.2) ∧
      ((∃ entry ∈ trace, finished entry.2) → handed item trace = items)
  completes : ∃ labels trace final, machine.run state labels = some (trace, final) ∧
    ∃ entry ∈ trace, finished entry.2

section Rules

variable {machine : Machine State Label Event} {item : Event → Option Item}
  {failed finished : Event → Prop} {items : List Item}

namespace Procession

variable {invariant : State → Prop} {given : State → Nat} {measure : State → Nat}
  (procession : Procession machine item failed finished items invariant given measure)

include procession

/-- The count of the items handed out goes with the items themselves. -/
theorem run {state final : State} {labels : List Label} {trace : List (Label × Event)}
    (start : invariant state) (reached : machine.run state labels = some (trace, final)) :
    invariant final ∧
      items.take (given state) ++ handed item trace = items.take (given final) ∧
      (∀ entry ∈ trace, ¬ failed entry.2) ∧
      ((∃ entry ∈ trace, finished entry.2) → given final = items.length) := by
  refine machine.run_induction (motive := fun trace here =>
    invariant here ∧ items.take (given state) ++ handed item trace = items.take (given here) ∧
      (∀ entry ∈ trace, ¬ failed entry.2) ∧
      ((∃ entry ∈ trace, finished entry.2) → given here = items.length))
    ?_ [] ⟨start, ?_, ?_, ?_⟩ (machine.along_true state labels) reached
  · rintro trace here label event next ⟨holds, sofar, sound, ended⟩ _ stepEq
    have advanced := procession.moves here label event next holds stepEq
    have bound := procession.within next advanced.kept
    refine ⟨advanced.kept, ?_, ?_, ?_⟩
    · rw [handed_append, ← List.append_assoc, sofar]
      rcases advanced.outcome with ⟨quiet, same⟩ | ⟨value, out, found, more⟩
      · rw [same]
        simp [handed, quiet]
      · obtain ⟨inside, rfl⟩ := List.getElem?_eq_some_iff.mp found
        rw [more, List.take_succ_eq_append_getElem inside]
        simp [handed, out]
    · intro entry member
      rcases List.mem_append.mp member with old | new
      · exact sound entry old
      · obtain rfl := List.mem_singleton.mp new
        exact advanced.sound
    · rintro ⟨entry, member, spent⟩
      have before : given here = items.length := by
        rcases List.mem_append.mp member with old | new
        · exact ended ⟨entry, old, spent⟩
        · obtain rfl := List.mem_singleton.mp new
          exact advanced.ended spent
      rcases advanced.outcome with ⟨-, same⟩ | ⟨_, -, -, more⟩
      · exact same.trans before
      · omega
  · simp [handed]
  · exact fun entry member => absurd member List.not_mem_nil
  · exact fun spent => absurd spent (by simp)

/-- Every state of the invariant has a run that ends. -/
theorem completes {state : State} (start : invariant state) :
    ∃ labels trace final, machine.run state labels = some (trace, final) ∧
      ∃ entry ∈ trace, finished entry.2 :=
  machine.exists_run_finished measure (fun state label event next holds stepEq =>
    (procession.moves state label event next holds stepEq).kept) procession.nearer start

/-- From a state of the invariant the items not yet handed out are delivered. -/
theorem delivers {state : State} (start : invariant state) :
    Delivers machine item failed finished state (items.drop (given state)) where
  runs labels trace final reached := by
    obtain ⟨-, total, sound, ended⟩ := procession.run start reached
    have left : handed item trace = (items.take (given final)).drop (given state) := by
      rw [← total, List.drop_append_of_le_length]
      · rw [List.drop_take_self, List.nil_append]
      · rw [List.length_take]
        exact Nat.le_min.mpr ⟨Nat.le_refl _, procession.within state start⟩
    refine ⟨?_, sound, fun spent => ?_⟩
    · rw [left, List.drop_take]
      exact List.take_prefix _ _
    · rw [left, ended spent, List.take_length]
  completes := procession.completes start

end Procession

/-- A machine delivers one list only. -/
theorem Delivers.unique {state : State} {others : List Item}
    (one : Delivers machine item failed finished state items)
    (two : Delivers machine item failed finished state others) : items = others := by
  obtain ⟨labels, trace, final, reached, spent⟩ := one.completes
  have first := (one.runs labels trace final reached).2.2 spent
  have second := (two.runs labels trace final reached).2.2 spent
  exact first.symm.trans second

/-- A machine whose items are seen through a function delivers the images. -/
theorem Delivers.map {Value : Type*} {state : State} (view : Item → Value)
    (delivers : Delivers machine item failed finished state items) :
    Delivers machine (fun event => (item event).map view) failed finished state
      (items.map view) where
  runs labels trace final reached := by
    obtain ⟨part, sound, ended⟩ := delivers.runs labels trace final reached
    have seen : handed (fun event => (item event).map view) trace =
        (handed item trace).map view := by
      rw [handed, handed, List.map_filterMap]
    rw [seen]
    exact ⟨part.map view, sound, fun spent => congrArg (List.map view) (ended spent)⟩
  completes := delivers.completes

end Rules

end Hyperloader.Foundations
