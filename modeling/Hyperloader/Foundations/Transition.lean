/-
Module: Hyperloader.Foundations.Transition
Purpose: Deterministic labelled machines, their finite runs, and the rules
  that carry a fact about one step to every run: guarded invariants over the
  trace and the state, bisimulation, and progress by a decreasing measure.
Trusted boundary: none
Main exports:
  Machine, Machine.run, Machine.Along, Machine.run_induction,
  Machine.exists_run_of_progress, Machine.run_settles, Machine.Bisimulation,
  Machine.SameTraces
-/
import Mathlib.Data.List.Basic

namespace Hyperloader.Foundations

/-- A machine takes one labelled step to an event and a next state, or is
stuck at that label. -/
structure Machine (State Label Event : Type*) where
  step : State → Label → Option (Event × State)

namespace Machine

variable {State Label Event : Type*} (machine : Machine State Label Event)

/-- Run a finite list of labels, collecting each label with its event. -/
def run : State → List Label → Option (List (Label × Event) × State)
  | state, [] => some ([], state)
  | state, label :: labels =>
      match machine.step state label with
      | none => none
      | some (event, next) =>
          match run next labels with
          | none => none
          | some (trace, final) => some ((label, event) :: trace, final)

/-- Every step taken by the run from `state` satisfies `allowed` in the state
before it. -/
def Along (allowed : State → Label → Prop) : State → List Label → Prop
  | _, [] => True
  | state, label :: labels =>
      allowed state label ∧
        ∀ event next, machine.step state label = some (event, next) →
          Along allowed next labels

instance decidableAlong {allowed : State → Label → Prop}
    [∀ state label, Decidable (allowed state label)] (state : State)
    (labels : List Label) : Decidable (machine.Along allowed state labels) :=
  match labels with
  | [] => inferInstanceAs (Decidable True)
  | label :: labels =>
      match stepEq : machine.step state label with
      | none =>
          decidable_of_iff (allowed state label)
            ⟨fun permitted => ⟨permitted, fun _ _ impossible => by
              rw [stepEq] at impossible
              cases impossible⟩, And.left⟩
      | some (event, next) =>
          have : Decidable (machine.Along allowed next labels) := decidableAlong next labels
          decidable_of_iff (allowed state label ∧ machine.Along allowed next labels)
            ⟨fun both => ⟨both.1, fun _ _ same => by
              rw [stepEq] at same
              cases same
              exact both.2⟩, fun guarded => ⟨guarded.1, guarded.2 event next stepEq⟩⟩

@[simp] theorem run_nil (state : State) :
    machine.run state [] = some ([], state) := rfl

variable {state final : State} {labels : List Label} {trace : List (Label × Event)}

variable {label : Label}

theorem run_cons_eq_some :
    machine.run state (label :: labels) = some (trace, final) ↔
      ∃ event next rest, machine.step state label = some (event, next) ∧
        machine.run next labels = some (rest, final) ∧
        trace = (label, event) :: rest := by
  cases stepEq : machine.step state label with
  | none => simp [run, stepEq]
  | some pair =>
      obtain ⟨event, next⟩ := pair
      cases runEq : machine.run next labels with
      | none =>
          have stuck : machine.run state (label :: labels) = none := by
            simp [run, stepEq, runEq]
          rw [stuck]
          constructor
          · intro impossible
            cases impossible
          · rintro ⟨_, _, _, same, other, _⟩
            cases same
            rw [runEq] at other
            cases other
      | some result =>
          obtain ⟨rest, reached⟩ := result
          have through : machine.run state (label :: labels) =
              some ((label, event) :: rest, reached) := by
            simp [run, stepEq, runEq]
          rw [through]
          constructor
          · intro same
            cases same
            exact ⟨event, next, rest, rfl, runEq, rfl⟩
          · rintro ⟨_, _, other, same, otherEq, rfl⟩
            cases same
            rw [runEq] at otherEq
            cases otherEq
            rfl

/-- A trace lists the labels of its run. -/
theorem labels_run (reached : machine.run state labels = some (trace, final)) :
    trace.map Prod.fst = labels := by
  induction labels generalizing state trace with
  | nil =>
      cases reached
      rfl
  | cons label labels ih =>
      obtain ⟨event, next, rest, -, runEq, rfl⟩ := machine.run_cons_eq_some.mp reached
      rw [List.map_cons, ih runEq]

/-- Runs compose. -/
theorem run_append {state middle final : State} {first second : List Label}
    {firstTrace secondTrace : List (Label × Event)}
    (one : machine.run state first = some (firstTrace, middle))
    (two : machine.run middle second = some (secondTrace, final)) :
    machine.run state (first ++ second) =
      some (firstTrace ++ secondTrace, final) := by
  induction first generalizing state firstTrace with
  | nil =>
      cases one
      simpa using two
  | cons label labels ih =>
      obtain ⟨event, next, rest, stepEq, runEq, rfl⟩ :=
        machine.run_cons_eq_some.mp one
      exact machine.run_cons_eq_some.mpr
        ⟨event, next, _, stepEq, ih runEq, rfl⟩

variable {allowed : State → Label → Prop}

/-- The rule for runs: a relation between the trace so far and the state that
holds at the start, and that every allowed step extends, holds at the end of
every run whose steps are allowed. -/
theorem run_induction {motive : List (Label × Event) → State → Prop}
    (extend : ∀ trace state label event next, motive trace state →
      allowed state label → machine.step state label = some (event, next) →
      motive (trace ++ [(label, event)]) next) (before : List (Label × Event))
    (start : motive before state) (guarded : machine.Along allowed state labels)
    (reached : machine.run state labels = some (trace, final)) :
    motive (before ++ trace) final := by
  induction labels generalizing state before trace with
  | nil =>
      cases reached
      simpa using start
  | cons label labels ih =>
      obtain ⟨event, next, rest, stepEq, runEq, rfl⟩ :=
        machine.run_cons_eq_some.mp reached
      have here := extend before state label event next start guarded.1 stepEq
      have there :=
        ih _ here (guarded.2 event next stepEq) runEq
      simpa using there

/-- The rule for histories: where every allowed step extends a relation between the
trace so far and the state, and answers as the trace before it calls for, so does every
step of an allowed run. -/
theorem run_history {motive : List (Label × Event) → State → Prop}
    {answers : List (Label × Event) → Label → Event → Prop} {allowed : State → Label → Prop}
    (extend : ∀ trace state label event next, motive trace state →
      allowed state label → machine.step state label = some (event, next) →
      answers trace label event ∧ motive (trace ++ [(label, event)]) next) {state final : State}
    {labels : List Label} {trace : List (Label × Event)} (start : motive [] state)
    (guarded : machine.Along allowed state labels)
    (reached : machine.run state labels = some (trace, final)) :
    motive trace final ∧ ∀ before label event rest,
      trace = before ++ (label, event) :: rest → answers before label event := by
  have carried := machine.run_induction
    (motive := fun trace state => motive trace state ∧ ∀ before label event rest,
      trace = before ++ (label, event) :: rest → answers before label event)
    (fun trace state label event next held permitted stepEq => by
      obtain ⟨here, every⟩ := held
      obtain ⟨answered, there⟩ := extend trace state label event next here permitted stepEq
      refine ⟨there, fun before other otherEvent rest split => ?_⟩
      -- the entry is the last one, or one of those before it
      rcases List.eq_nil_or_concat rest with rfl | ⟨rest, last, rfl⟩
      · obtain ⟨rfl, same⟩ := List.append_inj' split rfl
        cases same
        exact answered
      · rw [List.concat_eq_append, ← List.cons_append, ← List.append_assoc] at split
        exact every before other otherEvent rest (List.append_inj' split rfl).1)
    [] ⟨start, fun before _ _ _ split => by cases before <;> nomatch split⟩ guarded reached
  exact carried

/-- Every run is along the trivial guard. -/
theorem along_true (state : State) (labels : List Label) :
    machine.Along (fun _ _ => True) state labels := by
  induction labels generalizing state with
  | nil => trivial
  | cons label labels ih =>
      exact ⟨trivial, fun _ next _ => ih next⟩

/-- A guard on labels alone allows every run of labels that meet it. -/
theorem along_of_labels {admitted : Label → Prop} (state : State)
    (all : ∀ label ∈ labels, admitted label) :
    machine.Along (fun _ label => admitted label) state labels := by
  induction labels generalizing state with
  | nil => trivial
  | cons label labels ih =>
      obtain ⟨here, later⟩ := List.forall_mem_cons.mp all
      exact ⟨here, fun _ next _ => ih next later⟩

variable {invariant : State → Prop}

/-- A state predicate kept by every allowed step holds after every allowed
run. -/
theorem run_invariant (keeps : ∀ state label event next, invariant state → allowed state label →
      machine.step state label = some (event, next) → invariant next) (start : invariant state)
    (guarded : machine.Along allowed state labels)
    (reached : machine.run state labels = some (trace, final)) : invariant final :=
  machine.run_induction (motive := fun _ state => invariant state)
    (fun _ state label event next holds permitted stepEq =>
      keeps state label event next holds permitted stepEq)
    [] start guarded reached

/-- A state predicate kept by every step with a good event holds after every run
of good events. -/
theorem run_invariant_of_events {invariant : State → Prop} {good : Event → Prop}
    (keeps : ∀ state label event next, invariant state →
      machine.step state label = some (event, next) → good event → invariant next)
    {state final : State} {labels : List Label} {trace : List (Label × Event)}
    (start : invariant state) (reached : machine.run state labels = some (trace, final))
    (all : ∀ entry ∈ trace, good entry.2) : invariant final := by
  have carried := machine.run_induction
    (motive := fun trace state => (∀ entry ∈ trace, good entry.2) → invariant state)
    (fun trace state label event next holds _ stepEq all =>
      keeps state label event next
        (holds fun entry member => all entry (List.mem_append_left _ member)) stepEq
        (all (label, event) (List.mem_append_right _ List.mem_cons_self)))
    [] (fun _ => start) (machine.along_true state labels) reached
  exact carried all

variable {state : State}

/-- Machines that take the same steps in the states of an invariant have the same runs. -/
theorem run_congr {other : Machine State Label Event}
    (keeps : ∀ state label event next, invariant state →
      machine.step state label = some (event, next) → invariant next)
    (agree : ∀ state label, invariant state → other.step state label = machine.step state label)
    (holds : invariant state) (labels : List Label) :
    other.run state labels = machine.run state labels := by
  induction labels generalizing state with
  | nil => rfl
  | cons label labels ih =>
      rw [run, run, agree state label holds]
      cases stepEq : machine.step state label with
      | none => rfl
      | some pair =>
          obtain ⟨event, next⟩ := pair
          simp only [ih (keeps state label event next holds stepEq)]

/-- One allowed step and an allowed run after it. -/
theorem along_cons {state next : State} {event : Event} (permitted : allowed state label)
    (stepEq : machine.step state label = some (event, next))
    (guarded : machine.Along allowed next labels) :
    machine.Along allowed state (label :: labels) := by
  refine ⟨permitted, ?_⟩
  intro otherEvent other otherEq
  rw [stepEq] at otherEq
  cases otherEq
  exact guarded

/-- While the events of a run are good it keeps the first predicate along the guard, and a
step outside the guard leads to the second one for good. -/
theorem along_or_lost {invariant lost : State → Prop} {good : Event → Prop}
    (keeps : ∀ state label event next, invariant state → allowed state label →
      machine.step state label = some (event, next) → good event → invariant next)
    (strays : ∀ state label event next, invariant state → ¬ allowed state label →
      machine.step state label = some (event, next) → good event → lost next)
    (stays : ∀ state label event next, lost state →
      machine.step state label = some (event, next) → good event → lost next)
    (start : invariant state) (reached : machine.run state labels = some (trace, final))
    (all : ∀ entry ∈ trace, good entry.2) : machine.Along allowed state labels ∨ lost final := by
  induction labels generalizing state trace with
  | nil => exact Or.inl trivial
  | cons label labels ih =>
      obtain ⟨event, next, rest, stepEq, runEq, rfl⟩ := machine.run_cons_eq_some.mp reached
      obtain ⟨here, later⟩ := List.forall_mem_cons.mp all
      by_cases permitted : allowed state label
      · have kept := keeps state label event next start permitted stepEq here
        exact (ih kept runEq later).imp_left
          (machine.along_cons permitted stepEq)
      · exact Or.inr (machine.run_invariant_of_events stays
          (strays state label event next start permitted stepEq here) runEq later)

/-- The events of a run of good events show what every step from a kept predicate shows. -/
theorem run_shows {good shown : Event → Prop} (keeps : ∀ state label event next, invariant state →
      machine.step state label = some (event, next) → good event → invariant next)
    (shows : ∀ state label event next, invariant state →
      machine.step state label = some (event, next) → good event → shown event)
    (start : invariant state) (reached : machine.run state labels = some (trace, final))
    (all : ∀ entry ∈ trace, good entry.2) : ∀ entry ∈ trace, shown entry.2 := by
  induction labels generalizing state trace with
  | nil =>
      cases reached
      exact fun entry member => absurd member List.not_mem_nil
  | cons label labels ih =>
      obtain ⟨event, next, rest, stepEq, runEq, rfl⟩ := machine.run_cons_eq_some.mp reached
      obtain ⟨here, later⟩ := List.forall_mem_cons.mp all
      exact List.forall_mem_cons.mpr ⟨shows state label event next start stepEq here,
        ih (keeps state label event next start stepEq here) runEq later⟩

/-- A guard along one run and along another from where it ends. -/
theorem along_append {state middle : State} {first second : List Label}
    (reached : machine.run state first = some (trace, middle))
    (one : machine.Along allowed state first) (two : machine.Along allowed middle second) :
    machine.Along allowed state (first ++ second) := by
  induction first generalizing state trace with
  | nil =>
      cases reached
      exact two
  | cons label first ih =>
      obtain ⟨event, next, rest, stepEq, runEq, -⟩ := machine.run_cons_eq_some.mp reached
      exact machine.along_cons one.1 stepEq (ih runEq (one.2 event next stepEq))

/-- The machine whose labels stand for some labels of another. -/
def relabel {Other : Type*} (call : Other → Label) : Machine State Other Event where
  step state label := machine.step state (call label)

theorem run_relabel {Other : Type*} {call : Other → Label} {labels : List Other}
    {trace : List (Other × Event)}
    (reached : (machine.relabel call).run state labels = some (trace, final)) :
    machine.run state (labels.map call) = some (trace.map (Prod.map call id), final) := by
  induction labels generalizing state trace with
  | nil =>
      cases reached
      rfl
  | cons label labels ih =>
      obtain ⟨event, next, rest, stepEq, runEq, rfl⟩ :=
        (machine.relabel call).run_cons_eq_some.mp reached
      exact machine.run_cons_eq_some.mpr
        ⟨event, next, _, stepEq, ih runEq, rfl⟩

/-- A run of a machine is a run of a part of it, where each step is a step of the part or leaves
it as it is. -/
theorem run_project {Part PartLabel PartEvent : Type*} {part : Machine Part PartLabel PartEvent}
    {view : State → Part} {narrow : Label × Event → Option (PartLabel × PartEvent)}
    (follows : ∀ state label event next, machine.step state label = some (event, next) →
      (narrow (label, event) = none ∧ view next = view state) ∨
        ∃ entry, narrow (label, event) = some entry ∧
          part.step (view state) entry.1 = some (entry.2, view next))
    {state final : State} {labels : List Label} {trace : List (Label × Event)}
    (reached : machine.run state labels = some (trace, final)) :
    part.run (view state) ((trace.filterMap narrow).map Prod.fst) =
      some (trace.filterMap narrow, view final) := by
  induction labels generalizing state trace with
  | nil =>
      cases reached
      rfl
  | cons label labels ih =>
      obtain ⟨event, next, rest, stepEq, runEq, rfl⟩ := machine.run_cons_eq_some.mp reached
      have later := ih runEq
      rcases follows state label event next stepEq with ⟨quiet, same⟩ | ⟨entry, shown, taken⟩
      · rw [List.filterMap_cons_none quiet, ← same]
        exact later
      · rw [List.filterMap_cons_some shown]
        exact part.run_cons_eq_some.mpr ⟨entry.2, view next, _, taken, later, rfl⟩

/-- The machine that takes only the steps a guard allows. -/
def guarded (allowed : State → Label → Prop) [∀ state label, Decidable (allowed state label)] :
    Machine State Label Event where
  step state label := if allowed state label then machine.step state label else none

theorem guarded_step_eq_some [∀ state label, Decidable (allowed state label)]
    {result : Event × State} :
    (machine.guarded allowed).step state label = some result ↔
      allowed state label ∧ machine.step state label = some result := by
  simp [guarded]

/-- A run along the guard is a run of the guarded machine. -/
theorem run_guarded [∀ state label, Decidable (allowed state label)]
    (along : machine.Along allowed state labels)
    (reached : machine.run state labels = some (trace, final)) :
    (machine.guarded allowed).run state labels = some (trace, final) := by
  induction labels generalizing state trace with
  | nil => exact reached
  | cons label labels ih =>
      obtain ⟨event, next, rest, stepEq, runEq, rfl⟩ := machine.run_cons_eq_some.mp reached
      exact (machine.guarded allowed).run_cons_eq_some.mpr
        ⟨event, next, rest, machine.guarded_step_eq_some.mpr ⟨along.1, stepEq⟩,
          ih (along.2 event next stepEq) runEq, rfl⟩

/-- Exactness of a guard: if, in every state of a kept predicate, a step's event
is good exactly when the guard allows the step, then all events of a run are good
exactly when the guard allows the run. -/
theorem events_iff_along {invariant : State → Prop} {allowed : State → Label → Prop}
    {good : Label → Event → Prop} (keeps : ∀ state label event next, invariant state →
      machine.step state label = some (event, next) → invariant next)
    (exact : ∀ state label event next, invariant state →
      machine.step state label = some (event, next) →
      (good label event ↔ allowed state label)) {state final : State} {labels : List Label}
    {trace : List (Label × Event)} (start : invariant state)
    (reached : machine.run state labels = some (trace, final)) :
    (∀ entry ∈ trace, good entry.1 entry.2) ↔ machine.Along allowed state labels := by
  induction labels generalizing state trace with
  | nil =>
      cases reached
      simp [Along]
  | cons label labels ih =>
      obtain ⟨event, next, rest, stepEq, runEq, rfl⟩ :=
        machine.run_cons_eq_some.mp reached
      have later := ih (keeps state label event next start stepEq) runEq
      have here := exact state label event next start stepEq
      rw [List.forall_mem_cons, later, here]
      constructor
      · intro both
        refine ⟨both.1, ?_⟩
        intro otherEvent other otherEq
        rw [stepEq] at otherEq
        cases otherEq
        exact both.2
      · intro guarded
        exact ⟨guarded.1, guarded.2 event next stepEq⟩

/-- Exactness of a guard for the states of a run: if a step from a good state leads
to a good one exactly when the guard allows it, then every state of a run is good
exactly when the guard allows the run. -/
theorem states_iff_along {invariant good : State → Prop}
    (keeps : ∀ state label event next, invariant state →
      machine.step state label = some (event, next) → invariant next)
    (exact : ∀ state label event next, invariant state → good state →
      machine.step state label = some (event, next) → (good next ↔ allowed state label))
    (start : invariant state) (fine : good state)
    (reached : machine.run state labels = some (trace, final)) :
    (∀ front, front <+: labels → ∀ part middle,
      machine.run state front = some (part, middle) → good middle) ↔
      machine.Along allowed state labels := by
  induction labels generalizing state trace with
  | nil =>
      refine iff_of_true ?_ trivial
      intro front before part middle run
      cases List.prefix_nil.mp before
      cases run
      exact fine
  | cons label labels ih =>
      obtain ⟨event, next, rest, stepEq, runEq, -⟩ := machine.run_cons_eq_some.mp reached
      have nextSound := keeps state label event next start stepEq
      have here := exact state label event next start fine stepEq
      constructor
      · intro all
        have nextFine : good next := by
          refine all [label] (List.prefix_append [label] labels) [(label, event)] next ?_
          exact machine.run_cons_eq_some.mpr ⟨event, next, [], stepEq, rfl, rfl⟩
        refine machine.along_cons (here.mp nextFine) stepEq ?_
        refine (ih nextSound nextFine runEq).mp ?_
        intro front before part middle run
        refine all (label :: front) (List.cons_prefix_cons.mpr ⟨rfl, before⟩)
          ((label, event) :: part) middle ?_
        exact machine.run_cons_eq_some.mpr ⟨event, next, part, stepEq, run, rfl⟩
      · rintro ⟨permitted, later⟩ front before part middle run
        have nextFine := here.mpr permitted
        cases front with
        | nil =>
            cases run
            exact fine
        | cons other front =>
            obtain ⟨rfl, inner⟩ := List.cons_prefix_cons.mp before
            obtain ⟨otherEvent, otherNext, part, otherEq, run, -⟩ :=
              machine.run_cons_eq_some.mp run
            rw [stepEq] at otherEq
            cases otherEq
            exact (ih nextSound nextFine runEq).mpr (later event next stepEq)
              front inner part middle run

/-- A quantity that no step lowers, and that every step outside a guard raises,
is unchanged at the end of a run only along the guard. -/
theorem along_of_unchanged (measure : State → Nat)
    (keeps : ∀ state label event next, invariant state →
      machine.step state label = some (event, next) → invariant next)
    (rises : ∀ state label event next, invariant state →
      machine.step state label = some (event, next) → measure state ≤ measure next)
    (lost : ∀ state label event next, invariant state → ¬ allowed state label →
      machine.step state label = some (event, next) → measure state < measure next)
    (start : invariant state) (reached : machine.run state labels = some (trace, final)) :
    measure state ≤ measure final ∧
      (measure final = measure state → machine.Along allowed state labels) := by
  induction labels generalizing state trace with
  | nil =>
      cases reached
      exact ⟨Nat.le_refl _, fun _ => trivial⟩
  | cons label labels ih =>
      obtain ⟨event, next, rest, stepEq, runEq, rfl⟩ :=
        machine.run_cons_eq_some.mp reached
      have here := rises state label event next start stepEq
      obtain ⟨later, guarded⟩ :=
        ih (keeps state label event next start stepEq) runEq
      refine ⟨Nat.le_trans here later, fun unchanged => ⟨?_, ?_⟩⟩
      · apply Classical.byContradiction
        intro refused
        have more := lost state label event next start refused stepEq
        exact absurd unchanged (Nat.ne_of_gt (Nat.lt_of_lt_of_le more later))
      · intro otherEvent other otherEq
        rw [stepEq] at otherEq
        cases otherEq
        exact guarded (Nat.le_antisymm (unchanged ▸ here) later)

/-- If no step is ever stuck in a state that satisfies a kept predicate, every
list of labels has a run. -/
theorem run_total (keeps : ∀ state label event next, invariant state →
      machine.step state label = some (event, next) → invariant next)
    (enabled : ∀ state label, invariant state →
      ∃ event next, machine.step state label = some (event, next)) (start : invariant state)
    (labels : List Label) : ∃ trace final, machine.run state labels = some (trace, final) := by
  induction labels generalizing state with
  | nil => exact ⟨[], state, rfl⟩
  | cons label labels ih =>
      obtain ⟨event, next, stepEq⟩ := enabled state label start
      obtain ⟨trace, final, runEq⟩ :=
        ih (keeps state label event next start stepEq)
      exact ⟨_, final, machine.run_cons_eq_some.mpr
        ⟨event, next, trace, stepEq, runEq, rfl⟩⟩

/-- Progress by a measure: if, while a relation between the trace and the state
holds and the goal is not met, some allowed step keeps the relation and meets the
goal or lowers the measure, then a finite allowed run meets the goal. -/
theorem exists_run_of_progress (motive goal : List (Label × Event) → State → Prop)
    (measure : State → Nat) (progress : ∀ trace state, motive trace state → ¬ goal trace state →
      ∃ label event next, allowed state label ∧
        machine.step state label = some (event, next) ∧
        motive (trace ++ [(label, event)]) next ∧
        (goal (trace ++ [(label, event)]) next ∨ measure next < measure state))
    (before : List (Label × Event)) (state : State) (start : motive before state) :
    ∃ labels trace reached, machine.Along allowed state labels ∧
      machine.run state labels = some (trace, reached) ∧
      motive (before ++ trace) reached ∧ goal (before ++ trace) reached := by
  by_cases done : goal before state
  · refine ⟨[], [], state, trivial, rfl, ?_, ?_⟩ <;> rw [List.append_nil]
    · exact start
    · exact done
  · obtain ⟨label, event, next, permitted, stepEq, kept, nearer⟩ :=
      progress before state start done
    by_cases met : goal (before ++ [(label, event)]) next
    · exact ⟨[label], [(label, event)], next, machine.along_cons permitted stepEq trivial,
        machine.run_cons_eq_some.mpr ⟨event, next, [], stepEq, rfl, rfl⟩, kept, met⟩
    · have _decreases := nearer.resolve_left met
      obtain ⟨labels, trace, reached, guarded, runEq, holds, finished⟩ :=
        exists_run_of_progress motive goal measure progress (before ++ [(label, event)])
          next kept
      rw [List.append_assoc, List.singleton_append] at holds finished
      exact ⟨label :: labels, (label, event) :: trace, reached,
        machine.along_cons permitted stepEq guarded,
        machine.run_cons_eq_some.mpr ⟨event, next, trace, stepEq, runEq, rfl⟩, holds,
        finished⟩
termination_by measure state

/-- Where every step keeps an invariant and some step finishes the run or lowers a measure, some
run finishes. -/
theorem exists_run_finished {invariant : State → Prop} {finished : Event → Prop}
    (measure : State → Nat)
    (keeps : ∀ state label event next, invariant state →
      machine.step state label = some (event, next) → invariant next)
    (nearer : ∀ state, invariant state → ∃ label event next,
      machine.step state label = some (event, next) ∧
        (finished event ∨ measure next < measure state)) {state : State}
    (start : invariant state) :
    ∃ labels trace final, machine.run state labels = some (trace, final) ∧
      ∃ entry ∈ trace, finished entry.2 := by
  have progress : ∀ (trace : List (Label × Event)) (here : State), invariant here →
      ¬ (∃ entry ∈ trace, finished entry.2) → ∃ label event next, True ∧
        machine.step here label = some (event, next) ∧ invariant next ∧
        ((∃ entry ∈ trace ++ [(label, event)], finished entry.2) ∨
          measure next < measure here) := by
    intro trace here holds _
    obtain ⟨label, event, next, stepEq, near⟩ := nearer here holds
    refine ⟨label, event, next, trivial, stepEq, keeps here label event next holds stepEq,
      near.imp_left fun spent => ⟨(label, event), ?_, spent⟩⟩
    exact List.mem_append_right _ List.mem_cons_self
  obtain ⟨labels, trace, reached, -, runEq, -, spent⟩ :=
    machine.exists_run_of_progress (fun _ here => invariant here)
      (fun trace _ => ∃ entry ∈ trace, finished entry.2) measure progress [] state start
  exact ⟨labels, trace, reached, runEq, spent⟩

/-- The rule for settling: a rank that is positive outside a goal, and that every
allowed step outside it lowers, brings every allowed run of as many steps to the
goal, where allowed steps stay. -/
theorem run_settles {invariant goal : State → Prop} (rank : State → Nat)
    (keeps : ∀ state label event next, invariant state → allowed state label →
      machine.step state label = some (event, next) → invariant next)
    (stays : ∀ state label event next, goal state → allowed state label →
      machine.step state label = some (event, next) → goal next)
    (positive : ∀ state, invariant state → ¬ goal state → 0 < rank state)
    (lowers : ∀ state label event next, invariant state → ¬ goal state →
      allowed state label → machine.step state label = some (event, next) →
      rank next < rank state) (start : invariant state)
    (guarded : machine.Along allowed state labels)
    (reached : machine.run state labels = some (trace, final)) (enough : rank state ≤ labels.length) :
    goal final := by
  induction labels generalizing state trace with
  | nil =>
      cases reached
      apply Classical.byContradiction
      intro outside
      exact absurd (positive _ start outside) (Nat.not_lt.mpr enough)
  | cons label labels ih =>
      by_cases met : goal state
      · exact machine.run_invariant stays met guarded reached
      · obtain ⟨event, next, rest, stepEq, runEq, rfl⟩ :=
          machine.run_cons_eq_some.mp reached
        have lower := lowers state label event next start met guarded.1 stepEq
        exact ih (keeps state label event next start guarded.1 stepEq)
          (guarded.2 event next stepEq) runEq
          (Nat.le_of_lt_succ (Nat.lt_of_lt_of_le lower enough))

/-- Two machines over the same labels and events are bisimilar by `related` at
the admitted labels when related states are stuck at the same labels and
otherwise answer with the same event and related next states. -/
def Bisimulation {First Second : Type*} (admitted : Label → Prop)
    (first : Machine First Label Event) (second : Machine Second Label Event)
    (related : First → Second → Prop) : Prop :=
  ∀ one two label, admitted label → related one two →
    Option.Rel
      (fun left right => left.1 = right.1 ∧ related left.2 right.2)
      (first.step one label) (second.step two label)

/-- Bisimilar machines have the same traces, and the states they reach are
related. -/
theorem Bisimulation.run {First Second : Type*} {admitted : Label → Prop}
    {first : Machine First Label Event} {second : Machine Second Label Event}
    {related : First → Second → Prop} (bisimilar : Bisimulation admitted first second related)
    {one : First} {two : Second} (start : related one two) (labels : List Label)
    (all : ∀ label ∈ labels, admitted label) :
    Option.Rel
      (fun left right => left.1 = right.1 ∧ related left.2 right.2)
      (first.run one labels) (second.run two labels) := by
  induction labels generalizing one two with
  | nil => exact .some ⟨rfl, start⟩
  | cons label labels ih =>
      have here := bisimilar one two label (all label List.mem_cons_self) start
      have later : ∀ other ∈ labels, admitted other :=
        fun other member => all other (List.mem_cons_of_mem _ member)
      simp only [Machine.run]
      cases oneEq : first.step one label <;>
        cases twoEq : second.step two label <;>
        rw [oneEq, twoEq] at here
      · exact .none
      · cases here
      · cases here
      · obtain ⟨sameEvent, nextRelated⟩ := Option.rel_some_some.mp here
        have there := ih nextRelated later
        rename_i left right
        simp only
        cases leftEq : first.run left.2 labels <;>
          cases rightEq : second.run right.2 labels <;>
          rw [leftEq, rightEq] at there
        · exact .none
        · cases there
        · cases there
        · obtain ⟨sameTrace, finalRelated⟩ := Option.rel_some_some.mp there
          exact .some ⟨by rw [sameEvent, sameTrace], finalRelated⟩

/-- No labels tell two states apart by what they lead to. -/
def SameTraces {First Second : Type*} (first : Machine First Label Event) (one : First)
    (second : Machine Second Label Event) (two : Second) : Prop :=
  ∀ labels, (first.run one labels).map Prod.fst = (second.run two labels).map Prod.fst

theorem Bisimulation.sameTraces {First Second : Type*} {first : Machine First Label Event}
    {second : Machine Second Label Event} {related : First → Second → Prop}
    (bisimilar : Bisimulation (fun _ => True) first second related) {one : First} {two : Second}
    (start : related one two) : SameTraces first one second two := by
  intro labels
  have runs := bisimilar.run start labels fun _ _ => trivial
  cases oneEq : first.run one labels <;>
    cases twoEq : second.run two labels <;>
    rw [oneEq, twoEq] at runs
  · rfl
  · cases runs
  · cases runs
  · exact congrArg some (Option.rel_some_some.mp runs).1

end Machine

end Hyperloader.Foundations
