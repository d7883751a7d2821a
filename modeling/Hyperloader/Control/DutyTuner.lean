/-
Module: Hyperloader.Control.DutyTuner
Purpose: The bounded minimum-duty search of the machine keeper,
  control/machine_keeper/tuner.rs: its range over every run, and where a
  powered-down threshold brings it to rest.
Trusted boundary: none
Main exports: DutyTuner, DutyTuner.machine, Admits, duty_tuner_settles
-/
import Mathlib.Algebra.Order.Ring.Nat
import Mathlib.Data.Nat.SuccPred
import Hyperloader.Foundations.Transition

namespace Hyperloader.Control

open Foundations

def DUTY_STEP : Nat := 10000

/-- `+` of two `u32` values. -/
def addU32 (left right : Nat) : Option Nat :=
  if left + right < 2 ^ 32 then some (left + right) else none

structure DutyTuner where
  minimum : Nat
  current : Nat
  maximum : Nat
  lowestZero : Option Nat
  settled : Bool

namespace DutyTuner

/-- `Ord::clamp` -/
def clamp (value minimum maximum : Nat) : Nat :=
  if value < minimum then minimum else if maximum < value then maximum else value

def new (initial maximum : Nat) : DutyTuner :=
  let minimum := min DUTY_STEP maximum
  { minimum
    current := clamp initial minimum maximum
    maximum
    lowestZero := none
    settled := false }

/-- A step up, under the cap. -/
def raised (tuner : DutyTuner) : Option Nat :=
  (addU32 tuner.current DUTY_STEP).map fun duty => min duty tuner.maximum

/-- A step down, over the minimum. -/
def lowered (tuner : DutyTuner) : Nat := max (tuner.current - DUTY_STEP) tuner.minimum

/-- The duty that comes into force; nothing where an addition overflows. -/
def observe (tuner : DutyTuner) (poweredDownEntries : Nat) : Option (Nat × DutyTuner) :=
  if tuner.settled then
    if poweredDownEntries = 0 then some (tuner.current, tuner)
    else tuner.raised.map fun current =>
      (current, { tuner with lowestZero := none, settled := false, current })
  else if poweredDownEntries = 0 then
    if tuner.minimum < tuner.current then
      some (tuner.lowered,
        { tuner with lowestZero := some tuner.current, current := tuner.lowered })
    else
      some (tuner.current,
        { tuner with lowestZero := some tuner.current, settled := true })
  else
    match tuner.lowestZero with
    | some lowestZero =>
        some (lowestZero, { tuner with current := lowestZero, settled := true })
    | none =>
        if tuner.current < tuner.maximum then
          tuner.raised.map fun current => (current, { tuner with current })
        else some (tuner.current, { tuner with settled := true })

def machine : Machine DutyTuner Nat Nat where
  step := observe

/-! ### The range -/

/-- A tuner under its cap. -/
structure Ranged (maximum : Nat) (tuner : DutyTuner) : Prop where
  capped : tuner.maximum = maximum
  floored : tuner.minimum = min DUTY_STEP maximum
  within : tuner.minimum ≤ tuner.current ∧ tuner.current ≤ maximum
  remembered : ∀ lowestZero, tuner.lowestZero = some lowestZero →
    tuner.minimum ≤ lowestZero ∧ lowestZero ≤ maximum

theorem ranged_new {initial maximum : Nat} (below : initial ≤ maximum) :
    Ranged maximum (new initial maximum) := by
  refine ⟨rfl, rfl, ?_, nofun⟩
  simp only [new, clamp]
  split
  · omega
  · split <;> omega

section Steps

variable {maximum : Nat} {tuner after : DutyTuner} {poweredDownEntries duty : Nat}

theorem Ranged.raised_eq (ranged : Ranged maximum tuner) (bounded : maximum ≤ 1000000) :
    tuner.raised = some (min (tuner.current + DUTY_STEP) maximum) := by
  have fits : tuner.current + DUTY_STEP < 2 ^ 32 := by
    have := ranged.within
    unfold DUTY_STEP
    omega
  unfold raised addU32
  rw [if_pos fits, ranged.capped]
  rfl

/-- Everything an observation can do to a tuner in its range. -/
inductive Observed (maximum : Nat) (tuner : DutyTuner) : Nat → DutyTuner → Prop where
  | rest (settled : tuner.settled = true) : Observed maximum tuner 0 tuner
  | reopen {entries : Nat} (settled : tuner.settled = true) (some : entries ≠ 0) :
      Observed maximum tuner entries
        { tuner with
          lowestZero := none
          settled := false
          current := min (tuner.current + DUTY_STEP) maximum }
  | lower (searching : tuner.settled = false) (above : tuner.minimum < tuner.current) :
      Observed maximum tuner 0
        { tuner with lowestZero := Option.some tuner.current, current := tuner.lowered }
  | bottom (searching : tuner.settled = false) (least : tuner.current ≤ tuner.minimum) :
      Observed maximum tuner 0
        { tuner with lowestZero := Option.some tuner.current, settled := true }
  | retreat {entries lowestZero : Nat} (searching : tuner.settled = false) (some : entries ≠ 0)
      (remembered : tuner.lowestZero = Option.some lowestZero) :
      Observed maximum tuner entries { tuner with current := lowestZero, settled := true }
  | climb {entries : Nat} (searching : tuner.settled = false) (some : entries ≠ 0)
      (none : tuner.lowestZero = Option.none) (below : tuner.current < maximum) :
      Observed maximum tuner entries
        { tuner with current := min (tuner.current + DUTY_STEP) maximum }
  | top {entries : Nat} (searching : tuner.settled = false) (some : entries ≠ 0)
      (none : tuner.lowestZero = Option.none) (capped : maximum ≤ tuner.current) :
      Observed maximum tuner entries { tuner with settled := true }

theorem Ranged.observed (ranged : Ranged maximum tuner) (bounded : maximum ≤ 1000000)
    (poweredDownEntries : Nat) :
    ∃ after, tuner.observe poweredDownEntries = some (after.current, after) ∧
      Observed maximum tuner poweredDownEntries after := by
  have raised := ranged.raised_eq bounded
  unfold observe
  rw [raised]
  cases settled : tuner.settled with
  | true =>
      by_cases zero : poweredDownEntries = 0
      · subst zero
        exact ⟨tuner, by simp, .rest settled⟩
      · exact ⟨_, by simp [zero], .reopen settled zero⟩
  | false =>
      by_cases zero : poweredDownEntries = 0
      · subst zero
        by_cases above : tuner.minimum < tuner.current
        · exact ⟨_, by simp [above, settled], .lower settled above⟩
        · exact ⟨_, by simp [above], .bottom settled (Nat.le_of_not_lt above)⟩
      · cases remembered : tuner.lowestZero with
        | some lowestZero => exact ⟨_, by simp [zero, remembered], .retreat settled zero remembered⟩
        | none =>
            by_cases below : tuner.current < maximum
            · exact ⟨_, by simp [zero, ranged.capped, below, remembered, settled],
                .climb settled zero remembered below⟩
            · exact ⟨_, by simp [zero, ranged.capped, below, remembered],
                .top settled zero remembered (Nat.le_of_not_lt below)⟩

theorem Ranged.step (ranged : Ranged maximum tuner)
    (observed : Observed maximum tuner poweredDownEntries after) : Ranged maximum after := by
  obtain ⟨capped, floored, ⟨floor, cap⟩, remembered⟩ := ranged
  have least : min DUTY_STEP maximum ≤ maximum := Nat.min_le_right _ _
  cases observed with
  | rest => exact ⟨capped, floored, ⟨floor, cap⟩, remembered⟩
  | reopen => exact ⟨capped, floored, ⟨by dsimp only; omega, Nat.min_le_right _ _⟩, nofun⟩
  | lower =>
      refine ⟨capped, floored, ⟨Nat.le_max_right _ _, ?_⟩, ?_⟩
      · simp only [lowered]
        omega
      · rintro _ ⟨⟩
        exact ⟨floor, cap⟩
  | bottom =>
      refine ⟨capped, floored, ⟨floor, cap⟩, ?_⟩
      rintro _ ⟨⟩
      exact ⟨floor, cap⟩
  | retreat _ _ there => exact ⟨capped, floored, remembered _ there, remembered⟩
  | climb => exact ⟨capped, floored, ⟨by dsimp only; omega, Nat.min_le_right _ _⟩, remembered⟩
  | top => exact ⟨capped, floored, ⟨floor, cap⟩, remembered⟩

theorem Ranged.machine_step (bounded : maximum ≤ 1000000) (ranged : Ranged maximum tuner)
    (stepEq : machine.step tuner poweredDownEntries = some (duty, after)) :
    Observed maximum tuner poweredDownEntries after ∧ duty = after.current := by
  obtain ⟨other, observeEq, observed⟩ := ranged.observed bounded poweredDownEntries
  obtain ⟨rfl, rfl⟩ := Prod.mk.inj (Option.some.inj (stepEq.symm.trans observeEq))
  exact ⟨observed, rfl⟩

/-- Every run comes to an end in the range. -/
theorem Ranged.run (bounded : maximum ≤ 1000000) (ranged : Ranged maximum tuner)
    (labels : List Nat) :
    ∃ trace final, machine.run tuner labels = some (trace, final) ∧ Ranged maximum final ∧
      ∀ entry ∈ trace, final.minimum ≤ entry.2 ∧ entry.2 ≤ maximum := by
  have keeps : ∀ state label event next, Ranged maximum state →
      machine.step state label = some (event, next) → Ranged maximum next :=
    fun _ _ _ _ ranged stepEq => ranged.step (ranged.machine_step bounded stepEq).1
  obtain ⟨trace, final, reached⟩ := machine.run_total keeps
    (fun state label ranged => by
      obtain ⟨after, observeEq, -⟩ := ranged.observed bounded label
      exact ⟨_, after, observeEq⟩) ranged labels
  have carried := machine.run_induction
    (motive := fun trace state => Ranged maximum state ∧
      ∀ entry ∈ trace, min DUTY_STEP maximum ≤ entry.2 ∧ entry.2 ≤ maximum)
    (fun trace state label event next held _ stepEq => by
      obtain ⟨ranged, all⟩ := held
      obtain ⟨observed, rfl⟩ := ranged.machine_step bounded stepEq
      have after := ranged.step observed
      refine ⟨after, fun entry member => ?_⟩
      rcases List.mem_append.mp member with before | last
      · exact all entry before
      · obtain rfl := List.mem_singleton.mp last
        exact ⟨after.floored ▸ after.within.1, after.within.2⟩)
    [] ⟨ranged, nofun⟩ (machine.along_true tuner labels) reached
  exact ⟨trace, final, reached, carried.1, carried.1.floored ▸ carried.2⟩

end Steps

/-! ### Coming to rest -/

/-- The observation of a processor that powers down below a duty. -/
def Admits (threshold : Nat) (tuner : DutyTuner) (poweredDownEntries : Nat) : Prop :=
  poweredDownEntries = 0 ↔ threshold ≤ tuner.current

/-- Settled where the processor does not power down. -/
def Rests (threshold : Nat) (tuner : DutyTuner) : Prop :=
  tuner.settled = true ∧ threshold ≤ tuner.current

/-- Steps that cover a duty. -/
def strides (duty : Nat) : Nat := (duty + DUTY_STEP - 1) / DUTY_STEP

/-- Observations a tuner has still to make at most: a search goes down to the threshold or up to
it, and a duty remembered from below it is tried first. -/
def rank (maximum threshold : Nat) (tuner : DutyTuner) : Nat :=
  if tuner.settled then
    if threshold ≤ tuner.current then 0 else 2 * strides maximum + 2
  else if threshold ≤ tuner.current then strides tuner.current + 1
  else
    match tuner.lowestZero with
    | some lowestZero => if threshold ≤ lowestZero then 1 else 2 * strides maximum + 3
    | none => strides (maximum - tuner.current) + strides maximum + 1

section Resting

variable {maximum threshold : Nat} {tuner after : DutyTuner} {poweredDownEntries : Nat}

theorem rank_le (ranged : Ranged maximum tuner) :
    rank maximum threshold tuner ≤ 2 * strides maximum + 3 := by
  have within := ranged.within
  unfold rank strides DUTY_STEP
  split
  · split <;> omega
  · split
    · omega
    · split
      · split <;> omega
      · omega

theorem rank_pos (moves : ¬Rests threshold tuner) : 0 < rank maximum threshold tuner := by
  unfold rank
  split
  · rename_i settled
    rw [if_neg fun above => moves ⟨settled, above⟩]
    omega
  · split
    · omega
    · split
      · split <;> omega
      · omega

/-- What remains gets less with every observation. -/
theorem rank_lt (ranged : Ranged maximum tuner) (reachable : threshold ≤ maximum)
    (moves : ¬Rests threshold tuner) (admits : Admits threshold tuner poweredDownEntries)
    (observed : Observed maximum tuner poweredDownEntries after) :
    rank maximum threshold after < rank maximum threshold tuner := by
  have floored := ranged.floored
  obtain ⟨floor, cap⟩ := ranged.within
  cases observed with
  | rest settled => exact absurd ⟨settled, admits.mp rfl⟩ moves
  | reopen settled some =>
      have below : ¬threshold ≤ tuner.current := fun above => some (admits.mpr above)
      simp only [rank, settled, below, if_true, if_false, Bool.false_eq_true]
      unfold strides DUTY_STEP
      split <;> omega
  | lower searching above =>
      have spent : threshold ≤ tuner.current := admits.mp rfl
      simp only [rank, searching, spent, if_true, if_false, Bool.false_eq_true, lowered]
      unfold DUTY_STEP at floored
      unfold strides DUTY_STEP
      split <;> omega
  | bottom searching =>
      have spent : threshold ≤ tuner.current := admits.mp rfl
      simp [rank, searching, spent]
  | retreat searching some remembered =>
      have below : ¬threshold ≤ tuner.current := fun above => some (admits.mpr above)
      simp only [rank, searching, below, remembered, if_true, if_false, Bool.false_eq_true]
      split <;> omega
  | climb searching some none below =>
      have below : ¬threshold ≤ tuner.current := fun above => some (admits.mpr above)
      simp only [rank, searching, below, none, if_false, Bool.false_eq_true]
      unfold strides DUTY_STEP
      split <;> omega
  | top searching some none capped =>
      exact absurd (admits.mpr (Nat.le_trans reachable capped)) some

/-- A tuner at rest stays as it is. -/
theorem Rests.observed (rests : Rests threshold tuner)
    (admits : Admits threshold tuner poweredDownEntries)
    (observed : Observed maximum tuner poweredDownEntries after) : after = tuner := by
  obtain ⟨settled, above⟩ := rests
  cases observed with
  | rest => rfl
  | reopen _ some => exact absurd (admits.mpr above) some
  | lower searching | bottom searching | retreat searching | climb searching | top searching =>
      nomatch searching.symm.trans settled

/-- What a tuner that has met one threshold from the start remembers of it. -/
structure Searching (threshold : Nat) (tuner : DutyTuner) : Prop where
  rests : tuner.settled = true → threshold ≤ tuner.current ∧
    (tuner.current = tuner.minimum ∨ tuner.current < threshold + DUTY_STEP)
  remembered : ∀ lowestZero, tuner.settled = false → tuner.lowestZero = some lowestZero →
    threshold ≤ lowestZero ∧ tuner.current = max (lowestZero - DUTY_STEP) tuner.minimum

theorem Searching.step (searching : Searching threshold tuner) (ranged : Ranged maximum tuner)
    (reachable : threshold ≤ maximum) (admits : Admits threshold tuner poweredDownEntries)
    (observed : Observed maximum tuner poweredDownEntries after) : Searching threshold after := by
  cases observed with
  | rest => exact searching
  | reopen settled some => exact absurd (admits.mpr (searching.rests settled).1) some
  | lower open' =>
      refine ⟨fun settled => ?_, ?_⟩
      · nomatch open'.symm.trans settled
      · rintro _ _ ⟨⟩
        exact ⟨admits.mp rfl, rfl⟩
  | bottom _ least =>
      exact ⟨fun _ => ⟨admits.mp rfl, Or.inl (Nat.le_antisymm least ranged.within.1)⟩, nofun⟩
  | retreat open' some remembered =>
      obtain ⟨above, current⟩ := searching.remembered _ open' remembered
      have below : ¬threshold ≤ tuner.current := fun above => some (admits.mpr above)
      exact ⟨fun _ => ⟨above, Or.inr (by dsimp only; omega)⟩, nofun⟩
  | climb open' some none =>
      refine ⟨fun settled => ?_, fun _ _ remembered => ?_⟩
      · nomatch open'.symm.trans settled
      · nomatch none.symm.trans remembered
  | top _ some _ capped => exact absurd (admits.mpr (Nat.le_trans reachable capped)) some

theorem searching_new (threshold initial maximum : Nat) :
    Searching threshold (new initial maximum) := ⟨nofun, nofun⟩

/-- Runs along a threshold carry what its observations keep of a tuner in its range. -/
theorem Ranged.run_invariant {invariant : DutyTuner → Prop} {final : DutyTuner}
    {later : List Nat} {trace : List (Nat × Nat)} (bounded : maximum ≤ 1000000)
    (keeps : ∀ state entries next, Ranged maximum state → invariant state →
      Admits threshold state entries → Observed maximum state entries next → invariant next)
    (ranged : Ranged maximum tuner) (start : invariant tuner)
    (guarded : machine.Along (Admits threshold) tuner later)
    (reached : machine.run tuner later = some (trace, final)) :
    Ranged maximum final ∧ invariant final := by
  have kept : ∀ state entries duty next, Ranged maximum state ∧ invariant state →
      Admits threshold state entries → machine.step state entries = some (duty, next) →
      Ranged maximum next ∧ invariant next := by
    rintro state entries duty next ⟨ranged, held⟩ admits stepEq
    obtain ⟨observed, -⟩ := ranged.machine_step bounded stepEq
    exact ⟨ranged.step observed, keeps state entries next ranged held admits observed⟩
  have start : Ranged maximum tuner ∧ invariant tuner := ⟨ranged, start⟩
  exact machine.run_invariant kept start guarded reached

/-- A threshold brings a tuner to rest. -/
theorem Ranged.rests {final : DutyTuner} {later : List Nat} {trace : List (Nat × Nat)}
    (bounded : maximum ≤ 1000000) (reachable : threshold ≤ maximum) (ranged : Ranged maximum tuner)
    (guarded : machine.Along (Admits threshold) tuner later)
    (reached : machine.run tuner later = some (trace, final))
    (enough : 2 * strides maximum + 3 ≤ later.length) : Rests threshold final := by
  have keeps : ∀ state entries duty next, Ranged maximum state →
      Admits threshold state entries → machine.step state entries = some (duty, next) →
      Ranged maximum next :=
    fun _ _ _ _ ranged _ stepEq => ranged.step (ranged.machine_step bounded stepEq).1
  have stays : ∀ state entries duty next, Ranged maximum state ∧ Rests threshold state →
      Admits threshold state entries → machine.step state entries = some (duty, next) →
      Ranged maximum next ∧ Rests threshold next := by
    rintro state entries duty next ⟨ranged, rests⟩ admits stepEq
    obtain ⟨observed, -⟩ := ranged.machine_step bounded stepEq
    obtain rfl := rests.observed admits observed
    exact ⟨ranged, rests⟩
  have settles := machine.run_settles (rank maximum threshold) keeps stays
    (fun _ ranged moves => rank_pos fun rests => moves ⟨ranged, rests⟩)
    (fun _ _ _ _ ranged moves admits stepEq =>
      rank_lt ranged reachable (fun rests => moves ⟨ranged, rests⟩) admits
        (ranged.machine_step bounded stepEq).1)
    ranged guarded reached (Nat.le_trans (rank_le ranged) enough)
  exact settles.2

/-- At rest a tuner answers every observation with the duty in force. -/
theorem Rests.run (bounded : maximum ≤ 1000000) (ranged : Ranged maximum tuner)
    (rests : Rests threshold tuner) {latest : List Nat}
    (guarded : machine.Along (Admits threshold) tuner latest) :
    ∃ trace, machine.run tuner latest = some (trace, tuner) ∧
      ∀ entry ∈ trace, entry.2 = tuner.current := by
  induction latest with
  | nil => exact ⟨[], rfl, nofun⟩
  | cons entries latest ih =>
      obtain ⟨after, observeEq, observed⟩ := ranged.observed bounded entries
      obtain rfl := rests.observed guarded.1 observed
      obtain ⟨trace, runEq, all⟩ := ih (guarded.2 _ _ observeEq)
      refine ⟨_, machine.run_cons_eq_some.mpr ⟨_, _, trace, observeEq, runEq, rfl⟩, ?_⟩
      exact List.forall_mem_cons.mpr ⟨rfl, all⟩

end Resting

/-- Over every run the duty keeps its range, and from wherever the run has come a threshold brings
the tuner to rest: settled, no lower than it, for good, and from a fresh tuner at the minimum or
less than a step above it. -/
theorem duty_tuner_settles {initial maximum : Nat} (below : initial ≤ maximum)
    (bounded : maximum ≤ 1000000) (labels : List Nat) :
    ∃ trace tuner, machine.run (new initial maximum) labels = some (trace, tuner) ∧
      (∀ entry ∈ trace, min DUTY_STEP maximum ≤ entry.2 ∧ entry.2 ≤ maximum) ∧
      (min DUTY_STEP maximum ≤ tuner.current ∧ tuner.current ≤ maximum) ∧
      ∀ threshold ≤ maximum, ∀ later,
        2 * (maximum / DUTY_STEP) + 5 ≤ later.length →
        machine.Along (Admits threshold) tuner later →
        ∃ laterTrace final, machine.run tuner later = some (laterTrace, final) ∧
          final.settled = true ∧ threshold ≤ final.current ∧
          (∀ latest, machine.Along (Admits threshold) final latest →
            ∃ latestTrace, machine.run final latest = some (latestTrace, final) ∧
              ∀ entry ∈ latestTrace, entry.2 = final.current) ∧
          (labels = [] →
            final.current = final.minimum ∨ final.current < threshold + DUTY_STEP) := by
  have fresh := ranged_new below
  obtain ⟨trace, tuner, reached, ranged, all⟩ := fresh.run bounded labels
  rw [ranged.floored] at all
  refine ⟨trace, tuner, reached, all, ranged.floored ▸ ranged.within, ?_⟩
  intro threshold reachable later enough guarded
  obtain ⟨laterTrace, final, laterReached, finalRanged, -⟩ := ranged.run bounded later
  have covered : 2 * strides maximum + 3 ≤ later.length := by
    unfold strides DUTY_STEP at *
    omega
  have rests := ranged.rests bounded reachable guarded laterReached covered
  refine ⟨laterTrace, final, laterReached, rests.1, rests.2,
    fun latest => rests.run bounded finalRanged, ?_⟩
  rintro rfl
  obtain ⟨-, rfl⟩ := Prod.mk.inj (Option.some.inj reached)
  have searching := fresh.run_invariant bounded
    (fun _ _ _ ranged searching admits observed =>
      searching.step ranged reachable admits observed)
    (searching_new threshold initial maximum) guarded laterReached
  exact (searching.2.rests rests.1).2

/-- A fresh tuner under 50 000 at a threshold of 35 000. -/
theorem duty_tuner_settles_thirty_five_thousand :
    ∃ final, machine.run (new 20000 50000) [1, 1, 0, 1, 0, 0, 0, 0, 0, 0, 0, 0, 0, 0, 0] =
        some ([(1, 30000), (1, 40000), (0, 30000), (1, 40000)] ++
          List.replicate 11 (0, 40000), final) ∧
      final.settled = true ∧ 35000 ≤ final.current ∧
      (final.current = final.minimum ∨ final.current < 35000 + DUTY_STEP) := by
  have below : (20000 : Nat) ≤ 50000 := by decide
  obtain ⟨_, tuner, reached, -, -, settles⟩ := duty_tuner_settles below (by decide) []
  obtain ⟨-, rfl⟩ := Prod.mk.inj (Option.some.inj reached)
  obtain ⟨trace, final, laterReached, settled, above, -, near⟩ :=
    settles 35000 (by decide) [1, 1, 0, 1, 0, 0, 0, 0, 0, 0, 0, 0, 0, 0, 0] (by decide)
      (by unfold Admits; decide)
  refine ⟨final, ?_, settled, above, near rfl⟩
  rw [laterReached]
  have traced : (machine.run (new 20000 50000)
      [1, 1, 0, 1, 0, 0, 0, 0, 0, 0, 0, 0, 0, 0, 0]).map Prod.fst =
      some ([(1, 30000), (1, 40000), (0, 30000), (1, 40000)] ++ List.replicate 11 (0, 40000)) := by
    decide
  rw [laterReached] at traced
  exact congrArg some (Prod.ext (Option.some.inj traced) rfl)

end DutyTuner

end Hyperloader.Control
