/-
Module: Hyperloader.Control.AdaptiveController
Purpose: Cadenced width adaptation, control/controller.py: what its counters say
  about the observations since the last decision, and which decisions follow.
Trusted boundary: rates are of one kind of number with the operations of `float`, of which no
  law is used.
Main exports:
  AdaptiveController, machine, Tracks, Lawful, adaptive_controller_laws, negative_rate_moves_width
-/
import Mathlib.Algebra.Ring.Int.Defs
import Mathlib.Data.List.DropRight
import Hyperloader.Control.Objective
import Hyperloader.Foundations.Transition

namespace Hyperloader.Control

open Foundations

inductive Reason where
  | hold
  | bandwidthCeiling
  | cpuCeiling
  | starvation
  | resourceMinimum

inductive Binding where
  | bandwidth
  | cpuCores

/-- One auditable live-width decision. -/
structure ControllerDecision (Rate : Type) where
  previousWidth : Nat
  width : Nat
  reason : Reason
  starvation : Bool
  score : Nat × Rate
  binding : Option Binding

structure Observation (Rate : Type) where
  nowNs : Int
  stalled : Bool
  occupied : Int
  batchSize : Int
  bytesPerSecond : Rate

/-- What the constructor takes and checks; `cadenceNs` is `int(cadence_seconds * 1_000_000_000)`. -/
structure ControllerSettings (Rate : Type) [LT Rate] where
  widthCeiling : Nat
  cadenceNs : Int
  cadenceBatches : Nat
  stepClip : Nat
  shrinkHysteresis : Nat
  cpuCeilingBinding : Bool
  bandwidthCeiling : Option Rate
  objective : ControllerObjective Rate
  workShape : String
  cluster : String
  ceiling_pos : 0 < widthCeiling
  batches_pos : 0 < cadenceBatches
  clip_pos : 0 < stepClip
  hysteresis_pos : 0 < shrinkHysteresis

structure AdaptiveController (Rate : Type) where
  width : Nat
  lastDecisionNs : Option Int
  batches : Nat
  stalled : Bool
  shrinkCadences : Nat
  decisions : List (ControllerDecision Rate)

/-- What a call of `observe` comes to. -/
inductive Answer (Rate : Type) where
  | none
  | decided (decision : ControllerDecision Rate)
  | raised (text : String)

def Answer.made {Rate : Type} : Answer Rate → Option (ControllerDecision Rate)
  | .decided decision => some decision
  | .none | .raised _ => Option.none

namespace AdaptiveController

variable {Rate : Type}

section Observing

variable [LT Rate] (settings : ControllerSettings Rate)

def new : AdaptiveController Rate where
  width := settings.widthCeiling
  lastDecisionNs := none
  batches := 0
  stalled := false
  shrinkCadences := 0
  decisions := []

variable [DecidableLT Rate]

/-- The bandwidth ceiling is set and exceeded. -/
def exceeds (rate : Rate) : Bool :=
  settings.bandwidthCeiling.any fun ceiling => ceiling < rate

/-- The width a decision moves to, with the hysteresis counter behind it. -/
structure Move where
  width : Nat
  shrinkCadences : Nat
  reason : Reason
  binding : Option Binding

def move (controller : AdaptiveController Rate) (starvation : Bool) (rate : Rate) : Move :=
  if exceeds settings rate then
    ⟨max 1 (controller.width - settings.stepClip), 0, .bandwidthCeiling, some .bandwidth⟩
  else if starvation then
    let width := min settings.widthCeiling (controller.width + settings.stepClip)
    if width = controller.width ∧ settings.cpuCeilingBinding then
      ⟨width, 0, .cpuCeiling, some .cpuCores⟩
    else ⟨width, 0, .starvation, none⟩
  else
    let shrinkCadences := controller.shrinkCadences + 1
    if settings.shrinkHysteresis ≤ shrinkCadences ∧ 1 < controller.width then
      ⟨max 1 (controller.width - settings.stepClip), 0, .resourceMinimum, none⟩
    else ⟨controller.width, shrinkCadences, .hold, none⟩

/-- `self._last_decision_ns or now_ns` -/
def lastDecision (controller : AdaptiveController Rate) (nowNs : Int) : Int :=
  match controller.lastDecisionNs with
  | none => nowNs
  | some lastNs => if lastNs = 0 then nowNs else lastNs

variable [LE Rate] [DecidableLE Rate] [Zero Rate] [NatCast Rate] [Add Rate] [Sub Rate]
  [Mul Rate] [Div Rate]

/-- Consume one delivery observation and decide only at cadence. -/
def observe (controller : AdaptiveController Rate) (observation : Observation Rate) :
    Answer Rate × AdaptiveController Rate :=
  let lastNs := controller.lastDecision observation.nowNs
  let counted := { controller with
    lastDecisionNs := some lastNs
    batches := controller.batches + 1
    stalled := controller.stalled || observation.stalled }
  if counted.batches < settings.cadenceBatches ∨
      observation.nowNs - lastNs < settings.cadenceNs then (.none, counted)
  else
    let starvation := counted.stalled || observation.occupied < observation.batchSize
    let moved := move settings counted starvation observation.bytesPerSecond
    let live := { counted with width := moved.width, shrinkCadences := moved.shrinkCadences }
    match settings.objective.score starvation moved.width settings.workShape settings.cluster
        observation.bytesPerSecond with
    | .error text => (.raised text, live)
    | .ok score =>
        let decision : ControllerDecision Rate :=
          { previousWidth := controller.width
            width := moved.width
            reason := moved.reason
            starvation
            score
            binding := moved.binding }
        (.decided decision,
          { live with
            decisions := live.decisions ++ [decision]
            lastDecisionNs := some observation.nowNs
            batches := 0
            stalled := false })

def machine : Machine (AdaptiveController Rate) (Observation Rate) (Answer Rate) where
  step controller observation := some (observe settings controller observation)

end Observing

/-! ### Histories -/

abbrev History (Rate : Type) := List (Observation Rate × Answer Rate)

/-- The decisions of a history, each with the observation it was made at. -/
def decided (history : History Rate) : List (Observation Rate × ControllerDecision Rate) :=
  history.filterMap fun entry => entry.2.made.map fun decision => (entry.1, decision)

/-- The observations since the last decision. -/
def pending (history : History Rate) : List (Observation Rate) :=
  (history.rtakeWhile fun entry => entry.2.made.isNone).map Prod.fst

/-- When the last decision was made, or else the first observation. -/
def reference (history : History Rate) : Option Int :=
  match (decided history).getLast? with
  | some entry => some entry.1.nowNs
  | none => history.head?.map fun entry => entry.1.nowNs

/-- The width that is live behind a history. -/
def liveWidth [LT Rate] (settings : ControllerSettings Rate) (history : History Rate) : Nat :=
  match (decided history).getLast? with
  | some entry => entry.2.width
  | none => settings.widthCeiling

section Histories

variable {history : History Rate} {observation : Observation Rate}
  {decision : ControllerDecision Rate}

theorem decided_concat_none :
    decided (history ++ [(observation, .none)]) = decided history := by
  simp [decided, Answer.made]

theorem decided_concat :
    decided (history ++ [(observation, .decided decision)]) =
      decided history ++ [(observation, decision)] := by
  simp [decided, Answer.made]

theorem pending_concat_none :
    pending (history ++ [(observation, (.none : Answer Rate))]) =
      pending history ++ [observation] := by
  simp [pending, Answer.made]

theorem pending_concat :
    pending (history ++ [(observation, .decided decision)]) = [] := by
  simp [pending, Answer.made]

theorem reference_concat_none :
    reference (history ++ [(observation, (.none : Answer Rate))]) =
      some ((reference history).getD observation.nowNs) := by
  unfold reference
  rw [decided_concat_none]
  cases (decided history).getLast? with
  | some entry => rfl
  | none => cases history <;> rfl

theorem reference_concat :
    reference (history ++ [(observation, .decided decision)]) = some observation.nowNs := by
  simp [reference, decided_concat]

theorem liveWidth_concat [LT Rate] {settings : ControllerSettings Rate} :
    liveWidth settings (history ++ [(observation, .decided decision)]) = decision.width := by
  simp [liveWidth, decided_concat]

end Histories

/-! ### Lawful decisions -/

section Laws

variable [LT Rate] [DecidableLT Rate] (settings : ControllerSettings Rate)

/-- A decision without starvation, under the bandwidth ceiling, that leaves the width. -/
def Calm (entry : Observation Rate × ControllerDecision Rate) : Prop :=
  entry.2.starvation = false ∧ exceeds settings entry.1.bytesPerSecond = false ∧
    entry.2.width = entry.2.previousWidth

/-- Enough observations and enough time since the last decision. -/
def Due (before : History Rate) (observation : Observation Rate) : Prop :=
  settings.cadenceBatches ≤ (pending before).length + 1 ∧
    settings.cadenceNs ≤
      observation.nowNs - (reference before).getD observation.nowNs

/-- A decision as the history before it calls for it. -/
structure Sound (before : History Rate) (observation : Observation Rate)
    (decision : ControllerDecision Rate) : Prop where
  previous : decision.previousWidth = liveWidth settings before
  range : 1 ≤ decision.width ∧ decision.width ≤ settings.widthCeiling
  clipped : decision.width ≤ decision.previousWidth + settings.stepClip ∧
    decision.previousWidth ≤ decision.width + settings.stepClip
  starved : decision.starvation = true ↔
    (∃ seen ∈ pending before ++ [observation], seen.stalled = true) ∨
      observation.occupied < observation.batchSize
  shrinks : decision.reason = .resourceMinimum ∨
      (decision.width < decision.previousWidth ∧
        exceeds settings observation.bytesPerSecond = false) →
    decision.starvation = false ∧ exceeds settings observation.bytesPerSecond = false ∧
      ∃ earlier held, decided before = earlier ++ held ∧
        settings.shrinkHysteresis ≤ held.length + 1 ∧ ∀ entry ∈ held, Calm settings entry

/-- An observation is answered with a decision exactly where one is due. -/
structure Lawful (before : History Rate) (observation : Observation Rate)
    (answer : Answer Rate) : Prop where
  answers : answer = .none ∨ ∃ decision, answer = .decided decision
  decides : (∃ decision, answer = .decided decision) ↔ Due settings before observation
  sound : ∀ decision, answer = .decided decision →
    Sound settings before observation decision

/-! ### Counters and histories -/

/-- What the counters of a controller say about its history. -/
structure Tracks (history : History Rate) (controller : AdaptiveController Rate) : Prop where
  live : controller.width = liveWidth settings history
  range : 1 ≤ controller.width ∧ controller.width ≤ settings.widthCeiling
  last : controller.lastDecisionNs = reference history
  later : ∀ lastNs, controller.lastDecisionNs = some lastNs → 0 < lastNs
  batches : controller.batches = (pending history).length
  stalled : controller.stalled = (pending history).any (·.stalled)
  calm : ∃ earlier held, decided history = earlier ++ held ∧
    held.length = controller.shrinkCadences ∧ ∀ entry ∈ held, Calm settings entry

theorem tracks_new : Tracks settings [] (new settings) :=
  ⟨rfl, ⟨settings.ceiling_pos, Nat.le_refl _⟩, rfl, nofun, rfl, rfl, [], [], rfl, rfl, nofun⟩

/-! ### Decisions -/

section Moves

variable {settings} {controller : AdaptiveController Rate} {starvation : Bool} {rate : Rate}

theorem move_range (starvation : Bool) (rate : Rate)
    (range : 1 ≤ controller.width ∧ controller.width ≤ settings.widthCeiling) :
    (1 ≤ (move settings controller starvation rate).width ∧
      (move settings controller starvation rate).width ≤ settings.widthCeiling) ∧
    (move settings controller starvation rate).width ≤ controller.width + settings.stepClip ∧
    controller.width ≤ (move settings controller starvation rate).width + settings.stepClip := by
  have ceiling := settings.ceiling_pos
  unfold move
  split
  · dsimp only
    omega
  · split
    · dsimp only
      split <;> dsimp only <;> omega
    · dsimp only
      split <;> dsimp only <;> omega

/-- The width falls, short of the bandwidth ceiling, only for the resource minimum. -/
theorem move_shrinks (below : controller.width ≤ settings.widthCeiling)
    (shrinks : (move settings controller starvation rate).reason = .resourceMinimum ∨
      ((move settings controller starvation rate).width < controller.width ∧
        exceeds settings rate = false)) :
    starvation = false ∧ exceeds settings rate = false ∧
      settings.shrinkHysteresis ≤ controller.shrinkCadences + 1 := by
  unfold move at shrinks
  split at shrinks
  · rename_i spent
    rcases shrinks with ⟨⟨⟩⟩ | ⟨-, under⟩
    exact absurd spent (by rw [under]; exact Bool.false_ne_true)
  · rename_i under
    split at shrinks
    · dsimp only at shrinks
      split at shrinks
      · rcases shrinks with ⟨⟨⟩⟩ | ⟨falls, -⟩
        dsimp only at falls
        omega
      · rcases shrinks with ⟨⟨⟩⟩ | ⟨falls, -⟩
        dsimp only at falls
        omega
    · rename_i fed
      dsimp only at shrinks
      split at shrinks
      · rename_i enough
        exact ⟨Bool.eq_false_iff.mpr fed, Bool.eq_false_iff.mpr under, enough.1⟩
      · rcases shrinks with ⟨⟨⟩⟩ | ⟨falls, -⟩
        exact absurd falls (Nat.lt_irrefl _)

/-- The hysteresis counter starts again or counts a calm decision. -/
theorem move_calm (controller : AdaptiveController Rate) (starvation : Bool) (rate : Rate) :
    (move settings controller starvation rate).shrinkCadences = 0 ∨
      ((move settings controller starvation rate).shrinkCadences =
          controller.shrinkCadences + 1 ∧
        starvation = false ∧ exceeds settings rate = false ∧
        (move settings controller starvation rate).width = controller.width) := by
  unfold move
  split
  · exact Or.inl rfl
  · rename_i under
    split
    · dsimp only
      split <;> exact Or.inl rfl
    · rename_i fed
      dsimp only
      split
      · exact Or.inl rfl
      · exact Or.inr ⟨rfl, Bool.eq_false_iff.mpr fed,
          Bool.eq_false_iff.mpr under, rfl⟩

end Moves

/-! ### Runs -/

section Runs

variable {settings} {history : History Rate}
  {controller after : AdaptiveController Rate} {observation : Observation Rate}
  {answer : Answer Rate}

theorem Tracks.lastDecision_eq (tracks : Tracks settings history controller) (nowNs : Int) :
    controller.lastDecision nowNs = (reference history).getD nowNs := by
  rw [← tracks.last]
  unfold lastDecision
  cases lastEq : controller.lastDecisionNs with
  | none => rfl
  | some lastNs => exact if_neg (Int.ne_of_gt (tracks.later lastNs lastEq))

/-- An observation without a decision only counts. -/
theorem Tracks.counted (tracks : Tracks settings history controller)
    (positive : 0 < observation.nowNs) :
    Tracks settings (history ++ [(observation, .none)])
      { controller with
        lastDecisionNs := some ((reference history).getD observation.nowNs)
        batches := controller.batches + 1
        stalled := controller.stalled || observation.stalled } := by
  obtain ⟨live, range, last, later, batches, stalled, calm⟩ := tracks
  refine ⟨?_, range, reference_concat_none.symm, ?_, ?_, ?_, ?_⟩
  · unfold liveWidth at live ⊢
    rwa [decided_concat_none]
  · rintro _ ⟨⟩
    cases referenceEq : reference history with
    | none => exact positive
    | some lastNs => exact later lastNs (last.trans referenceEq)
  · rw [pending_concat_none, List.length_append, ← batches]
    rfl
  · simp only [stalled, pending_concat_none, List.any_append, List.any_cons, List.any_nil,
      Bool.or_false]
  · rw [decided_concat_none]
    exact calm

/-- Starvation, of the observations since the last decision. -/
theorem Tracks.starved_iff (tracks : Tracks settings history controller) :
    ((controller.stalled || observation.stalled) ||
        decide (observation.occupied < observation.batchSize)) = true ↔
      (∃ seen ∈ pending history ++ [observation], seen.stalled = true) ∨
        observation.occupied < observation.batchSize := by
  rw [tracks.stalled, Bool.or_eq_true, decide_eq_true_iff, Bool.or_eq_true, List.any_eq_true]
  simp only [List.mem_append, List.mem_singleton, or_and_right, exists_or, exists_eq_left]

/-- A move of the width is sound, and the counter behind it counts the calm decisions. -/
theorem Tracks.moved (tracks : Tracks settings history controller)
    {counted : AdaptiveController Rate} (sameWidth : counted.width = controller.width)
    (sameCadences : counted.shrinkCadences = controller.shrinkCadences)
    (positive : 0 < observation.nowNs) {decision : ControllerDecision Rate}
    (previous : decision.previousWidth = controller.width) (widthEq : decision.width =
      (move settings counted decision.starvation observation.bytesPerSecond).width)
    (reasonEq : decision.reason =
      (move settings counted decision.starvation observation.bytesPerSecond).reason)
    (starved : decision.starvation = true ↔
      (∃ seen ∈ pending history ++ [observation], seen.stalled = true) ∨
        observation.occupied < observation.batchSize) (widthAfter : after.width = decision.width)
    (cadencesAfter : after.shrinkCadences =
      (move settings counted decision.starvation observation.bytesPerSecond).shrinkCadences)
    (restAfter : after.lastDecisionNs = some observation.nowNs ∧ after.batches = 0 ∧
      after.stalled = false) :
    Sound settings history observation decision ∧
      Tracks settings (history ++ [(observation, .decided decision)]) after := by
  obtain ⟨earlier, held, split, cadences, calm⟩ := tracks.calm
  have range := tracks.range
  rw [← sameWidth] at range
  have moves := move_range decision.starvation observation.bytesPerSecond range
  rw [← widthEq, sameWidth, ← previous] at moves
  refine ⟨⟨previous.trans tracks.live, moves.1, moves.2, starved, fun shrinks => ?_⟩, ?_⟩
  · rw [reasonEq, widthEq, previous, ← sameWidth] at shrinks
    obtain ⟨fed, under, enough⟩ := move_shrinks range.2 shrinks
    rw [sameCadences, ← cadences] at enough
    exact ⟨fed, under, earlier, held, split, enough, calm⟩
  · refine ⟨?_, ?_, ?_, ?_, ?_, ?_, ?_⟩
    · rw [liveWidth_concat, widthAfter]
    · rw [widthAfter]
      exact moves.1
    · rw [reference_concat, restAfter.1]
    · rw [restAfter.1]
      rintro _ ⟨⟩
      exact positive
    · rw [pending_concat, restAfter.2.1]
      rfl
    · rw [pending_concat, restAfter.2.2]
      rfl
    · rw [decided_concat, cadencesAfter]
      rcases move_calm counted decision.starvation observation.bytesPerSecond
        with again | ⟨more, fed, under, same⟩
      · exact ⟨decided history ++ [(observation, decision)], [], (List.append_nil _).symm,
          again.symm, nofun⟩
      · refine ⟨earlier, held ++ [(observation, decision)], ?_, ?_, ?_⟩
        · rw [split, List.append_assoc]
        · rw [more, sameCadences, ← cadences, List.length_append]
          rfl
        · rintro entry member
          rcases List.mem_append.mp member with before | last
          · exact calm entry before
          · obtain rfl := List.mem_singleton.mp last
            exact ⟨fed, under, widthEq.trans (same.trans (sameWidth.trans previous.symm))⟩

/-- An observation is answered as its history calls for it, and the counters go on to track. -/
theorem Tracks.observe [LE Rate] [DecidableLE Rate] [Zero Rate] [NatCast Rate] [Add Rate]
    [Sub Rate] [Mul Rate] [Div Rate] (tracks : Tracks settings history controller)
    (positive : 0 < observation.nowNs) (measured : ¬observation.bytesPerSecond < 0)
    (observeEq : AdaptiveController.observe settings controller observation = (answer, after)) :
    Lawful settings history observation answer ∧
      Tracks settings (history ++ [(observation, answer)]) after := by
  have starved := @Tracks.starved_iff _ _ _ _ _ _ observation tracks
  have counted := tracks.counted positive
  unfold AdaptiveController.observe at observeEq
  simp only [tracks.lastDecision_eq] at observeEq
  rw [tracks.batches] at observeEq
  split at observeEq
  · rename_i early
    obtain ⟨rfl, rfl⟩ := Prod.mk.inj observeEq
    rw [tracks.batches] at counted
    refine ⟨⟨Or.inl rfl, iff_of_false nofun ?_, nofun⟩, counted⟩
    rintro ⟨many, long⟩
    omega
  · rename_i due
    obtain ⟨many, long⟩ := not_or.mp due
    generalize ((controller.stalled || observation.stalled) ||
      decide (observation.occupied < observation.batchSize)) = starvation at starved observeEq
    have range := (move_range starvation observation.bytesPerSecond counted.range).1.1
    rw [tracks.batches] at range
    obtain ⟨loss, scoreEq⟩ := settings.objective.score_eq range measured starvation
      settings.workShape settings.cluster
    rw [scoreEq] at observeEq
    obtain ⟨rfl, rfl⟩ := Prod.mk.inj observeEq
    apply And.imp_left _ (tracks.moved rfl rfl positive rfl rfl rfl starved rfl rfl
      ⟨rfl, rfl, rfl⟩)
    intro sound
    refine ⟨Or.inr ⟨_, rfl⟩, iff_of_true ⟨_, rfl⟩ ⟨by omega, by omega⟩, ?_⟩
    rintro _ ⟨⟩
    exact sound

/-- Over every run the live width is that of the last decision and in its range, and every
observation is answered as its history calls for it. -/
theorem adaptive_controller_laws [LE Rate] [DecidableLE Rate] [Zero Rate] [NatCast Rate]
    [Add Rate] [Sub Rate] [Mul Rate] [Div Rate] (settings : ControllerSettings Rate)
    {observations : List (Observation Rate)}
    (positive : ∀ observation ∈ observations, 0 < observation.nowNs)
    (measured : ∀ observation ∈ observations, ¬observation.bytesPerSecond < 0) :
    ∃ history controller,
      (machine settings).run (new settings) observations = some (history, controller) ∧
      controller.width = liveWidth settings history ∧
      (1 ≤ controller.width ∧ controller.width ≤ settings.widthCeiling) ∧
      ∀ before observation answer rest, history = before ++ (observation, answer) :: rest →
        Lawful settings before observation answer := by
  have total : ∀ controller observation, True → ∃ answer after,
      (machine settings).step controller observation = some (answer, after) :=
    fun controller observation _ => ⟨_, _, rfl⟩
  obtain ⟨history, controller, reached⟩ :=
    (machine settings).run_total (fun _ _ _ _ _ _ => trivial) total trivial observations
  have guarded := (machine settings).along_of_labels (new settings) fun observation member =>
    And.intro (positive observation member) (measured observation member)
  obtain ⟨tracks, lawful⟩ := (machine settings).run_history
    (fun _ _ _ _ _ tracks allowed stepEq =>
      Tracks.observe tracks allowed.1 allowed.2 (Option.some.inj stepEq))
    (tracks_new settings) guarded reached
  exact ⟨history, controller, reached, tracks.live, tracks.range, lawful⟩

end Runs

end Laws

/-- Four workers under a hysteresis of two. -/
def fourWorkers : ControllerSettings Int where
  widthCeiling := 4
  cadenceNs := 10
  cadenceBatches := 2
  stepClip := 1
  shrinkHysteresis := 2
  cpuCeilingBinding := false
  bandwidthCeiling := none
  objective := ⟨none⟩
  workShape := "compute"
  cluster := "all"
  ceiling_pos := by decide
  batches_pos := by decide
  clip_pos := Nat.one_pos
  hysteresis_pos := by decide

def fedDeliveries : List (Observation Int) :=
  [⟨10, false, 8, 2, 0⟩, ⟨20, false, 8, 2, 0⟩, ⟨30, false, 8, 2, 0⟩, ⟨40, false, 8, 2, 0⟩]

/-- Two fed decisions give up a worker. -/
theorem adaptive_controller_laws_four_workers :
    ∃ history controller,
      (machine fourWorkers).run (new fourWorkers) fedDeliveries = some (history, controller) ∧
      controller.width = 3 ∧ controller.width = liveWidth fourWorkers history ∧
      ∀ before observation answer rest, history = before ++ (observation, answer) :: rest →
        Lawful fourWorkers before observation answer := by
  obtain ⟨history, controller, reached, live, -, lawful⟩ :=
    adaptive_controller_laws fourWorkers (show ∀ observation ∈ fedDeliveries,
      0 < observation.nowNs by decide) (by decide)
  refine ⟨history, controller, reached, ?_, live, lawful⟩
  have width : ((machine fourWorkers).run (new fourWorkers) fedDeliveries).map (·.2.width) =
      some 3 := by decide
  rw [reached] at width
  exact Option.some.inj width

def negativeDeliveries : List (Observation Int) :=
  [⟨10, false, 8, 2, 0⟩, ⟨20, false, 8, 2, -1⟩, ⟨30, false, 8, 2, -1⟩]

/-- At a negative rate the objective refuses the inputs once the width has moved, so that the
width falls from four workers to three without a decision. -/
theorem negative_rate_moves_width :
    (∀ observation ∈ negativeDeliveries, 0 < observation.nowNs) ∧
    (negativeDeliveries.map Observation.nowNs).Pairwise (· ≤ ·) ∧
    ∃ history controller,
      (machine fourWorkers).run (new fourWorkers) negativeDeliveries =
        some (history, controller) ∧
      (new fourWorkers).width = 4 ∧ controller.width = 3 ∧ decided history = [] :=
  ⟨by decide, by decide, _, _, rfl, rfl, rfl, rfl⟩

end AdaptiveController

end Hyperloader.Control
