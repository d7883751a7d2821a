/-
Module: Hyperloader.Owner.Commands
Purpose: The commands of a process pool's owner over whole runs: how often each was accepted,
  completed and reported by a reclaim, and what a restart that finds no new ring loses.
Trusted boundary: as in `Resources`
Main exports: Owned, Renews, call_ensures, commands_conserved, restart_loses_command
-/
import Hyperloader.Owner.Conservation

namespace Hyperloader.Owner

open Foundations
open Arena (Creation Idle Current)
open Transport (SlotRef)

/-! ### What happens to a command -/

/-- An entry of a run. -/
abbrev Entry := ResourceCall × Except ResourcesError ResourceAnswer

/-- How often an entry accepts a command. -/
def accepted (key : CommandKey) : Entry → Nat
  | (.trySubmit _ _ _ position _ _ worker _, .ok (.submitted true)) =>
      if (worker, position) = key then 1 else 0
  | (.trySubmitCommand _ _ position _ worker _, .ok (.submitted true)) =>
      if (worker, position) = key then 1 else 0
  | _ => 0

/-- How often an entry delivers the completion of a command. -/
def completed (key : CommandKey) : Entry → Nat
  | (.tryReceive worker _, .ok (.received (some completion))) =>
      if (worker, completion.position) = key then 1 else 0
  | _ => 0

/-- How often an entry reports a command as reclaimed. -/
def reported (key : CommandKey) : Entry → Nat
  | (.reclaimDeadWorker worker, .ok (.reclaimed positions)) =>
      if worker = key.1 then positions.count key.2 else 0
  | (.restartWorker worker _, .ok (.reclaimed positions)) =>
      if worker = key.1 then positions.count key.2 else 0
  | _ => 0

def total (count : Entry → Nat) (trace : List Entry) : Nat := (trace.map count).sum

/-- How often a command is pending. -/
def pendingCount (key : CommandKey) (pending : List (CommandKey × PendingSlots)) : Nat :=
  (pending.map Prod.fst).count key

/-- A submission, and the worker and the position it is for. -/
def ResourceCall.submission : ResourceCall → Option CommandKey
  | .trySubmit _ _ _ position _ _ worker _ => some (worker, position)
  | .trySubmitCommand _ _ position _ worker _ => some (worker, position)
  | _ => none

/-- A restart that takes pending commands away gets its new ring. -/
def Renews (resources : ProcessResources) : ResourceCall → Prop
  | .restartWorker worker create =>
      resources.positionsOf worker = [] ∨ Renewable resources worker create
  | _ => True

/-- The slots that are written belong to the pending commands: each to one of them, and each of
them has two. -/
structure Owned (resources : ProcessResources) : Prop where
  belongs : ∀ slab slot entry ref worker, Current resources.allocator.slabs ref slab slot entry →
    entry.state = .writing worker →
      ∃! command, command ∈ resources.pending ∧ command.1.1 = worker ∧
        (ref = command.2.primary ∨ ref = command.2.exception)
  owns : ∀ command ∈ resources.pending, command.2.primary ≠ command.2.exception ∧
    ∀ ref, ref = command.2.primary ∨ ref = command.2.exception →
      ∃ slab slot entry, Current resources.allocator.slabs ref slab slot entry ∧
        entry.state = .writing command.1.1

section Laws

variable {first : Nat} {resources after : ProcessResources} {key : CommandKey}

variable {pending : List (CommandKey × PendingSlots)}

/-- A slot is held when a pending command has it for payload or exception. -/
theorem mem_held_iff {worker : UInt32} {ref : SlotRef} :
    (worker, ref) ∈ held pending ↔
      ∃ command ∈ pending, command.1.1 = worker ∧
        (ref = command.2.primary ∨ ref = command.2.exception) := by
  unfold held
  rw [List.mem_flatMap]
  simp only [List.mem_cons, List.not_mem_nil, or_false, Prod.mk.injEq]
  grind

/-- Commands that hold a slot in common are one command. -/
theorem holder_unique (distinct : ((held pending).map Prod.snd).Nodup)
    {one two : CommandKey × PendingSlots} (isOne : one ∈ pending) (isTwo : two ∈ pending)
    {ref : SlotRef} (left : ref = one.2.primary ∨ ref = one.2.exception)
    (right : ref = two.2.primary ∨ ref = two.2.exception) : one = two := by
  induction pending with
  | nil => nomatch isOne
  | cons head rest ih =>
      have apart : ∀ command ∈ rest, ∀ ref, ref = head.2.primary ∨ ref = head.2.exception →
          ref = command.2.primary ∨ ref = command.2.exception → False := by
        intro command member ref isHead isCommand
        have listed : ref ∈ (held rest).map Prod.snd :=
          List.mem_map.mpr ⟨(command.1.1, ref),
            mem_held_iff.mpr ⟨command, member, rfl, isCommand⟩, rfl⟩
        have shape : (held (head :: rest)).map Prod.snd =
          [head.2.primary, head.2.exception] ++ (held rest).map Prod.snd := rfl
        rw [shape, List.nodup_append] at distinct
        exact distinct.2.2 ref (by simpa using isHead) ref listed rfl
      rcases List.mem_cons.mp isOne with rfl | inRest
      · rcases List.mem_cons.mp isTwo with rfl | later
        · rfl
        · exact (apart two later ref left right).elim
      · rcases List.mem_cons.mp isTwo with rfl | later
        · exact (apart one inRest ref right left).elim
        · have tail : ((held rest).map Prod.snd).Nodup :=
            (List.nodup_cons.mp (List.nodup_cons.mp distinct).2).2
          exact ih tail inRest later

theorem Kept.owned (kept : Kept first resources) : Owned resources := by
  have planned := kept.writing.planned
  constructor
  · intro slab slot entry ref worker current state
    have written := (Arena.writer_eq_some_iff planned).mpr ⟨slab, slot, entry, current, state⟩
    obtain ⟨command, member, same, its⟩ :=
      mem_held_iff.mp ((kept.writing.written ref worker).mp written)
    refine ⟨command, ⟨member, same, its⟩, ?_⟩
    rintro other ⟨listed, -, also⟩
    exact holder_unique kept.writing.distinct listed member also its
  · intro command member
    constructor
    · intro same
      have distinct := kept.writing.distinct
      obtain ⟨front, back, split⟩ := List.append_of_mem member
      have shape : (held resources.pending).map Prod.snd =
          (held front).map Prod.snd ++
            command.2.primary :: command.2.exception :: (held back).map Prod.snd := by
        rw [split]
        unfold held
        rw [List.flatMap_append, List.map_append]
        rfl
      rw [shape, same] at distinct
      have pair := (List.nodup_append.mp distinct).2.1
      exact (List.nodup_cons.mp pair).1 List.mem_cons_self
    · intro ref its
      exact kept.writing.current (mem_held_iff.mpr ⟨command, member, rfl, its⟩)

/-! ### One call -/

/-- What one call does to the commands and the slots. -/
structure Law (first : Nat) (base : ProcessResources) (call : ResourceCall)
    (event : Except ResourcesError ResourceAnswer) (after : ProcessResources) : Prop where
  kept : Kept first after
  balanced : ∀ key, accepted key (call, event) + pendingCount key base.pending =
    completed key (call, event) + reported key (call, event) + pendingCount key after.pending
  undone : call.submission.isSome → event ≠ .ok (.submitted true) →
    after.pending = base.pending ∧
      ∀ slab slot, Idle base.allocator.slabs slab slot → Idle after.allocator.slabs slab slot

theorem pendingCount_cons (command : CommandKey × PendingSlots)
    (pending : List (CommandKey × PendingSlots)) :
    pendingCount key (command :: pending) =
      pendingCount key pending + if command.1 = key then 1 else 0 := by
  unfold pendingCount
  rw [List.map_cons, List.count_cons]
  simp only [beq_iff_eq]

variable {base : ProcessResources}

theorem Midway.idle (undone : Undone first base after) (slab slot : Nat)
    (idle : Idle base.allocator.slabs slab slot) : Idle after.allocator.slabs slab slot := by
  rcases undone.lent slab slot idle with same | ⟨ref, member, -⟩
  · exact same
  · nomatch member

variable {call : ResourceCall}

/-- The law of a submission. -/
theorem submission_law (kept : Kept first base) {submitted : CommandKey}
    (accepts : ∀ key, accepted key (call, .ok (.submitted true)) = if submitted = key then 1 else 0)
    (refuses : ∀ key event, event ≠ .ok (.submitted true) → accepted key (call, event) = 0)
    (silent : ∀ key event, completed key (call, event) = 0 ∧ reported key (call, event) = 0)
    {effect : Effect Bool} (ensured : Ensures effect base
      (fun accepted after =>
        if accepted then Accepted first base submitted after else Undone first base after)
      (fun _ after => Undone first base after)) :
    Ensures (.submitted <$> effect) base (fun answer after => Law first base call (.ok answer) after)
      (fun error after => Law first base call (.error error) after) := by
  have lawful {event : Except ResourcesError ResourceAnswer} {after : ProcessResources}
      (different : event ≠ .ok (.submitted true)) (undone : Undone first base after) :
      Law first base call event after := by
    refine ⟨undone.kept kept, fun key => ?_, fun _ _ => ⟨undone.pending, undone.idle⟩⟩
    rw [refuses key event different, (silent key event).1, (silent key event).2, undone.pending]
  apply ensures_map
  apply ensured.weaken
  · intro answer after done
    cases answer with
    | false => exact lawful (by simp) done
    | true =>
        obtain ⟨keeps, fresh, slots, pending⟩ := (if_pos rfl).mp done
        refine ⟨keeps, fun key => ?_, fun _ other => absurd rfl other⟩
        rw [accepts, (silent key _).1, (silent key _).2, pending, pendingCount_cons]
        dsimp only
        omega
  · intro error after undone
    exact lawful nofun undone

/-- A command taken off the pending list counts once less. -/
theorem pendingCount_without {gone : CommandKey} (keyed : (pending.map Prod.fst).Nodup)
    (was : gone ∈ pending.map Prod.fst) :
    pendingCount key pending =
      (if gone = key then 1 else 0) + pendingCount key (without pending gone) := by
  have kept : (without pending gone).map Prod.fst = (pending.map Prod.fst).erase gone := by
    rw [keyed.erase_eq_filter, List.filter_map]
    unfold without
    congr 1
    apply List.filter_congr
    intro entry _
    by_cases same : entry.1 = gone
    · simp [same]
    · simp [same]
  unfold pendingCount
  rw [kept, List.count_erase]
  simp only [beq_iff_eq]
  by_cases same : gone = key
  · have some : 0 < (pending.map Prod.fst).count key := List.count_pos_iff.mpr (same ▸ was)
    rw [if_pos same]
    omega
  · rw [if_neg same]
    omega

/-- Sparing a worker leaves the counts of the others. -/
theorem pendingCount_spare (base : ProcessResources) (worker : UInt32) :
    pendingCount key base.pending =
      (if worker = key.1 then (base.positionsOf worker).count key.2 else 0) +
        pendingCount key (spare base.pending worker) := by
  unfold ProcessResources.positionsOf spare
  induction base.pending with
  | nil => simp [pendingCount]
  | cons entry rest ih =>
      obtain ⟨⟨owner, position⟩, slots⟩ := entry
      obtain ⟨keyWorker, keyPosition⟩ := key
      rw [pendingCount_cons, ih]
      by_cases same : owner = worker
      · subst same
        by_cases its : owner = keyWorker
        · subst its
          by_cases exact_ : position = keyPosition
          · simp [exact_]
            omega
          · simp [exact_]
        · simp [its]
      · by_cases its : worker = keyWorker
        · subst its
          simp [same, pendingCount_cons]
        · simp [same, its, pendingCount_cons]

variable {event : Except ResourcesError ResourceAnswer}

/-- A call that leaves the pending table and says nothing of a command. -/
theorem Stayed.law (stayed : Stayed first base after) (other : call.submission = none)
    (silent : ∀ key, accepted key (call, event) = 0 ∧ completed key (call, event) = 0 ∧
      reported key (call, event) = 0) : Law first base call event after := by
  refine ⟨stayed.kept, fun key => ?_, fun submits => ?_⟩
  · obtain ⟨accepts, completes, reports⟩ := silent key
    rw [accepts, completes, reports, stayed.pending]
  · rw [other] at submits
    nomatch submits

/-- A call that reports the commands it took away. -/
theorem Taken.law {worker : UInt32} (taken : Taken first base worker after)
    (other : call.submission = none)
    (silent : ∀ key event, accepted key (call, event) = 0 ∧ completed key (call, event) = 0)
    (reports : ∀ key positions, reported key (call, .ok (.reclaimed positions)) =
      if worker = key.1 then positions.count key.2 else 0) :
    Law first base call (.ok (.reclaimed (base.positionsOf worker))) after := by
  refine ⟨taken.kept, fun key => ?_, fun submits => ?_⟩
  · rw [(silent key _).1, (silent key _).2, reports, taken.pending,
      pendingCount_spare base worker]
    omega
  · rw [other] at submits
    nomatch submits

theorem spare_of_none {worker : UInt32} (none : base.positionsOf worker = []) :
    spare base.pending worker = base.pending := by
  apply List.filter_eq_self.mpr
  intro entry member
  apply decide_eq_true
  intro same
  have listed : entry.1.2 ∈ base.positionsOf worker :=
    List.mem_map.mpr ⟨entry, List.mem_filter.mpr ⟨member, decide_eq_true same⟩, rfl⟩
  rw [none] at listed
  exact List.not_mem_nil listed

/-- One call, whatever its allocator and its rings answer. -/
theorem call_ensures (kept : Kept first base) (renews : Renews base call) :
    Ensures (ProcessResources.call call) base
      (fun answer after => Law first base call (.ok answer) after)
      (fun error after => Law first base call (.error error) after) := by
  have same : Stayed first base base := ⟨kept, rfl⟩
  cases call with
  | trySubmit create room epoch position index stagePlan worker batchLen =>
      apply submission_law kept _ _ _
        (trySubmit_ensures kept create room epoch position index stagePlan worker batchLen)
      · exact fun key => rfl
      · rintro key (error | (_ | _) | _ | _ | _) different <;> first | rfl | exact absurd rfl different
      · exact fun key event => ⟨rfl, rfl⟩
  | trySubmitCommand create room position stagePlan worker payload =>
      apply submission_law kept _ _ _
        (trySubmitCommand_ensures kept create room position stagePlan worker payload)
      · exact fun key => rfl
      · rintro key (error | (_ | _) | _ | _ | _) different <;> first | rfl | exact absurd rfl different
      · exact fun key event => ⟨rfl, rfl⟩
  | tryReceive worker popped =>
      apply ensures_map
      apply (tryReceive_ensures kept worker popped).weaken
      · intro received after done
        cases received with
        | none =>
            subst done
            exact same.law rfl fun key => ⟨rfl, rfl, rfl⟩
        | some completion =>
            refine ⟨done.kept, fun key => ?_, nofun⟩
            rw [done.pending, pendingCount_without kept.keyed done.was]
            show 0 + _ = (if (worker, completion.position) = key then 1 else 0) + 0 + _
            omega
      · rintro error after rfl
        exact same.law rfl fun key => ⟨rfl, rfl, rfl⟩
  | reclaimDeadWorker worker =>
      apply ensures_map
      apply (reclaimDeadWorker_ensures kept worker).weaken
      · rintro positions after ⟨rfl, reclaimed, -⟩
        have taken : Taken first base worker after := ⟨reclaimed.kept, reclaimed.pending⟩
        exact taken.law rfl (fun key event => ⟨rfl, rfl⟩) fun key positions => rfl
      · rintro error after ⟨rfl, -⟩
        exact same.law rfl fun key => ⟨rfl, rfl, rfl⟩
  | restartWorker worker create =>
      apply ensures_map
      apply (restartWorker_ensures kept worker create).weaken
      · rintro positions after ⟨rfl, taken⟩
        exact taken.law rfl (fun key event => ⟨rfl, rfl⟩) fun key positions => rfl
      · rintro error after (rfl | ⟨taken, lost⟩)
        · exact same.law rfl fun key => ⟨rfl, rfl, rfl⟩
        · rcases renews with none | renewable
          · have stayed : Stayed first base after :=
              ⟨taken.kept, taken.pending.trans (spare_of_none none)⟩
            exact stayed.law rfl fun key => ⟨rfl, rfl, rfl⟩
          · exact absurd renewable lost
  | dropBuffer view =>
      apply ensures_bind
      · apply (dropView_ensures kept view).weaken (fun _ _ stayed => stayed)
        exact fun _ _ impossible => impossible.elim
      · intro _ after stayed
        exact ensures_pure (stayed.law rfl fun key => ⟨rfl, rfl, rfl⟩)

/-- What a call ensures of its answer or its error holds of its event. -/
theorem step_ensures {base : ProcessResources} {call : ResourceCall}
    {holds : Except ResourcesError ResourceAnswer → ProcessResources → Prop}
    (ensured : Ensures (ProcessResources.call call) base (fun answer => holds (.ok answer))
      fun error => holds (.error error)) {event : Except ResourcesError ResourceAnswer}
    (stepEq : ProcessResources.machine.step base call = some (event, after)) :
    holds event after := by
  unfold Ensures at ensured
  unfold ProcessResources.machine at stepEq
  dsimp only at stepEq
  split at stepEq
  · rename_i answer next done
    rw [done] at ensured
    cases stepEq
    exact ensured
  · rename_i error next done
    rw [done] at ensured
    cases stepEq
    exact ensured

theorem step_preserves {invariant : ProcessResources → Prop}
    (preserved : Preserves invariant (ProcessResources.call call)) (holds : invariant base)
    (stepEq : ProcessResources.machine.step base call = some (event, after)) : invariant after :=
  @step_ensures after base call (fun _ => invariant) (preserved base holds) event stepEq

/-- Every call obeys the law of its kind. -/
theorem step_law (kept : Kept first base) (renews : Renews base call)
    (stepEq : ProcessResources.machine.step base call = some (event, after)) :
    Law first base call event after := step_ensures (call_ensures kept renews) stepEq

/-- The slots stay with the commands even where a restart finds no new ring. -/
theorem kept_call (call : ResourceCall) : Preserves (Kept first) (ProcessResources.call call) := by
  intro base kept
  by_cases renews : Renews base call
  · apply (call_ensures kept renews).weaken
    · exact fun _ _ law => law.kept
    · exact fun _ _ law => law.kept
  · cases call with
    | restartWorker worker create =>
        apply ensures_map
        apply (restartWorker_ensures kept worker create).weaken
        · exact fun _ _ both => both.2.kept
        · rintro error after (rfl | ⟨taken, -⟩)
          · exact kept
          · exact taken.kept
    | _ => exact absurd trivial renews

end Laws

/-! ### Runs -/

/-- What holds between the entries of a run and the resources it ends in. -/
structure Conserved (first : Nat) (trace : List Entry) (resources : ProcessResources) : Prop where
  kept : Kept first resources
  balanced : ∀ key, total (accepted key) trace =
    total (completed key) trace + total (reported key) trace + pendingCount key resources.pending

theorem total_concat (count : Entry → Nat) (trace : List Entry) (entry : Entry) :
    total count (trace ++ [entry]) = total count trace + count entry := by
  unfold total
  rw [List.map_append, List.sum_append, List.map_singleton, List.sum_singleton]

/-- One call keeps the account of slots. -/
theorem Conserved.step {first : Nat} {trace : List Entry} {resources after : ProcessResources}
    (conserved : Conserved first trace resources) {call : ResourceCall}
    (renews : Renews resources call) {event : Except ResourcesError ResourceAnswer}
    (stepEq : ProcessResources.machine.step resources call = some (event, after)) :
    Conserved first (trace ++ [(call, event)]) after := by
  have law := step_law conserved.kept renews stepEq
  refine ⟨law.kept, fun key => ?_⟩
  have before := conserved.balanced key
  have one := law.balanced key
  rw [total_concat, total_concat, total_concat]
  omega

/-- No call is stuck. -/
theorem exists_step (resources : ProcessResources) (call : ResourceCall) :
    ∃ event after, ProcessResources.machine.step resources call = some (event, after) := by
  unfold ProcessResources.machine
  dsimp only
  split
  · exact ⟨_, _, rfl⟩
  · exact ⟨_, _, rfl⟩

/-- Every list of calls runs: a refused call answers with its error. -/
theorem exists_run (resources : ProcessResources) (calls : List ResourceCall) :
    ∃ trace final, ProcessResources.machine.run resources calls = some (trace, final) :=
  ProcessResources.machine.run_total (fun _ _ _ _ (_ : True) _ => trivial)
    (fun resources call _ => exists_step resources call) trivial calls

/-- In every run whose restarts get their rings: the slots that are written are those of the
pending commands; each command was accepted as often as it was completed, reported or is
pending; and a submission that fails or finds no room changes neither the pending table nor
a free slot. -/
theorem commands_conserved {create : Creation} {workerCount : UInt32}
    {queueCapacity payloadCapacity exceptionCapacity : Nat} {bytes : Nat → Nat → UInt8}
    {opened final : ProcessResources} {calls : List ResourceCall} {trace : List Entry}
    (isOpened : ProcessResources.new create workerCount queueCapacity payloadCapacity
      exceptionCapacity bytes = .ok opened)
    (renews : ProcessResources.machine.Along Renews opened calls)
    (reached : ProcessResources.machine.run opened calls = some (trace, final)) :
    Owned final ∧
      (∀ key, total (accepted key) trace = total (completed key) trace +
        total (reported key) trace + pendingCount key final.pending) ∧
      ∀ call event after, call.submission.isSome → event ≠ .ok (.submitted true) →
        ProcessResources.machine.step final call = some (event, after) →
          after.pending = final.pending ∧ ∀ slab slot, Idle final.allocator.slabs slab slot →
            Idle after.allocator.slabs slab slot := by
  obtain ⟨empty, first, kept⟩ := kept_new isOpened
  have start : Conserved first [] opened := by
    refine ⟨kept, fun key => ?_⟩
    rw [empty]
    rfl
  have conserved := ProcessResources.machine.run_induction
    (motive := fun trace resources => Conserved first trace resources)
    (fun _ _ _ _ _ before allowed stepEq => before.step allowed stepEq) [] start renews reached
  refine ⟨conserved.kept.owned, conserved.balanced, ?_⟩
  intro call event after submits refused stepEq
  have free : Renews final call := by
    cases call <;> trivial
  exact (step_law conserved.kept free stepEq).undone submits refused

/-- A command submitted and its worker reclaimed. -/
def reclaiming : List ResourceCall :=
  [.trySubmit (fun _ _ => .ok ()) true 0 5 5 0 0 1, .reclaimDeadWorker 0]

theorem commands_conserved_reclaiming :
    ∃ opened trace final, ProcessResources.new (fun _ _ => .ok ()) 1 2 64 32 (fun _ _ => 0) =
        .ok opened ∧
      ProcessResources.machine.run opened reclaiming = some (trace, final) ∧ Owned final := by
  obtain ⟨opened, isOpened⟩ : ∃ opened, ProcessResources.new (fun _ _ => .ok ()) 1 2 64 32
      (fun _ _ => 0) = .ok opened := ⟨_, rfl⟩
  obtain ⟨trace, final, reached⟩ := exists_run opened reclaiming
  have renews : ProcessResources.machine.Along Renews opened reclaiming :=
    ⟨trivial, fun _ _ _ => ⟨trivial, fun _ _ _ => trivial⟩⟩
  exact ⟨opened, trace, final, isOpened, reached,
    (commands_conserved isOpened renews reached).1⟩

/-- A command whose worker is restarted without a new ring: it is pending no longer, and no
answer says so. -/
theorem restart_loses_command :
    ∃ opened trace final, ProcessResources.new (fun _ _ => .ok ()) 1 2 64 32 (fun _ _ => 0) =
        .ok opened ∧
      ProcessResources.machine.run opened
        [.trySubmit (fun _ _ => .ok ()) true 0 5 5 0 0 1,
          .restartWorker 0 fun _ _ => .error "region exists"] = some (trace, final) ∧
      total (accepted (0, 5)) trace = 1 ∧ total (completed (0, 5)) trace = 0 ∧
      total (reported (0, 5)) trace = 0 ∧ final.pending = [] := by
  have checked : (match ProcessResources.new (fun _ _ => .ok ()) 1 2 64 32 (fun _ _ => 0) with
      | .error _ => false
      | .ok opened =>
          match ProcessResources.machine.run opened
            [.trySubmit (fun _ _ => .ok ()) true 0 5 5 0 0 1,
              .restartWorker 0 fun _ _ => .error "region exists"] with
          | none => false
          | some (trace, final) =>
              decide (total (accepted (0, 5)) trace = 1 ∧ total (completed (0, 5)) trace = 0 ∧
                total (reported (0, 5)) trace = 0 ∧ final.pending = [])) = true := by
    decide +kernel
  split at checked
  · nomatch checked
  rename_i opened isOpened
  split at checked
  · nomatch checked
  rename_i trace final reached
  exact ⟨opened, trace, final, isOpened, reached, of_decide_eq_true checked⟩

end Hyperloader.Owner
