/-
Module: Hyperloader.Process.EpochProgress
Purpose: The epochs that the iterations of a map loader begin in, epoch.py with `__iter__`, set
  against what its overrides, deliveries and completed epochs call for, over any order of calls.
Trusted boundary: an exhausted iterator stays exhausted, and runs one `__next__` at a time, in the
  consumer's thread or in a staging thread, which may outlive the consumer's reference.
Main exports: EpochLoader.machine, Expected, Progresses, Undisturbed, epochs_progress_iff
-/
import Hyperloader.Process.Epochs

namespace Hyperloader.Process

open Foundations

/-- The epoch that the next iteration begins in. -/
def EpochState.next (epochs : EpochState) : Nat := epochs.beginIteration.2.current

/-- An iterator of a map loader.  It is `busy` while a call of its `__next__` runs, and `alive`
while something refers to it. -/
structure EpochIterator where
  epoch : Nat
  valid : Bool
  complete : Bool
  busy : Bool
  alive : Bool

/-- A map loader with all its iterators.  `active` is the iterator it still refers to, through a
weak reference to its outermost wrapper; `current` is that of the last begun iteration, if its
construction did not raise. -/
structure EpochLoader where
  epochs : EpochState
  iterators : List EpochIterator
  active : Option Nat
  current : Option Nat

namespace EpochLoader

/-- How far a call of `__next__` came. -/
inductive Outcome where
  | delivered
  | exhausted
  | nothing
deriving DecidableEq

/-- What can happen to a map loader.  An iteration constructs its iterator or raises, and a call
of `__next__` that raises may close the loader.  The loader's weak reference may expire while a
staging thread still runs the iterator behind it. -/
inductive Label where
  | setEpoch (epoch : Nat)
  | loadStateDict (epoch : Nat)
  | close
  | iterate (constructs : Bool)
  | enter (iterator : Nat)
  | leave (iterator : Nat) (outcome : Outcome) (closes : Bool)
  | drop (iterator : Nat)
  | expire

/-- What a step shows.  A report tells whether its iterator is the current one and whether it
counts as a delivery or an end, with the loader's epochs before and after it. -/
inductive Event where
  | quiet
  | refused
  | began (epoch : Nat)
  | reported (own counts : Bool) (before after : EpochState)

def start : EpochLoader := ⟨.new, [], none, none⟩

/-- `DataLoader.close` -/
def close (loader : EpochLoader) : EpochLoader :=
  match loader.active with
  | none => loader
  | some place =>
      { loader with
        iterators := loader.iterators.modify place fun iterator => { iterator with valid := false }
        active := none }

/-- `begin_iteration`, and only then the close of an iterator that is not complete. -/
def beginIteration (loader : EpochLoader) : EpochLoader :=
  let begun := { loader with epochs := loader.epochs.beginIteration.2 }
  match loader.active.bind (loader.iterators[·]?) with
  | some iterator => if iterator.complete then begun else begun.close
  | none => begun

/-- `DataLoader.__iter__` -/
def iterate (loader : EpochLoader) (constructs : Bool) : EpochLoader :=
  let begun := loader.beginIteration
  if constructs then
    { begun with
      iterators := begun.iterators ++ [⟨begun.epochs.current, true, false, false, true⟩]
      active := some begun.iterators.length
      current := some begun.iterators.length }
  else { begun with current := none }

/-- The outcome changes the loader's epochs: `_finish_epoch` does so once. -/
def counts (outcome : Outcome) (iterator : EpochIterator) : Bool :=
  match outcome with
  | .delivered => true
  | .exhausted => !iterator.complete
  | .nothing => false

/-- The epochs after an outcome. -/
def record (epochs : EpochState) (outcome : Outcome) (iterator : EpochIterator) : EpochState :=
  match outcome with
  | .delivered => epochs.markDelivered iterator.epoch
  | .exhausted => if iterator.complete then epochs else epochs.complete iterator.epoch
  | .nothing => epochs

/-- A call of `__next__` reports its outcome. -/
def report (loader : EpochLoader) (place : Nat) (iterator : EpochIterator) (outcome : Outcome)
    (closes : Bool) : EpochLoader :=
  { loader with
    epochs := record loader.epochs outcome iterator
    iterators := loader.iterators.set place
      { iterator with
        busy := false
        complete := iterator.complete || (outcome = .exhausted && !closes) } }

/-- The end of a call of `__next__`. -/
def leave (loader : EpochLoader) (place : Nat) (iterator : EpochIterator) (outcome : Outcome)
    (closes : Bool) : EpochLoader :=
  let reported := loader.report place iterator outcome closes
  if closes then reported.close else reported

def step (loader : EpochLoader) : Label → Option (Event × EpochLoader)
  | .setEpoch epoch => some (.quiet, { loader with epochs := loader.epochs.setEpoch epoch })
  | .loadStateDict epoch =>
      some (.quiet, { loader.close with epochs := loader.epochs.restore epoch })
  | .close => some (.quiet, loader.close)
  | .iterate constructs => some (.began loader.epochs.next, loader.iterate constructs)
  | .enter place =>
      match loader.iterators[place]? with
      | none => none
      | some iterator =>
          if iterator.alive ∧ iterator.busy = false then
            if iterator.valid then
              some (.quiet,
                { loader with
                  iterators := loader.iterators.set place { iterator with busy := true } })
            else some (.refused, loader)
          else none
  | .leave place outcome closes =>
      match loader.iterators[place]? with
      | none => none
      | some iterator =>
          if iterator.busy ∧ (outcome = .delivered → iterator.complete = false) then
            let after := loader.leave place iterator outcome closes
            some
              (.reported (loader.current = some place) (counts outcome iterator)
                loader.epochs after.epochs,
                after)
          else none
  | .drop place =>
      match loader.iterators[place]? with
      | none => none
      | some iterator =>
          if iterator.alive ∧ iterator.busy = false then
            some (.quiet,
              { loader with
                iterators := loader.iterators.set place { iterator with alive := false }
                active := if loader.active = some place then none else loader.active })
          else none
  | .expire => some (.quiet, { loader with active := none })

/-- A map loader with its iterators, in any order of calls. -/
def machine : Machine EpochLoader Label Event where
  step := step

/-! ### What a run calls for -/

/-- The last begun epoch, whether its own iteration has delivered or ended since, and the override
set since. -/
structure Expected where
  epoch : Nat
  counted : Bool
  override : Option Nat

namespace Expected

/-- The epoch to begin in next: an override, or one epoch further where the last one delivered or
ended. -/
def next (expected : Expected) : Nat :=
  expected.override.getD (if expected.counted then expected.epoch + 1 else expected.epoch)

def step (expected : Expected) : Label × Event → Expected
  | (_, .began epoch) => ⟨epoch, false, none⟩
  | (_, .reported true true _ _) => { expected with counted := true }
  | (.setEpoch epoch, _) => { expected with override := some epoch }
  | (.loadStateDict epoch, _) => { expected with override := some epoch }
  | _ => expected

end Expected

/-- What a run calls for after some entries. -/
def expected (trace : List (Label × Event)) : Expected := trace.foldl Expected.step ⟨0, false, none⟩

def Began (entry : Label × Event) : Prop := ∃ epoch, entry.2 = .began epoch

/-- The current iteration delivered or ended. -/
def Counted (entry : Label × Event) : Prop :=
  ∃ before after, entry.2 = .reported true true before after

def Overrides (entry : Label × Event) : Prop :=
  ∃ epoch, entry.1 = .setEpoch epoch ∨ entry.1 = .loadStateDict epoch

/-- Iterations begin in the epochs called for, one past an epoch that delivered or ended unless an
override intervenes, and no iterator but the current one changes the loader's epoch or that of the
next iteration. -/
structure Progresses (trace : List (Label × Event)) : Prop where
  begins : ∀ before label epoch rest, trace = before ++ (label, .began epoch) :: rest →
    epoch = (expected before).next
  further : ∀ before label one own middle label' two rest,
    trace = before ++ (label, .began one) :: (own ++ middle ++ (label', .began two) :: rest) →
    (∀ entry ∈ own, ¬ Began entry) → (∃ entry ∈ own, Counted entry) →
    (∀ entry ∈ own ++ middle, ¬ Overrides entry) → one < two
  superseded : ∀ entry ∈ trace, ∀ counts before after,
    entry.2 = .reported false counts before after →
      after.current = before.current ∧ after.next = before.next

/-- A report of an iterator that is not the current one does not find its epoch begun again with
no override pending, unless it is a delivery and that epoch has delivered. -/
def Undisturbed (loader : EpochLoader) : Label → Prop
  | .leave place outcome _ => ∀ iterator, loader.iterators[place]? = some iterator →
      loader.current ≠ some place → counts outcome iterator = true →
      loader.epochs.activeEpoch = some iterator.epoch → loader.epochs.pendingOverride = none →
      outcome = .delivered ∧ loader.epochs.activeDelivered = true
  | _ => True

/-! ### Epoch states -/

/-- Unless an override is pending, the epoch of a running iteration is the loader's. -/
def Settled (epochs : EpochState) : Prop :=
  epochs.pendingOverride = none → ∀ epoch, epochs.activeEpoch = some epoch → epochs.current = epoch

section Epochs

variable {epochs : EpochState} {iterator : EpochIterator} {outcome : Outcome}

theorem next_eq (epochs : EpochState) :
    epochs.next =
      if epochs.pendingOverride.isNone && epochs.activeDelivered then epochs.current + 1
      else epochs.current := rfl

theorem settled_begin : Settled epochs.beginIteration.2 := fun _ _ same => Option.some.inj same

/-- What does not count, or is of another epoch, changes nothing. -/
theorem record_eq
    (same : counts outcome iterator = true → epochs.activeEpoch ≠ some iterator.epoch) :
    record epochs outcome iterator = epochs := by
  cases outcome with
  | delivered => exact if_neg (same rfl)
  | exhausted =>
      unfold record counts at *
      cases complete : iterator.complete with
      | true => exact if_pos rfl
      | false =>
          rw [complete] at same
          exact (if_neg Bool.false_ne_true).trans (if_pos (same rfl))
  | nothing => rfl

/-- What counts marks the running iteration delivered, or ends it and moves on. -/
theorem record_cases (counted : counts outcome iterator = true)
    (running : epochs.activeEpoch = some iterator.epoch) :
    (outcome = .delivered ∧
        record epochs outcome iterator = { epochs with activeDelivered := true }) ∨
      outcome = .exhausted ∧ record epochs outcome iterator =
        { epochs with
          current :=
            if epochs.pendingOverride.isNone && epochs.current = iterator.epoch then
              epochs.current + 1
            else epochs.current
          activeEpoch := none
          activeDelivered := false } := by
  cases outcome with
  | delivered => exact .inl ⟨rfl, if_pos running⟩
  | exhausted =>
      have open_ : iterator.complete = false := by
        unfold counts at counted
        simpa using counted
      refine .inr ⟨rfl, ?_⟩
      unfold record
      rw [open_]
      exact if_neg (not_not.mpr running)
  | nothing => cases counted

theorem settled_record (settled : Settled epochs) : Settled (record epochs outcome iterator) := by
  by_cases live : counts outcome iterator = true ∧ epochs.activeEpoch = some iterator.epoch
  · rcases record_cases live.1 live.2 with ⟨-, same⟩ | ⟨-, same⟩
    · rw [same]
      exact settled
    · rw [same]
      exact fun _ _ none => nomatch none
  · rw [record_eq fun counted running => live ⟨counted, running⟩]
    exact settled

/-- An outcome leaves the epoch and the next one exactly where nothing depends on it. -/
theorem record_same_iff (settled : Settled epochs) :
    ((record epochs outcome iterator).current = epochs.current ∧
        (record epochs outcome iterator).next = epochs.next) ↔
      (counts outcome iterator = true → epochs.activeEpoch = some iterator.epoch →
        epochs.pendingOverride = none →
        outcome = .delivered ∧ epochs.activeDelivered = true) := by
  by_cases live : counts outcome iterator = true ∧ epochs.activeEpoch = some iterator.epoch
  · obtain ⟨counted, running⟩ := live
    have others : (counts outcome iterator = true → epochs.activeEpoch = some iterator.epoch →
        epochs.pendingOverride = none → outcome = .delivered ∧ epochs.activeDelivered = true) ↔
        (epochs.pendingOverride = none →
          outcome = .delivered ∧ epochs.activeDelivered = true) :=
      ⟨fun all => all counted running, fun all _ _ => all⟩
    rw [others]
    cases pending : epochs.pendingOverride with
    | some override =>
        refine iff_of_true ?_ nofun
        rcases record_cases counted running with ⟨-, same⟩ | ⟨-, same⟩ <;>
          simp [same, next_eq, pending]
    | none =>
        have current := settled pending _ running
        rcases record_cases counted running with ⟨rfl, same⟩ | ⟨rfl, same⟩ <;>
          cases delivered : epochs.activeDelivered <;>
          simp [same, next_eq, pending, current, delivered]
  · rw [record_eq fun counted running => live ⟨counted, running⟩]
    exact iff_of_true ⟨rfl, rfl⟩ fun counted running => absurd ⟨counted, running⟩ live

end Epochs

/-! ### Steps -/

section Steps

variable {loader after : EpochLoader} {label : Label} {event : Event}

@[simp] theorem close_epochs (loader : EpochLoader) : loader.close.epochs = loader.epochs := by
  unfold close
  split <;> rfl

@[simp] theorem close_current (loader : EpochLoader) : loader.close.current = loader.current := by
  unfold close
  split <;> rfl

/-- Closing a loader changes no iterator's epoch. -/
theorem close_epoch {place : Nat} {iterator : EpochIterator}
    (found : loader.iterators[place]? = some iterator) :
    ∃ closed, loader.close.iterators[place]? = some closed ∧ closed.epoch = iterator.epoch := by
  unfold close
  split
  · exact ⟨iterator, found, rfl⟩
  · rename_i active _
    dsimp only
    rw [List.getElem?_modify]
    by_cases same : active = place
    · exact ⟨{ iterator with valid := false }, by simp [same, found], rfl⟩
    · exact ⟨iterator, by simp [same, found], rfl⟩

theorem beginIteration_cases (loader : EpochLoader) :
    loader.beginIteration = { loader with epochs := loader.epochs.beginIteration.2 } ∨
      loader.beginIteration = close { loader with epochs := loader.epochs.beginIteration.2 } := by
  unfold beginIteration
  dsimp only
  split
  · split
    · exact .inl rfl
    · exact .inr rfl
  · exact .inl rfl

theorem beginIteration_epochs (loader : EpochLoader) :
    loader.beginIteration.epochs = loader.epochs.beginIteration.2 := by
  rcases loader.beginIteration_cases with same | same <;> rw [same]
  exact close_epochs _

theorem beginIteration_epoch {place : Nat} {iterator : EpochIterator}
    (found : loader.iterators[place]? = some iterator) :
    ∃ later, loader.beginIteration.iterators[place]? = some later ∧
      later.epoch = iterator.epoch := by
  rcases loader.beginIteration_cases with same | same <;> rw [same]
  · exact ⟨iterator, found, rfl⟩
  · exact @close_epoch { loader with epochs := loader.epochs.beginIteration.2 } _ _ found

@[simp] theorem iterate_epochs (loader : EpochLoader) (constructs : Bool) :
    (loader.iterate constructs).epochs = loader.epochs.beginIteration.2 := by
  unfold iterate
  dsimp only
  split
  · exact beginIteration_epochs loader
  · exact beginIteration_epochs loader

/-- The iterator of an iteration is the last one made, of the epoch begun. -/
theorem iterate_current {constructs : Bool} {place : Nat}
    (current : (loader.iterate constructs).current = some place) :
    ∃ iterator, (loader.iterate constructs).iterators[place]? = some iterator ∧
      iterator.epoch = loader.epochs.next := by
  unfold iterate at current ⊢
  dsimp only at current ⊢
  split at current
  · rename_i made
    cases current
    rw [if_pos made]
    refine ⟨_, List.getElem?_concat_length, ?_⟩
    dsimp only
    rw [beginIteration_epochs]
    rfl
  · cases current

@[simp] theorem leave_epochs (loader : EpochLoader) (place : Nat) (iterator : EpochIterator)
    (outcome : Outcome) (closes : Bool) :
    (loader.leave place iterator outcome closes).epochs =
      record loader.epochs outcome iterator := by
  unfold leave
  dsimp only
  split
  · exact close_epochs _
  · rfl

@[simp] theorem leave_current (loader : EpochLoader) (place : Nat) (iterator : EpochIterator)
    (outcome : Outcome) (closes : Bool) :
    (loader.leave place iterator outcome closes).current = loader.current := by
  unfold leave
  dsimp only
  split
  · exact close_current _
  · rfl

/-- Everything a step can do to a loader. -/
inductive Change (loader : EpochLoader) : Label → Event → EpochLoader → Prop where
  | set (epoch : Nat) :
      Change loader (.setEpoch epoch) .quiet { loader with epochs := loader.epochs.setEpoch epoch }
  | loaded (epoch : Nat) :
      Change loader (.loadStateDict epoch) .quiet
        { loader.close with epochs := loader.epochs.restore epoch }
  | closed : Change loader .close .quiet loader.close
  | begun (constructs : Bool) :
      Change loader (.iterate constructs) (.began loader.epochs.next) (loader.iterate constructs)
  | entered {place : Nat} {iterator : EpochIterator}
      (found : loader.iterators[place]? = some iterator)
      (alive : iterator.alive = true) (valid : iterator.valid = true) :
      Change loader (.enter place) .quiet
        { loader with iterators := loader.iterators.set place { iterator with busy := true } }
  | refused (place : Nat) : Change loader (.enter place) .refused loader
  | left {place : Nat} {iterator : EpochIterator} {outcome : Outcome} {closes : Bool}
      (found : loader.iterators[place]? = some iterator) (busy : iterator.busy = true)
      (more : outcome = .delivered → iterator.complete = false) :
      Change loader (.leave place outcome closes)
        (.reported (loader.current = some place) (counts outcome iterator) loader.epochs
          (loader.leave place iterator outcome closes).epochs)
        (loader.leave place iterator outcome closes)
  | dropped {place : Nat} {iterator : EpochIterator}
      (found : loader.iterators[place]? = some iterator) (idle : iterator.busy = false) :
      Change loader (.drop place) .quiet
        { loader with
          iterators := loader.iterators.set place { iterator with alive := false }
          active := if loader.active = some place then none else loader.active }
  | expired : Change loader .expire .quiet { loader with active := none }

theorem step_change (stepEq : machine.step loader label = some (event, after)) :
    Change loader label event after := by
  change loader.step label = some (event, after) at stepEq
  unfold step at stepEq
  cases label with
  | setEpoch epoch =>
      cases stepEq
      exact .set epoch
  | loadStateDict epoch =>
      cases stepEq
      exact .loaded epoch
  | close =>
      cases stepEq
      exact .closed
  | iterate constructs =>
      cases stepEq
      exact .begun constructs
  | enter place =>
      dsimp only at stepEq
      split at stepEq
      · cases stepEq
      rename_i found
      split at stepEq
      · rename_i free
        split at stepEq
        · rename_i valid
          cases stepEq
          exact .entered found free.1 valid
        · cases stepEq
          exact .refused place
      · cases stepEq
  | leave place outcome closes =>
      dsimp only at stepEq
      split at stepEq
      · cases stepEq
      rename_i found
      split at stepEq
      · rename_i running
        cases stepEq
        exact .left found running.1 running.2
      · cases stepEq
  | drop place =>
      dsimp only at stepEq
      split at stepEq
      · cases stepEq
      rename_i found
      split at stepEq
      · rename_i free
        cases stepEq
        exact .dropped found free.2
      · cases stepEq
  | expire =>
      cases stepEq
      exact .expired

/-- No iterator is gone, and each has the epoch it had. -/
def SameEpochs (loader after : EpochLoader) : Prop :=
  ∀ (place : Nat) (iterator : EpochIterator), loader.iterators[place]? = some iterator →
    ∃ later : EpochIterator, after.iterators[place]? = some later ∧ later.epoch = iterator.epoch

/-- No step changes the epoch of an iterator. -/
theorem sameEpochs_step (stepEq : machine.step loader label = some (event, after)) :
    SameEpochs loader after := by
  intro place iterator found
  have same : ∃ later, loader.iterators[place]? = some later ∧ later.epoch = iterator.epoch :=
    ⟨iterator, found, rfl⟩
  have replaced : ∀ other (old new : EpochIterator), loader.iterators[other]? = some old →
      new.epoch = old.epoch →
      ∃ later, (loader.iterators.set other new)[place]? = some later ∧
        later.epoch = iterator.epoch := by
    intro other old new here kept
    rw [List.getElem?_set]
    by_cases own : other = place
    · subst own
      cases found.symm.trans here
      have inside := (List.getElem?_eq_some_iff.mp found).1
      exact ⟨new, by simp [inside], kept⟩
    · exact ⟨iterator, by rw [if_neg own]; exact found, rfl⟩
  cases step_change stepEq with
  | set epoch => exact same
  | loaded epoch | closed => exact close_epoch found
  | begun constructs =>
      obtain ⟨later, there, kept⟩ := beginIteration_epoch found
      unfold iterate
      dsimp only
      split
      · refine ⟨later, ?_, kept⟩
        rw [List.getElem?_append_left (List.getElem?_eq_some_iff.mp there).1]
        exact there
      · exact ⟨later, there, kept⟩
  | entered here => exact replaced _ _ _ here rfl
  | refused => exact same
  | @left other old outcome closes here =>
      obtain ⟨left, there, kept⟩ := replaced other old
        { old with
          busy := false
          complete := old.complete || (outcome = .exhausted && !closes) } here rfl
      unfold leave
      dsimp only
      split
      · have reported := @close_epoch (loader.report other old outcome closes) _ _ there
        obtain ⟨closed, ended, also⟩ := reported
        exact ⟨closed, ended, also.trans kept⟩
      · exact ⟨left, there, kept⟩
  | dropped here => exact replaced _ _ _ here rfl
  | expired => exact same

end Steps

/-! ### Runs -/

/-- Where a begun epoch stands with no override pending: nothing of it counted yet, or it has
delivered, or the loader is past it. -/
inductive Phase (called : Expected) (epochs : EpochState) (running : Prop) : Prop where
  | fresh (counted : called.counted = false) (current : epochs.current = called.epoch)
      (delivered : epochs.activeDelivered = false)
      (active : running → epochs.activeEpoch = some called.epoch)
  | delivered (counted : called.counted = true) (current : epochs.current = called.epoch)
      (delivered : epochs.activeDelivered = true) (active : epochs.activeEpoch = some called.epoch)
  | past (counted : called.counted = true) (current : epochs.current = called.epoch + 1)
      (delivered : epochs.activeDelivered = false) (active : epochs.activeEpoch = none)

/-- The loader stands where the run so far calls for. -/
structure Agrees (called : Expected) (loader : EpochLoader) : Prop where
  pending : loader.epochs.pendingOverride = none ↔ called.override = none
  overridden : ∀ epoch, called.override = some epoch → loader.epochs.current = epoch
  phase : called.override = none →
    Phase called loader.epochs (loader.current.isSome = true)
  own : ∀ place, loader.current = some place →
    ∃ iterator, loader.iterators[place]? = some iterator ∧ iterator.epoch = called.epoch

section Agreement

variable {called : Expected} {loader after : EpochLoader} {label : Label} {event : Event}
  {iterator : EpochIterator} {outcome : Outcome}

theorem agrees_start : Agrees ⟨0, false, none⟩ start :=
  ⟨iff_of_true rfl rfl, (fun _ none => nomatch none), fun _ => .fresh rfl rfl rfl nofun, nofun⟩

theorem Agrees.next (agrees : Agrees called loader) : loader.epochs.next = called.next := by
  rw [next_eq]
  unfold Expected.next
  cases override : called.override with
  | some epoch =>
      have pending : loader.epochs.pendingOverride ≠ none := fun none =>
        nomatch override.symm.trans (agrees.pending.mp none)
      obtain ⟨kind, same⟩ := Option.ne_none_iff_exists'.mp pending
      simp [same, agrees.overridden epoch override]
  | none =>
      have pending := agrees.pending.mpr override
      cases agrees.phase override with
      | fresh counted current delivered active => simp [pending, counted, current, delivered]
      | delivered counted current delivered active => simp [pending, counted, current, delivered]
      | past counted current delivered active => simp [pending, counted, current, delivered]

/-- An iteration begins in the epoch called for, and the loader stands at its start. -/
theorem agrees_iterate (loader : EpochLoader) (constructs : Bool) :
    Agrees ⟨loader.epochs.next, false, none⟩ (loader.iterate constructs) := by
  refine ⟨?_, (fun _ none => nomatch none), fun _ => ?_, fun place current => ?_⟩
  · rw [iterate_epochs]
    exact iff_of_true rfl rfl
  · rw [iterate_epochs]
    exact .fresh rfl rfl rfl fun _ => rfl
  · exact iterate_current current

/-- A counted outcome of the epoch begun last. -/
theorem Phase.record {running : Prop} (phase : Phase called loader.epochs running)
    (pending : loader.epochs.pendingOverride = none)
    (active : called.counted = true ∨ loader.epochs.activeEpoch = some iterator.epoch)
    (same : loader.epochs.activeEpoch = some iterator.epoch → iterator.epoch = called.epoch)
    (counted : counts outcome iterator = true) :
    Phase { called with counted := true } (record loader.epochs outcome iterator) running := by
  by_cases runs : loader.epochs.activeEpoch = some iterator.epoch
  · have epoch := same runs
    have current : loader.epochs.current = called.epoch := by
      cases phase with
      | fresh counted current delivered active => exact current
      | delivered counted current delivered active => exact current
      | past counted current delivered active => exact nomatch active.symm.trans runs
    rcases record_cases counted runs with ⟨-, marked⟩ | ⟨-, ended⟩
    · rw [marked]
      exact .delivered rfl current rfl (runs.trans (congrArg some epoch))
    · rw [ended]
      refine .past rfl ?_ rfl rfl
      simp [pending, current, epoch]
  · have was : called.counted = true := active.resolve_right runs
    rw [record_eq fun _ => runs]
    cases phase with
    | fresh counted current delivered active => exact nomatch was.symm.trans counted
    | delivered counted current delivered active => exact .delivered rfl current delivered active
    | past counted current delivered active => exact .past rfl current delivered active

theorem record_pending :
    (record loader.epochs outcome iterator).pendingOverride = loader.epochs.pendingOverride := by
  by_cases live : counts outcome iterator = true ∧
      loader.epochs.activeEpoch = some iterator.epoch
  · rcases record_cases live.1 live.2 with ⟨-, same⟩ | ⟨-, same⟩ <;> rw [same]
  · rw [record_eq fun counted running => live ⟨counted, running⟩]

theorem record_current (pending : loader.epochs.pendingOverride ≠ none) :
    (record loader.epochs outcome iterator).current = loader.epochs.current := by
  obtain ⟨kind, here⟩ := Option.ne_none_iff_exists'.mp pending
  by_cases live : counts outcome iterator = true ∧
      loader.epochs.activeEpoch = some iterator.epoch
  · rcases record_cases live.1 live.2 with ⟨-, same⟩ | ⟨-, same⟩ <;> rw [same]
    simp [here]
  · rw [record_eq fun counted running => live ⟨counted, running⟩]

/-- A loader that only its iterators tell apart from one that stands where it should. -/
theorem Agrees.congr (agrees : Agrees called loader) (epochs : after.epochs = loader.epochs)
    (current : after.current = loader.current)
    (own : SameEpochs loader after) : Agrees called after := by
  refine ⟨?_, ?_, ?_, fun place running => ?_⟩
  · rw [epochs]
    exact agrees.pending
  · rw [epochs]
    exact agrees.overridden
  · rw [epochs, current]
    exact agrees.phase
  · obtain ⟨iterator, found, same⟩ := agrees.own place (current ▸ running)
    obtain ⟨later, there, kept⟩ := own place iterator found
    exact ⟨later, there, kept.trans same⟩

/-- A report leaves an override alone, and moves the phase where there is none. -/
theorem Agrees.reported {now : Expected} (agrees : Agrees called loader)
    (epoch : now.epoch = called.epoch) (override : now.override = called.override)
    (epochs : after.epochs = record loader.epochs outcome iterator)
    (current : after.current = loader.current) (own : SameEpochs loader after)
    (phase : called.override = none →
      Phase now (record loader.epochs outcome iterator) (loader.current.isSome = true)) :
    Agrees now after := by
  refine ⟨?_, fun here same => ?_, fun none => ?_, fun place running => ?_⟩
  · rw [epochs, record_pending, override]
    exact agrees.pending
  · have overridden := override.symm.trans same
    have pending : loader.epochs.pendingOverride ≠ none := fun none =>
      nomatch overridden.symm.trans (agrees.pending.mp none)
    rw [epochs, record_current pending]
    exact agrees.overridden here overridden
  · rw [epochs, current]
    exact phase (override.symm.trans none)
  · obtain ⟨iterator, found, same⟩ := agrees.own place (current ▸ running)
    obtain ⟨later, there, kept⟩ := own place iterator found
    exact ⟨later, there, (kept.trans same).trans epoch.symm⟩

/-- A report counts for the current iterator alone, unless it is disturbed. -/
theorem Agrees.leave (agrees : Agrees called loader) {place : Nat} {closes : Bool}
    (found : loader.iterators[place]? = some iterator)
    (undisturbed : Undisturbed loader (.leave place outcome closes))
    (own : SameEpochs loader (loader.leave place iterator outcome closes))
    (before later : EpochState) :
    Agrees
      (called.step (.leave place outcome closes,
        .reported (loader.current = some place) (counts outcome iterator) before later))
      (loader.leave place iterator outcome closes) := by
  by_cases counted : counts outcome iterator = true
  · rw [counted]
    by_cases current : loader.current = some place
    · rw [decide_eq_true current]
      refine agrees.reported rfl rfl (leave_epochs ..) (leave_current ..) own fun override => ?_
      obtain ⟨same, there, epoch⟩ := agrees.own place current
      cases there.symm.trans found
      refine
        (agrees.phase override).record (agrees.pending.mpr override) ?_ (fun _ => epoch) counted
      cases agrees.phase override with
      | fresh _ _ _ active =>
          exact .inr ((active (by rw [current]; rfl)).trans (congrArg some epoch.symm))
      | delivered yes _ _ _ => exact .inl yes
      | past yes _ _ _ => exact .inl yes
    · rw [decide_eq_false current]
      refine agrees.reported rfl rfl (leave_epochs ..) (leave_current ..) own fun override => ?_
      have pending := agrees.pending.mpr override
      have phase := agrees.phase override
      have again : called.counted = true → { called with counted := true } = called := by
        intro yes
        rw [← yes]
      cases phase with
      | fresh no epoch delivered active =>
          rw [record_eq fun _ runs => Bool.false_ne_true
            (delivered.symm.trans (undisturbed iterator found current counted runs pending).2)]
          exact .fresh no epoch delivered active
      | delivered yes epoch delivered active =>
          have moved := (Phase.delivered yes epoch delivered active :
            Phase called loader.epochs (loader.current.isSome = true)).record pending (.inl yes)
            (fun runs => Option.some.inj (runs.symm.trans active)) counted
          exact again yes ▸ moved
      | past yes epoch delivered active =>
          rw [record_eq fun _ runs => nomatch active.symm.trans runs]
          exact .past yes epoch delivered active
  · have ignored : called.step (.leave place outcome closes,
        .reported (loader.current = some place) (counts outcome iterator) before later) =
          called := by
      rw [Bool.eq_false_iff.mpr counted]
      cases decide (loader.current = some place) <;> rfl
    rw [ignored]
    refine agrees.congr ?_ (leave_current ..) own
    rw [leave_epochs, record_eq fun yes => absurd yes counted]

/-- The loader stands where the run calls for after each step that is not disturbed. -/
theorem Agrees.step (agrees : Agrees called loader) (undisturbed : Undisturbed loader label)
    (stepEq : machine.step loader label = some (event, after)) :
    Agrees (called.step (label, event)) after := by
  have own := sameEpochs_step stepEq
  cases step_change stepEq with
  | set epoch =>
      exact ⟨iff_of_false nofun nofun, (fun _ same => Option.some.inj same), nofun, agrees.own⟩
  | loaded epoch =>
      refine ⟨iff_of_false nofun nofun, (fun _ same => Option.some.inj same), nofun, ?_⟩
      intro place running
      obtain ⟨iterator, found, same⟩ := agrees.own place (close_current loader ▸ running)
      obtain ⟨later, there, kept⟩ := own place iterator found
      exact ⟨later, there, kept.trans same⟩
  | closed => exact agrees.congr (close_epochs loader) (close_current loader) own
  | begun constructs => exact agrees_iterate loader constructs
  | entered found => exact agrees.congr rfl rfl own
  | refused => exact agrees
  | left found => exact agrees.leave found undisturbed own _ _
  | dropped found | expired => exact agrees.congr rfl rfl own

end Agreement

variable {loader after : EpochLoader} {label : Label}

/-- A step keeps the loader's epoch settled. -/
theorem settled_step {event : Event} (settled : Settled loader.epochs)
    (stepEq : machine.step loader label = some (event, after)) : Settled after.epochs := by
  cases step_change stepEq with
  | set epoch | loaded epoch => exact nofun
  | closed =>
      rw [close_epochs]
      exact settled
  | begun constructs =>
      rw [iterate_epochs]
      exact settled_begin
  | left found =>
      rw [leave_epochs]
      exact settled_record settled
  | entered found | refused | dropped found | expired => exact settled

/-- What the reports of other iterators than the current one do to the loader's epochs. -/
def Harmless (event : Event) : Prop :=
  ∀ counts before after, event = .reported false counts before after →
    after.current = before.current ∧ after.next = before.next

/-- A step harms the loader's epochs exactly when it is disturbed. -/
theorem harmless_iff {event : Event} (settled : Settled loader.epochs)
    (stepEq : machine.step loader label = some (event, after)) :
    Harmless event ↔ Undisturbed loader label := by
  cases step_change stepEq with
  | set _ | loaded _ | closed | begun _ | entered _ | refused | dropped _ | expired =>
      exact iff_of_true nofun trivial
  | @left place iterator outcome closes found =>
      rw [leave_epochs]
      have unchanged := @record_same_iff _ iterator outcome settled
      by_cases current : loader.current = some place
      · rw [decide_eq_true current]
        exact iff_of_true nofun fun _ _ other => absurd current other
      · rw [decide_eq_false current]
        constructor
        · intro harmless other there _
          cases found.symm.trans there
          exact unchanged.mp (harmless _ _ _ rfl)
        · intro undisturbed counted before later same
          cases same
          exact unchanged.mpr (undisturbed iterator found current)

/-! ### Traces that begin as called for -/

section Traces

variable {called : Expected} {entry : Label × Event} {entries : List (Label × Event)}

/-- An entry that neither begins an iteration nor overrides counts, or changes nothing. -/
theorem Expected.step_cases (began : ¬ Began entry) (free : ¬ Overrides entry) :
    called.step entry = { called with counted := true } ∨
      ¬ Counted entry ∧ called.step entry = called := by
  obtain ⟨label, event⟩ := entry
  cases event with
  | began epoch => exact absurd ⟨epoch, rfl⟩ began
  | reported own counts before after =>
      cases own <;> cases counts
      case true.true => exact .inl rfl
      all_goals
        refine .inr ⟨nofun, ?_⟩
        cases label with
        | setEpoch epoch => exact absurd ⟨epoch, .inl rfl⟩ free
        | loadStateDict epoch => exact absurd ⟨epoch, .inr rfl⟩ free
        | close | iterate constructs | enter place | leave place outcome closes | drop place
        | expire => rfl
  | quiet | refused =>
      refine .inr ⟨nofun, ?_⟩
      cases label with
      | setEpoch epoch => exact absurd ⟨epoch, .inl rfl⟩ free
      | loadStateDict epoch => exact absurd ⟨epoch, .inr rfl⟩ free
      | close | iterate constructs | enter place | leave place outcome closes | drop place
      | expire => rfl

section

variable (override : called.override = none)

include override

theorem Expected.next_of_free :
    called.next = if called.counted then called.epoch + 1 else called.epoch := by
  unfold Expected.next
  rw [override]
  rfl

/-- Without an override an entry never takes the epoch called for next back. -/
theorem Expected.next_step (lawful : ∀ epoch, entry.2 = .began epoch → epoch = called.next)
    (free : ¬ Overrides entry) :
    (called.step entry).override = none ∧ called.next ≤ (called.step entry).next := by
  by_cases began : Began entry
  · obtain ⟨label, event⟩ := entry
    obtain ⟨epoch, same⟩ := began
    cases same
    exact ⟨rfl, (lawful epoch rfl).ge⟩
  · rcases Expected.step_cases began free with same | ⟨-, same⟩ <;> rw [same]
    · refine ⟨override, ?_⟩
      have moved : Expected.next { called with counted := true } = called.epoch + 1 :=
        Expected.next_of_free override
      rw [moved, Expected.next_of_free override]
      split <;> omega
    · exact ⟨override, Nat.le_refl _⟩

/-- Without an override the epoch called for next never goes back. -/
theorem Expected.next_mono
    (lawful : ∀ before label epoch rest, entries = before ++ (label, .began epoch) :: rest →
      epoch = (before.foldl Expected.step called).next)
    (free : ∀ entry ∈ entries, ¬ Overrides entry) :
    called.next ≤ (entries.foldl Expected.step called).next := by
  induction entries generalizing called with
  | nil => exact Nat.le_refl _
  | cons entry entries ih =>
      obtain ⟨freeHere, freeLater⟩ := List.forall_mem_cons.mp free
      obtain ⟨still, further⟩ := Expected.next_step override
        (fun epoch began => lawful [] entry.1 epoch entries (by rw [← began]; rfl)) freeHere
      refine Nat.le_trans further (ih still ?_ freeLater)
      intro before label epoch rest same
      exact lawful (entry :: before) label epoch rest (by rw [same]; rfl)

end

/-- Within an iteration, and without an override, its first report that counts moves on. -/
theorem Expected.counted_of_own (own : ∀ entry ∈ entries, ¬ Began entry)
    (free : ∀ entry ∈ entries, ¬ Overrides entry)
    (counts : called.counted = true ∨ ∃ entry ∈ entries, Counted entry) :
    entries.foldl Expected.step called = { called with counted := true } := by
  induction entries generalizing called with
  | nil =>
      obtain yes | ⟨entry, none, -⟩ := counts
      · change called = _
        rw [← yes]
      · cases none
  | cons entry entries ih =>
      obtain ⟨ownHere, ownLater⟩ := List.forall_mem_cons.mp own
      obtain ⟨freeHere, freeLater⟩ := List.forall_mem_cons.mp free
      rw [List.foldl_cons]
      rcases Expected.step_cases ownHere freeHere with same | ⟨not, same⟩ <;> rw [same]
      · exact ih ownLater freeLater (.inl rfl)
      · refine ih ownLater freeLater (counts.imp_right ?_)
        rintro ⟨other, member, counted⟩
        rcases List.mem_cons.mp member with rfl | later
        · exact absurd counted not
        · exact ⟨other, later, counted⟩

theorem expected_append (before after : List (Label × Event)) :
    expected (before ++ after) = after.foldl Expected.step (expected before) :=
  List.foldl_append

/-- Where iterations begin in the epochs called for, one that delivered or ended is left behind,
unless an override intervenes. -/
theorem further_of_begins {trace : List (Label × Event)}
    (begins : ∀ before label epoch rest, trace = before ++ (label, .began epoch) :: rest →
      epoch = (expected before).next) {before own middle rest : List (Label × Event)}
    {label label' : Label} {one two : Nat} (split : trace =
      before ++ (label, .began one) :: (own ++ middle ++ (label', .began two) :: rest))
    (alone : ∀ entry ∈ own, ¬ Began entry) (counted : ∃ entry ∈ own, Counted entry)
    (free : ∀ entry ∈ own ++ middle, ¬ Overrides entry) : one < two := by
  obtain ⟨freeOwn, freeMiddle⟩ := List.forall_mem_append.mp free
  have moved : expected (before ++ (label, .began one) :: own) = ⟨one, true, none⟩ := by
    rw [expected_append, List.foldl_cons]
    exact Expected.counted_of_own alone freeOwn (.inr counted)
  have second : two = (expected (before ++ (label, .began one) :: (own ++ middle))).next :=
    begins _ label' two rest (by rw [split]; simp)
  have between : (⟨one, true, none⟩ : Expected).next ≤
      (middle.foldl Expected.step ⟨one, true, none⟩).next := by
    refine Expected.next_mono rfl ?_ freeMiddle
    intro front other epoch back same
    rw [← moved, ← expected_append]
    refine begins _ other epoch (back ++ (label', .began two) :: rest) ?_
    rw [split, same]
    simp
  rw [← List.cons_append, ← List.append_assoc, expected_append, moved] at second
  rw [second]
  exact between

end Traces

/-! ### Epochs of a run -/

/-- An iteration begins in the epoch called for. -/
def AsCalled (before : List (Label × Event)) (_ : Label) (event : Event) : Prop :=
  ∀ epoch, event = .began epoch → epoch = (expected before).next

/-- The epoch an iteration begins in is the loader's next one. -/
theorem began_next {epoch : Nat} (stepEq : machine.step loader label = some (.began epoch, after)) :
    epoch = loader.epochs.next := by
  cases step_change stepEq
  rfl

/-- The epochs of a loader's iterations progress exactly in the runs in which no report of a
superseded iterator meets its own epoch begun again with no override pending, unless it delivers
and so has that epoch. -/
theorem epochs_progress_iff {labels : List Label} {trace : List (Label × Event)}
    {final : EpochLoader} (reached : machine.run start labels = some (trace, final)) :
    Progresses trace ↔ machine.Along Undisturbed start labels := by
  have harmless : (∀ entry ∈ trace, Harmless entry.2) ↔ machine.Along Undisturbed start labels :=
    @machine.events_iff_along _ _ _ (fun loader => Settled loader.epochs) Undisturbed
      (fun _ event => Harmless event)
      (fun _ _ _ _ settled stepEq => settled_step settled stepEq)
      (fun _ _ _ _ settled stepEq => harmless_iff settled stepEq)
      start final labels trace (fun _ _ none => nomatch none) reached
  constructor
  · intro progresses
    exact harmless.mp progresses.superseded
  · intro undisturbed
    obtain ⟨-, asCalled⟩ := @machine.run_history _ _ _
      (fun trace loader => Agrees (expected trace) loader) AsCalled Undisturbed
      (fun trace loader label event after agrees permitted stepEq => by
        refine ⟨?_, ?_⟩
        · intro epoch began
          subst began
          exact (began_next stepEq).trans agrees.next
        · rw [expected_append]
          exact agrees.step permitted stepEq)
      start final labels trace agrees_start undisturbed reached
    have begins : ∀ before label epoch rest, trace = before ++ (label, .began epoch) :: rest →
        epoch = (expected before).next :=
      fun before label epoch rest split => asCalled before label _ rest split epoch rfl
    exact ⟨begins, fun _ _ _ _ _ _ _ _ => further_of_begins begins, harmless.mpr undisturbed⟩

/-- A batch, `set_epoch(0)` while the next one is being fetched, and a fresh iteration: the late
delivery of the first one is taken for one of the second, and the third begins in epoch 1. -/
theorem late_delivery_skips :
    ∃ trace final,
      machine.run start
          [.iterate true, .enter 0, .leave 0 .delivered false, .enter 0, .setEpoch 0, .iterate true,
            .leave 0 .delivered false, .iterate true] = some (trace, final) ∧
        ¬ Progresses trace := by
  refine ⟨_, _, rfl, fun progresses => ?_⟩
  have third := progresses.begins
    [(.iterate true, .began 0), (.enter 0, .quiet),
      (.leave 0 .delivered false,
        .reported true true ⟨0, some 0, false, none⟩ ⟨0, some 0, true, none⟩),
      (.enter 0, .quiet),
      (.setEpoch 0, .quiet), (.iterate true, .began 0),
      (.leave 0 .delivered false,
        .reported false true ⟨0, some 0, false, none⟩ ⟨0, some 0, true, none⟩)]
    (.iterate true) 1 [] rfl
  exact absurd third (by decide)

/-- The exact condition at a partial iteration and a fresh one after it. -/
theorem epochs_progress_iff_partial :
    ∃ trace final,
      machine.run start
          [.iterate true, .enter 0, .leave 0 .delivered false, .iterate true, .enter 0] =
        some (trace, final) ∧
      (Progresses trace ↔
        machine.Along Undisturbed start
          [.iterate true, .enter 0, .leave 0 .delivered false, .iterate true, .enter 0]) :=
  ⟨_, _, rfl, epochs_progress_iff rfl⟩

end EpochLoader

end Hyperloader.Process
