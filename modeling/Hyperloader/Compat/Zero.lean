/-
Module: Hyperloader.Compat.Zero
Purpose: The zero-worker torch mode: an iterator of torch's own loader with a count of what it
  delivered, checkpoints that replay the delivered prefix under the random state the iterator
  started from, and when a checkpoint gives back the session it was captured in.
Trusted boundary: torch's loader, the generators and their serialized forms, `==`, json.dumps
  and SHA-256 are parameters.
Main exports:
  TorchLoader, ZeroLoader, Session, Command, ZeroLoader.machine, Respects, Undisturbed,
  ZeroLoader.captured_continues
-/
import Mathlib.Data.Setoid.Basic
import Hyperloader.Compat.Ambient
import Hyperloader.Foundations.Transition

namespace Hyperloader.Compat.Zero

open Foundations Hyperloader.State

/-! ### The loader and its iterators -/

/-- What a torch iterator answers. -/
inductive Pull (Value : Type) where
  | value (value : Value)
  | stop
  | raised (failure : Raised)

def Pull.delivers {Value : Type} : Pull Value → Bool
  | .value _ => true
  | _ => false

/-- Torch's loader with no workers: `iter`, `next`, and the epoch hook of its sampler. -/
structure TorchLoader (Source Iter Value Python Numpy Torch : Type) (owns : Bool) where
  start : Source → EStateM Raised (Ambient Python Numpy Torch owns) Iter
  next : Source → Iter → Ambient Python Numpy Torch owns →
    (Pull Value × Iter) × Ambient Python Numpy Torch owns
  setEpoch : Nat → Source → Source

/-- What does not change in a loader. -/
structure ZeroLoader (Source Iter Value Python Numpy Torch : Type) (owns : Bool) {Other : Type}
    (library : Library Other) where
  torch : TorchLoader Source Iter Value Python Numpy Torch owns
  generators : Generators Python Numpy Torch
  fingerprint : ContractFingerprint library

/-- `CompatZeroIterator` -/
structure ZeroIterator (Iter : Type) where
  iterator : Iter
  iteratorGlobals : GlobalStates
  iteratorGenerator : Option (List UInt8)
  delivered : Nat
  complete : Bool

/-- What changes: the dataset and its sampler, the random state of the process, the checkpoint
to resume and the iterator the loader refers to. -/
structure Session (Source Iter Python Numpy Torch : Type) (owns : Bool) {Other : Type}
    (library : Library Other) where
  source : Source
  ambient : Ambient Python Numpy Torch owns
  resume : Option (CompatZeroCheckpoint library)
  active : Option (ZeroIterator Iter)

/-- What a program does with a loader, drawing from the generators in between. -/
inductive Command (Python Numpy Torch : Type) (owns : Bool) (Other : Type) where
  | iterate
  | next
  | draw (ambient : Ambient Python Numpy Torch owns)
  | capture
  | load (payload : Object Other)
  | setEpoch (epoch : Nat)
  | close

inductive Answer (Value Other : Type) where
  | done
  | handed (value : Value)
  | stopped
  | captured (payload : Object Other)
  | raised (failure : Raised)

def INACTIVE : String := "compat iterator is no longer active"

def ENDED : String := "compat source ended before its delivered cursor"

variable {Source Iter Value Python Numpy Torch Other : Type} {owns : Bool} {library : Library Other}

namespace ZeroLoader

variable (loader : ZeroLoader Source Iter Value Python Numpy Torch owns library)

/-- The delivered prefix, pulled again and dropped. -/
def replay (source : Source) : Nat → Iter → EStateM Raised (Ambient Python Numpy Torch owns) Iter
  | 0, iterator => pure iterator
  | count + 1, iterator => do
      let (pull, iterator) ← modifyGet (loader.torch.next source iterator)
      match pull with
      | .value _ => replay source count iterator
      | .stop => throw (.runtimeError ENDED)
      | .raised failure => throw failure

/-- The iterator a checkpoint stands for, under the random state it carries. -/
def resume (source : Source) (state : CompatZeroCheckpoint library) :
    EStateM Raised (Ambient Python Numpy Torch owns) Iter := do
  restoreGlobals loader.generators state.iteratorGlobals
  restoreGenerator loader.generators state.iteratorGenerator
  let iterator ← loader.torch.start source
  let iterator ← loader.replay source state.deliveredBatches iterator
  restoreGenerator loader.generators state.currentGenerator
  restoreGlobals loader.generators state.currentGlobals
  pure iterator

variable (session : Session Source Iter Python Numpy Torch owns library)

/-- `iterate`; an iterator that is not complete is closed before anything else. -/
def iterate : Answer Value Other × Session Source Iter Python Numpy Torch owns library :=
  match session.resume with
  | none =>
      match loader.torch.start session.source session.ambient with
      | .ok iterator ambient =>
          (.done,
            { session with
              ambient
              active := some
                { iterator
                  iteratorGlobals := captureGlobals loader.generators session.ambient.globals
                  iteratorGenerator :=
                    captureGenerator loader.generators session.ambient.generator
                  delivered := 0
                  complete := false } })
      | .error failure ambient =>
          (.raised failure, { session with ambient, active := session.active.filter (·.complete) })
  | some state =>
      match loader.resume session.source state session.ambient with
      | .ok iterator ambient =>
          (.done,
            { session with
              ambient
              resume := none
              active := some
                { iterator
                  iteratorGlobals := state.iteratorGlobals
                  iteratorGenerator := state.iteratorGenerator
                  delivered := state.deliveredBatches
                  complete := false } })
      | .error failure ambient =>
          (.raised failure, { session with ambient, active := session.active.filter (·.complete) })

/-- `CompatZeroIterator.__next__` -/
def next : Answer Value Other × Session Source Iter Python Numpy Torch owns library :=
  match session.active with
  | none => (.raised (.runtimeError INACTIVE), session)
  | some active =>
      match loader.torch.next session.source active.iterator session.ambient with
      | ((.value value, iterator), ambient) =>
          (.handed value,
            { session with
              ambient
              active := some { active with iterator, delivered := active.delivered + 1 } })
      | ((.stop, iterator), ambient) =>
          (.stopped,
            { session with ambient, active := some { active with iterator, complete := true } })
      | ((.raised failure, iterator), ambient) =>
          (.raised failure, { session with ambient, active := some { active with iterator } })

/-- `capture_state` -/
def capture : Object Other :=
  let currentGlobals := captureGlobals loader.generators session.ambient.globals
  let currentGenerator := captureGenerator loader.generators session.ambient.generator
  match session.active.filter fun active => !active.complete with
  | some active =>
      writeCheckpoint active.delivered active.iteratorGlobals currentGlobals
        active.iteratorGenerator currentGenerator loader.fingerprint
  | none =>
      match session.resume with
      | some state => state.toDict
      | none =>
          writeCheckpoint 0 currentGlobals currentGlobals currentGenerator currentGenerator
            loader.fingerprint

/-- The random state a checkpoint was captured under, as it is restored. -/
def install (state : CompatZeroCheckpoint library) :
    EStateM Raised (Ambient Python Numpy Torch owns) PUnit := do
  restoreGenerator loader.generators state.currentGenerator
  restoreGlobals loader.generators state.currentGlobals

/-- `restore_state` -/
def load (payload : Object Other) :
    Answer Value Other × Session Source Iter Python Numpy Torch owns library :=
  match (CompatZeroCheckpoint.fromDict payload : Except Raised (CompatZeroCheckpoint library)) with
  | .error failure => (.raised failure, session)
  | .ok state =>
      match requireFingerprintMatch library state.fingerprint loader.fingerprint with
      | .error failure => (.raised failure, session)
      | .ok () =>
          match loader.install state session.ambient with
          | .ok _ ambient =>
              (.done, { session with ambient, resume := some state, active := none })
          | .error failure ambient => (.raised failure, { session with ambient, active := none })

/-- The loader under the commands of a program. -/
def machine : Machine (Session Source Iter Python Numpy Torch owns library)
    (Command Python Numpy Torch owns Other) (Answer Value Other) where
  step
    | session, .iterate => some (loader.iterate session)
    | session, .next => some (loader.next session)
    | session, .draw ambient => some (.done, { session with ambient })
    | session, .capture => some (.captured (loader.capture session), session)
    | session, .load payload => some (loader.load session payload)
    | session, .setEpoch epoch =>
        some (.done,
          { session with source := loader.torch.setEpoch epoch session.source, resume := none })
    | session, .close => some (.done, { session with active := none })

def start (source : Source) (ambient : Ambient Python Numpy Torch owns) :
    Session Source Iter Python Numpy Torch owns library := ⟨source, ambient, none, none⟩

end ZeroLoader

/-! ### Replays -/

section Replay

variable {loader : ZeroLoader Source Iter Value Python Numpy Torch owns library} {source : Source}
  {count : Nat} {iterator final : Iter} {before after : Ambient Python Numpy Torch owns}

variable (loader) in
/-- A fresh iterator that delivered its prefix. -/
def ZeroLoader.replayFrom (source : Source) (count : Nat) :
    EStateM Raised (Ambient Python Numpy Torch owns) Iter :=
  loader.torch.start source >>= loader.replay source count

theorem replay_succ_ok_iff :
    loader.replay source (count + 1) iterator before = .ok final after ↔
      ∃ value next middle, loader.torch.next source iterator before =
        ((.value value, next), middle) ∧ loader.replay source count next middle =
          .ok final after := by
  have pulled : (modifyGet (loader.torch.next source iterator) :
      EStateM Raised (Ambient Python Numpy Torch owns) (Pull Value × Iter)) before =
        .ok (loader.torch.next source iterator before).1
          (loader.torch.next source iterator before).2 := rfl
  rw [ZeroLoader.replay, bind_eq_ok_iff]
  constructor
  · rintro ⟨⟨pull, next⟩, middle, first, rest⟩
    rw [pulled] at first
    generalize loader.torch.next source iterator before = answer at first
    obtain ⟨⟨_, _⟩, _⟩ := answer
    cases first
    cases pull with
    | value value => exact ⟨value, _, _, rfl, rest⟩
    | stop | raised failure => cases rest
  · rintro ⟨value, next, middle, first, rest⟩
    refine ⟨(.value value, next), middle, ?_, rest⟩
    rw [pulled, first]

variable {middle : Ambient Python Numpy Torch owns}

/-- One more delivery after a replay. -/
theorem replay_snoc {next : Iter} {value : Value}
    (replayed : loader.replay source count iterator before = .ok final middle)
    (pulled : loader.torch.next source final middle = ((.value value, next), after)) :
    loader.replay source (count + 1) iterator before = .ok next after := by
  induction count generalizing iterator before with
  | zero =>
      cases replayed
      exact replay_succ_ok_iff.mpr ⟨value, next, after, pulled, rfl⟩
  | succ count ih =>
      obtain ⟨first, second, between, here, rest⟩ := replay_succ_ok_iff.mp replayed
      exact replay_succ_ok_iff.mpr ⟨first, second, between, here, ih rest⟩

theorem replayFrom_snoc {next : Iter} {value : Value}
    (replayed : loader.replayFrom source count before = .ok final middle)
    (pulled : loader.torch.next source final middle = ((.value value, next), after)) :
    loader.replayFrom source (count + 1) before = .ok next after := by
  obtain ⟨started, between, first, rest⟩ := bind_eq_ok_iff.mp replayed
  exact bind_eq_ok_iff.mpr ⟨started, between, first, replay_snoc rest pulled⟩

/-- A checkpoint is resumed where both its random states decode and the delivered prefix is
delivered again; what the replay draws is undone. -/
theorem resume_ok_iff {state : CompatZeroCheckpoint library} :
    loader.resume source state before = .ok final after ↔
      ∃ started replayed,
        Decodes loader.generators state.iteratorGenerator state.iteratorGlobals started ∧
          loader.replayFrom source state.deliveredBatches started = .ok final replayed ∧
            Decodes loader.generators state.currentGenerator state.currentGlobals after := by
  unfold ZeroLoader.resume
  constructor
  · intro done
    obtain ⟨_, globals, first, rest⟩ := bind_eq_ok_iff.mp done
    obtain ⟨_, started, second, rest⟩ := bind_eq_ok_iff.mp rest
    obtain ⟨iterator, fresh, third, rest⟩ := bind_eq_ok_iff.mp rest
    obtain ⟨_, replayed, fourth, rest⟩ := bind_eq_ok_iff.mp rest
    obtain ⟨_, generator, fifth, rest⟩ := bind_eq_ok_iff.mp rest
    obtain ⟨_, _, sixth, rest⟩ := bind_eq_ok_iff.mp rest
    cases rest
    refine ⟨started, replayed, ?_, bind_eq_ok_iff.mpr ⟨iterator, fresh, third, fourth⟩, ?_⟩
    · exact restore_globals_generator_ok_iff.mp (bind_eq_ok_iff.mpr ⟨_, globals, first, second⟩)
    · exact restore_generator_globals_ok_iff.mp (bind_eq_ok_iff.mpr ⟨_, generator, fifth, sixth⟩)
  · rintro ⟨started, replayed, first, second, third⟩
    have opened := (@restore_globals_generator_ok_iff _ _ _ _ _ _ _ before _).mpr first
    have restored := (@restore_generator_globals_ok_iff _ _ _ _ _ _ _ replayed _).mpr third
    obtain ⟨_, globals, one, two⟩ := bind_eq_ok_iff.mp opened
    obtain ⟨iterator, fresh, three, four⟩ := bind_eq_ok_iff.mp second
    obtain ⟨_, generator, five, six⟩ := bind_eq_ok_iff.mp restored
    refine bind_eq_ok_iff.mpr ⟨_, globals, one, bind_eq_ok_iff.mpr ⟨_, started, two, ?_⟩⟩
    refine bind_eq_ok_iff.mpr ⟨iterator, fresh, three, bind_eq_ok_iff.mpr ⟨_, replayed, four, ?_⟩⟩
    refine bind_eq_ok_iff.mpr ⟨_, generator, five, bind_eq_ok_iff.mpr ⟨_, _, six, rfl⟩⟩

end Replay

/-! ### What runs leave of an iterator -/

/-- An iterator that is not complete. -/
def Session.Unfinished (session : Session Source Iter Python Numpy Torch owns library) : Prop :=
  ∃ active, session.active = some active ∧ active.complete = false

namespace ZeroLoader

variable (loader : ZeroLoader Source Iter Value Python Numpy Torch owns library)
  (alike : Setoid (Ambient Python Numpy Torch owns))

/-- Random states that are alike make torch's iterator take the same course, whatever else the
values it delivers depend on. -/
structure Respects : Prop where
  delivers : ∀ source iterator one two, alike.r one two →
    (loader.torch.next source iterator one).1.1.delivers =
      (loader.torch.next source iterator two).1.1.delivers
  iterator : ∀ source iterator one two, alike.r one two →
    (loader.torch.next source iterator one).1.2 = (loader.torch.next source iterator two).1.2
  ambient : ∀ source iterator one two, alike.r one two →
    alike.r (loader.torch.next source iterator one).2 (loader.torch.next source iterator two).2

/-- Replaying what a checkpoint delivered leads to the random state it was captured under. -/
def Belongs (source : Source) (state : CompatZeroCheckpoint library) : Prop :=
  ∃ started iterator replayed after,
    Decodes loader.generators state.iteratorGenerator state.iteratorGlobals started ∧
      loader.replayFrom source state.deliveredBatches started = .ok iterator replayed ∧
        Decodes loader.generators state.currentGenerator state.currentGlobals after ∧
          alike.r replayed after

/-- While an iterator is under way nothing raises, the sampler's epoch stays, and what a program
draws makes no difference to the iterator. -/
def Undisturbed (session : Session Source Iter Python Numpy Torch owns library) :
    Command Python Numpy Torch owns Other → Prop
  | .iterate => ∀ state, session.resume = some state → loader.Belongs alike session.source state
  | .next => ∀ active, session.active = some active → active.complete = false → ∀ failure,
      (loader.torch.next session.source active.iterator session.ambient).1.1 ≠ .raised failure
  | .draw ambient => session.Unfinished → alike.r session.ambient ambient
  | .setEpoch epoch =>
      session.Unfinished → loader.torch.setEpoch epoch session.source = session.source
  | .capture | .load _ | .close => True

/-- What a loader keeps of its checkpoint: it is one of its own kind, and there is no iterator. -/
structure Holds (session : Session Source Iter Python Numpy Torch owns library)
    (state : CompatZeroCheckpoint library) : Prop where
  idle : session.active = none
  matching : requireFingerprintMatch library state.fingerprint loader.fingerprint = .ok ()
  decodes : ∃ ambient : Ambient Python Numpy Torch owns,
    Decodes loader.generators state.currentGenerator state.currentGlobals ambient

/-- What it keeps of an unfinished iterator: the delivered prefix, replayed under the random
state the iterator started from, leads to it. -/
def Traces (session : Session Source Iter Python Numpy Torch owns library)
    (active : ZeroIterator Iter) : Prop :=
  ∃ started replayed,
    Decodes loader.generators active.iteratorGenerator active.iteratorGlobals started ∧
      loader.replayFrom session.source active.delivered started = .ok active.iterator replayed ∧
        alike.r replayed session.ambient

variable {loader alike} {session after : Session Source Iter Python Numpy Torch owns library}

/-! ### The commands -/

theorem load_done_iff {payload : Object Other} :
    loader.load session payload = (.done, after) ↔
      ∃ state ambient, CompatZeroCheckpoint.fromDict payload = .ok state ∧
        requireFingerprintMatch library state.fingerprint loader.fingerprint = .ok () ∧
          Decodes loader.generators state.currentGenerator state.currentGlobals ambient ∧
            after = { session with ambient, resume := some state, active := none } := by
  unfold load
  constructor
  · intro done
    split at done
    · cases done
    · rename_i state read
      split at done
      · cases done
      · rename_i matching
        split at done
        · rename_i ambient installed
          cases done
          exact ⟨state, ambient, read, matching,
            restore_generator_globals_ok_iff.mp installed, rfl⟩
        · cases done
  · rintro ⟨state, ambient, read, matching, decodes, rfl⟩
    have installed : loader.install state session.ambient = .ok ⟨⟩ ambient :=
      restore_generator_globals_ok_iff.mpr decodes
    rw [read]
    dsimp only
    rw [matching]
    dsimp only
    rw [installed]

/-- A load that does not go through leaves no iterator, or changes nothing. -/
theorem load_cases (payload : Object Other) :
    (∃ after, loader.load session payload = (.done, after)) ∨
      ∃ failure, loader.load session payload = (.raised failure, session) ∨
        ∃ ambient, loader.load session payload =
          (.raised failure, { session with ambient, active := none }) := by
  unfold load
  split
  · rename_i failure _
    exact .inr ⟨failure, .inl rfl⟩
  · split
    · rename_i failure _
      exact .inr ⟨failure, .inl rfl⟩
    · split
      · exact .inl ⟨_, rfl⟩
      · rename_i failure ambient _
        exact .inr ⟨failure, .inr ⟨ambient, rfl⟩⟩

/-- A call that answers `done` where its effect goes through. -/
theorem answered_done_iff {result : EStateM.Result Raised (Ambient Python Numpy Torch owns) Iter}
    {kept : Iter → Ambient Python Numpy Torch owns →
      Session Source Iter Python Numpy Torch owns library} {lost : Ambient Python Numpy Torch owns →
      Session Source Iter Python Numpy Torch owns library} :
    (match result with
      | .ok iterator ambient => ((.done, kept iterator ambient) : Answer Value Other × _)
      | .error failure ambient => (.raised failure, lost ambient)) = (.done, after) ↔
      ∃ iterator ambient, result = .ok iterator ambient ∧ after = kept iterator ambient := by
  cases result with
  | error failure ambient =>
      constructor
      · intro impossible
        cases impossible
      · rintro ⟨_, _, impossible, _⟩
        cases impossible
  | ok iterator ambient =>
      constructor
      · intro done
        cases done
        exact ⟨iterator, ambient, rfl, rfl⟩
      · rintro ⟨_, _, same, rfl⟩
        cases same
        rfl

variable {state : CompatZeroCheckpoint library}

theorem iterate_resume_iff (held : session.resume = some state) :
    loader.iterate session = (.done, after) ↔
      ∃ iterator ambient, loader.resume session.source state session.ambient =
          .ok iterator ambient ∧
        after =
          { session with
            ambient
            resume := none
            active := some
              { iterator
                iteratorGlobals := state.iteratorGlobals
                iteratorGenerator := state.iteratorGenerator
                delivered := state.deliveredBatches
                complete := false } } := by
  rw [iterate, held]
  exact answered_done_iff

theorem iterate_fresh_iff (free : session.resume = none) :
    loader.iterate session = (.done, after) ↔
      ∃ iterator ambient, loader.torch.start session.source session.ambient =
          .ok iterator ambient ∧
        after =
          { session with
            ambient
            resume := none
            active := some
              { iterator
                iteratorGlobals := captureGlobals loader.generators session.ambient.globals
                iteratorGenerator :=
                  captureGenerator loader.generators session.ambient.generator
                delivered := 0
                complete := false } } := by
  rw [iterate, free]
  exact answered_done_iff

/-! ### What a run keeps -/

/-- A loader under the commands of a program. -/
structure Sound (loader : ZeroLoader Source Iter Value Python Numpy Torch owns library)
    (alike : Setoid (Ambient Python Numpy Torch owns))
    (session : Session Source Iter Python Numpy Torch owns library) : Prop where
  resume : ∀ state, session.resume = some state → loader.Holds session state
  active : ∀ active, session.active = some active → active.complete = false →
    loader.Traces alike session active

theorem sound_start (source : Source) (ambient : Ambient Python Numpy Torch owns) :
    loader.Sound alike (start source ambient : Session Source Iter Python Numpy Torch owns library)
    where
  resume _ impossible := by cases impossible
  active _ impossible := by cases impossible

theorem sound_iterate (sound : loader.Sound alike session)
    (belongs : ∀ state, session.resume = some state → loader.Belongs alike session.source state) :
    loader.Sound alike (loader.iterate session).2 := by
  unfold iterate
  cases held : session.resume with
  | none =>
      dsimp only
      split
      · rename_i iterator ambient started
        refine ⟨fun _ impossible => (by cases impossible), fun active same _ => ?_⟩
        cases same
        exact ⟨session.ambient, ambient, decodes_capture session.ambient,
          bind_eq_ok_iff.mpr ⟨iterator, ambient, started, rfl⟩, alike.refl ambient⟩
      · refine ⟨fun _ impossible => (by cases impossible), fun active same unfinished => ?_⟩
        have complete := (Option.filter_eq_some_iff.mp same).2
        rw [unfinished] at complete
        cases complete
  | some state =>
      have kept := sound.resume state held
      dsimp only
      split
      · rename_i iterator ambient resumed
        obtain ⟨started, replayed, first, second, third⟩ := resume_ok_iff.mp resumed
        obtain ⟨other, _, replayed', after, first', second', third', near⟩ := belongs state held
        cases first.unique first'
        cases second.symm.trans second'
        cases third.unique third'
        refine ⟨fun _ impossible => (by cases impossible), fun active same _ => ?_⟩
        cases same
        exact ⟨started, replayed, first, second, near⟩
      · have gone : session.active.filter (·.complete) = none := by
          rw [kept.idle]
          rfl
        rw [gone]
        exact ⟨fun other same => ⟨rfl, (sound.resume other (held.trans same)).matching,
          (sound.resume other (held.trans same)).decodes⟩, fun _ impossible => by cases impossible⟩

theorem sound_next (respects : loader.Respects alike) (sound : loader.Sound alike session)
    (raises : ∀ active, session.active = some active → active.complete = false → ∀ failure,
      (loader.torch.next session.source active.iterator session.ambient).1.1 ≠ .raised failure) :
    loader.Sound alike (loader.next session).2 := by
  unfold next
  cases held : session.active with
  | none => exact sound
  | some active =>
      have idle : ∀ state, session.resume ≠ some state := fun state same => by
        cases held.symm.trans (sound.resume state same).idle
      dsimp only
      split
      · rename_i value iterator ambient pulled
        refine ⟨fun state same => absurd same (idle state), fun other same unfinished => ?_⟩
        cases same
        obtain ⟨started, replayed, decodes, trace, near⟩ := sound.active active held unfinished
        have delivers := respects.delivers session.source active.iterator _ _ near
        have follows := respects.iterator session.source active.iterator _ _ near
        have stays := respects.ambient session.source active.iterator _ _ near
        rw [pulled] at delivers follows stays
        cases again : loader.torch.next session.source active.iterator replayed with
        | mk answer middle =>
            rw [again] at delivers follows stays
            obtain ⟨pull, next⟩ := answer
            cases follows
            cases pull with
            | value other =>
                exact ⟨started, middle, decodes, replayFrom_snoc trace again, stays⟩
            | stop | raised failure => cases delivers
      · refine ⟨fun state same => absurd same (idle state), fun other same unfinished => ?_⟩
        cases same
        cases unfinished
      · rename_i failure iterator ambient pulled
        refine ⟨fun state same => absurd same (idle state), fun other same unfinished => ?_⟩
        cases same
        refine absurd ?_ (raises active held unfinished failure)
        rw [pulled]

theorem sound_load (payload : Object Other) (sound : loader.Sound alike session) :
    loader.Sound alike (loader.load session payload).2 := by
  obtain ⟨after, done⟩ | ⟨failure, unchanged | ⟨ambient, closed⟩⟩ := loader.load_cases payload
  · obtain ⟨state, ambient, -, matching, decodes, rfl⟩ := load_done_iff.mp done
    rw [done]
    exact ⟨fun other same => by
      cases same
      exact ⟨rfl, matching, ambient, decodes⟩, fun _ impossible => by cases impossible⟩
  · rw [unchanged]
    exact sound
  · rw [closed]
    exact ⟨fun state same => ⟨rfl, (sound.resume state same).matching,
      (sound.resume state same).decodes⟩, fun _ impossible => by cases impossible⟩

theorem sound_step (respects : loader.Respects alike)
    {command : Command Python Numpy Torch owns Other} {answer : Answer Value Other}
    (sound : loader.Sound alike session) (allowed : loader.Undisturbed alike session command)
    (stepEq : loader.machine.step session command = some (answer, after)) :
    loader.Sound alike after := by
  cases command with
  | iterate =>
      have same : (loader.iterate session).2 = after := congrArg Prod.snd (Option.some.inj stepEq)
      exact same ▸ sound_iterate sound allowed
  | next =>
      have same : (loader.next session).2 = after := congrArg Prod.snd (Option.some.inj stepEq)
      exact same ▸ sound_next respects sound allowed
  | draw ambient =>
      cases stepEq
      refine ⟨fun state same => ?_, fun active same unfinished => ?_⟩
      · obtain ⟨idle, matching, decodes⟩ := sound.resume state same
        exact ⟨idle, matching, decodes⟩
      · obtain ⟨started, replayed, decodes, trace, near⟩ := sound.active active same unfinished
        exact ⟨started, replayed, decodes, trace,
          alike.trans near (allowed ⟨active, same, unfinished⟩)⟩
  | capture =>
      cases stepEq
      exact sound
  | load payload =>
      have same : (loader.load session payload).2 = after :=
        congrArg Prod.snd (Option.some.inj stepEq)
      exact same ▸ sound_load payload sound
  | setEpoch epoch =>
      cases stepEq
      refine ⟨fun _ impossible => (by cases impossible), fun active same unfinished => ?_⟩
      obtain ⟨started, replayed, decodes, trace, near⟩ := sound.active active same unfinished
      refine ⟨started, replayed, decodes, ?_, near⟩
      rw [allowed ⟨active, same, unfinished⟩]
      exact trace
  | close =>
      cases stepEq
      refine ⟨fun state same => ?_, fun _ impossible => by cases impossible⟩
      exact ⟨rfl, (sound.resume state same).matching, (sound.resume state same).decodes⟩

/-! ### What a capture holds -/

variable (loader session) in
/-- The checkpoint of an iterator that delivered a prefix, at this point of the session. -/
def pausedAt (delivered : Nat) (globals : GlobalStates) (generator : Option (List UInt8))
    (owned : generator.isSome = owns) : CompatZeroCheckpoint library where
  deliveredBatches := delivered
  iteratorGlobals := globals
  currentGlobals := captureGlobals loader.generators session.ambient.globals
  iteratorGenerator := generator
  currentGenerator := captureGenerator loader.generators session.ambient.generator
  fingerprint := loader.fingerprint
  paired := owned.trans (isSome_captureGenerator session.ambient).symm

theorem capture_of_unfinished {active : ZeroIterator Iter} (here : session.active = some active)
    (unfinished : active.complete = false) (owned : active.iteratorGenerator.isSome = owns) :
    loader.capture session =
      (loader.pausedAt session active.delivered active.iteratorGlobals active.iteratorGenerator
        owned).toDict := by
  have kept : session.active.filter (fun active => !active.complete) = some active := by
    rw [here, Option.filter_some, unfinished]
    rfl
  rw [capture, kept]
  rfl

section

variable (finished : ¬session.Unfinished)

include finished

theorem filter_of_not_unfinished :
    session.active.filter (fun active => !active.complete) = none := by
  refine Option.filter_eq_none_iff.mpr fun active here going => finished ⟨active, here, ?_⟩
  exact (Bool.not_eq_true' _).mp going

theorem capture_of_resume (held : session.resume = some state) :
    loader.capture session = state.toDict := by
  rw [capture, filter_of_not_unfinished finished, held]

theorem capture_of_idle (free : session.resume = none) :
    loader.capture session =
      (loader.pausedAt session 0 (captureGlobals loader.generators session.ambient.globals)
        (captureGenerator loader.generators session.ambient.generator)
        (isSome_captureGenerator session.ambient)).toDict := by
  rw [capture, filter_of_not_unfinished finished, free]
  rfl

end

/-! ### Loading it -/

section Loaded

variable (texts : ∀ text : String, library.equal (.text text) (.text text) = true)
  (equal : ∀ element ∈ loader.fingerprint.elements,
    library.equal element.value element.value = true)
  (other : Session Source Iter Python Numpy Torch owns library)

include texts

/-- A checkpoint of the loader's kind is installed, and is what the loader captures next. -/
theorem load_toDict {ambient : Ambient Python Numpy Torch owns}
    (matching : requireFingerprintMatch library state.fingerprint loader.fingerprint = .ok ())
    (decodes : Decodes loader.generators state.currentGenerator state.currentGlobals ambient) :
    ∃ loaded, loader.load other state.toDict = (.done, loaded) ∧
      loaded = { other with ambient, resume := some state, active := none } ∧
        loader.capture loaded = state.toDict := by
  refine ⟨_, load_done_iff.mpr ⟨state, ambient, state.fromDict_toDict texts, matching, decodes,
    rfl⟩, rfl, capture_of_resume ?_ rfl⟩
  rintro ⟨_, impossible, _⟩
  cases impossible

include equal

variable (session) in
theorem load_pausedAt (delivered : Nat) (globals : GlobalStates)
    (generator : Option (List UInt8)) (owned : generator.isSome = owns) :
    ∃ loaded, loader.load other
        (loader.pausedAt session delivered globals generator owned).toDict = (.done, loaded) ∧
      loaded =
        { other with
          ambient := session.ambient
          resume := some (loader.pausedAt session delivered globals generator owned)
          active := none } ∧
        loader.capture loaded =
          (loader.pausedAt session delivered globals generator owned).toDict :=
  load_toDict texts other (requireFingerprintMatch_self equal) (decodes_capture session.ambient)

end Loaded

/-- What is captured in a session that nothing disturbed loads in every session over the same
source. Iterating there gives back the captured session, iterator, random state and all, when an
iterator was under way; otherwise it starts the iterator the captured session would start, in
the random state the checkpoint was captured under. -/
theorem captured_continues (texts : ∀ text : String, library.equal (.text text) (.text text) = true)
    (equal : ∀ element ∈ loader.fingerprint.elements,
      library.equal element.value element.value = true) (respects : loader.Respects alike)
    {source : Source} {ambient : Ambient Python Numpy Torch owns}
    {commands : List (Command Python Numpy Torch owns Other)}
    {trace : List (Command Python Numpy Torch owns Other × Answer Value Other)}
    (ran : loader.machine.run (start source ambient) commands = some (trace, session))
    (undisturbed : loader.machine.Along (loader.Undisturbed alike) (start source ambient) commands)
    (other : Session Source Iter Python Numpy Torch owns library)
    (sameSource : other.source = session.source) :
    ∃ loaded, loader.load other (loader.capture session) = (.done, loaded) ∧
      loader.capture loaded = loader.capture session ∧
      (session.resume = none → loaded.ambient = session.ambient) ∧
      (session.Unfinished → loader.iterate loaded = (.done, session)) ∧
      (¬session.Unfinished → ∀ fresh, loader.iterate session = (.done, fresh) →
        loader.iterate loaded = (.done, { fresh with ambient := loaded.ambient })) := by
  have sound : loader.Sound alike session :=
    loader.machine.run_invariant
      (fun _ _ _ _ kept allowed stepEq => sound_step respects kept allowed stepEq)
      (sound_start source ambient) undisturbed ran
  by_cases unfinished : session.Unfinished
  · obtain ⟨active, here, going⟩ := unfinished
    obtain ⟨started, replayed, decodes, trace, -⟩ := sound.active active here going
    obtain ⟨loaded, done, same, again⟩ := load_pausedAt session texts equal other
      active.delivered active.iteratorGlobals active.iteratorGenerator decodes.owned
    rw [capture_of_unfinished here going decodes.owned]
    refine ⟨loaded, done, again, fun _ => same ▸ rfl, fun _ => ?_,
      fun finished => absurd ⟨active, here, going⟩ finished⟩
    have free : session.resume = none := Option.eq_none_iff_forall_ne_some.mpr
      fun state held => by cases here.symm.trans (sound.resume state held).idle
    subst same
    refine (iterate_resume_iff rfl).mpr ⟨active.iterator, session.ambient, ?_, ?_⟩
    · exact resume_ok_iff.mpr
        ⟨started, replayed, decodes, sameSource ▸ trace, decodes_capture session.ambient⟩
    · obtain ⟨iterator, globals, generator, delivered, complete⟩ := active
      obtain ⟨source, ambient, resume, current⟩ := session
      cases free
      cases here
      cases going
      cases sameSource
      rfl
  · cases held : session.resume with
    | some state =>
        obtain ⟨-, matching, ambient, decodes⟩ := sound.resume state held
        obtain ⟨loaded, done, same, again⟩ := load_toDict texts other matching decodes
        rw [capture_of_resume unfinished held]
        refine ⟨loaded, done, again, fun impossible => (by cases impossible),
          fun going => absurd going unfinished, fun _ fresh iterated => ?_⟩
        obtain ⟨iterator, _, resumed, rfl⟩ := (iterate_resume_iff held).mp iterated
        obtain ⟨started, replayed, first, second, third⟩ := resume_ok_iff.mp resumed
        subst same
        refine (iterate_resume_iff rfl).mpr ⟨iterator, ambient, ?_, ?_⟩
        · exact resume_ok_iff.mpr ⟨started, replayed, first, sameSource ▸ second, decodes⟩
        · rw [sameSource]
    | none =>
        obtain ⟨loaded, done, same, again⟩ := load_pausedAt session texts equal other 0
          (captureGlobals loader.generators session.ambient.globals)
          (captureGenerator loader.generators session.ambient.generator)
          (isSome_captureGenerator session.ambient)
        rw [capture_of_idle unfinished held]
        refine ⟨loaded, done, again, fun _ => same ▸ rfl, fun going => absurd going unfinished,
          fun _ fresh iterated => ?_⟩
        obtain ⟨iterator, begun, started, rfl⟩ := (iterate_fresh_iff held).mp iterated
        subst same
        refine (iterate_resume_iff rfl).mpr ⟨iterator, session.ambient, ?_, ?_⟩
        · refine resume_ok_iff.mpr ⟨session.ambient, begun, decodes_capture session.ambient, ?_,
            decodes_capture session.ambient⟩
          exact bind_eq_ok_iff.mpr ⟨iterator, begun, sameSource ▸ started, rfl⟩
        · rw [sameSource]
          rfl

end ZeroLoader

/-! ### A loader whose sampler draws from its generator -/

def byteSerial : Serial UInt8 where
  write held := [held]
  read
    | [held] => .ok held
    | _ => .error (.valueError "invalid generator state")
  read_write _ := rfl

/-- It skips a batch where the generator is odd, and its values show the global state. -/
def skippingTorch : TorchLoader Nat Nat Nat UInt8 UInt8 UInt8 true where
  start _ := do
    modify fun ambient => ambient.setGenerator (ambient.generator.getD 0 + 1)
    pure 0
  next source iterator ambient :=
    let drawn := ambient.generator.getD 0
    if iterator < 9 then
      ((.value (source + iterator + ambient.globals.random.toNat),
          iterator + 1 + drawn.toNat % 2),
        (ambient.setRandom (ambient.globals.random + 1)).setGenerator (drawn + 1))
    else ((.stop, iterator), ambient)
  setEpoch epoch _ := epoch

def skippingLoader : ZeroLoader Nat Nat Nat UInt8 UInt8 UInt8 true pendingLibrary :=
  ⟨skippingTorch, ⟨byteSerial, byteSerial, byteSerial⟩, pendingFingerprint⟩

/-- The iterator reads the generator alone. -/
def sameGenerator : Setoid (Ambient UInt8 UInt8 UInt8 true) :=
  Setoid.ker fun ambient => ambient.generator

theorem respects_sameGenerator : skippingLoader.Respects sameGenerator where
  delivers source iterator one two _ := by
    by_cases going : iterator < 9 <;> simp [skippingLoader, skippingTorch, going, Pull.delivers]
  iterator source iterator one two same := by
    have same : one.generator = two.generator := same
    by_cases going : iterator < 9 <;> simp [skippingLoader, skippingTorch, going, same]
  ambient source iterator one two same := by
    have same : one.generator = two.generator := same
    show (skippingTorch.next source iterator one).2.generator =
      (skippingTorch.next source iterator two).2.generator
    by_cases going : iterator < 9 <;>
      simp [skippingTorch, going, same, Ambient.setGenerator, Ambient.setRandom]

def quiet (random generator : UInt8) : Ambient UInt8 UInt8 UInt8 true :=
  ⟨⟨random, 0, 0⟩, some generator, rfl⟩

/-- A program draws from the global state between two batches; the iterator resumes as it was. -/
theorem captured_continues_skipping : ∃ trace session,
    skippingLoader.machine.run (ZeroLoader.start 0 (quiet 5 1))
      [.iterate, .next, .draw (quiet 77 3), .next] = some (trace, session) ∧
      ∃ loaded, skippingLoader.load (ZeroLoader.start 0 (quiet 0 0))
          (skippingLoader.capture session) = (.done, loaded) ∧
        skippingLoader.iterate loaded = (.done, session) := by
  have undisturbed : skippingLoader.machine.Along (skippingLoader.Undisturbed sameGenerator)
      (ZeroLoader.start 0 (quiet 5 1)) [.iterate, .next, .draw (quiet 77 3), .next] := by
    refine Machine.along_cons _ (fun _ impossible => (by cases impossible)) rfl ?_
    refine Machine.along_cons _ (fun active same _ failure impossible => ?_) rfl ?_
    · cases same
      cases impossible
    refine Machine.along_cons _ (fun _ => (rfl : some (3 : UInt8) = some 3)) rfl ?_
    refine Machine.along_cons _ (fun active same _ failure impossible => ?_) rfl trivial
    cases same
    cases impossible
  refine ⟨_, _, rfl, ?_⟩
  have loads := fun trace session ran =>
    @ZeroLoader.captured_continues _ _ _ _ _ _ _ _ _ skippingLoader sameGenerator session
      (fun _ => decide_eq_true rfl) (by decide) respects_sameGenerator 0 (quiet 5 1) _ trace ran
      undisturbed (ZeroLoader.start 0 (quiet 0 0))
  obtain ⟨loaded, done, -, -, continues, -⟩ := loads _ _ rfl rfl
  exact ⟨loaded, done, continues ⟨_, rfl, rfl⟩⟩

end Hyperloader.Compat.Zero
