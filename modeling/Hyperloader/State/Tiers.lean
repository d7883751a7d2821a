/-
Module: Hyperloader.State.Tiers
Purpose: Resuming an on-completion run in another execution tier: the states runs capture,
  the loaders that accept them, and when the batches before the capture and after the
  restore are all batches of the epoch, each once.
Trusted boundary: as for the iterators of the tiers and for checkpoint payloads.
Main exports: Tier, TierLoader, Saved, Exactly, resumed_exactly_iff
-/
import Hyperloader.InProcess.Iterator
import Hyperloader.Process.Submission
import Hyperloader.State.MapState
import Hyperloader.Thread.Iterator

namespace Hyperloader.State

open Foundations Process Thread Hyperloader.InProcess

/-! ### Tiers -/

/-- The execution tier of a loader, with what its iterator reads of it. -/
inductive Tier where
  | inProcess (loader : InProcessLoader)
  | thread (loader : ThreadLoader)
  | process (loader : CollatedLoader)

namespace Tier

def batching : Tier → Batching
  | .inProcess loader => loader.batching
  | .thread loader => loader.batching
  | .process loader => loader.batching

def Iterator : Tier → Type
  | .inProcess _ => InProcessIterator
  | .thread _ => ThreadIterator
  | .process _ => ProcessIterator

def Label : Tier → Type
  | .inProcess _ => Unit
  | .thread _ => ThreadIterator.Label
  | .process _ => ProcessIterator.Label

/-- The iterator from a resume cursor and bitmap. -/
def start : (tier : Tier) → Nat → List UInt8 → Except Raised tier.Iterator
  | .inProcess loader, cursor, _ => InProcessIterator.start loader cursor
  | .thread loader, cursor, bitmap => ThreadIterator.start loader cursor bitmap
  | .process loader, cursor, bitmap => ProcessIterator.start loader.toProcessLoader cursor bitmap

def machine : (tier : Tier) → Machine tier.Iterator tier.Label Yield
  | .inProcess loader => InProcessIterator.machine loader
  | .thread loader => ThreadIterator.machine loader
  | .process loader => ProcessIterator.submitting loader

/-- The tier over a transport that takes every command. -/
def willing : (tier : Tier) → Machine tier.Iterator tier.Label Yield
  | .inProcess loader => InProcessIterator.machine loader
  | .thread loader => ThreadIterator.machine loader
  | .process loader => ProcessIterator.machine loader.toProcessLoader

/-- The checkpoint properties of an iterator of the epoch. -/
def active : (tier : Tier) → tier.Iterator → Nat → ActiveIterator
  | .inProcess _, (iterator : InProcessIterator), epoch =>
      ⟨iterator.complete, epoch, iterator.delivered, 0, some []⟩
  | .thread _, (iterator : ThreadIterator), epoch =>
      ⟨iterator.complete, epoch, iterator.delivered.base, 0, some iterator.delivered.bitmap⟩
  | .process _, (iterator : ProcessIterator), epoch =>
      ⟨iterator.complete, epoch, iterator.delivered.base, 0, some iterator.delivered.bitmap⟩

/-- A tier continues a state with these batches ahead of its cursor: in process there are
none, and under user collation they have less than a batch of samples. -/
def Resumes : Tier → Finset Nat → Prop
  | .inProcess _, ahead => ahead = ∅
  | .thread _, _ => True
  | .process loader, ahead =>
      loader.userCollation = true → loader.batching.samples ahead < loader.sizing.width

/-- Every command a tier sends from a cursor on, but for the batches ahead of it, fits its payload
slot. -/
def Fits : Tier → Nat → Finset Nat → Prop
  | .inProcess _, _, _ => True
  | .thread _, _, _ => True
  | .process loader, cursor, ahead => ∀ position,
      loader.scheduleStart (min loader.length (cursor * loader.sizing.width)) ≤ position →
        position < loader.scheduleLength → position ∉ ahead → loader.refusal position = none

end Tier

/-! ### Loaders -/

variable {Other : Type} {library : Library Other}

/-- An on-completion loader without a user sampler, and its tier. -/
structure TierLoader (library : Library Other) where
  map : MapLoader library
  tier : Tier
  onCompletion : map.delivery = .onCompletion
  unsampled : map.hasSampler = false ∧ map.samplerRuntime = none
  wide : map.width = tier.batching.width
  long : map.deliveryLength = some tier.batching.length

namespace TierLoader

variable (loader : TierLoader library)

/-- The batches delivered ahead of the resume cursor. -/
def ahead : Finset Nat :=
  Bitmap.members loader.map.resumeCursorBatches loader.map.resumeDeliveredBitmap

/-- `load_state_dict` -/
def load (payload : Object Other) : Except Raised (TierLoader library) :=
  match accepted : restoreMapState loader.map payload with
  | .error failure => .error failure
  | .ok restored =>
      have installed : ∃ state, restored = loader.map.install state :=
        (restoreMapState_ok accepted).imp fun _ both => both.2
      .ok
        { map := restored
          tier := loader.tier
          onCompletion := by
            obtain ⟨state, rfl⟩ := installed
            exact loader.onCompletion
          unsampled := by
            obtain ⟨state, rfl⟩ := installed
            exact ⟨loader.unsampled.1, rfl⟩
          wide := by
            obtain ⟨state, rfl⟩ := installed
            exact loader.wide
          long := by
            obtain ⟨state, rfl⟩ := installed
            have long := loader.long
            rw [MapLoader.deliveryLength, loader.unsampled.2] at long
            exact long }

/-- `__iter__` -/
def iterate : Except Raised loader.tier.Iterator :=
  loader.tier.start loader.map.resumeCursorBatches loader.map.resumeDeliveredBitmap

/-- `state_dict` while the iterator is active. -/
def capture (iterator : loader.tier.Iterator) : Except Raised (MapCoordinateState library) :=
  let epochState := loader.map.epochState.beginIteration.2
  captureMapState
    { loader.map with
      epochState := epochState
      activeIterator := some (loader.tier.active iterator epochState.current) }

end TierLoader

/-- A run of the iterator of a loader, and the state captured before it is complete. -/
def Segment (loader : TierLoader library) (batches : List (List Nat))
    (payload : Object Other) : Prop :=
  ∃ iterator labels trace final captured,
    loader.iterate = .ok iterator ∧
    loader.tier.machine.run iterator labels = some (trace, final) ∧
    (loader.tier.active final 0).complete = false ∧
    loader.capture final = .ok captured ∧
    batches = handed Yield.batch trace ∧ payload = captured.toDict

/-- The states a run over an epoch captures, with the batches delivered before: a first run
from the start of the epoch, and further runs each of which resumes what was captured. -/
inductive Saved (library : Library Other) (epoch : Batching) :
    List (List Nat) → Object Other → Prop where
  | first {loader : TierLoader library} {batches : List (List Nat)} {payload : Object Other}
      (shape : loader.tier.batching = epoch)
      (fresh : loader.map.resumeCursorBatches = 0 ∧ loader.map.resumeDeliveredBitmap = [])
      (segment : Segment loader batches payload) : Saved library epoch batches payload
  | later {before : List (List Nat)} {payload : Object Other} {loader loaded : TierLoader library}
      {batches : List (List Nat)} {next : Object Other}
      (saved : Saved library epoch before payload)
      (accepted : loader.load payload = .ok loaded) (shape : loaded.tier.batching = epoch)
      (resumes : loaded.tier.Resumes loaded.ahead)
      (segment : Segment loaded batches next) : Saved library epoch (before ++ batches) next

/-- However the iterator of a loader runs, nothing fails, no batch is delivered twice
counting those before, by the end of the epoch all have been, and the end can be reached. -/
def Exactly (loader : TierLoader library) (before : List (List Nat)) : Prop :=
  ∃ iterator, loader.iterate = .ok iterator ∧
    ∀ labels trace final, loader.tier.machine.run iterator labels = some (trace, final) →
      (∀ entry ∈ trace, ¬ Yield.Failed entry.2) ∧
      (before ++ handed Yield.batch trace).Nodup ∧
      (∀ batch ∈ before ++ handed Yield.batch trace, batch ∈ loader.tier.batching.batches) ∧
      ((∃ entry ∈ trace, Yield.Finished entry.2) →
        (before ++ handed Yield.batch trace).Perm loader.tier.batching.batches) ∧
      ∃ more after last, loader.tier.machine.run final more = some (after, last) ∧
        ∃ entry ∈ after, Yield.Finished entry.2

/-! ### Iterators that resume a state -/

/-- An iterator that continues a delivered state: over a willing transport it hands out the batches
the state lacks, and in every state it reaches a capture reads what it has delivered. -/
structure Continuing (tier : Tier) (state : DeliveredBatchState) (iterator : tier.Iterator)
    (invariant : tier.Iterator → Prop) (given : tier.Iterator → Finset (List Nat))
    (measure : tier.Iterator → Nat) : Prop where
  handout : Handout tier.willing Yield.batch Yield.Failed Yield.Finished
    tier.batching.everything invariant given measure
  holds : invariant iterator
  starts : given iterator = tier.batching.contents state.delivered
  captured : ∀ final, invariant final → ∃ reached : DeliveredBatchState,
    (∀ ordinal ∈ reached.delivered, ordinal < tier.batching.count) ∧
    given final = tier.batching.contents reached.delivered ∧
    ∀ epoch, (tier.active final epoch).deliveredBatches = reached.base ∧
      (tier.active final epoch).deliveredBitmap = some reached.bitmap

variable {state : DeliveredBatchState}

theorem inProcess_continuing (loader : InProcessLoader)
    (inside : ∀ ordinal ∈ state.delivered, ordinal < loader.batching.count)
    (resumes : state.ahead = ∅) :
    ∃ iterator invariant given measure,
      (Tier.inProcess loader).start state.base state.bitmap = .ok iterator ∧
      Continuing (Tier.inProcess loader) state iterator invariant given measure := by
  obtain ⟨iterator, startEq, serial, counted⟩ :=
    InProcessIterator.start_spec loader (DeliveredBatchState.base_le_count inside)
  have delivered : state.delivered = Finset.range state.base := by
    rw [DeliveredBatchState.delivered, resumes, Finset.union_empty]
  refine ⟨iterator, _, _, _, startEq, inProcess_handout, serial, ?_, fun final holds => ?_⟩
  · show loader.batching.contents (Finset.range iterator.delivered) = _
    rw [counted, delivered]
    rfl
  · let reached : DeliveredBatchState :=
      ⟨final.delivered, ∅, fun _ member => absurd member (Finset.notMem_empty _)⟩
    have all : reached.delivered = Finset.range final.delivered := Finset.union_empty _
    refine ⟨reached, fun ordinal member => ?_, ?_, fun epoch => ⟨rfl, rfl⟩⟩
    · rw [all, Finset.mem_range] at member
      exact Nat.lt_of_lt_of_le member holds.counted
    · rw [all]
      rfl

theorem thread_continuing (loader : ThreadLoader)
    (inside : ∀ ordinal ∈ state.delivered, ordinal < loader.batching.count) :
    ∃ iterator invariant given measure,
      (Tier.thread loader).start state.base state.bitmap = .ok iterator ∧
      Continuing (Tier.thread loader) state iterator invariant given measure := by
  obtain ⟨iterator, startEq, serving, delivered⟩ := ThreadIterator.start_spec loader inside
  refine ⟨iterator, _, _, _, startEq, thread_handout, serving, ?_, fun final holds => ?_⟩
  · show loader.batching.contents iterator.delivered.delivered = _
    rw [delivered]
    rfl
  · exact ⟨final.delivered, holds.inside, rfl, fun epoch => ⟨rfl, rfl⟩⟩

theorem process_continuing (loader : CollatedLoader)
    (inside : ∀ ordinal ∈ state.delivered, ordinal < loader.batching.count)
    {keeps : Finset Nat → List Nat → Finset Nat → Prop} {fits : DeliveredBatchState → Prop}
    {able : ProcessIterator → Frontier → Prop}
    (passes : Passes loader.toProcessLoader keeps fits able) (nothing : keeps ∅ [] ∅)
    (fitting : fits state) :
    ∃ iterator invariant given measure,
      (Tier.process loader).start state.base state.bitmap = .ok iterator ∧
      Continuing (Tier.process loader) state iterator invariant given measure := by
  obtain ⟨iterator, startEq, delivering, delivered, -⟩ :=
    ProcessIterator.start_spec loader.toProcessLoader inside nothing fitting
  refine ⟨iterator, _, _, _, startEq, passes.handout, delivering, ?_, fun final holds => ?_⟩
  · show loader.batching.contents iterator.delivered.delivered = _
    rw [delivered]
    rfl
  · exact ⟨final.delivered, holds.inside, rfl, fun epoch => ⟨rfl, rfl⟩⟩

/-- Every tier that resumes a state continues it. -/
theorem Tier.continuing (tier : Tier)
    (inside : ∀ ordinal ∈ state.delivered, ordinal < tier.batching.count)
    (resumes : tier.Resumes state.ahead) :
    ∃ iterator invariant given measure, tier.start state.base state.bitmap = .ok iterator ∧
      Continuing tier state iterator invariant given measure := by
  cases tier with
  | inProcess loader => exact inProcess_continuing loader inside resumes
  | thread loader => exact thread_continuing loader inside
  | process loader =>
      cases collation : loader.userCollation with
      | false =>
          exact process_continuing loader inside (plain_passes collation)
            (queued_nothing loader.toProcessLoader) trivial
      | true =>
          exact process_continuing loader inside (collated_passes collation) trivial
            (resumes collation)

/-! ### Over a transport that refuses commands -/

/-- A run is one over a willing transport as far as the batches and the captures go. -/
theorem Tier.mirrored (tier : Tier) {iterator final : tier.Iterator} {labels : List tier.Label}
    {trace : List (tier.Label × Yield)}
    (ran : tier.machine.run iterator labels = some (trace, final)) :
    ∃ labels before last, tier.willing.run iterator labels = some (before, last) ∧
      handed Yield.batch trace = handed Yield.batch before ∧
      ∀ epoch, tier.active final epoch = tier.active last epoch := by
  cases tier with
  | inProcess loader | thread loader => exact ⟨labels, trace, final, ran, rfl, fun _ => rfl⟩
  | process loader =>
      obtain ⟨others, before, rest, last, runEq, rfl, delivered, complete, quiet, -⟩ :=
        (run_mirrored ran).mirror
      refine ⟨others, before, last, runEq, ?_, fun epoch => ?_⟩
      · have silent : rest.filterMap (fun entry => entry.2.batch) = [] :=
          List.filterMap_eq_nil_iff.mpr fun entry member => (quiet entry member).1
        show (before ++ rest).filterMap (fun entry => Yield.batch entry.2) = before.filterMap _
        rw [List.filterMap_append, silent, List.append_nil]
        rfl
      · show ActiveIterator.mk final.complete epoch final.delivered.base 0
          (some final.delivered.bitmap) = _
        rw [delivered, complete]
        rfl

/-- A run without a failure is one over a willing transport. -/
theorem Tier.run_of_sound (tier : Tier) {iterator final : tier.Iterator} {labels : List tier.Label}
    {trace : List (tier.Label × Yield)}
    (ran : tier.machine.run iterator labels = some (trace, final))
    (sound : ∀ entry ∈ trace, ¬ Yield.Failed entry.2) :
    ∃ labels, tier.willing.run iterator labels = some (trace, final) := by
  cases tier with
  | inProcess loader | thread loader => exact ⟨labels, ran⟩
  | process loader => exact Process.run_of_sound ran sound

/-- Where every command fits, the transport is willing. -/
theorem Tier.agrees (tier : Tier)
    (inside : ∀ ordinal ∈ state.delivered, ordinal < tier.batching.count)
    (resumes : tier.Resumes state.ahead) (fits : tier.Fits state.base state.ahead)
    {iterator : tier.Iterator} (begun : tier.start state.base state.bitmap = .ok iterator)
    {labels : List tier.Label} {trace : List (tier.Label × Yield)} {final : tier.Iterator}
    (ran : tier.willing.run iterator labels = some (trace, final)) (more : List tier.Label) :
    tier.machine.run final more = tier.willing.run final more := by
  cases tier with
  | inProcess loader | thread loader => rfl
  | process loader =>
      have run : ∀ {keeps : Finset Nat → List Nat → Finset Nat → Prop}
          {holds : DeliveredBatchState → Prop} {able : ProcessIterator → Frontier → Prop},
          Passes loader.toProcessLoader keeps holds able → keeps ∅ [] ∅ → holds state →
          (ProcessIterator.submitting loader).run final more =
            (ProcessIterator.machine loader.toProcessLoader).run final more := by
        intro keeps holds able passes nothing fitting
        obtain ⟨opened, startEq, delivering, -, fresh, -⟩ :=
          ProcessIterator.start_spec loader.toProcessLoader inside nothing fitting
        obtain rfl := Except.ok.inj (startEq.symm.trans begun)
        refine delivering.run_submitting passes (fun frontier here position open_ real => ?_) ran more
        have first := fresh frontier here
        cases collation : loader.userCollation with
        | false => exact loader.fits_of_plain collation position real
        | true =>
            refine fits position ?_ real fun member => open_ (Or.inr ?_)
            · rw [← first.nextCommit]
              exact Nat.le_of_not_lt fun before => open_ (Or.inl before)
            · rw [first.delivered, perBatch_of_collated collation, Nat.div_one]
              exact ⟨real, member⟩
      cases collation : loader.userCollation with
      | false => exact run (plain_passes collation) (queued_nothing loader.toProcessLoader) trivial
      | true => exact run (collated_passes collation) trivial (resumes collation)

/-! ### What a capture holds -/

/-- A state that a run has captured, with the batches delivered before. -/
structure Recorded (epoch : Batching) (before : List (List Nat)) (payload : Object Other)
    (captured : MapCoordinateState library) (state : DeliveredBatchState) : Prop where
  payload : payload = captured.toDict
  cursor : captured.cursor = state.base
  bitmap : captured.deliveredBitmap = state.bitmap
  inside : ∀ ordinal ∈ state.delivered, ordinal < epoch.count
  once : before.Nodup
  delivered : before.toFinset = epoch.contents state.delivered

variable {captured : MapCoordinateState library}

/-- What is loaded is what was captured. -/
theorem load_toDict {loader loaded : TierLoader library}
    (accepted : loader.load captured.toDict = .ok loaded) :
    loaded.map.resumeCursorBatches = captured.cursor ∧
      loaded.map.resumeDeliveredBitmap = captured.deliveredBitmap := by
  unfold TierLoader.load at accepted
  split at accepted
  · cases accepted
  · rename_i restored restoring
    obtain ⟨state, read, rfl⟩ := restoreMapState_ok restoring
    cases accepted
    obtain ⟨cursor, bitmap⟩ := MapCoordinateState.fromDict_toDict read
    exact ⟨cursor, bitmap⟩

theorem Tier.complete_active (tier : Tier) (iterator : tier.Iterator) (epoch : Nat) :
    (tier.active iterator epoch).complete = (tier.active iterator 0).complete := by
  cases tier <;> rfl

variable {loader : TierLoader library} {iterator : loader.tier.Iterator}

/-- A capture reads the cursor and the bitmap of an iterator that is not complete. -/
theorem capture_ok (taken : loader.capture iterator = .ok captured)
    (incomplete : (loader.tier.active iterator 0).complete = false) :
    ∃ epoch, captured.cursor = (loader.tier.active iterator epoch).deliveredBatches ∧
      captured.deliveredBitmap =
        ((loader.tier.active iterator epoch).deliveredBitmap).getD [] := by
  have fields := captureMapState_ok taken
  have open_ := (loader.tier.complete_active iterator
    loader.map.epochState.beginIteration.2.current).trans incomplete
  simp only [MapLoader.capturedFields, open_, Bool.false_eq_true, if_false,
    Prod.mk.injEq] at fields
  exact ⟨_, fields.2.1, fields.2.2.2⟩

/-- The batches delivered before a capture and along a further run, each once. -/
theorem nodup_append_of_outcome {all before after : Finset (List Nat)} {Label : Type}
    {trace : List (Label × Yield)} {earlier : List (List Nat)} (once : earlier.Nodup)
    (delivered : earlier.toFinset = before)
    (outcome : Handout.Outcome Yield.Failed Yield.Finished Yield.batch all before after trace) :
    (earlier ++ handed Yield.batch trace).Nodup ∧
      (earlier ++ handed Yield.batch trace).toFinset = after := by
  constructor
  · rw [List.nodup_append]
    refine ⟨once, outcome.once, fun one early two late same => ?_⟩
    have fresh := outcome.fresh two late
    rw [← delivered, List.mem_toFinset] at fresh
    exact fresh (same ▸ early)
  · rw [List.toFinset_append, delivered, outcome.total]

variable {before : List (List Nat)}

variable {given : loader.tier.Iterator → Finset (List Nat)}
  {invariant : loader.tier.Iterator → Prop} {measure : loader.tier.Iterator → Nat}

/-- A run that continues a state delivers batches it lacks, and is recorded with them. -/
theorem Continuing.recorded
    (continuing : Continuing loader.tier state iterator invariant given measure)
    (once : before.Nodup)
    (delivered : before.toFinset = loader.tier.batching.contents state.delivered)
    {labels : List loader.tier.Label} {trace : List (loader.tier.Label × Yield)}
    {final : loader.tier.Iterator}
    (runEq : loader.tier.willing.run iterator labels = some (trace, final))
    (taken : loader.capture final = .ok captured)
    (incomplete : (loader.tier.active final 0).complete = false) :
    ∃ reached : DeliveredBatchState,
      Recorded loader.tier.batching (before ++ handed Yield.batch trace) captured.toDict
        captured reached := by
  obtain ⟨kept, outcome⟩ := continuing.handout.run continuing.holds runEq
  obtain ⟨reached, inside, givenEq, reads⟩ := continuing.captured final kept
  obtain ⟨epoch, cursor, bitmap⟩ := capture_ok taken incomplete
  obtain ⟨single, all⟩ := nodup_append_of_outcome once
    (delivered.trans continuing.starts.symm) outcome
  refine ⟨reached, rfl, cursor.trans (reads epoch).1, ?_, inside, single, all.trans givenEq⟩
  rw [bitmap, (reads epoch).2]
  rfl

/-- The state nothing has been delivered from. -/
theorem Tier.resumes_nothing (tier : Tier) : tier.Resumes ∅ := by
  cases tier with
  | inProcess loader => rfl
  | thread loader => trivial
  | process loader => exact fun _ => loader.width_pos

/-- A segment from a recorded state is recorded with the batches of both. -/
theorem Segment.recorded {batches before : List (List Nat)} {payload : Object Other}
    (segment : Segment loader batches payload)
    (cursor : loader.map.resumeCursorBatches = state.base)
    (bitmap : loader.map.resumeDeliveredBitmap = state.bitmap)
    (inside : ∀ ordinal ∈ state.delivered, ordinal < loader.tier.batching.count)
    (resumes : loader.tier.Resumes state.ahead) (once : before.Nodup)
    (delivered : before.toFinset = loader.tier.batching.contents state.delivered) :
    ∃ captured : MapCoordinateState library, ∃ reached : DeliveredBatchState,
      Recorded loader.tier.batching (before ++ batches) payload captured reached := by
  obtain ⟨iterator, labels, trace, final, captured, begun, ran, incomplete, taken, rfl, rfl⟩ :=
    segment
  obtain ⟨opened, invariant, given, measure, startEq, continuing⟩ :=
    loader.tier.continuing inside resumes
  rw [TierLoader.iterate, cursor, bitmap] at begun
  obtain rfl := Except.ok.inj (startEq.symm.trans begun)
  obtain ⟨others, before, last, runEq, batches, same⟩ := loader.tier.mirrored ran
  have sameCapture : loader.capture last = .ok captured := by
    rw [TierLoader.capture, ← same]
    exact taken
  obtain ⟨reached, recorded⟩ :=
    continuing.recorded once delivered runEq sameCapture (same 0 ▸ incomplete)
  exact ⟨captured, reached, batches ▸ recorded⟩

/-- Whatever runs have captured is recorded with all batches they delivered. -/
theorem Saved.recorded {epoch : Batching} {payload : Object Other}
    (saved : Saved library epoch before payload) :
    ∃ captured : MapCoordinateState library, ∃ state : DeliveredBatchState,
      Recorded epoch before payload captured state := by
  induction saved with
  | @first loader batches payload shape fresh segment =>
      subst shape
      have nothing : DeliveredBatchState.new.delivered = ∅ := rfl
      have inside : ∀ ordinal ∈ DeliveredBatchState.new.delivered,
          ordinal < loader.tier.batching.count := fun ordinal member => by
        rw [nothing] at member
        exact absurd member (Finset.notMem_empty ordinal)
      have empty : ([] : List (List Nat)).toFinset =
          loader.tier.batching.contents DeliveredBatchState.new.delivered := by
        rw [nothing]
        rfl
      have bitmap : loader.map.resumeDeliveredBitmap = DeliveredBatchState.new.bitmap := fresh.2
      have recorded := segment.recorded fresh.1 bitmap inside loader.tier.resumes_nothing
        List.nodup_nil empty
      rwa [List.nil_append] at recorded
  | @later before payload loader loaded batches next saved accepted shape resumes segment
      ih =>
      subst shape
      obtain ⟨captured, state, recorded⟩ := ih
      have loadedEq := load_toDict (recorded.payload ▸ accepted)
      have cursor := loadedEq.1.trans recorded.cursor
      have bitmap := loadedEq.2.trans recorded.bitmap
      rw [TierLoader.ahead, cursor, bitmap, DeliveredBatchState.members_bitmap] at resumes
      exact segment.recorded cursor bitmap recorded.inside resumes recorded.once
        recorded.delivered

/-! ### When a resume is exact -/

/-- An iterator that continues what was delivered is exact. -/
theorem Continuing.exactly
    (continuing : Continuing loader.tier state iterator invariant given measure)
    (begun : loader.iterate = .ok iterator)
    (agrees : ∀ labels trace final, loader.tier.willing.run iterator labels = some (trace, final) →
      ∀ more, loader.tier.machine.run final more = loader.tier.willing.run final more)
    (once : before.Nodup)
    (delivered : before.toFinset = loader.tier.batching.contents state.delivered) :
    Exactly loader before := by
  refine ⟨iterator, begun, fun labels trace final runEq => ?_⟩
  rw [agrees [] [] iterator rfl] at runEq
  obtain ⟨kept, outcome⟩ := continuing.handout.run continuing.holds runEq
  obtain ⟨single, all⟩ := nodup_append_of_outcome once
    (delivered.trans continuing.starts.symm) outcome
  refine ⟨outcome.sound, single, fun batch member => ?_, fun spent => ?_, ?_⟩
  · rw [← List.mem_toFinset, all] at member
    exact Batching.mem_everything.mp (continuing.handout.within final kept member)
  · refine (List.perm_ext_iff_of_nodup single Batching.batches_nodup).mpr fun batch => ?_
    rw [← List.mem_toFinset, all, outcome.ended spent]
    exact Batching.mem_everything
  · obtain ⟨more, after, last, ends, spent⟩ := continuing.handout.completes kept
    exact ⟨more, after, last, (agrees labels trace final runEq more).trans ends, spent⟩

/-- In process the batches ahead of the cursor are delivered again. -/
theorem inProcess_repeats (loader : InProcessLoader)
    (inside : ∀ ordinal ∈ state.delivered, ordinal < loader.batching.count) {ordinal : Nat}
    (ahead : ordinal ∈ state.ahead) :
    ∃ iterator labels trace final,
      InProcessIterator.start loader state.base = .ok iterator ∧
      (InProcessIterator.machine loader).run iterator labels = some (trace, final) ∧
      loader.batching.batch ordinal ∈ handed Yield.batch trace := by
  have base := DeliveredBatchState.base_le_count inside
  have real := inside ordinal (DeliveredBatchState.mem_delivered.mpr (Or.inr ahead))
  obtain ⟨iterator, startEq, serial, counted⟩ := InProcessIterator.start_spec loader base
  obtain ⟨labels, trace, final, runEq, spent⟩ := inProcess_handout.completes serial
  refine ⟨iterator, labels, trace, final, startEq, runEq, ?_⟩
  obtain ⟨-, outcome⟩ := inProcess_handout.run serial runEq
  have member : loader.batching.batch ordinal ∈ loader.batching.everything :=
    Batching.mem_everything.mpr (Batching.mem_batches.mpr ⟨ordinal, real, rfl⟩)
  rw [← outcome.ended spent, outcome.total, Finset.mem_union, counted] at member
  rcases member with before | delivered
  · have below := Finset.mem_range.mp ((Batching.batch_mem_contents real).mp before)
    exact absurd below (Nat.lt_asymm (state.beyond ordinal ahead))
  · exact List.mem_toFinset.mp delivered

/-- With a whole batch of samples ahead a user-collating process iterator never ends. -/
theorem process_never_ends (loader : ProcessLoader)
    (inside : ∀ ordinal ∈ state.delivered, ordinal < loader.batching.count)
    (collated : loader.userCollation = true)
    (wide : loader.sizing.width ≤ loader.batching.samples state.ahead) :
    ∃ iterator, ProcessIterator.start loader state.base state.bitmap = .ok iterator ∧
      ∀ labels trace final,
        (ProcessIterator.machine loader).run iterator labels = some (trace, final) →
        ∀ entry ∈ trace, ¬ Yield.Finished entry.2 := by
  obtain ⟨iterator, startEq, delivering, delivered⟩ :=
    @ProcessIterator.start_spec loader state (fun _ _ _ => True)
      (fun state => loader.sizing.width ≤ loader.batching.samples state.ahead) inside trivial wide
  refine ⟨iterator, startEq, fun labels trace final runEq => ?_⟩
  have extend : ∀ trace state label event next,
      (Stuck loader state ∧ ∀ entry ∈ trace, ¬ Yield.Finished entry.2) → True →
      (ProcessIterator.machine loader).step state label = some (event, next) →
      Stuck loader next ∧ ∀ entry ∈ trace ++ [(label, event)], ¬ Yield.Finished entry.2 := by
    intro trace state label event next both _ stepEq
    obtain ⟨stuck, -, open_⟩ := both.1.step collated stepEq
    refine ⟨stuck, fun entry member => ?_⟩
    rcases List.mem_append.mp member with old | new
    · exact both.2 entry old
    · obtain rfl := List.mem_singleton.mp new
      exact open_
  have whole := (ProcessIterator.machine loader).run_induction (motive := fun trace state =>
      Stuck loader state ∧ ∀ entry ∈ trace, ¬ Yield.Finished entry.2)
    extend [] ⟨Or.inr delivering, fun _ member => absurd member List.not_mem_nil⟩
    ((ProcessIterator.machine loader).along_true iterator labels) runEq
  exact whole.2

/-- A tier that does not resume the batches ahead delivers one of them again, fails, or never
ends. -/
theorem Tier.refuses (tier : Tier)
    (inside : ∀ ordinal ∈ state.delivered, ordinal < tier.batching.count)
    (refused : ¬ (tier.Resumes state.ahead ∧ tier.Fits state.base state.ahead))
    {iterator : tier.Iterator} (begun : tier.start state.base state.bitmap = .ok iterator) :
    (∃ labels trace final, tier.machine.run iterator labels = some (trace, final) ∧
      ((∃ ordinal ∈ state.ahead, tier.batching.batch ordinal ∈ handed Yield.batch trace) ∨
        ∃ entry ∈ trace, Yield.Failed entry.2)) ∨
    ∀ labels trace final, tier.machine.run iterator labels = some (trace, final) →
      (∀ entry ∈ trace, ¬ Yield.Failed entry.2) → ∀ entry ∈ trace, ¬ Yield.Finished entry.2 := by
  cases tier with
  | inProcess loader =>
      obtain ⟨ordinal, ahead⟩ :=
        Finset.nonempty_iff_ne_empty.mpr fun none => refused ⟨none, trivial⟩
      obtain ⟨opened, labels, trace, final, startEq, runEq, again⟩ :=
        inProcess_repeats loader inside ahead
      obtain rfl := Except.ok.inj (startEq.symm.trans begun)
      exact Or.inl ⟨labels, trace, final, runEq, Or.inl ⟨ordinal, ahead, again⟩⟩
  | thread loader => exact absurd ⟨trivial, trivial⟩ refused
  | process loader =>
      by_cases resumes : (Tier.process loader).Resumes state.ahead
      · have unfit := fun fits => refused ⟨resumes, fits⟩
        obtain ⟨position, unfit⟩ := not_forall.mp unfit
        obtain ⟨low, unfit⟩ := Classical.not_imp.mp unfit
        obtain ⟨high, unfit⟩ := Classical.not_imp.mp unfit
        obtain ⟨apart, unsent⟩ := Classical.not_imp.mp unfit
        have collated : loader.userCollation = true := by
          by_contra plain
          exact unsent (loader.fits_of_plain (Bool.eq_false_of_not_eq_true plain) position high)
        obtain ⟨opened, startEq, delivering, delivered, fresh, open_⟩ :=
          @ProcessIterator.start_spec loader.toProcessLoader state (fun _ _ _ => True)
            (fun state => loader.batching.samples state.ahead < loader.sizing.width) inside trivial
            (resumes collated)
        obtain rfl := Except.ok.inj (startEq.symm.trans begun)
        rcases delivering.unfit (collated_passes collated) delivered fresh open_ low high apart
            unsent with ⟨labels, trace, final, runEq, failed⟩ | endless
        · exact Or.inl ⟨labels, trace, final, runEq, Or.inr failed⟩
        · exact Or.inr endless
      · obtain ⟨collated, wide⟩ := Classical.not_imp.mp resumes
        obtain ⟨opened, startEq, endless⟩ :=
          process_never_ends loader.toProcessLoader inside collated (Nat.le_of_not_lt wide)
        obtain rfl := Except.ok.inj (startEq.symm.trans begun)
        refine Or.inr fun labels trace final ran sound => ?_
        obtain ⟨others, runEq⟩ := (Tier.process loader).run_of_sound ran sound
        exact endless others trace final runEq

end Hyperloader.State
