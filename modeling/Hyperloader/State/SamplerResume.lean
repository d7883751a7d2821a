/-
Module: Hyperloader.State.SamplerResume
Purpose: What a checkpoint of a sampler's or a batch sampler's delivered batches is restored to.
Trusted boundary: as in `SamplerIterator`
Main exports: ResumesExactly, Rejects, sampler_resume_exact_iff
-/
import Hyperloader.State.SamplerIterator

namespace Hyperloader.State

open Foundations

/-! ### Delivered prefixes -/

section Delivered

variable {Index : Type} {pickle : Index → List UInt8}

/-- An iterator that has delivered the batches it counts and has not ended. -/
structure StreamingSamplerIterator.Counted (sampler : Sampler Index)
    (iterator : StreamingSamplerIterator pickle) : Prop where
  reads : iterator.read.Reads sampler.produced
  within : iterator.position ≤ iterator.read.items.length
  reached : sampler.Reaches iterator.delivered
  placed : iterator.position = (sampler.replayed iterator.delivered).length
  active : iterator.complete = false ∧ iterator.valid = true

theorem Sampler.probe_ensures (sampler : Sampler Index) {read : Rolling (updateChecksum pickle) 0}
    (reads : read.Reads sampler.produced) (startSamples : Nat) :
    Ensures (sampler.probe pickle startSamples) read
      (fun _ after => after.Reads sampler.produced ∧ read.items.length ≤ after.items.length)
      (fun _ _ => False) := by
  unfold Sampler.probe
  apply ensures_bind (hasItem_ensures reads startSamples)
  rintro _ after ⟨further, rfl⟩
  apply ensures_ite
  · intro there
    have item := List.getElem?_eq_getElem (of_decide_eq_true there)
    apply ensures_step (readItem_within item)
    exact ensures_pure ⟨further.reads, further.more⟩
  · exact fun _ => ensures_pure ⟨further.reads, further.more⟩

/-- Restoring a sampler's prefix: on the checksum of what the sampler hands out in it, and on no
other. -/
theorem StreamingSamplerIterator.start_cases (pickle : Index → List UInt8)
    (sampler : Sampler Index) (epoch cursorBatches expectedChecksum : Nat) :
    (∃ text, start pickle sampler epoch cursorBatches expectedChecksum =
        .error (.valueError text) ∧
      ¬(Sized sampler.length ∧ sampler.Reaches cursorBatches ∧
        expectedChecksum = sampler.replayedChecksum pickle cursorBatches)) ∨
    ∃ iterator, start pickle sampler epoch cursorBatches expectedChecksum = .ok iterator ∧
      iterator.Counted sampler ∧ iterator.epoch = epoch ∧ iterator.delivered = cursorBatches ∧
      expectedChecksum = sampler.replayedChecksum pickle cursorBatches := by
  rcases @SamplerRuntime.new_cases _ pickle sampler cursorBatches expectedChecksum with
    ⟨text, refused, unlike⟩ | ⟨runtime, made, reads, items, placed, reached, same⟩
  · refine Or.inl ⟨text, ?_, unlike⟩
    unfold start
    rw [refused]
    rfl
  · have within : runtime.startSamples ≤ runtime.read.items.length :=
      Nat.le_of_eq (placed.trans (congrArg List.length items).symm)
    have probed := sampler.probe_ensures reads runtime.startSamples
    unfold Ensures at probed
    split at probed
    · rename_i value after done
      obtain ⟨reads, more⟩ := probed
      refine Or.inr ⟨⟨epoch, runtime.startSamples, cursorBatches, false, true, after⟩, ?_,
        ⟨reads, Nat.le_trans within more, reached, placed, rfl, rfl⟩, rfl, rfl, same⟩
      unfold start
      rw [made]
      dsimp only [bind, Except.bind]
      rw [done]
    · exact probed.elim

variable {sampler : Sampler Index}

/-- The batch that is taken behind some batches of a sampler is its next one. -/
theorem Sampler.course_take {delivered place : Nat} {entries : List (Nat × Index)}
    (taken : sampler.course.take (sampler.replayed delivered).length = some (entries, place)) :
    place = (sampler.replayed (delivered + 1)).length ∧ sampler.Reaches (delivered + 1) := by
  have bound : (sampler.replayed delivered).length ≤ delivered * sampler.width :=
    length_drawn_le _ _ _
  have short := length_drawn_le sampler.produced (sampler.replayed delivered).length sampler.width
  unfold Sampler.course at taken
  dsimp only at taken
  split at taken
  · nomatch taken
  · rename_i kept
    obtain ⟨nonempty, full⟩ := not_or.mp kept
    have some : 0 < (drawn sampler.produced (sampler.replayed delivered).length
        sampler.width).length :=
      List.length_pos_iff.mpr fun empty => nonempty (List.isEmpty_iff.mpr empty)
    have whole : (sampler.replayed delivered).length = delivered * sampler.width := by
      apply Nat.le_antisymm bound
      apply Nat.le_of_not_lt
      intro less
      have ended : sampler.produced (0 + (sampler.replayed delivered).length) = none :=
        source_of_length_drawn_lt less
      rw [Nat.zero_add] at ended
      rw [drawn_of_none ended] at some
      exact absurd some (Nat.lt_irrefl 0)
    have more : sampler.replayed (delivered + 1) = sampler.replayed delivered ++
        drawn sampler.produced (sampler.replayed delivered).length sampler.width := by
      unfold Sampler.replayed at whole ⊢
      rw [Nat.add_mul, Nat.one_mul, drawn_add whole, Nat.zero_add, whole]
    have length := congrArg List.length more
    rw [List.length_append] at length
    have product : (delivered + 1) * sampler.width =
        delivered * sampler.width + sampler.width := Nat.succ_mul _ _
    obtain ⟨-, rfl⟩ := Prod.mk.inj (Option.some.inj taken)
    refine ⟨length.symm, ?_⟩
    unfold Sampler.Reaches
    rw [length, product, whole]
    rw [whole] at full some short
    by_cases last : (drawn sampler.produced (delivered * sampler.width) sampler.width).length <
        sampler.width
    · right
      cases dropped : sampler.dropLast with
      | false => exact ⟨rfl, by omega⟩
      | true =>
          cases size : sampler.batchSize with
          | none =>
              have single : sampler.width = 1 := by
                unfold Sampler.width
                rw [size]
              omega
          | some size =>
              exact absurd ⟨last, by rw [size]; rfl, dropped⟩ full
    · left
      omega

/-- What a delivered batch leaves of a standing. -/
theorem Course.next_delivered {course : Course Index} {standing after : Standing}
    {executes : Bool} {batch : SampledBatch Index}
    (nextEq : course.next executes standing = (.delivered batch, after)) :
    ∃ place, course.take standing.place = some (batch.entries, place) ∧
      after = { standing with place, delivered := standing.delivered + 1 } := by
  unfold Course.next at nextEq
  split at nextEq
  · nomatch nextEq
  · split at nextEq
    · nomatch nextEq
    · rename_i entries place taken
      split at nextEq
      · nomatch nextEq
      · obtain ⟨same, rfl⟩ := Prod.mk.inj nextEq
        obtain rfl := SampledYield.delivered.inj same
        exact ⟨place, taken, rfl⟩

/-- A delivered batch is counted. -/
theorem StreamingSamplerIterator.Counted.step {sampler : Sampler Index}
    {iterator after : StreamingSamplerIterator pickle} (counted : iterator.Counted sampler)
    {executes : Bool} {batch : SampledBatch Index}
    (stepEq : next pickle sampler executes iterator = (.delivered batch, after)) :
    after.Counted sampler ∧ after.epoch = iterator.epoch := by
  obtain ⟨event, follows⟩ := follows_step ⟨counted.reads, counted.within, rfl⟩ executes
  rw [stepEq] at event follows
  obtain ⟨place, taken, standing⟩ := Course.next_delivered (Prod.ext event.symm rfl)
  obtain ⟨reads, within, stands⟩ := follows
  obtain ⟨epoch, position, delivered, complete, valid⟩ :=
    Standing.mk.inj (standing.symm.trans stands)
  dsimp only at taken epoch position delivered complete valid
  rw [counted.placed] at taken
  obtain ⟨placed, reached⟩ := Sampler.course_take taken
  rw [delivered] at placed reached
  exact ⟨⟨reads, within, reached, position.symm.trans placed,
    complete.symm.trans counted.active.1, valid.symm.trans counted.active.2⟩, epoch.symm⟩

/-- An iterator that has delivered the batches it counts and has not ended. -/
structure UserBatchSamplerIterator.Counted (sampler : BatchSampler Index)
    (iterator : UserBatchSamplerIterator pickle) : Prop where
  reads : iterator.read.Reads sampler.produced
  within : iterator.ordinal ≤ iterator.read.items.length
  reached : sampler.Reaches iterator.ordinal
  active : iterator.complete = false ∧ iterator.valid = true

/-- A probe refuses an empty batch, and nothing else. -/
theorem BatchSampler.probe_ensures (sampler : BatchSampler Index)
    {read : Rolling (updateBatch pickle) (0, 0)} (reads : read.Reads sampler.produced)
    {startBatch : Nat} (within : startBatch ≤ read.items.length) :
    Ensures (sampler.probe pickle startBatch) read
      (fun _ after => (after.Reads sampler.produced ∧ read.items.length ≤ after.items.length) ∧
        sampler.produced startBatch ≠ some [])
      (fun error _ => error = .valueError EMPTY_BATCH ∧
        sampler.produced startBatch = some []) := by
  unfold BatchSampler.probe
  apply ensures_bind ((hasItem_ensures reads startBatch).weaken (fun _ _ => id)
    fun _ _ => False.elim)
  rintro _ after ⟨further, rfl⟩
  have more := further.more
  apply ensures_ite
  · intro there
    have there : startBatch < after.items.length := of_decide_eq_true there
    have item := List.getElem?_eq_getElem there
    have source := (further.reads.getElem? there).symm.trans item
    apply ensures_step (readItem_within item)
    generalize after.items[startBatch] = batch at source
    cases batch with
    | nil => exact ensures_throw ⟨rfl, source⟩
    | cons index rest =>
        apply ensures_step (sampler.sampleOffset_within further.reads (Nat.le_of_lt there))
        refine ensures_pure ⟨⟨further.reads, more⟩, fun empty => ?_⟩
        nomatch source.symm.trans empty
  · intro ended
    have ended : ¬startBatch < after.items.length := fun there => ended (decide_eq_true there)
    have last : after.items.length = startBatch := by omega
    have none : sampler.produced startBatch = none := last ▸ further.reaches (by omega)
    refine ensures_pure ⟨⟨further.reads, more⟩, fun empty => ?_⟩
    nomatch none.symm.trans empty

/-- Restoring a batch sampler's prefix: on the checksum of what the sampler hands out in it, unless
an empty batch follows. -/
theorem UserBatchSamplerIterator.start_cases (pickle : Index → List UInt8)
    (sampler : BatchSampler Index) (epoch cursorBatches expectedChecksum : Nat) :
    (∃ text, start pickle sampler epoch cursorBatches expectedChecksum =
        .error (.valueError text) ∧
      ¬(Sized sampler.length ∧ sampler.Reaches cursorBatches ∧
        expectedChecksum = sampler.replayedChecksum pickle cursorBatches ∧
        sampler.produced cursorBatches ≠ some [])) ∨
    ∃ iterator, start pickle sampler epoch cursorBatches expectedChecksum = .ok iterator ∧
      iterator.Counted sampler ∧ iterator.epoch = epoch ∧ iterator.ordinal = cursorBatches ∧
      expectedChecksum = sampler.replayedChecksum pickle cursorBatches ∧
      sampler.produced cursorBatches ≠ some [] := by
  rcases @BatchSamplerRuntime.new_cases _ pickle sampler cursorBatches expectedChecksum with
    ⟨text, refused, unlike⟩ | ⟨runtime, made, rfl, reads, items, reached, same⟩
  · refine Or.inl ⟨text, ?_, fun all => unlike ⟨all.1, all.2.1, all.2.2.1⟩⟩
    unfold start
    rw [refused]
    rfl
  · have within : runtime.startBatch ≤ runtime.read.items.length :=
      Nat.le_of_eq ((congrArg List.length items).trans reached).symm
    have probed := sampler.probe_ensures reads within
    unfold Ensures at probed
    split at probed
    · rename_i value after done
      obtain ⟨⟨reads, more⟩, nonempty⟩ := probed
      refine Or.inr ⟨⟨epoch, runtime.startBatch, false, true, after⟩, ?_,
        ⟨reads, Nat.le_trans within more, reached, rfl, rfl⟩, rfl, rfl, same, nonempty⟩
      unfold start
      rw [made]
      dsimp only [bind, Except.bind]
      rw [done]
    · rename_i error after done
      obtain ⟨rfl, empty⟩ := probed
      refine Or.inl ⟨BatchSampler.EMPTY_BATCH, ?_, fun all => all.2.2.2 empty⟩
      unfold start
      rw [made]
      dsimp only [bind, Except.bind]
      rw [done]

/-- A delivered batch is counted. -/
theorem UserBatchSamplerIterator.Counted.step {sampler : BatchSampler Index}
    {iterator after : UserBatchSamplerIterator pickle} (counted : iterator.Counted sampler)
    {executes : Bool} {batch : SampledBatch Index}
    (stepEq : next pickle sampler executes iterator = (.delivered batch, after)) :
    after.Counted sampler ∧ after.epoch = iterator.epoch := by
  obtain ⟨event, follows⟩ := follows_step ⟨counted.reads, counted.within, rfl⟩ executes
  rw [stepEq] at event follows
  obtain ⟨place, taken, standing⟩ := Course.next_delivered (Prod.ext event.symm rfl)
  obtain ⟨reads, within, stands⟩ := follows
  obtain ⟨epoch, ordinal, -, complete, valid⟩ := Standing.mk.inj (standing.symm.trans stands)
  obtain ⟨indices, there, placed⟩ := Option.map_eq_some_iff.mp taken
  obtain rfl := (Prod.mk.inj placed).2
  dsimp only at there epoch ordinal complete valid
  refine ⟨⟨reads, within, ?_, complete.symm.trans counted.active.1,
    valid.symm.trans counted.active.2⟩, epoch.symm⟩
  have whole := counted.reached
  unfold BatchSampler.Reaches BatchSampler.replayed at whole ⊢
  rw [← ordinal, drawn_add whole, List.length_append, whole, Nat.zero_add,
    drawn_of_some there]
  rfl

/-- Reading gets behind whatever has been delivered without another call of the sampler. -/
theorem StreamingSamplerIterator.Counted.samplerChecksum_eq
    {iterator : StreamingSamplerIterator pickle} (counted : iterator.Counted sampler) :
    ∃ checksum, samplerChecksum pickle sampler iterator = .ok checksum ∧
      checksum.toNat = sampler.replayedChecksum pickle iterator.delivered := by
  have prefixed : drawn sampler.produced 0 iterator.position =
      sampler.replayed iterator.delivered := by
    have bound : (sampler.replayed iterator.delivered).length ≤
        iterator.delivered * sampler.width := length_drawn_le _ _ _
    rw [counted.placed, drawn_eq_take bound]
    exact List.take_length
  refine ⟨_, ?_, rfl⟩
  unfold samplerChecksum Sampler.checksumAt
  rw [valueAt_within counted.reads counted.within, prefixed]

theorem UserBatchSamplerIterator.Counted.samplerChecksum_eq {sampler : BatchSampler Index}
    {iterator : UserBatchSamplerIterator pickle} (counted : iterator.Counted sampler) :
    ∃ checksum, samplerChecksum pickle sampler iterator = .ok checksum ∧
      checksum.toNat = sampler.replayedChecksum pickle iterator.ordinal := by
  refine ⟨_, ?_, rfl⟩
  have value : sampler.checksumAt pickle iterator.ordinal iterator.read =
      .ok ((sampler.replayed iterator.ordinal).foldl (updateBatch pickle) (0, 0)).2
        iterator.read := by
    unfold BatchSampler.checksumAt
    show EStateM.bind _ _ _ = _
    unfold EStateM.bind
    rw [valueAt_within counted.reads counted.within]
    rfl
  unfold samplerChecksum
  rw [value]

variable {trace : List (Bool × SampledYield Index)}

/-- What has been delivered is counted. -/
theorem StreamingSamplerIterator.Counted.run {iterator stopped : StreamingSamplerIterator pickle}
    (counted : iterator.Counted sampler) {labels : List Bool}
    (reached : (machine pickle sampler).run iterator labels = some (trace, stopped))
    (all : ∀ entry ∈ trace, entry.2.IsDelivered) : stopped.Counted sampler := by
  apply Machine.run_invariant_of_events _ _ counted reached all
  rintro state executes _ after counted stepEq ⟨batch, rfl⟩
  exact (counted.step (Option.some.inj stepEq)).1

theorem UserBatchSamplerIterator.Counted.run {sampler : BatchSampler Index}
    {iterator stopped : UserBatchSamplerIterator pickle} (counted : iterator.Counted sampler)
    {labels : List Bool}
    (reached : (machine pickle sampler).run iterator labels = some (trace, stopped))
    (all : ∀ entry ∈ trace, entry.2.IsDelivered) : stopped.Counted sampler := by
  apply Machine.run_invariant_of_events _ _ counted reached all
  rintro state executes _ after counted stepEq ⟨batch, rfl⟩
  exact (counted.step (Option.some.inj stepEq)).1

end Delivered

/-! ### Exact resume -/

section Resume

variable {Index : Type} (pickle : Index → List UInt8)

/-- The checkpoint of a stopped iterator restores, with a sampler of any length that hands out the
same indices, to an iterator that goes on as the stopped one does. -/
def StreamingSamplerIterator.ResumesExactly (sampler : Sampler Index)
    (stopped : StreamingSamplerIterator pickle) : Prop :=
  ∃ checksum, samplerChecksum pickle sampler stopped = .ok checksum ∧
    ∀ length, Sized length → ∃ resumed,
      start pickle { sampler with length } stopped.epoch stopped.delivered checksum.toNat =
        .ok resumed ∧
      Machine.SameTraces (machine pickle { sampler with length }) resumed
        (machine pickle sampler) stopped

/-- The checkpoint is refused with every sampler whose prefix has another checksum. -/
def StreamingSamplerIterator.Rejects (sampler : Sampler Index)
    (stopped : StreamingSamplerIterator pickle) : Prop :=
  ∀ checksum, samplerChecksum pickle sampler stopped = .ok checksum →
    ∀ other : Sampler Index,
      other.replayedChecksum pickle stopped.delivered ≠ checksum.toNat →
      ∀ epoch, ∃ text, start pickle other epoch stopped.delivered checksum.toNat =
        .error (.valueError text)

def UserBatchSamplerIterator.ResumesExactly (sampler : BatchSampler Index)
    (stopped : UserBatchSamplerIterator pickle) : Prop :=
  ∃ checksum, samplerChecksum pickle sampler stopped = .ok checksum ∧
    ∀ length, Sized length → ∃ resumed,
      start pickle { sampler with length } stopped.epoch (deliveredBatches pickle stopped)
        checksum.toNat = .ok resumed ∧
      Machine.SameTraces (machine pickle { sampler with length }) resumed
        (machine pickle sampler) stopped

def UserBatchSamplerIterator.Rejects (sampler : BatchSampler Index)
    (stopped : UserBatchSamplerIterator pickle) : Prop :=
  ∀ checksum, samplerChecksum pickle sampler stopped = .ok checksum →
    ∀ other : BatchSampler Index,
      other.replayedChecksum pickle (deliveredBatches pickle stopped) ≠ checksum.toNat →
      ∀ epoch, ∃ text, start pickle other epoch (deliveredBatches pickle stopped)
        checksum.toNat = .error (.valueError text)

variable {pickle}

variable {stopped : StreamingSamplerIterator pickle}

theorem StreamingSamplerIterator.Counted.resumesExactly {sampler : Sampler Index}
    (counted : stopped.Counted sampler) : stopped.ResumesExactly pickle sampler := by
  obtain ⟨checksum, captured, same⟩ := counted.samplerChecksum_eq
  refine ⟨checksum, captured, fun length sized => ?_⟩
  rcases start_cases pickle { sampler with length } stopped.epoch stopped.delivered
    checksum.toNat with ⟨text, -, unlike⟩ | ⟨resumed, started, restored, epoch, delivered, -⟩
  · exact absurd ⟨sized, counted.reached, same⟩ unlike
  · refine ⟨resumed, started, fun labels => ?_⟩
    have placed : resumed.position = stopped.position := by
      rw [restored.placed, counted.placed, delivered]
      rfl
    have stands : (⟨stopped.epoch, stopped.position, stopped.delivered, stopped.complete,
        stopped.valid⟩ : Standing) =
        ⟨resumed.epoch, resumed.position, resumed.delivered, resumed.complete, resumed.valid⟩ := by
      rw [epoch, placed, delivered, restored.active.1, restored.active.2, counted.active.1,
        counted.active.2]
    have one := (bisimilar { sampler with length }).sameTraces
      ⟨restored.reads, restored.within, stands⟩ labels
    have two := (bisimilar sampler).sameTraces ⟨counted.reads, counted.within, rfl⟩ labels
    exact one.trans two.symm

theorem StreamingSamplerIterator.rejects {sampler : Sampler Index} :
    stopped.Rejects pickle sampler := by
  intro checksum _ other different epoch
  rcases start_cases pickle other epoch stopped.delivered checksum.toNat with
    ⟨text, refused, -⟩ | ⟨_, _, _, _, _, same⟩
  · exact ⟨text, refused⟩
  · exact absurd same.symm different

variable {stopped : UserBatchSamplerIterator pickle}

/-- An empty batch behind the delivered ones is what keeps a checkpoint from being restored. -/
theorem UserBatchSamplerIterator.Counted.resumesExactly_iff {sampler : BatchSampler Index}
    (counted : stopped.Counted sampler) :
    stopped.ResumesExactly pickle sampler ↔ sampler.produced stopped.ordinal ≠ some [] := by
  obtain ⟨checksum, captured, same⟩ := counted.samplerChecksum_eq
  constructor
  · rintro ⟨_, _, resumes⟩ empty
    obtain ⟨resumed, started, -⟩ := resumes none nofun
    rcases start_cases pickle { sampler with length := none } stopped.epoch
      stopped.ordinal _ with ⟨_, refused, -⟩ | ⟨_, _, _, _, _, _, nonempty⟩
    · nomatch refused.symm.trans started
    · exact nonempty empty
  · intro nonempty
    refine ⟨checksum, captured, fun length sized => ?_⟩
    rcases start_cases pickle { sampler with length } stopped.epoch stopped.ordinal
      checksum.toNat with ⟨text, -, unlike⟩ | ⟨resumed, started, restored, epoch, ordinal, -⟩
    · exact absurd ⟨sized, counted.reached, same, nonempty⟩ unlike
    · refine ⟨resumed, started, fun labels => ?_⟩
      have stands : (⟨stopped.epoch, stopped.ordinal, stopped.ordinal, stopped.complete,
          stopped.valid⟩ : Standing) =
          ⟨resumed.epoch, resumed.ordinal, resumed.ordinal, resumed.complete, resumed.valid⟩ := by
        rw [epoch, ordinal, restored.active.1, restored.active.2, counted.active.1,
          counted.active.2]
      have one := (bisimilar { sampler with length }).sameTraces
        ⟨restored.reads, restored.within, stands⟩ labels
      have two := (bisimilar sampler).sameTraces ⟨counted.reads, counted.within, rfl⟩ labels
      exact one.trans two.symm

theorem UserBatchSamplerIterator.rejects {sampler : BatchSampler Index} :
    stopped.Rejects pickle sampler := by
  intro checksum _ other different epoch
  rcases start_cases pickle other epoch stopped.ordinal checksum.toNat with
    ⟨text, refused, -⟩ | ⟨_, _, _, _, _, same, _⟩
  · exact ⟨text, refused⟩
  · exact absurd same.symm different

/-- Behind any delivered batches of an iterator that any checkpoint opened, a sampler's checkpoint
resumes exactly and is refused with another prefix, and a batch sampler's does exactly where no
empty batch comes next. -/
theorem sampler_resume_exact_iff (pickle : Index → List UInt8) :
    (∀ (sampler : Sampler Index) (epoch cursorBatches expectedChecksum : Nat)
      (iterator stopped : StreamingSamplerIterator pickle) (labels : List Bool)
      (trace : List (Bool × SampledYield Index)),
      StreamingSamplerIterator.start pickle sampler epoch cursorBatches expectedChecksum =
        .ok iterator →
      (StreamingSamplerIterator.machine pickle sampler).run iterator labels =
        some (trace, stopped) →
      (∀ entry ∈ trace, entry.2.IsDelivered) →
      stopped.ResumesExactly pickle sampler ∧ stopped.Rejects pickle sampler) ∧
    (∀ (sampler : BatchSampler Index) (epoch cursorBatches expectedChecksum : Nat)
      (iterator stopped : UserBatchSamplerIterator pickle) (labels : List Bool)
      (trace : List (Bool × SampledYield Index)),
      UserBatchSamplerIterator.start pickle sampler epoch cursorBatches expectedChecksum =
        .ok iterator →
      (UserBatchSamplerIterator.machine pickle sampler).run iterator labels =
        some (trace, stopped) →
      (∀ entry ∈ trace, entry.2.IsDelivered) →
      (stopped.ResumesExactly pickle sampler ∧ stopped.Rejects pickle sampler ↔
        sampler.produced stopped.ordinal ≠ some [])) := by
  constructor
  · intro sampler epoch cursorBatches expectedChecksum iterator stopped labels trace started
      reached all
    rcases StreamingSamplerIterator.start_cases pickle sampler epoch cursorBatches
      expectedChecksum with ⟨_, refused, -⟩ | ⟨_, made, counted, -⟩
    · nomatch refused.symm.trans started
    · obtain rfl := Except.ok.inj (made.symm.trans started)
      exact ⟨(counted.run reached all).resumesExactly, StreamingSamplerIterator.rejects⟩
  · intro sampler epoch cursorBatches expectedChecksum iterator stopped labels trace started
      reached all
    rcases UserBatchSamplerIterator.start_cases pickle sampler epoch cursorBatches
      expectedChecksum with ⟨_, refused, -⟩ | ⟨_, made, counted, -⟩
    · nomatch refused.symm.trans started
    · obtain rfl := Except.ok.inj (made.symm.trans started)
      have resumes := (counted.run reached all).resumesExactly_iff
      exact ⟨fun both => resumes.mp both.1,
        fun nonempty => ⟨resumes.mpr nonempty, UserBatchSamplerIterator.rejects⟩⟩

end Resume

def pickledByte (index : Nat) : List UInt8 := [UInt8.ofNat index]

def twoBatches : BatchSampler Nat where
  length := some 2
  produced ordinal := [[0], [1]][ordinal]?

/-- A loader resumes behind the first of two batches. -/
theorem sampler_resume_exact_two :
    ∃ iterator trace stopped,
      UserBatchSamplerIterator.start pickledByte twoBatches 0 0 0 = .ok iterator ∧
      (UserBatchSamplerIterator.machine pickledByte twoBatches).run iterator [true] =
        some (trace, stopped) ∧ stopped.ordinal = 1 ∧
      stopped.ResumesExactly pickledByte twoBatches ∧ stopped.Rejects pickledByte twoBatches := by
  have first : (UserBatchSamplerIterator.start pickledByte twoBatches 0 0 0).toOption.bind
      (fun iterator => ((UserBatchSamplerIterator.machine pickledByte twoBatches).run iterator
        [true]).map fun ran => (ran.1, ran.2.ordinal)) =
      some ([(true, .delivered ⟨0, 0, [(0, 0)]⟩)], 1) := by
    decide +kernel
  cases made : UserBatchSamplerIterator.start pickledByte twoBatches 0 0 0 with
  | error failure =>
      rw [made] at first
      nomatch first
  | ok iterator =>
      rw [made] at first
      simp only [Except.toOption, Option.bind_some] at first
      obtain ⟨⟨trace, stopped⟩, reached, same⟩ := Option.map_eq_some_iff.mp first
      obtain ⟨rfl, ordinal⟩ := Prod.mk.inj same
      refine ⟨iterator, _, stopped, rfl, reached, ordinal, ((sampler_resume_exact_iff
        pickledByte).2 twoBatches 0 0 0 iterator stopped [true] _ made reached ?_).mpr ?_⟩
      · intro entry member
        obtain rfl := List.mem_singleton.mp member
        exact ⟨_, rfl⟩
      · dsimp only at ordinal
        rw [ordinal]
        decide

/-- One index, no index, and another. -/
def holed : BatchSampler Nat where
  length := some 3
  produced ordinal := [[0], [], [1]][ordinal]?

/-- A loader delivers the empty batch of `holed` and the one behind it, and the checkpoint of the
first batch is not restored. -/
theorem batch_sampler_resume_refuses_empty_batch :
    (UserBatchSamplerIterator.start pickledByte holed 0 0 0).toOption.bind (fun iterator =>
      ((UserBatchSamplerIterator.machine pickledByte holed).run iterator
        [true, true, true, true]).map fun ran => ran.1.map Prod.snd) =
      some [.delivered ⟨0, 0, [(0, 0)]⟩, .delivered ⟨0, 1, []⟩, .delivered ⟨0, 2, [(1, 1)]⟩,
        .exhausted] ∧
    ¬∀ (iterator stopped : UserBatchSamplerIterator pickledByte) (labels : List Bool)
      (trace : List (Bool × SampledYield Nat)),
      UserBatchSamplerIterator.start pickledByte holed 0 0 0 = .ok iterator →
      (UserBatchSamplerIterator.machine pickledByte holed).run iterator labels =
        some (trace, stopped) →
      (∀ entry ∈ trace, entry.2.IsDelivered) → stopped.ResumesExactly pickledByte holed := by
  refine ⟨by decide +kernel, fun resumes => ?_⟩
  have first : (UserBatchSamplerIterator.start pickledByte holed 0 0 0).toOption.bind
      (fun iterator => ((UserBatchSamplerIterator.machine pickledByte holed).run iterator
        [true]).map fun ran => (ran.1, ran.2.ordinal)) =
      some ([(true, .delivered ⟨0, 0, [(0, 0)]⟩)], 1) := by
    decide +kernel
  rcases UserBatchSamplerIterator.start_cases pickledByte holed 0 0 0 with
    ⟨_, refused, -⟩ | ⟨iterator, made, counted, -⟩
  · rw [refused] at first
    nomatch first
  · rw [made] at first
    simp only [Except.toOption, Option.bind_some] at first
    obtain ⟨⟨trace, stopped⟩, reached, same⟩ := Option.map_eq_some_iff.mp first
    obtain ⟨rfl, ordinal⟩ := Prod.mk.inj same
    have all : ∀ entry ∈ [(true, SampledYield.delivered (⟨0, 0, [(0, 0)]⟩ : SampledBatch Nat))],
        entry.2.IsDelivered := by
      intro entry member
      obtain rfl := List.mem_singleton.mp member
      exact ⟨_, rfl⟩
    have nonempty := (counted.run reached all).resumesExactly_iff.mp
      (resumes iterator stopped [true] _ made reached all)
    dsimp only at ordinal
    rw [ordinal] at nonempty
    exact nonempty rfl

end Hyperloader.State
