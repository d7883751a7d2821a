/-
Module: Hyperloader.Iterable.Resume
Purpose: Resuming iterable lanes: every lane stands at its delivered arrival in the values an
  uninterrupted lane draws, and rebuilding it from its checkpoint leaves it standing there.
Trusted boundary: `StateContract` is what the source promises about its state pair.
Main exports:
  StateContract, LaneSound, Sound, buildLane_spec, serve_spec, resumed_suffix
-/
import Hyperloader.Iterable.Runtime

namespace Hyperloader.Iterable

open Foundations Foundations.Pulled State

/-! ### Rings -/

namespace SnapshotRing

variable {ring : SnapshotRing}

variable {snapshot entry : SourceSnapshot}

theorem mem_append (member : entry ∈ (ring.append snapshot).entries) :
    entry = snapshot ∨ entry ∈ ring.entries := by
  rcases List.mem_append.mp (List.mem_of_mem_drop member) with old | new
  · exact .inr old
  · exact .inl (List.mem_singleton.mp new)

variable {entry : SourceSnapshot}

theorem mem_push {arrival : Nat} {payload : List UInt8}
    (member : entry ∈ (ring.push arrival payload).entries) :
    entry = ⟨arrival, payload⟩ ∨ entry ∈ ring.entries := by
  rw [push] at member
  split at member
  · exact nomatch member
  · exact mem_append member

theorem stateful_push (ring : SnapshotRing) (arrival : Nat) (payload : List UInt8) :
    (ring.push arrival payload).stateful = ring.stateful := by
  rw [push]
  split <;> rfl

theorem mem_seed (member : entry ∈ (ring.seed snapshot).entries) :
    entry = snapshot ∨ entry ∈ ring.entries := by
  rw [seed] at member
  split at member
  · exact .inr member
  · exact mem_append member

theorem stateful_seed (ring : SnapshotRing) (snapshot : SourceSnapshot) :
    (ring.seed snapshot).stateful = ring.stateful := by
  rw [seed]
  split <;> rfl

variable {deliveredArrival : Nat}

theorem select_foldl {entries : List SourceSnapshot} {before : Option SourceSnapshot}
    {selected : SourceSnapshot} (found : entries.foldl
      (fun selected entry => if entry.arrival ≤ deliveredArrival then some entry else selected)
      before = some selected) :
    before = some selected ∨ selected ∈ entries ∧ selected.arrival ≤ deliveredArrival := by
  induction entries generalizing before with
  | nil => exact .inl found
  | cons entry entries ih =>
      rcases ih found with here | ⟨later, below⟩
      · dsimp only at here
        split at here
        · rename_i below
          cases Option.some.inj here
          exact .inr ⟨List.mem_cons_self, below⟩
        · exact .inl here
      · exact .inr ⟨List.mem_cons_of_mem _ later, below⟩

/-- The snapshot selected is in the ring and not ahead of the delivery. -/
theorem select_eq_some {selected : SourceSnapshot}
    (found : ring.select deliveredArrival = some selected) :
    selected ∈ ring.entries ∧ selected.arrival ≤ deliveredArrival :=
  (select_foldl found).resolve_left nofun

theorem mem_foldl_append {snapshots : List SourceSnapshot}
    (member : entry ∈ (snapshots.foldl append ring).entries) :
    entry ∈ snapshots ∨ entry ∈ ring.entries := by
  induction snapshots generalizing ring with
  | nil => exact .inr member
  | cons snapshot snapshots ih =>
      rcases ih member with later | here
      · exact .inl (List.mem_cons_of_mem _ later)
      · rcases mem_append here with rfl | old
        · exact .inl List.mem_cons_self
        · exact .inr old

theorem mem_discardBefore (member : entry ∈ (ring.discardBefore deliveredArrival).entries) :
    entry ∈ ring.entries := by
  rcases mem_foldl_append member with future | anchor
  · exact (List.mem_filter.mp future).1
  · exact (select_eq_some (Option.mem_toList.mp anchor)).1

theorem stateful_discardBefore (ring : SnapshotRing) (deliveredArrival : Nat) :
    (ring.discardBefore deliveredArrival).stateful = ring.stateful := by
  have kept : ∀ (snapshots : List SourceSnapshot) (other : SnapshotRing),
      (snapshots.foldl append other).stateful = other.stateful := by
    intro snapshots
    induction snapshots with
    | nil => exact fun _ => rfl
    | cons snapshot snapshots ih =>
        exact fun other => ih (other.append snapshot)
  exact kept _ _

end SnapshotRing

/-! ### What a lane stands for -/

/-- The state contract of a source: a captured state, loaded into any object of its kind and
iterated, draws under the same streams what the captured object went on to draw. -/
structure StateContract {Object Value Stream : Type} (source : Source Object Value Stream) :
    Prop where
  stateful : source.stateful = true
  continues : ∀ used object : Object,
    Same source.next (source.iter (source.loadStateDict (source.stateDict used) object)) used

variable {Object Value Stream : Type} (loader : IterableLoader Object Value Stream)

namespace IterableLoader

section

variable (identity : Fin loader.laneCount)

/-- The stream of every arrival of a lane. -/
def streams (arrival : Nat) : Stream :=
  loader.stream loader.rootSeed loader.epoch identity arrival

/-- A lane's object as iteration starts on an untouched dataset. -/
def begun : Object :=
  loader.source.iter (loader.instantiate identity loader.dataset).1

/-- The first values of a lane that is never interrupted. -/
def whole : Nat → List Value :=
  sequence loader.source.next (loader.streams identity) (loader.begun identity)

def StandsAt (arrival : Nat) (object : Object) : Prop :=
  Stands loader.source.next (loader.streams identity) (loader.whole identity) arrival object

/-- A snapshot from which the lane goes on where it was taken. -/
def Restores (snapshot : SourceSnapshot) : Prop :=
  ∀ object, loader.StandsAt identity snapshot.arrival
    (loader.source.iter (loader.source.loadStateDict snapshot.payload object))

end

variable {loader}

theorem restores_of_stands (contract : StateContract loader.source)
    {identity : Fin loader.laneCount} {arrival : Nat} {object : Object}
    (stands : loader.StandsAt identity arrival object) :
    loader.Restores identity ⟨arrival, loader.source.stateDict object⟩ :=
  fun other => stands.congr (contract.continues object other)

theorem advance_eq (identity : Fin loader.laneCount) (count : Nat) (lane : Lane Object) :
    loader.advance loader.rootSeed loader.epoch identity count lane =
      let drawn := drain loader.source.next
        ((List.range' lane.arrival count).map (loader.streams identity)) lane.object
      (drawn.1, drawn.2.1,
        { lane with object := drawn.2.2, arrival := lane.arrival + drawn.1.length }) := by
  induction count generalizing lane with
  | zero => rfl
  | succ count ih =>
      rw [advance, List.range'_succ, List.map_cons, ← streams]
      cases pulled : loader.source.next (loader.streams identity lane.arrival) lane.object with
      | mk drawn after =>
          cases drawn with
          | none =>
              dsimp only
              rw [drain_cons_none pulled]
              rfl
          | some value =>
              dsimp only
              rw [ih, drain_cons_some pulled]
              simp only [List.length_cons, Nat.add_assoc, Nat.add_comm 1]

end IterableLoader

/-- What holds of a lane: an active one stands at its delivered arrival, and every snapshot
restores the lane, up to those that an exhausted lane took at or past its last delivery. -/
structure LaneSound (identity : Fin loader.laneCount) (active : Prop) (held : Held Object) :
    Prop where
  stateful : held.ring.stateful = true
  reached : (loader.whole identity held.deliveredArrival).length = held.deliveredArrival
  arrived : active → held.lane.arrival = held.deliveredArrival
  stands : active → loader.StandsAt identity held.deliveredArrival held.lane.object
  entries : ∀ entry ∈ held.ring.entries,
    loader.Restores identity entry ∨ ¬active ∧ held.deliveredArrival ≤ entry.arrival

/-- The seeds are the loader's, and each lane is sound. -/
structure Sound (runtime : Runtime Object loader.laneCount) (queue : List (Fin loader.laneCount)) :
    Prop where
  rootSeed : runtime.rootSeed = loader.rootSeed
  epoch : runtime.epoch = loader.epoch
  distinct : queue.Nodup
  lanes : ∀ identity, LaneSound loader identity (identity ∈ queue) (runtime.held identity)

variable {loader}

theorem mem_captureSnapshot {ring : SnapshotRing} {lane : Lane Object} {force : Bool}
    {entry : SourceSnapshot} (member : entry ∈ (loader.captureSnapshot ring lane force).entries) :
    entry = ⟨lane.arrival, loader.source.stateDict lane.object⟩ ∨ entry ∈ ring.entries := by
  rw [IterableLoader.captureSnapshot] at member
  split at member
  · exact SnapshotRing.mem_push member
  · exact .inr member

theorem stateful_captureSnapshot (ring : SnapshotRing) (lane : Lane Object) (force : Bool) :
    (loader.captureSnapshot ring lane force).stateful = ring.stateful := by
  rw [IterableLoader.captureSnapshot]
  split
  · exact SnapshotRing.stateful_push ..
  · rfl

/-! ### Building a lane -/

variable {identity : Fin loader.laneCount}

theorem replayTo_here {lane : Lane Object} {target : Nat} (here : lane.arrival = target) :
    loader.replayTo loader.rootSeed loader.epoch identity lane target = .ok lane := by
  rw [IterableLoader.replayTo, if_neg (Nat.not_lt_of_le (Nat.le_of_eq here)), if_pos here.symm]

/-- Replay to a later arrival stands at that arrival. -/
theorem replayTo_spec {identity : Fin loader.laneCount} {lane : Lane Object} {target : Nat}
    (stands : loader.StandsAt identity lane.arrival lane.object)
    (reached : (loader.whole identity target).length = target) (below : lane.arrival ≤ target) :
    ∃ replayed, loader.replayTo loader.rootSeed loader.epoch identity lane target = .ok replayed ∧
      replayed.arrival = target ∧ loader.StandsAt identity target replayed.object := by
  by_cases same : target = lane.arrival
  · exact ⟨lane, replayTo_here same.symm, same.symm, same ▸ stands⟩
  · have sum : lane.arrival + (target - lane.arrival) = target := Nat.add_sub_cancel' below
    have lasts := lasts_of_reached stands (sum.symm ▸ reached)
    have full := length_of_not_exhausted lasts
    rw [List.length_map, List.length_range'] at full
    have stays := stands_drain stands lasts
    rw [sum] at stays
    rw [IterableLoader.replayTo, if_neg (Nat.not_lt_of_le below), if_neg same,
      IterableLoader.advance_eq]
    dsimp only
    rw [lasts, full, if_neg (by simp)]
    exact ⟨_, rfl, sum, stays⟩

variable (loader) in
/-- What a checkpoint says of its lane, `active` or not. -/
structure Resumable (identity : Fin loader.laneCount) (active : Prop)
    (checkpoint : LaneCheckpoint) : Prop where
  stateful : checkpoint.stateful = true
  reached :
    (loader.whole identity checkpoint.deliveredArrival).length = checkpoint.deliveredArrival
  snapshot : ∀ snapshot, checkpoint.snapshot = some snapshot →
    snapshot.arrival ≤ checkpoint.deliveredArrival ∧
      (loader.Restores identity snapshot ∨
        ¬active ∧ snapshot.arrival = checkpoint.deliveredArrival)

variable (loader) in
/-- Whether a lane without a snapshot is drawn again from its first value. -/
def Rewinds (snapshot : Option SourceSnapshot) (dataset : Object) : Prop :=
  loader.iterablePayload.isSome ∨ snapshot.isSome ∨ dataset = loader.dataset

variable {dataset : Object}

theorem instantiate_begun (untouched : loader.iterablePayload.isSome ∨ dataset = loader.dataset) :
    loader.source.iter (loader.instantiate identity dataset).1 = loader.begun identity := by
  rcases untouched with kept | same
  · obtain ⟨copy, payload⟩ := Option.isSome_iff_exists.mp kept
    simp only [IterableLoader.begun, IterableLoader.instantiate, payload, Option.getD_some]
  · rw [same, IterableLoader.begun]

theorem stands_begun (identity : Fin loader.laneCount) :
    loader.StandsAt identity 0 (loader.begun identity) := stands_start _

theorem buildLane_eq {identity : Fin loader.laneCount} {checkpoint : Option LaneCheckpoint}
    {selected : Option SourceSnapshot} {dataset : Object} {replayed : Lane Object}
    (stateful : ∀ given, checkpoint = some given → given.stateful = loader.source.stateful)
    (found : checkpoint.bind (·.snapshot) = selected)
    (replay : loader.replayTo loader.rootSeed loader.epoch identity
      { object := loader.source.iter (selected.elim (loader.instantiate identity dataset).1
          fun snapshot => loader.source.loadStateDict snapshot.payload
            (loader.instantiate identity dataset).1)
        arrival := selected.elim 0 (·.arrival)
        producedBatches := 0
        shared := (loader.instantiate identity dataset).2.2 }
      (checkpoint.elim 0 (·.deliveredArrival)) = .ok replayed) :
    ∃ after, loader.buildLane loader.rootSeed loader.epoch identity checkpoint dataset =
      .ok
        ({ lane := replayed
           ring := loader.captureSnapshot
            (selected.elim loader.newRing loader.newRing.seed) replayed true
           deliveredArrival := checkpoint.elim 0 (·.deliveredArrival) }, after) := by
  have agrees : checkpoint.any (fun given => given.stateful != loader.source.stateful) = false := by
    cases checkpoint with
    | none => rfl
    | some given => rw [Option.any_some, stateful given rfl, bne_self_eq_false]
  rw [IterableLoader.buildLane]
  dsimp only
  rw [agrees, found]
  simp only [Bool.false_eq_true, if_false]
  change ∃ after, (loader.replayTo _ _ identity _ _ >>= _) = _
  rw [replay]
  exact ⟨_, rfl⟩

/-- A lane that stands at its delivered arrival after the replay, with its ring. -/
theorem laneSound_replayed (contract : StateContract loader.source) (active : Prop)
    {replayed : Lane Object} {ring : SnapshotRing} {target : Nat} (stateful : ring.stateful = true)
    (restores : ∀ entry ∈ ring.entries, loader.Restores identity entry)
    (reached : (loader.whole identity target).length = target) (arrived : replayed.arrival = target)
    (stands : loader.StandsAt identity target replayed.object) :
    LaneSound loader identity active
      { lane := replayed, ring := loader.captureSnapshot ring replayed true,
        deliveredArrival := target } := by
  refine ⟨(stateful_captureSnapshot ..).trans stateful, reached, fun _ => arrived,
    fun _ => stands, fun entry member => .inl ?_⟩
  rcases mem_captureSnapshot member with rfl | old
  · exact IterableLoader.restores_of_stands contract (arrived.symm ▸ stands)
  · exact restores entry old

/-- A lane built from a resumable checkpoint is sound. -/
theorem buildLane_spec (contract : StateContract loader.source) {identity : Fin loader.laneCount}
    (active : Prop) {checkpoint : Option LaneCheckpoint} {dataset : Object}
    (resumable : ∀ given, checkpoint = some given →
      Resumable loader identity active given)
    (rewinds : Rewinds loader (checkpoint.bind (·.snapshot)) dataset) :
    ∃ held after,
      loader.buildLane loader.rootSeed loader.epoch identity checkpoint dataset =
        .ok (held, after) ∧
      LaneSound loader identity active held ∧
      held.deliveredArrival = checkpoint.elim 0 (·.deliveredArrival) := by
  have reached : (loader.whole identity (checkpoint.elim 0 (·.deliveredArrival))).length =
      checkpoint.elim 0 (·.deliveredArrival) := by
    cases checkpoint with
    | none => rfl
    | some given => exact (resumable given rfl).reached
  have stateful : ∀ given, checkpoint = some given →
      given.stateful = loader.source.stateful := fun given same =>
    (resumable given same).stateful.trans contract.stateful.symm
  have fresh : loader.newRing.stateful = true := contract.stateful
  cases selected : checkpoint.bind (·.snapshot) with
  | none =>
      have untouched : loader.iterablePayload.isSome ∨ dataset = loader.dataset := by
        rw [selected] at rewinds
        exact rewinds.imp_right fun either => either.resolve_left Bool.false_ne_true
      have stands : loader.StandsAt identity 0
          (loader.source.iter (loader.instantiate identity dataset).1) :=
        instantiate_begun untouched ▸ stands_begun identity
      obtain ⟨replayed, replay, arrived, stays⟩ := @replayTo_spec _ _ _ loader identity
        { object := _, arrival := 0, producedBatches := 0,
          shared := (loader.instantiate identity dataset).2.2 } _ stands reached (Nat.zero_le _)
      obtain ⟨after, built⟩ := buildLane_eq stateful selected replay
      exact ⟨_, after, built, laneSound_replayed contract active fresh nofun reached arrived stays,
        rfl⟩
  | some snapshot =>
      obtain ⟨given, rfl, found⟩ := Option.bind_eq_some_iff.mp selected
      obtain ⟨below, restores⟩ := (resumable given rfl).snapshot snapshot found
      have seeded : (loader.newRing.seed snapshot).stateful = true :=
        (SnapshotRing.stateful_seed ..).trans fresh
      have onlySeed : ∀ entry ∈ (loader.newRing.seed snapshot).entries, entry = snapshot :=
        fun entry member => (SnapshotRing.mem_seed member).resolve_right nofun
      rcases restores with restores | ⟨idle, same⟩
      · obtain ⟨replayed, replay, arrived, stays⟩ := @replayTo_spec _ _ _ loader identity
          { object := _, arrival := snapshot.arrival, producedBatches := 0,
            shared := (loader.instantiate identity dataset).2.2 } _
          (restores (loader.instantiate identity dataset).1) reached below
        obtain ⟨after, built⟩ := buildLane_eq stateful selected replay
        refine ⟨_, after, built, laneSound_replayed contract active seeded ?_ reached arrived stays,
          rfl⟩
        intro entry member
        exact onlySeed entry member ▸ restores
      · -- an exhausted lane has nothing to replay
        obtain ⟨after, built⟩ := @buildLane_eq _ _ _ loader identity _ _ dataset _ stateful selected
          (replayTo_here same)
        refine ⟨_, after, built, ⟨(stateful_captureSnapshot ..).trans seeded, reached,
          fun is => absurd is idle, fun is => absurd is idle, fun entry member => .inr ⟨idle, ?_⟩⟩,
          rfl⟩
        rcases mem_captureSnapshot member with rfl | old
        · exact Nat.le_of_eq same.symm
        · exact Nat.le_of_eq (onlySeed entry old ▸ same.symm)

/-! ### Building every lane -/

/-- Lanes that can be built one by one on a dataset object are built together: only lanes with
copies of their own come after another lane. -/
theorem buildAll_spec {checkpoints : Fin loader.laneCount → Option LaneCheckpoint}
    {good : Fin loader.laneCount → Held Object → Prop}
    (lane : ∀ identity current, loader.iterablePayload.isSome ∨ current = dataset →
      ∃ held after,
        loader.buildLane loader.rootSeed loader.epoch identity (checkpoints identity) current =
          .ok (held, after) ∧ good identity held) (count : Nat) (bound : count ≤ loader.laneCount) :
    ∃ built after,
      loader.buildAll loader.rootSeed loader.epoch checkpoints count bound dataset =
        .ok (built, after) ∧
      (loader.iterablePayload.isSome ∨ count ≠ 0 ∨ after = dataset) ∧
      ∀ identity : Fin count, good (identity.castLE bound) (built identity) := by
  induction count with
  | zero => exact ⟨_, _, rfl, .inr (.inr rfl), fun identity => identity.elim0⟩
  | succ count ih =>
      obtain ⟨built, current, earlier, reached, goods⟩ :=
        ih (Nat.le_of_succ_le bound)
      have allowed : loader.iterablePayload.isSome ∨ current = dataset := by
        rcases reached with kept | more | same
        · exact .inl kept
        · left
          apply Option.isSome_iff_ne_none.mpr
          intro absent
          have single := loader.single absent
          omega
        · exact .inr same
      obtain ⟨held, after, last, isGood⟩ := lane ⟨count, bound⟩ current allowed
      have both : loader.buildAll loader.rootSeed loader.epoch checkpoints (count + 1) bound
          dataset = .ok (fun identity => if earlier : identity.val < count then
            built ⟨identity.val, earlier⟩ else held, after) := by
        rw [IterableLoader.buildAll, earlier]
        change (loader.buildLane _ _ _ _ _ >>= _) = _
        rw [last]
        rfl
      refine ⟨_, after, both, .inr (.inl (Nat.succ_ne_zero count)), fun identity => ?_⟩
      split
      · rename_i below
        exact goods ⟨identity.val, below⟩
      · rename_i above
        have same : identity.castLE bound = ⟨count, bound⟩ := by
          apply Fin.ext
          have inside := identity.isLt
          change identity.val = count
          omega
        exact same ▸ isGood

variable (loader) in
/-- What a checkpoint says of all lanes. -/
structure Faithful (checkpoint : IterableCheckpoint loader.laneCount) : Prop where
  rootSeed : checkpoint.rootSeed = loader.rootSeed
  epoch : checkpoint.epoch = loader.epoch
  distinct : checkpoint.laneOrder.Nodup
  lanes : ∀ identity, Resumable loader identity (identity ∈ checkpoint.laneOrder)
    (checkpoint.lanes identity)

/-- Lanes built from a faithful checkpoint are sound. -/
theorem buildLanes_spec (contract : StateContract loader.source)
    {resume : Option (IterableCheckpoint loader.laneCount)} {dataset : Object}
    (faithful : ∀ checkpoint, resume = some checkpoint → Faithful loader checkpoint)
    (rewinds : ∀ identity, Rewinds loader
      (resume.bind fun checkpoint => (checkpoint.lanes identity).snapshot) dataset) :
    ∃ runtime, loader.buildLanes loader.rootSeed loader.epoch resume dataset = .ok runtime ∧
      Sound loader runtime runtime.lanes ∧
      runtime.lanes = resume.elim (List.finRange loader.laneCount) (·.laneOrder) ∧
      ∀ identity, (runtime.held identity).deliveredArrival =
        resume.elim 0 fun checkpoint => (checkpoint.lanes identity).deliveredArrival := by
  have kept : (resume.filter fun checkpoint =>
      (List.finRange loader.laneCount).all fun identity =>
        (checkpoint.lanes identity).stateful) = resume := by
    cases resume with
    | none => rfl
    | some checkpoint =>
        rw [Option.filter_some, if_pos]
        exact List.all_eq_true.mpr fun identity _ => ((faithful checkpoint rfl).lanes identity).stateful
  have lane : ∀ identity current, loader.iterablePayload.isSome ∨ current = dataset →
      ∃ held after, loader.buildLane loader.rootSeed loader.epoch identity
          (resume.map (·.lanes identity)) current = .ok (held, after) ∧
        (LaneSound loader identity
            (identity ∈ resume.elim (List.finRange loader.laneCount) (·.laneOrder)) held ∧
          held.deliveredArrival =
            resume.elim 0 fun checkpoint => (checkpoint.lanes identity).deliveredArrival) := by
    intro identity current allowed
    have again : Rewinds loader
        ((resume.map (·.lanes identity)).bind (·.snapshot)) current := by
      have same : (resume.map (·.lanes identity)).bind (·.snapshot) =
          resume.bind fun checkpoint => (checkpoint.lanes identity).snapshot := by
        cases resume <;> rfl
      rw [same]
      rcases allowed with payload | unchanged
      · exact .inl payload
      · exact unchanged ▸ rewinds identity
    obtain ⟨held, after, built, sound, arrival⟩ := buildLane_spec contract
      (identity ∈ resume.elim (List.finRange loader.laneCount) (·.laneOrder))
      (fun given same => by
        obtain ⟨checkpoint, rfl, rfl⟩ := Option.map_eq_some_iff.mp same
        exact (faithful checkpoint rfl).lanes identity)
      again
    refine ⟨held, after, built, sound, arrival.trans ?_⟩
    cases resume <;> rfl
  obtain ⟨built, after, all, _, goods⟩ := buildAll_spec lane loader.laneCount (Nat.le_refl _)
  refine ⟨⟨loader.rootSeed, loader.epoch, built,
    resume.elim (List.finRange loader.laneCount) (·.laneOrder), after⟩,
    ?_, ?_, rfl, fun identity => (goods identity).2⟩
  · rw [IterableLoader.buildLanes]
    dsimp only
    rw [kept, all]
    rfl
  · refine ⟨rfl, rfl, ?_, fun identity => (goods identity).1⟩
    cases resume with
    | none => exact List.nodup_finRange _
    | some checkpoint => exact (faithful checkpoint rfl).distinct

/-! ### Checkpoints -/

variable {held : Held Object}

theorem resumable_laneCheckpoint {active : Prop} (sound : LaneSound loader identity active held) :
    Resumable loader identity active (Runtime.laneCheckpoint held) := by
  refine ⟨sound.stateful, sound.reached, fun snapshot found => ?_⟩
  obtain ⟨member, below⟩ := SnapshotRing.select_eq_some found
  exact ⟨below, (sound.entries snapshot member).imp_right fun past =>
    ⟨past.1, Nat.le_antisymm below past.2⟩⟩

variable {runtime : Runtime Object loader.laneCount}

/-- A captured checkpoint is faithful. -/
theorem faithful_capture (sound : Sound loader runtime runtime.lanes) :
    Faithful loader runtime.captureCheckpoint :=
  ⟨sound.rootSeed, sound.epoch, sound.distinct, fun identity =>
    resumable_laneCheckpoint (sound.lanes identity)⟩

theorem forM_ok {Item Failure : Type} {items : List Item} {check : Item → Except Failure Unit}
    (passes : ∀ item ∈ items, check item = .ok ()) : items.forM check = .ok () := by
  induction items with
  | nil => rfl
  | cons item items ih =>
      change (check item >>= fun _ => items.forM check) = _
      rw [passes item List.mem_cons_self]
      exact ih fun other member => passes other (List.mem_cons_of_mem _ member)

/-- A captured checkpoint passes the checks it is loaded with. -/
theorem check_capture (sound : Sound loader runtime runtime.lanes) :
    runtime.captureCheckpoint.check = .ok () := by
  have lane : ∀ identity, (runtime.captureCheckpoint.lanes identity).check = .ok () := by
    intro identity
    have resumable := (faithful_capture sound).lanes identity
    have within : ¬(runtime.captureCheckpoint.lanes identity).snapshot.any fun snapshot =>
        (runtime.captureCheckpoint.lanes identity).deliveredArrival < snapshot.arrival := by
      cases found : (runtime.captureCheckpoint.lanes identity).snapshot with
      | none => exact Bool.false_ne_true
      | some snapshot =>
          rw [Option.any_some, decide_eq_true_eq]
          exact Nat.not_lt_of_le (resumable.snapshot snapshot found).1
    rw [LaneCheckpoint.check, if_neg fun both => Bool.false_ne_true
      (both.1.symm.trans resumable.stateful), if_neg within]
  rw [IterableCheckpoint.check, forM_ok fun identity _ => lane identity]
  exact if_pos sound.distinct

/-! ### Rebuilding -/

/-- Two runtimes at one point of the epoch. -/
structure Level (first second : Runtime Object loader.laneCount) : Prop where
  lanes : first.lanes = second.lanes
  delivered : ∀ identity,
    (first.held identity).deliveredArrival = (second.held identity).deliveredArrival

/-- A sound runtime is rebuilt from its own checkpoint. -/
theorem resume_spec (contract : StateContract loader.source)
    (sound : Sound loader runtime runtime.lanes) (rewinds : ∀ identity, Rewinds loader
      (Runtime.laneCheckpoint (runtime.held identity)).snapshot dataset) :
    ∃ rebuilt, runtime.resume loader dataset = .ok rebuilt ∧
      Sound loader rebuilt rebuilt.lanes ∧ Level rebuilt runtime := by
  obtain ⟨rebuilt, built, isSound, lanes, delivered⟩ := @buildLanes_spec _ _ _ loader contract
    (some runtime.captureCheckpoint) dataset
    (fun checkpoint same => Option.some.inj same ▸ faithful_capture sound) rewinds
  refine ⟨rebuilt, ?_, isSound, ⟨lanes, delivered⟩⟩
  rw [Runtime.resume, check_capture sound]
  change loader.buildLanes runtime.rootSeed runtime.epoch _ _ = _
  rw [sound.rootSeed, sound.epoch, built]

/-- One lane is rebuilt from its own checkpoint. -/
theorem recoverLane_spec (contract : StateContract loader.source)
    (sound : Sound loader runtime runtime.lanes) (active : identity ∈ runtime.lanes)
    (rewinds : Rewinds loader
      (Runtime.laneCheckpoint (runtime.held identity)).snapshot runtime.dataset) :
    ∃ recovered, runtime.recoverLane loader identity = .ok recovered ∧
      Sound loader recovered recovered.lanes ∧ Level recovered runtime := by
  have lane := sound.lanes identity
  obtain ⟨held, after, built, isSound, delivered⟩ := @buildLane_spec _ _ _ loader contract
    identity (identity ∈ runtime.lanes)
    (some (Runtime.laneCheckpoint (runtime.held identity))) runtime.dataset
    (fun given same => Option.some.inj same ▸ resumable_laneCheckpoint lane) rewinds
  refine ⟨{ runtime with held := Function.update runtime.held identity held, dataset := after },
    ?_, ⟨sound.rootSeed, sound.epoch, sound.distinct, ?_⟩, ⟨rfl, ?_⟩⟩
  · rw [Runtime.recoverLane, if_neg (not_not.mpr active)]
    dsimp only
    rw [if_pos lane.stateful, sound.rootSeed, sound.epoch, built]
    rfl
  · exact (Function.forall_update_iff runtime.held fun other held =>
      LaneSound loader other (other ∈ runtime.lanes) held).mpr
        ⟨isSound, fun other _ => sound.lanes other⟩
  · exact (Function.forall_update_iff runtime.held fun other held =>
      held.deliveredArrival = (runtime.held other).deliveredArrival).mpr
        ⟨delivered, fun _ _ => rfl⟩

/-! ### Serving -/

namespace IterableLoader

/-- The next values of a lane behind its delivered arrival, up to a batch. -/
def upcoming (identity : Fin loader.laneCount) (deliveredArrival : Nat) : List Value :=
  (loader.whole identity (deliveredArrival + loader.width)).drop deliveredArrival

end IterableLoader

/-- Whether an exhausted lane hands out nothing of its last values. -/
def Skips (loader : IterableLoader Object Value Stream) (values : List Value) : Prop :=
  values = [] ∨ (loader.batchSize.any (values.length < ·) ∧ loader.dropLast)

instance (values : List Value) : Decidable (Skips loader values) :=
  decidable_of_iff (values.isEmpty ∨ (loader.batchSize.any (values.length < ·) ∧ loader.dropLast))
    (by rw [Skips, List.isEmpty_iff])

/-- What is handed out from a queue of lanes at their delivered arrivals, the queue and the
arrivals afterwards. -/
def serveDelivered (loader : IterableLoader Object Value Stream) :
    List (Fin loader.laneCount) → (Fin loader.laneCount → Nat) →
      Option (Handed Value) × List (Fin loader.laneCount) × (Fin loader.laneCount → Nat)
  | [], delivered => (none, [], delivered)
  | identity :: rest, delivered =>
      let values := loader.upcoming identity (delivered identity)
      let moved := Function.update delivered identity (delivered identity + values.length)
      if values.length < loader.width then
        if Skips loader values then serveDelivered loader rest delivered
        else (Runtime.handed loader values, rest, moved)
      else (Runtime.handed loader values, rest ++ [identity], moved)

theorem width_pos (loader : IterableLoader Object Value Stream) : 0 < loader.width := by
  rw [IterableLoader.width]
  split
  · exact Nat.one_pos
  · exact Nat.one_pos
  · exact Nat.succ_pos _

/-- One lane-whole batch of an active lane. -/
theorem nextBatch_spec (rootSeed : runtime.rootSeed = loader.rootSeed)
    (epoch : runtime.epoch = loader.epoch)
    (lane : LaneSound loader identity True (runtime.held identity)) :
    let deliveredArrival := (runtime.held identity).deliveredArrival
    let values := loader.upcoming identity deliveredArrival
    ∃ held, runtime.nextBatch loader identity =
        (values, decide (values.length < loader.width), runtime.put loader identity held) ∧
      held.deliveredArrival = deliveredArrival ∧ held.ring.stateful = true ∧
      held.lane.arrival = deliveredArrival + values.length ∧
      (loader.whole identity held.lane.arrival).length = held.lane.arrival ∧
      (¬values.length < loader.width →
        loader.StandsAt identity held.lane.arrival held.lane.object) ∧
      ∀ entry ∈ held.ring.entries, loader.Restores identity entry ∨
        entry = ⟨held.lane.arrival, loader.source.stateDict held.lane.object⟩ := by
  intro deliveredArrival batch
  have stands := lane.stands trivial
  have drawn : Pulled.values loader.source.next (loader.streams identity) deliveredArrival
      loader.width (runtime.held identity).lane.object = batch := drain_of_stands stands loader.width
  have short : (drain loader.source.next
      ((List.range' deliveredArrival loader.width).map (loader.streams identity))
      (runtime.held identity).lane.object).2.1 = decide (batch.length < loader.width) := by
    rw [Bool.eq_iff_iff, exhausted_iff, decide_eq_true_eq, List.length_map, List.length_range',
      ← drawn]
    rfl
  have reached : (loader.whole identity (deliveredArrival + batch.length)).length =
      deliveredArrival + batch.length := by
    rw [stands.continues, List.length_append, stands.reached, ← drawn, length_values]
  have standsLater : ¬batch.length < loader.width →
      loader.StandsAt identity (deliveredArrival + batch.length)
        (drain loader.source.next
          ((List.range' deliveredArrival loader.width).map (loader.streams identity))
          (runtime.held identity).lane.object).2.2 := by
    intro full
    have lasts := short.trans (decide_eq_false full)
    have length := length_of_not_exhausted lasts
    rw [List.length_map, List.length_range'] at length
    have same : batch.length = loader.width := drawn ▸ length
    rw [same]
    exact stands_drain stands lasts
  have restores : ∀ entry ∈ (runtime.held identity).ring.entries,
      loader.Restores identity entry := fun entry member =>
    (lane.entries entry member).resolve_right fun past => past.1 trivial
  rw [Runtime.nextBatch]
  dsimp only
  rw [rootSeed, epoch, IterableLoader.advance_eq, lane.arrived trivial]
  dsimp only
  rw [short, show (drain loader.source.next
      ((List.range' deliveredArrival loader.width).map (loader.streams identity))
      (runtime.held identity).lane.object).1 = batch from drawn]
  split
  · rename_i nothing
    refine ⟨_, rfl, rfl, lane.stateful, rfl, reached, standsLater, fun entry member => ?_⟩
    exact .inl (restores entry member)
  · refine ⟨_, rfl, rfl, (stateful_captureSnapshot ..).trans lane.stateful, rfl, reached,
      standsLater, fun entry member => ?_⟩
    rcases mem_captureSnapshot member with rfl | old
    · exact .inr rfl
    · exact .inl (restores entry old)

/-- A runtime in which one lane was replaced and the queue changed at most in that lane. -/
theorem sound_replaced {runtime after : Runtime Object loader.laneCount}
    {queue later : List (Fin loader.laneCount)} (sound : Sound loader runtime queue)
    (lane : LaneSound loader identity (identity ∈ later) held)
    (replaced : after.held = Function.update runtime.held identity held)
    (seeds : after.rootSeed = runtime.rootSeed ∧ after.epoch = runtime.epoch)
    (distinct : later.Nodup) (others : ∀ other, other ≠ identity → (other ∈ later ↔ other ∈ queue)) :
    Sound loader after later := by
  refine ⟨seeds.1.trans sound.rootSeed, seeds.2.trans sound.epoch, distinct, ?_⟩
  rw [replaced]
  apply (Function.forall_update_iff runtime.held fun other held =>
    LaneSound loader other (other ∈ later) held).mpr
  refine ⟨lane, fun other different => ?_⟩
  rw [others other different]
  exact sound.lanes other

theorem delivered_update (identity : Fin loader.laneCount) (held : Held Object) :
    (fun other => (Function.update runtime.held identity held other).deliveredArrival) =
      Function.update (fun other => (runtime.held other).deliveredArrival) identity
        held.deliveredArrival := by
  funext other
  exact Function.apply_update (fun _ (held : Held Object) => held.deliveredArrival) runtime.held
    identity held other

/-- The lane after its batch was delivered. -/
def delivering (held : Held Object) : Held Object :=
  { lane := held.lane
    ring := (held.ring.discardBefore held.lane.arrival).discardBefore held.lane.arrival
    deliveredArrival := held.lane.arrival }

theorem mem_delivering {entry : SourceSnapshot} (member : entry ∈ (delivering held).ring.entries) :
    entry ∈ held.ring.entries :=
  SnapshotRing.mem_discardBefore (SnapshotRing.mem_discardBefore member)

theorem stateful_delivering (held : Held Object) :
    (delivering held).ring.stateful = held.ring.stateful :=
  (SnapshotRing.stateful_discardBefore ..).trans (SnapshotRing.stateful_discardBefore ..)

theorem markDelivered_put (runtime : Runtime Object loader.laneCount)
    (identity : Fin loader.laneCount) (held : Held Object) :
    ((runtime.put loader identity held).markDelivered loader identity).held =
      Function.update runtime.held identity (delivering held) := by
  rw [Runtime.markDelivered, Runtime.put]
  dsimp only
  rw [Function.update_self, Function.update_idem]
  rfl

section Served

variable {runtime : Runtime Object loader.laneCount} {identity : Fin loader.laneCount}
  {rest : List (Fin loader.laneCount)}

section

variable (sound : Sound loader runtime (identity :: rest))

include sound

theorem sound_active :
    LaneSound loader identity True (runtime.held identity) := by
  have lane := sound.lanes identity
  rwa [eq_true (List.mem_cons_self : identity ∈ identity :: rest)] at lane

/-- A lane that left the queue with nothing more delivered. -/
theorem sound_left {after : Runtime Object loader.laneCount}
    (lane : LaneSound loader identity False held)
    (replaced : after.held = Function.update runtime.held identity held)
    (seeds : after.rootSeed = runtime.rootSeed ∧ after.epoch = runtime.epoch) :
    Sound loader after rest := by
  obtain ⟨fresh, distinct⟩ := List.nodup_cons.mp sound.distinct
  rw [← eq_false fresh] at lane
  exact sound_replaced sound lane replaced seeds distinct fun other different =>
    (List.mem_cons.trans (or_iff_right different)).symm

/-- Behind its source, a lane that does not come back leaves the others sound. -/
theorem sound_drawn :
    Sound loader (runtime.nextBatch loader identity).2.2 rest ∧
      (fun other => ((runtime.nextBatch loader identity).2.2.held other).deliveredArrival) =
        fun other => (runtime.held other).deliveredArrival := by
  have active := sound_active sound
  obtain ⟨held, batched, delivered, stateful, arrival, reached, stands, entries⟩ :=
    nextBatch_spec sound.rootSeed sound.epoch active
  rw [batched]
  refine ⟨sound_left sound ⟨stateful, ?_, nofun, nofun, fun entry member => ?_⟩ rfl ⟨rfl, rfl⟩, ?_⟩
  · rw [delivered]
    exact active.reached
  · rcases entries entry member with restores | rfl
    · exact .inl restores
    · refine .inr ⟨not_false, ?_⟩
      rw [delivered, arrival]
      exact Nat.le_add_right _ _
  · refine (delivered_update identity held).trans ?_
    rw [delivered]
    exact Function.update_eq_self identity fun other => (runtime.held other).deliveredArrival

/-- The arrivals once the batch of a lane is counted. -/
theorem delivered_counted :
    (fun other => (((runtime.nextBatch loader identity).2.2.markDelivered loader identity).held
        other).deliveredArrival) =
      Function.update (fun other => (runtime.held other).deliveredArrival) identity
        ((runtime.held identity).deliveredArrival +
          (loader.upcoming identity (runtime.held identity).deliveredArrival).length) := by
  obtain ⟨held, batched, delivered, stateful, arrival, reached, stands, entries⟩ :=
    nextBatch_spec sound.rootSeed sound.epoch (sound_active sound)
  rw [batched]
  dsimp only
  rw [markDelivered_put, delivered_update, ← arrival]
  rfl

/-- A lane that hands out its last batch leaves the others sound. -/
theorem sound_counted :
    Sound loader ((runtime.nextBatch loader identity).2.2.markDelivered loader identity) rest := by
  obtain ⟨held, batched, delivered, stateful, arrival, reached, stands, entries⟩ :=
    nextBatch_spec sound.rootSeed sound.epoch (sound_active sound)
  rw [batched]
  refine sound_left sound
    ⟨(stateful_delivering held).trans stateful, reached, nofun, nofun, fun entry member => ?_⟩
    (markDelivered_put runtime identity held) ⟨rfl, rfl⟩
  rcases entries entry (mem_delivering member) with restores | rfl
  · exact .inl restores
  · exact .inr ⟨not_false, Nat.le_refl _⟩

end

/-- A lane that filled its batch is sound behind the others. -/
theorem sound_requeued (contract : StateContract loader.source)
    (sound : Sound loader runtime (identity :: rest))
    (full : ¬(loader.upcoming identity (runtime.held identity).deliveredArrival).length <
      loader.width) :
    Sound loader ((runtime.nextBatch loader identity).2.2.markDelivered loader identity)
      (rest ++ [identity]) := by
  obtain ⟨held, batched, delivered, stateful, arrival, reached, stands, entries⟩ :=
    nextBatch_spec sound.rootSeed sound.epoch (sound_active sound)
  rw [batched]
  have lane : LaneSound loader identity (identity ∈ rest ++ [identity]) (delivering held) := by
    refine ⟨(stateful_delivering held).trans stateful, reached, fun _ => rfl,
      fun _ => stands full, fun entry member => .inl ?_⟩
    rcases entries entry (mem_delivering member) with restores | rfl
    · exact restores
    · exact IterableLoader.restores_of_stands contract (stands full)
  refine sound_replaced sound lane (markDelivered_put runtime identity held) ⟨rfl, rfl⟩ ?_
    fun other different => ?_
  · exact (List.perm_append_singleton identity rest).nodup_iff.mpr sound.distinct
  · rw [List.mem_append, List.mem_singleton, or_iff_left different, List.mem_cons,
      or_iff_right different]

end Served

/-- Serving is determined by the queue and the delivered arrivals, and keeps every lane sound. -/
theorem serve_spec (contract : StateContract loader.source) (queue : List (Fin loader.laneCount))
    (sound : Sound loader runtime queue) :
    let served := Runtime.serve loader queue runtime
    (served.1, served.2.lanes, fun identity => (served.2.held identity).deliveredArrival) =
        serveDelivered loader queue (fun identity => (runtime.held identity).deliveredArrival) ∧
      Sound loader served.2 served.2.lanes := by
  induction queue generalizing runtime with
  | nil =>
      exact ⟨rfl, sound.rootSeed, sound.epoch, List.nodup_nil, fun identity => sound.lanes identity⟩
  | cons identity rest ih =>
      obtain ⟨held, batched, -⟩ :=
        nextBatch_spec sound.rootSeed sound.epoch (sound_active sound)
      obtain ⟨waiting, unchanged⟩ := sound_drawn sound
      have arrivals := delivered_counted sound
      have counted := sound_counted sound
      have requeued := fun full => sound_requeued contract sound full
      rw [batched] at waiting unchanged arrivals counted requeued
      rw [Runtime.serve, serveDelivered]
      dsimp only at batched ⊢
      rw [batched]
      dsimp only at waiting unchanged arrivals counted requeued ⊢
      by_cases short : (loader.upcoming identity
          (runtime.held identity).deliveredArrival).length < loader.width
      · rw [decide_eq_true short, if_pos rfl, if_pos short]
        by_cases skips : Skips loader
            (loader.upcoming identity (runtime.held identity).deliveredArrival)
        · have stays := ih waiting
          rw [unchanged] at stays
          rw [if_pos skips, if_pos (show _ ∨ _ from skips)]
          exact stays
        · rw [if_neg skips, if_neg (show ¬(_ ∨ _) from skips), ← arrivals]
          exact ⟨rfl, counted.rootSeed, counted.epoch, counted.distinct, counted.lanes⟩
      · rw [decide_eq_false short, if_neg Bool.false_ne_true, if_neg short, ← arrivals]
        have again := requeued short
        exact ⟨rfl, again.rootSeed, again.epoch, again.distinct, again.lanes⟩

/-! ### Interrupted runs -/

variable {first second : Runtime Object loader.laneCount}

/-- Level runtimes hand over the same batch and stay level. -/
theorem next_spec (contract : StateContract loader.source)
    (soundFirst : Sound loader first first.lanes) (soundSecond : Sound loader second second.lanes)
    (level : Level first second) :
    (first.next loader).1 = (second.next loader).1 ∧
      Sound loader (first.next loader).2 (first.next loader).2.lanes ∧
      Sound loader (second.next loader).2 (second.next loader).2.lanes ∧
      Level (first.next loader).2 (second.next loader).2 := by
  obtain ⟨servesFirst, keptFirst⟩ := serve_spec contract first.lanes soundFirst
  obtain ⟨servesSecond, keptSecond⟩ := serve_spec contract second.lanes soundSecond
  have arrivals : (fun identity => (first.held identity).deliveredArrival) =
      fun identity => (second.held identity).deliveredArrival := funext level.delivered
  rw [arrivals, level.lanes] at servesFirst
  have same := servesFirst.trans servesSecond.symm
  rw [← level.lanes] at same keptSecond
  refine ⟨?_, keptFirst, ?_, ?_⟩
  · have heads := congrArg Prod.fst same
    rw [Runtime.next, Runtime.next, ← level.lanes]
    exact heads
  · rw [Runtime.next, ← level.lanes]
    exact keptSecond
  · rw [Runtime.next, Runtime.next, ← level.lanes]
    exact ⟨congrArg (fun served => served.2.1) same,
      congrFun (congrArg (fun served => served.2.2) same)⟩

namespace IterableLoader

/-- What a run handed out, the ends reported included. -/
def handedBatches {laneCount : Nat} (trace : List (Label laneCount × Outcome Value)) :
    List (Option (Handed Value)) :=
  trace.filterMap fun entry =>
    match entry.2 with
    | .handed batch => some batch
    | .rebuilt => none

/-- Only active lanes are recovered, and a lane rebuilt without a snapshot is drawn again from its
first value: the loader kept a pickled source, or the dataset object is untouched. -/
def Rewound (loader : IterableLoader Object Value Stream)
    (runtime : Runtime Object loader.laneCount) : Label loader.laneCount → Prop
  | .next => True
  | .recover identity =>
      identity ∈ runtime.lanes ∧
        Rewinds loader (Runtime.laneCheckpoint (runtime.held identity)).snapshot
          runtime.dataset
  | .resume untouched =>
      ∀ identity, Rewinds loader
        (Runtime.laneCheckpoint (runtime.held identity)).snapshot
        (if untouched then loader.dataset else runtime.dataset)

end IterableLoader

/-- A loader without a checkpoint starts sound. -/
theorem start_spec (contract : StateContract loader.source) :
    ∃ runtime, loader.start = .ok runtime ∧ Sound loader runtime runtime.lanes := by
  obtain ⟨runtime, built, sound, _⟩ := @buildLanes_spec _ _ _ loader contract none loader.dataset
    nofun fun _ => .inr (.inr rfl)
  exact ⟨runtime, built, sound⟩

/-- A rebuilt runtime stands where the one it replaces stood. -/
theorem rebuilt_spec (contract : StateContract loader.source)
    (sound : Sound loader runtime runtime.lanes) {label : Label loader.laneCount}
    (rebuilds : label ≠ .next) (rewound : loader.Rewound runtime label) :
    ∃ after, loader.machine.step runtime label = some (.rebuilt, after) ∧
      Sound loader after after.lanes ∧ Level after runtime := by
  cases label with
  | next => exact absurd rfl rebuilds
  | recover identity =>
      obtain ⟨after, recovered, isSound, level⟩ :=
        recoverLane_spec contract sound rewound.1 rewound.2
      refine ⟨after, ?_, isSound, level⟩
      simp only [IterableLoader.machine, recovered]
  | resume untouched =>
      obtain ⟨after, resumed, isSound, level⟩ := resume_spec contract sound rewound
      refine ⟨after, ?_, isSound, level⟩
      simp only [IterableLoader.machine, resumed]

/-- Level runtimes answer alike along every run. -/
theorem run_level (contract : StateContract loader.source) (labels : List (Label loader.laneCount))
    (soundFirst : Sound loader first first.lanes) (soundSecond : Sound loader second second.lanes)
    (level : Level first second) (rewound : loader.machine.Along loader.Rewound first labels) :
    ∃ trace final plain plainFinal,
      loader.machine.run first labels = some (trace, final) ∧
      loader.machine.run second (labels.filter Label.pulls) = some (plain, plainFinal) ∧
      IterableLoader.handedBatches trace = IterableLoader.handedBatches plain ∧
      Sound loader final final.lanes ∧ Level final plainFinal := by
  induction labels generalizing first second with
  | nil => exact ⟨[], first, [], second, rfl, rfl, rfl, soundFirst, level⟩
  | cons label labels ih =>
      by_cases pulls : label = .next
      · subst pulls
        obtain ⟨same, keptFirst, keptSecond, stays⟩ :=
          next_spec contract soundFirst soundSecond level
        obtain ⟨trace, final, plain, plainFinal, ran, ranPlain, handed, sound, ends⟩ :=
          ih keptFirst keptSecond stays (rewound.2 _ _ rfl)
        refine ⟨_, final, (.next, .handed (second.next loader).1) :: plain, plainFinal,
          loader.machine.run_cons_eq_some.mpr ⟨_, _, trace, rfl, ran, rfl⟩, ?_, ?_, sound, ends⟩
        · rw [List.filter_cons_of_pos rfl]
          exact loader.machine.run_cons_eq_some.mpr ⟨_, _, plain, rfl, ranPlain, rfl⟩
        · change (first.next loader).1 :: IterableLoader.handedBatches trace =
            (second.next loader).1 :: IterableLoader.handedBatches plain
          rw [same, handed]
      · obtain ⟨after, step, isSound, stays⟩ := rebuilt_spec contract soundFirst pulls rewound.1
        obtain ⟨trace, final, plain, plainFinal, ran, ranPlain, handed, sound, ends⟩ :=
          ih isSound soundSecond
            ⟨stays.lanes.trans level.lanes, fun identity =>
              (stays.delivered identity).trans (level.delivered identity)⟩
            (rewound.2 _ _ step)
        refine ⟨_, final, plain, plainFinal,
          loader.machine.run_cons_eq_some.mpr ⟨_, _, trace, step, ran, rfl⟩, ?_, handed, sound, ends⟩
        have skipped : ¬label.pulls := by
          cases label with
          | next => exact absurd rfl pulls
          | recover identity | resume untouched => exact Bool.false_ne_true
        rw [List.filter_cons_of_neg skipped]
        exact ranPlain

/-- Whatever rebuilding and recovering happens between its batches, a run whose rebuilt lanes all
have a snapshot or an unspent source hands out what the uninterrupted run hands out. -/
theorem resumed_suffix (loader : IterableLoader Object Value Stream)
    (contract : StateContract loader.source) (labels : List (Label loader.laneCount)) :
    ∃ begun, loader.start = .ok begun ∧
      (loader.machine.Along loader.Rewound begun labels →
        ∃ trace final plain plainFinal,
          loader.machine.run begun labels = some (trace, final) ∧
          loader.machine.run begun (labels.filter Label.pulls) = some (plain, plainFinal) ∧
          IterableLoader.handedBatches trace = IterableLoader.handedBatches plain) := by
  obtain ⟨begun, starts, sound⟩ := start_spec contract
  refine ⟨begun, starts, fun rewound => ?_⟩
  obtain ⟨trace, final, plain, plainFinal, ran, ranPlain, handed, _⟩ :=
    run_level contract labels sound sound ⟨rfl, fun _ => rfl⟩ rewound
  exact ⟨trace, final, plain, plainFinal, ran, ranPlain, handed⟩

/-! ### A source drawn on -/

/-- A source that counts to three and keeps its position in itself. -/
def counter : Source Nat Nat Unit where
  next _ position := if position < 3 then (some position, position + 1) else (none, position)
  iter := id
  stateful := true
  stateDict position := List.replicate position 0
  loadStateDict payload _ := payload.length
  shard _ position := (position, none)
  workerInit _ := id

theorem counter_contract : StateContract counter :=
  ⟨rfl, fun used _ inputs => by
    change (drain _ inputs (List.replicate used (0 : UInt8)).length).1 = _
    rw [List.length_replicate]⟩

/-- One lane of batches of one value, without snapshots. -/
def counterLoader (iterablePayload : Option Nat) : IterableLoader Nat Nat Unit where
  source := counter
  dataset := 0
  iterablePayload
  laneCount := 1
  batchSize := some 1
  dropLast := false
  cadence := none
  bufferFactor := 2
  snapshotBytes := 4194304
  rootSeed := 0
  epoch := 0
  stream _ _ _ _ := ()
  single _ := rfl

theorem resumed_suffix_counter :
    ∃ begun, (counterLoader (some 0)).start = .ok begun ∧
      ∃ trace final plain plainFinal,
        (counterLoader (some 0)).machine.run begun [.next, .resume false, .next] =
          some (trace, final) ∧
        (counterLoader (some 0)).machine.run begun
          ([.next, .resume false, .next].filter Label.pulls) = some (plain, plainFinal) ∧
        IterableLoader.handedBatches trace = IterableLoader.handedBatches plain := by
  obtain ⟨begun, starts, runs⟩ :=
    resumed_suffix (counterLoader (some 0)) counter_contract [.next, .resume false, .next]
  exact ⟨begun, starts, runs ⟨trivial, fun _ _ _ => ⟨fun _ => .inl rfl, fun _ _ _ =>
    ⟨trivial, fun _ _ _ => trivial⟩⟩⟩⟩

/-- Where the loader could not pickle its source, the recovered lane skips the value after the one
delivered: its replay draws from the dataset object that lane has already drawn on. -/
theorem recovered_lane_skips :
    StateContract counter ∧
    ((counterLoader none).start.toOption.bind fun begun =>
        (counterLoader none).machine.run begun [.next, .recover (0 : Fin 1), .next]).map
      (fun ran => IterableLoader.handedBatches ran.1) =
        some [some (.batch [0]), some (.batch [2])] ∧
    ((counterLoader none).start.toOption.bind fun begun =>
        (counterLoader none).machine.run begun [.next, .next]).map
      (fun ran => IterableLoader.handedBatches ran.1) =
        some [some (.batch [0]), some (.batch [1])] :=
  ⟨counter_contract, by decide, by decide⟩

end Hyperloader.Iterable
