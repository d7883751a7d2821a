/-
Module: Hyperloader.Iterable.State
Purpose: The public state of an iterable loader: the checkpoint format of iterable/state.py,
  what `state_dict` captures and `load_state_dict` installs over iterations, recoveries,
  restores and epoch overrides, and that every payload captured loads again as it is.
Trusted boundary: as for the lanes, and `==`, json.dumps and SHA-256 of the fingerprint.
Main exports:
  LaneState, IterableState, IterableState.fromDict, IterableState.fromDict_toDict, StateLoader,
  Session, StateLoader.machine, StateLoader.captured_loads
-/
import Hyperloader.Iterable.Resume
import Hyperloader.Process.Epochs
import Hyperloader.State.Payload

namespace Hyperloader.Iterable

open Foundations State
open Hyperloader.Process (EpochState)

/-! ### The checkpoint format -/

section Format

variable {Other : Type} {library : Library Other}

def OWNER : String := "iterable loader state"

/-- `_integer` -/
def integer (payload : List (String × State.Object Other)) (key : String) (maximum : Option Nat) :
    Except Raised Nat := readInteger OWNER payload key maximum

/-- `_sequence_integer` -/
def sequenceInteger (name : String) : State.Object Other → Except Raised Nat
  | .integer value =>
      if value < 0 then
        .error (.valueError s!"iterable loader state {name} entries must be nonnegative")
      else .ok value.toNat
  | _ => .error (.typeError s!"iterable loader state {name} entries must be integers")

/-- `LaneCheckpoint` as `from_dict` accepts it. -/
structure LaneState where
  lane : Nat
  checkpoint : LaneCheckpoint
  plain : checkpoint.stateful = false → checkpoint.snapshot = none
  bounded : ∀ selected, checkpoint.snapshot = some selected →
    selected.arrival ≤ checkpoint.deliveredArrival

/-- `IterableCheckpoint` as `from_dict` accepts it. -/
structure IterableState (library : Library Other) where
  rootSeed : Nat
  epoch : Nat
  worldSize : Nat
  laneCount : Nat
  laneOrder : List Nat
  lanes : List LaneState
  fingerprint : ContractFingerprint library
  seeded : rootSeed ≤ MAX_U64
  covered : lanes ≠ [] → (lanes.map (·.lane)).mergeSort = List.range laneCount
  ordered : laneOrder.Nodup ∧ ∀ lane ∈ laneOrder, lane < laneCount

/-- `LaneCheckpoint.to_dict` -/
def LaneCheckpoint.toDict (lane : Nat) (checkpoint : LaneCheckpoint) : State.Object Other :=
  .dict
    [("lane", .integer lane), ("delivered_arrival", .integer checkpoint.deliveredArrival),
      ("stateful", .bool checkpoint.stateful),
      ("snapshot_arrival",
        checkpoint.snapshot.elim .none fun selected => .integer selected.arrival),
      ("snapshot", .ofBytes (checkpoint.snapshot.map (·.payload)))]

/-- `IterableCheckpoint.to_dict` -/
def writeState (rootSeed epoch worldSize laneCount : Nat) (laneOrder : List Nat)
    (lanes : List (Nat × LaneCheckpoint)) (fingerprint : ContractFingerprint library) :
    State.Object Other :=
  .dict
    [("kind", .text "iterable"), ("root_seed", .integer rootSeed), ("epoch", .integer epoch),
      ("world_size", .integer worldSize), ("lane_count", .integer laneCount),
      ("lane_order", .list (laneOrder.map fun lane : Nat => .integer lane)),
      ("lanes", .list (lanes.map fun lane => lane.2.toDict lane.1)),
      ("fingerprint", fingerprint.toDict)]

def LANE_NOT_DICTIONARY : String := "iterable lane state must be a dictionary"

def STATEFUL_NOT_BOOLEAN : String := "iterable lane stateful must be a boolean"

def SNAPSHOT_NOT_BYTES : String := "iterable lane snapshot must be bytes or None"

def SNAPSHOT_ALONE : String :=
  "iterable lane snapshot and snapshot_arrival must appear together"

def PLAIN_SNAPSHOT : String := "plain iterable lane cannot carry a source snapshot"

def SNAPSHOT_AHEAD : String := "iterable lane snapshot exceeds its delivered arrival"

namespace LaneState

/-- The snapshot of a lane and its arrival, which appear together. -/
def readSnapshot (payload : List (String × State.Object Other)) :
    Except Raised (Option SourceSnapshot) := do
  let snapshot ←
    match Object.get payload "snapshot" with
    | .none => .ok none
    | .bytes value => .ok (some value)
    | _ => .error (.typeError SNAPSHOT_NOT_BYTES)
  let arrival ←
    match Object.get payload "snapshot_arrival" with
    | .none => .ok none
    | _ => some <$> integer payload "snapshot_arrival" none
  match snapshot, arrival with
  | none, none => .ok none
  | some value, some arrival => .ok (some ⟨arrival, value⟩)
  | _, _ => .error (.valueError SNAPSHOT_ALONE)

/-- `LaneCheckpoint.from_dict` -/
def fromDict : State.Object Other → Except Raised LaneState
  | .dict payload =>
      match Object.get payload "stateful" with
      | .bool stateful => do
          let snapshot ← readSnapshot payload
          if plain : stateful = false → snapshot = none then
            let delivered ← integer payload "delivered_arrival" none
            if bounded : ∀ selected, snapshot = some selected → selected.arrival ≤ delivered then
              let lane ← integer payload "lane" none
              .ok ⟨lane, ⟨delivered, stateful, snapshot⟩, plain, bounded⟩
            else .error (.valueError SNAPSHOT_AHEAD)
          else .error (.valueError PLAIN_SNAPSHOT)
      | _ => .error (.typeError STATEFUL_NOT_BOOLEAN)
  | _ => .error (.typeError LANE_NOT_DICTIONARY)

end LaneState

def NOT_DICTIONARY : String := "loader state must be a dictionary"

def WRONG_KIND : String := "iterable loader state requires kind='iterable'"

def FINGERPRINT_NOT_DICTIONARY : String := "loader state fingerprint must be a dictionary"

def LANES_NOT_LIST : String := "iterable loader state lanes must be a list"

def LANES_UNCOVERED : String :=
  "iterable loader state lanes must contain every logical lane once"

def ORDER_NOT_LIST : String := "iterable loader state lane_order must be a list"

def ORDER_REFUSED : String :=
  "iterable loader state lane_order must contain unique valid lanes"

namespace IterableState

def toDict (state : IterableState library) : State.Object Other :=
  writeState state.rootSeed state.epoch state.worldSize state.laneCount state.laneOrder
    (state.lanes.map fun lane => (lane.lane, lane.checkpoint)) state.fingerprint

/-- The lanes of a payload. -/
def readLanes (payload : List (String × State.Object Other)) (laneCount : Nat) :
    Except Raised { lanes : List LaneState //
      lanes ≠ [] → (lanes.map (·.lane)).mergeSort = List.range laneCount } :=
  match Object.get payload "lanes" with
  | .list raw => do
      let lanes ← raw.mapM LaneState.fromDict
      if covered : lanes.isEmpty = false →
          (lanes.map (·.lane)).mergeSort = List.range laneCount then
        .ok ⟨lanes, fun filled => covered (List.isEmpty_eq_false_iff.mpr filled)⟩
      else .error (.valueError LANES_UNCOVERED)
  | _ => .error (.typeError LANES_NOT_LIST)

/-- The order the lanes of a payload are served in. -/
def readOrder (payload : List (String × State.Object Other)) (laneCount : Nat) :
    Except Raised { order : List Nat // order.Nodup ∧ ∀ lane ∈ order, lane < laneCount } :=
  match Object.get payload "lane_order" with
  | .list raw => do
      let order ← raw.mapM (sequenceInteger "lane_order")
      if ordered : order.Nodup ∧ ∀ lane ∈ order, lane < laneCount then .ok ⟨order, ordered⟩
      else .error (.valueError ORDER_REFUSED)
  | _ => .error (.typeError ORDER_NOT_LIST)

/-- `_integer` with the maximum of a seed. -/
def readSeed (payload : List (String × State.Object Other)) :
    Except Raised { rootSeed : Nat // rootSeed ≤ MAX_U64 } :=
  match read : integer payload "root_seed" (some MAX_U64) with
  | .ok rootSeed => .ok ⟨rootSeed, readInteger_le read⟩
  | .error raised => .error raised

/-- `IterableCheckpoint.from_dict` -/
def fromDict : State.Object Other → Except Raised (IterableState library)
  | .dict payload =>
      if library.equal (Object.get payload "kind") (.text "iterable") then
        match Object.get payload "fingerprint" with
        | .dict fingerprintPayload => do
            let laneCount ← integer payload "lane_count" none
            let lanes ← readLanes payload laneCount
            let order ← readOrder payload laneCount
            let rootSeed ← readSeed payload
            let epoch ← integer payload "epoch" none
            let worldSize ← integer payload "world_size" none
            let fingerprint ← ContractFingerprint.fromDict fingerprintPayload
            .ok
              { rootSeed := rootSeed.val
                epoch := epoch
                worldSize := worldSize
                laneCount := laneCount
                laneOrder := order.val
                lanes := lanes.val
                fingerprint := fingerprint
                seeded := rootSeed.property
                covered := lanes.property
                ordered := order.property }
        | _ => .error (.typeError FINGERPRINT_NOT_DICTIONARY)
      else .error (.valueError WRONG_KIND)
  | _ => .error (.typeError NOT_DICTIONARY)

end IterableState

/-! ### Round trip -/

theorem integer_of_get {payload : List (String × State.Object Other)} {key : String} {value : Nat}
    (entry : Object.get payload key = .integer value) : integer payload key none = .ok value :=
  readInteger_of_get entry fun _ impossible => by cases impossible

theorem sequenceInteger_natCast (name : String) (value : Nat) :
    sequenceInteger name (.integer value : State.Object Other) = .ok value := by
  rw [sequenceInteger, if_neg (by omega), Int.toNat_natCast]

/-- The entries `LaneCheckpoint.to_dict` writes. -/
def LaneCheckpoint.entries (lane : Nat) (checkpoint : LaneCheckpoint) :
    List (String × State.Object Other) :=
  [("lane", .integer lane), ("delivered_arrival", .integer checkpoint.deliveredArrival),
    ("stateful", .bool checkpoint.stateful),
    ("snapshot_arrival",
      checkpoint.snapshot.elim .none fun selected => .integer selected.arrival),
    ("snapshot", .ofBytes (checkpoint.snapshot.map (·.payload)))]

theorem LaneState.readSnapshot_entries (lane : Nat) (checkpoint : LaneCheckpoint) :
    readSnapshot (checkpoint.entries lane : List (String × State.Object Other)) =
      .ok checkpoint.snapshot := by
  obtain ⟨delivered, stateful, snapshot⟩ := checkpoint
  cases snapshot with
  | none => rfl
  | some selected =>
      have arrival : integer ((LaneCheckpoint.mk delivered stateful (some selected)).entries lane :
          List (String × State.Object Other)) "snapshot_arrival" none = .ok selected.arrival :=
        integer_of_get rfl
      unfold readSnapshot
      refine bind_ok_iff.mpr ⟨some selected.payload, rfl, bind_ok_iff.mpr
        ⟨some selected.arrival, ?_, rfl⟩⟩
      exact congrArg (Functor.map some) arrival

/-- A lane's state reads back from its dictionary. -/
theorem LaneState.fromDict_toDict (state : LaneState) :
    fromDict (state.checkpoint.toDict state.lane : State.Object Other) = .ok state := by
  obtain ⟨lane, checkpoint, plain, bounded⟩ := state
  show (readSnapshot (checkpoint.entries lane : List (String × State.Object Other)) >>= _) = _
  refine bind_ok_iff.mpr ⟨checkpoint.snapshot, readSnapshot_entries lane checkpoint, ?_⟩
  rw [dif_pos plain]
  refine bind_ok_iff.mpr ⟨checkpoint.deliveredArrival, integer_of_get rfl, ?_⟩
  rw [dif_pos bounded]
  exact bind_ok_iff.mpr ⟨lane, integer_of_get rfl, rfl⟩

namespace IterableState

variable (state : IterableState library)

def entries : List (String × State.Object Other) :=
  [("kind", .text "iterable"), ("root_seed", .integer state.rootSeed),
    ("epoch", .integer state.epoch), ("world_size", .integer state.worldSize),
    ("lane_count", .integer state.laneCount),
    ("lane_order", .list (state.laneOrder.map fun lane : Nat => .integer lane)),
    ("lanes", .list ((state.lanes.map fun lane => (lane.lane, lane.checkpoint)).map
      fun lane => lane.2.toDict lane.1)),
    ("fingerprint", state.fingerprint.toDict)]

theorem readLanes_entries :
    readLanes state.entries state.laneCount = .ok ⟨state.lanes, state.covered⟩ := by
  have read : ((state.lanes.map fun lane => (lane.lane, lane.checkpoint)).map fun lane =>
      (lane.2.toDict lane.1 : State.Object Other)).mapM LaneState.fromDict =
        .ok state.lanes := by
    rw [List.map_map]
    have written := @mapM_map_ok _ _ _ _
      ((fun lane : Nat × LaneCheckpoint => (lane.2.toDict lane.1 : State.Object Other)) ∘
        fun lane : LaneState => (lane.lane, lane.checkpoint))
      LaneState.fromDict id state.lanes fun lane _ => lane.fromDict_toDict
    rwa [List.map_id] at written
  refine bind_ok_iff.mpr ⟨state.lanes, read, ?_⟩
  rw [dif_pos fun filled => state.covered (List.isEmpty_eq_false_iff.mp filled)]

theorem readOrder_entries :
    readOrder state.entries state.laneCount = .ok ⟨state.laneOrder, state.ordered⟩ := by
  have read : (state.laneOrder.map fun lane : Nat => (State.Object.integer lane :
      State.Object Other)).mapM (sequenceInteger "lane_order") = .ok state.laneOrder := by
    have written := @mapM_map_ok _ _ _ _ (fun lane : Nat => (State.Object.integer lane :
      State.Object Other)) (sequenceInteger "lane_order") id state.laneOrder
        fun lane _ => sequenceInteger_natCast _ lane
    rwa [List.map_id] at written
  refine bind_ok_iff.mpr ⟨state.laneOrder, read, ?_⟩
  rw [dif_pos state.ordered]

theorem readSeed_entries : readSeed state.entries = .ok ⟨state.rootSeed, state.seeded⟩ := by
  have read : integer state.entries "root_seed" (some MAX_U64) = .ok state.rootSeed :=
    readInteger_of_get rfl fun limit same => by
      cases same
      exact state.seeded
  unfold readSeed
  split
  · rename_i other found
    cases read.symm.trans found
    rfl
  · rename_i raised found
    cases read.symm.trans found

/-- Every accepted checkpoint reads back from what it writes. -/
theorem fromDict_toDict (texts : ∀ text : String, library.equal (.text text) (.text text) = true) :
    fromDict state.toDict = .ok state := by
  show (if library.equal (.text "iterable") (.text "iterable") then _ else _) = _
  rw [if_pos (texts _)]
  refine bind_ok_iff.mpr ⟨state.laneCount, integer_of_get rfl, ?_⟩
  refine bind_ok_iff.mpr ⟨_, state.readLanes_entries, ?_⟩
  refine bind_ok_iff.mpr ⟨_, state.readOrder_entries, ?_⟩
  refine bind_ok_iff.mpr ⟨_, state.readSeed_entries, ?_⟩
  refine bind_ok_iff.mpr ⟨state.epoch, integer_of_get rfl, ?_⟩
  refine bind_ok_iff.mpr ⟨state.worldSize, integer_of_get rfl, ?_⟩
  exact bind_ok_iff.mpr
    ⟨state.fingerprint, ContractFingerprint.fromDict_entries texts state.fingerprint, rfl⟩

end IterableState

end Format

/-! ### Loaders with a public state -/

/-- `begin_iterable_iteration` -/
def beginIterableIteration (epochs : EpochState) : EpochState :=
  { epochs with
    activeEpoch := some epochs.current
    activeDelivered := false
    pendingOverride := none }

/-- What does not change in a loader over an iterable dataset. -/
structure StateLoader (Object Value Stream : Type) {Other : Type} (library : Library Other) where
  source : IterableLoader Object Value Stream
  worldSize : Nat
  fingerprint : ContractFingerprint library
  seeded : source.rootSeed ≤ MAX_U64

/-- The iterator a loader refers to. -/
structure ActiveLanes (Object : Type) (laneCount : Nat) where
  runtime : Runtime Object laneCount
  complete : Bool

/-- What changes: the seed and the epochs, the dataset object, the checkpoint to resume and the
active iterator. -/
structure Session (Object : Type) (laneCount : Nat) {Other : Type} (library : Library Other) where
  rootSeed : Nat
  epochState : EpochState
  dataset : Object
  resume : Option (IterableState library)
  active : Option (ActiveLanes Object laneCount)

variable {Object Value Stream Other : Type} {library : Library Other}

/-- The loader closed, and the checkpoint installed for its next iterator. -/
def Session.install {laneCount : Nat} (session : Session Object laneCount library)
    (state : IterableState library) : Session Object laneCount library :=
  { session with
    rootSeed := state.rootSeed
    epochState := session.epochState.restore state.epoch
    resume := some state
    active := none }

namespace StateLoader

variable (loader : StateLoader Object Value Stream library)

def start : Session Object loader.source.laneCount library :=
  ⟨loader.source.rootSeed, EpochState.new, loader.source.dataset, none, none⟩

/-- `build_lanes` from a loaded checkpoint, whose lanes may be missing altogether. -/
def buildLanes (rootSeed epoch : Nat) (resume : Option (IterableState library))
    (dataset : Object) : Except Raised (Runtime Object loader.source.laneCount) := do
  let resume := resume.filter fun state => state.lanes.all (·.checkpoint.stateful)
  let (held, dataset) ←
    loader.source.buildAll rootSeed epoch
      (fun identity => resume.bind fun state =>
        (state.lanes.find? (·.lane == identity.val)).map (·.checkpoint))
      loader.source.laneCount (Nat.le_refl _) dataset
  .ok
    { rootSeed
      epoch
      held
      lanes := resume.elim (List.finRange _) fun state =>
        state.laneOrder.filterMap fun lane =>
          if inside : lane < loader.source.laneCount then some ⟨lane, inside⟩ else none
      dataset }

def WORLD_CHANGED : String := "iterable resume requires the same world_size"

def LANES_CHANGED : String := "iterable resume requires the same logical lane count"

/-- The lanes of a live iterator, as they are written. -/
def writtenLanes (runtime : Runtime Object loader.source.laneCount) : List (Nat × LaneCheckpoint) :=
  (List.finRange loader.source.laneCount).map fun identity =>
    (identity.val, Runtime.laneCheckpoint (runtime.held identity))

/-- `capture_iterable_state` -/
def capture (session : Session Object loader.source.laneCount library) : State.Object Other :=
  let pristine :=
    writeState session.rootSeed session.epochState.current loader.worldSize
      loader.source.laneCount (List.range loader.source.laneCount) [] loader.fingerprint
  match session.active, session.resume with
  | none, some state => state.toDict
  | none, none => pristine
  | some active, _ =>
      if active.complete then pristine
      else
        writeState session.rootSeed active.runtime.epoch loader.worldSize
          loader.source.laneCount (active.runtime.lanes.map (·.val))
          (loader.writtenLanes active.runtime) loader.fingerprint

/-- `restore_iterable_state` -/
def load (session : Session Object loader.source.laneCount library)
    (payload : State.Object Other) :
    Except Raised (Session Object loader.source.laneCount library) := do
  let state ← IterableState.fromDict payload
  requireFingerprintMatch library state.fingerprint loader.fingerprint
  if state.worldSize ≠ loader.worldSize then throw (.valueError WORLD_CHANGED)
  if state.laneCount ≠ loader.source.laneCount then throw (.valueError LANES_CHANGED)
  .ok (session.install state)

/-- What a program does with a loader; `iterate` says what a build that raises leaves of the
dataset object. -/
inductive Command (Object Other : Type) (laneCount : Nat) where
  | iterate (broken : Object)
  | next
  | recover (identity : Fin laneCount)
  | capture
  | load (payload : State.Object Other)
  | setEpoch (epoch : Nat)
  | drop

inductive Answer (Value Other : Type) where
  | done
  | handed (batch : Handed Value)
  | stopped
  | captured (payload : State.Object Other)
  | raised (failure : Raised)

def INACTIVE : Raised := .runtimeError "iterable lane iterator is no longer active"

/-- `__iter__` of the loader. -/
def iterate (session : Session Object loader.source.laneCount library) (broken : Object) :
    Answer Value Other × Session Object loader.source.laneCount library :=
  let epochState := beginIterableIteration session.epochState
  match loader.buildLanes session.rootSeed epochState.current session.resume session.dataset with
  | .ok runtime =>
      (.done,
        { session with
          epochState
          dataset := runtime.dataset
          resume := none
          active := some ⟨runtime, false⟩ })
  | .error failure =>
      -- an incomplete iterator was closed before the build
      (.raised failure,
        { session with
          epochState
          dataset := broken
          active := session.active.filter (·.complete) })

/-- `__next__` of the active iterator. -/
def next (session : Session Object loader.source.laneCount library) :
    Answer Value Other × Session Object loader.source.laneCount library :=
  match session.active with
  | none => (.raised INACTIVE, session)
  | some active =>
      match active.runtime.next loader.source with
      | (some batch, runtime) =>
          (.handed batch,
            { session with
              epochState := session.epochState.markDelivered runtime.epoch
              dataset := runtime.dataset
              active := some { active with runtime } })
      | (none, runtime) =>
          (.stopped,
            { session with
              epochState :=
                if active.complete then session.epochState
                else session.epochState.complete runtime.epoch
              dataset := runtime.dataset
              active := some ⟨runtime, true⟩ })

/-- The loader and its iterators; a recovery that raises is not a step. -/
def machine : Machine (Session Object loader.source.laneCount library)
    (Command Object Other loader.source.laneCount) (Answer Value Other) where
  step
    | session, .iterate broken => some (loader.iterate session broken)
    | session, .next => some (loader.next session)
    | session, .recover identity =>
        match session.active with
        | none => none
        | some active =>
            match active.runtime.recoverLane loader.source identity with
            | .ok runtime =>
                some (.done,
                  { session with
                    dataset := runtime.dataset, active := some { active with runtime } })
            | .error _ => none
    | session, .capture => some (.captured (loader.capture session), session)
    | session, .load payload =>
        match loader.load session payload with
        | .ok loaded => some (.done, loaded)
        | .error failure => some (.raised failure, session)
    | session, .setEpoch epoch =>
        some (.done, { session with epochState := session.epochState.setEpoch epoch })
    | session, .drop => some (.done, { session with active := none })

end StateLoader

/-! ### Rings without a state pair -/

/-- The ring of a source without a state pair holds nothing. -/
def SnapshotRing.Plain (ring : SnapshotRing) : Prop :=
  ring.stateful = false → ring.snapshotless = true ∧ ring.entries = []

namespace SnapshotRing

variable {ring : SnapshotRing}

theorem plain_seed (plain : ring.Plain) (snapshot : SourceSnapshot) :
    (ring.seed snapshot).Plain := by
  intro unstated
  obtain ⟨off, empty⟩ := plain ((stateful_seed ring snapshot).symm.trans unstated)
  rw [seed, if_pos off]
  exact ⟨off, empty⟩

theorem plain_discardBefore (plain : ring.Plain) (deliveredArrival : Nat) :
    (ring.discardBefore deliveredArrival).Plain := by
  intro unstated
  obtain ⟨off, empty⟩ := plain ((stateful_discardBefore ring deliveredArrival).symm.trans unstated)
  have same : ring.discardBefore deliveredArrival = { ring with entries := [] } := by
    rw [discardBefore, select, empty]
    rfl
  rw [same]
  exact ⟨off, rfl⟩

/-- Nothing is selected from it. -/
theorem select_of_plain (plain : ring.Plain) (unstated : ring.stateful = false)
    (deliveredArrival : Nat) : ring.select deliveredArrival = none := by
  rw [select, (plain unstated).2]
  rfl

end SnapshotRing

section Kept

variable {source : IterableLoader Object Value Stream}

theorem plain_newRing : source.newRing.Plain := by
  intro unstated
  have unstated : source.source.stateful = false := unstated
  refine ⟨?_, rfl⟩
  rw [IterableLoader.newRing, SnapshotRing.new, unstated, Bool.not_false, Bool.or_true]

theorem plain_captureSnapshot {ring : SnapshotRing} (plain : ring.Plain) (lane : Lane Object)
    (force : Bool) : (source.captureSnapshot ring lane force).Plain := by
  intro unstated
  obtain ⟨off, empty⟩ := plain ((stateful_captureSnapshot ring lane force).symm.trans unstated)
  have idle : ring.due lane.producedBatches force = false := by
    rw [SnapshotRing.due, off, Bool.not_true, Bool.false_and]
  rw [IterableLoader.captureSnapshot, idle]
  exact ⟨off, empty⟩

variable {identity : Fin source.laneCount}

/-- Whatever a lane is built from, its ring is plain when its source is. -/
theorem plain_buildLane {rootSeed epoch : Nat} {checkpoint : Option LaneCheckpoint}
    {dataset after : Object} {held : Held Object}
    (built : source.buildLane rootSeed epoch identity checkpoint dataset = .ok (held, after)) :
    held.ring.Plain := by
  rw [IterableLoader.buildLane] at built
  dsimp only at built
  split at built
  · cases built
  · obtain ⟨lane, -, same⟩ := bind_ok_iff.mp built
    cases same
    apply plain_captureSnapshot
    cases checkpoint.bind (·.snapshot) with
    | none => exact plain_newRing
    | some snapshot => exact SnapshotRing.plain_seed plain_newRing snapshot

theorem plain_buildAll {rootSeed epoch : Nat}
    {checkpoints : Fin source.laneCount → Option LaneCheckpoint} {count : Nat}
    {bound : count ≤ source.laneCount} {dataset after : Object} {held : Fin count → Held Object}
    (built : source.buildAll rootSeed epoch checkpoints count bound dataset = .ok (held, after)) :
    ∀ identity, (held identity).ring.Plain := by
  induction count generalizing after with
  | zero => exact fun identity => identity.elim0
  | succ count ih =>
      obtain ⟨⟨earlier, middle⟩, first, rest⟩ := bind_ok_iff.mp built
      obtain ⟨⟨last, final⟩, second, same⟩ := bind_ok_iff.mp rest
      cases same
      intro identity
      dsimp only
      split
      · exact ih first _
      · exact plain_buildLane second

/-- What every runtime of a loader is: no lane is queued twice, and plain rings are empty. -/
structure Orderly (runtime : Runtime Object source.laneCount)
    (queue : List (Fin source.laneCount)) : Prop where
  rings : ∀ identity, (runtime.held identity).ring.Plain
  distinct : queue.Nodup

variable {runtime : Runtime Object source.laneCount} {queue : List (Fin source.laneCount)}

theorem plain_update (rings : ∀ identity, (runtime.held identity).ring.Plain)
    (identity : Fin source.laneCount) {held : Held Object} (plain : held.ring.Plain) :
    ∀ other, (Function.update runtime.held identity held other).ring.Plain :=
  (Function.forall_update_iff runtime.held fun _ held => held.ring.Plain).mpr
    ⟨plain, fun other _ => rings other⟩

theorem plain_nextBatch (rings : ∀ identity, (runtime.held identity).ring.Plain)
    (identity : Fin source.laneCount) :
    (∀ other, ((runtime.nextBatch source identity).2.2.held other).ring.Plain) ∧
      (runtime.nextBatch source identity).2.2.rootSeed = runtime.rootSeed ∧
      (runtime.nextBatch source identity).2.2.epoch = runtime.epoch := by
  rw [Runtime.nextBatch]
  dsimp only
  split
  · exact ⟨plain_update rings identity (rings identity), rfl, rfl⟩
  · exact ⟨plain_update rings identity (plain_captureSnapshot (rings identity) _ _), rfl, rfl⟩

/-- Serving keeps a runtime orderly. -/
theorem orderly_serve (queue : List (Fin source.laneCount))
    {runtime : Runtime Object source.laneCount} (orderly : Orderly runtime queue) :
    Orderly (Runtime.serve source queue runtime).2 (Runtime.serve source queue runtime).2.lanes ∧
      (Runtime.serve source queue runtime).2.rootSeed = runtime.rootSeed ∧
      (Runtime.serve source queue runtime).2.epoch = runtime.epoch := by
  induction queue generalizing runtime with
  | nil => exact ⟨⟨orderly.rings, List.nodup_nil⟩, rfl, rfl⟩
  | cons identity rest ih =>
      obtain ⟨fresh, distinct⟩ := List.nodup_cons.mp orderly.distinct
      obtain ⟨rings, rootSeed, epoch⟩ := plain_nextBatch orderly.rings identity
      have delivered : ∀ other,
          (((runtime.nextBatch source identity).2.2.markDelivered source identity).held other)
            |>.ring.Plain :=
        plain_update rings identity
          (SnapshotRing.plain_discardBefore (SnapshotRing.plain_discardBefore (rings identity) _) _)
      rw [Runtime.serve]
      dsimp only
      split
      · split
        · obtain ⟨stays, sameSeed, sameEpoch⟩ := ih ⟨rings, distinct⟩
          exact ⟨stays, sameSeed.trans rootSeed, sameEpoch.trans epoch⟩
        · exact ⟨⟨delivered, distinct⟩, rootSeed, epoch⟩
      · refine ⟨⟨delivered, ?_⟩, rootSeed, epoch⟩
        exact List.nodup_append.mpr ⟨distinct, List.nodup_singleton _, fun one member two other =>
          by
            rw [List.mem_singleton.mp other]
            exact fun same => fresh (same ▸ member)⟩

theorem orderly_recoverLane {after : Runtime Object source.laneCount}
    (orderly : Orderly runtime runtime.lanes)
    (recovered : runtime.recoverLane source identity = .ok after) :
    Orderly after after.lanes ∧ after.rootSeed = runtime.rootSeed ∧
      after.epoch = runtime.epoch := by
  unfold Runtime.recoverLane at recovered
  split at recovered
  · cases recovered
  · dsimp only at recovered
    split at recovered
    · obtain ⟨⟨held, dataset⟩, built, same⟩ := bind_ok_iff.mp recovered
      cases same
      exact ⟨⟨plain_update orderly.rings identity (plain_buildLane built), orderly.distinct⟩,
        rfl, rfl⟩
    · obtain ⟨⟨held, dataset⟩, built, same⟩ := bind_ok_iff.mp recovered
      cases same
      exact ⟨⟨plain_buildAll built, List.nodup_finRange _⟩, rfl, rfl⟩

end Kept

/-! ### What every run of a loader keeps -/

namespace StateLoader

variable {loader : StateLoader Object Value Stream library}
  {session after : Session Object loader.source.laneCount library}

variable (loader) in
/-- A checkpoint the loader accepts. -/
structure Fits (state : IterableState library) : Prop where
  matching : requireFingerprintMatch library state.fingerprint loader.fingerprint = .ok ()
  worldSize : state.worldSize = loader.worldSize
  laneCount : state.laneCount = loader.source.laneCount

/-- A payload is loaded when it reads back and fits the loader. -/
theorem load_ok_iff {payload : State.Object Other} :
    loader.load session payload = .ok after ↔
      ∃ state, IterableState.fromDict payload = .ok state ∧ loader.Fits state ∧
        after = session.install state := by
  unfold load
  simp only [bind_ok_iff]
  constructor
  · rintro ⟨state, read, _, matching, rest⟩
    split at rest
    · cases rest
    · rename_i world
      split at rest
      · cases rest
      · rename_i lanes
        cases rest
        exact ⟨state, read, ⟨matching, not_not.mp world, not_not.mp lanes⟩, rfl⟩
  · rintro ⟨state, read, fits, rfl⟩
    refine ⟨state, read, (), fits.matching, ?_⟩
    rw [if_neg (not_not.mpr fits.worldSize), if_neg (not_not.mpr fits.laneCount)]

variable (loader) in
/-- What a session holds fits its loader and has its root seed. -/
structure Sound (session : Session Object loader.source.laneCount library) : Prop where
  seeded : session.rootSeed ≤ MAX_U64
  resume : ∀ state, session.resume = some state →
    loader.Fits state ∧ state.rootSeed = session.rootSeed
  active : ∀ active, session.active = some active →
    Orderly active.runtime active.runtime.lanes ∧ active.runtime.rootSeed = session.rootSeed

theorem sound_start : loader.Sound loader.start where
  seeded := loader.seeded
  resume _ impossible := by cases impossible
  active _ impossible := by cases impossible

variable {runtime : Runtime Object loader.source.laneCount}

theorem orderly_buildLanes {rootSeed epoch : Nat} {resume : Option (IterableState library)}
    {dataset : Object} (built : loader.buildLanes rootSeed epoch resume dataset = .ok runtime) :
    Orderly runtime runtime.lanes ∧ runtime.rootSeed = rootSeed ∧ runtime.epoch = epoch := by
  obtain ⟨⟨held, dataset⟩, all, same⟩ := bind_ok_iff.mp built
  cases same
  refine ⟨⟨plain_buildAll all, ?_⟩, rfl, rfl⟩
  cases resume.filter fun state => state.lanes.all (·.checkpoint.stateful) with
  | none => exact List.nodup_finRange _
  | some state =>
      refine List.Nodup.filterMap (fun one two identity first second => ?_) state.ordered.1
      have value : ∀ lane : Nat, (identity ∈ if inside : lane < loader.source.laneCount then
          some (⟨lane, inside⟩ : Fin loader.source.laneCount) else none) → lane = identity.val := by
        intro lane found
        split at found
        · exact congrArg Fin.val (Option.mem_some_iff.mp found)
        · cases found
      exact (value one first).trans (value two second).symm

theorem sound_iterate (sound : loader.Sound session) (broken : Object) :
    loader.Sound (loader.iterate session broken).2 := by
  unfold iterate
  dsimp only
  split
  · rename_i runtime built
    obtain ⟨orderly, rootSeed, -⟩ := orderly_buildLanes built
    exact ⟨sound.seeded, fun _ impossible => (by cases impossible), fun active same => by
      cases same
      exact ⟨orderly, rootSeed⟩⟩
  · exact ⟨sound.seeded, sound.resume, fun active same =>
      sound.active active (Option.filter_eq_some_iff.mp same).1⟩

theorem sound_next (sound : loader.Sound session) : loader.Sound (loader.next session).2 := by
  unfold next
  cases here : session.active with
  | none => exact sound
  | some active =>
      obtain ⟨orderly, seed⟩ := sound.active active here
      obtain ⟨stays, rootSeed, -⟩ := orderly_serve active.runtime.lanes orderly
      have moved := rootSeed.trans seed
      dsimp only
      rw [Runtime.next]
      generalize Runtime.serve loader.source active.runtime.lanes active.runtime = served
        at stays moved ⊢
      obtain ⟨batch, runtime⟩ := served
      cases batch with
      | none | some batch =>
          exact ⟨sound.seeded, sound.resume, fun other same => by
            cases same
            exact ⟨stays, moved⟩⟩

/-- Every command keeps a session sound. -/
theorem sound_step {command : Command Object Other loader.source.laneCount}
    {answer : Answer Value Other} (sound : loader.Sound session)
    (stepEq : loader.machine.step session command = some (answer, after)) : loader.Sound after := by
  cases command with
  | iterate broken =>
      have same : (loader.iterate session broken).2 = after :=
        congrArg Prod.snd (Option.some.inj stepEq)
      exact same ▸ sound_iterate sound broken
  | next =>
      have same : (loader.next session).2 = after := congrArg Prod.snd (Option.some.inj stepEq)
      exact same ▸ sound_next sound
  | recover identity =>
      dsimp only [machine] at stepEq
      split at stepEq
      · cases stepEq
      · rename_i active here
        obtain ⟨orderly, seed⟩ := sound.active active here
        split at stepEq <;> cases stepEq
        rename_i runtime recovered
        obtain ⟨stays, rootSeed, -⟩ := orderly_recoverLane orderly recovered
        exact ⟨sound.seeded, sound.resume, fun other same => by
          cases same
          exact ⟨stays, rootSeed.trans seed⟩⟩
  | capture =>
      cases stepEq
      exact sound
  | load payload =>
      dsimp only [machine] at stepEq
      split at stepEq <;> cases stepEq
      · rename_i loaded
        obtain ⟨state, -, fits, rfl⟩ := load_ok_iff.mp loaded
        exact ⟨state.seeded, fun other same => (by cases same; exact ⟨fits, rfl⟩),
          fun _ impossible => by cases impossible⟩
      · exact sound
  | setEpoch epoch =>
      cases stepEq
      exact ⟨sound.seeded, sound.resume, sound.active⟩
  | drop =>
      cases stepEq
      exact ⟨sound.seeded, sound.resume, fun _ impossible => by cases impossible⟩

/-! ### What a capture holds -/

/-- The lanes of a live iterator, as `from_dict` accepts them. -/
def laneStates {runtime : Runtime Object loader.source.laneCount}
    (rings : ∀ identity, (runtime.held identity).ring.Plain) : List LaneState :=
  (List.finRange loader.source.laneCount).map fun identity =>
    { lane := identity.val
      checkpoint := Runtime.laneCheckpoint (runtime.held identity)
      plain := fun unstated => SnapshotRing.select_of_plain (rings identity) unstated _
      bounded := fun _ found => (SnapshotRing.select_eq_some found).2 }

theorem lanes_laneStates (rings : ∀ identity, (runtime.held identity).ring.Plain) :
    (laneStates rings).map (·.lane) = List.range loader.source.laneCount := by
  rw [laneStates, List.map_map]
  exact List.map_coe_finRange_eq_range

/-- The state a live iterator captures. -/
def liveState (sound : loader.Sound session)
    {active : ActiveLanes Object loader.source.laneCount} (here : session.active = some active) :
    IterableState library where
  rootSeed := session.rootSeed
  epoch := active.runtime.epoch
  worldSize := loader.worldSize
  laneCount := loader.source.laneCount
  laneOrder := active.runtime.lanes.map (·.val)
  lanes := laneStates (sound.active active here).1.rings
  fingerprint := loader.fingerprint
  seeded := sound.seeded
  covered _ := by
    rw [lanes_laneStates]
    exact List.mergeSort_of_pairwise
      (List.pairwise_le_range.imp fun less => decide_eq_true less)
  ordered := ⟨(sound.active active here).1.distinct.map Fin.val_injective, fun lane member => by
    obtain ⟨identity, -, rfl⟩ := List.mem_map.mp member
    exact identity.isLt⟩

/-- The state a loader without an unfinished iterator captures. -/
def pristineState (sound : loader.Sound session) : IterableState library where
  rootSeed := session.rootSeed
  epoch := session.epochState.current
  worldSize := loader.worldSize
  laneCount := loader.source.laneCount
  laneOrder := List.range loader.source.laneCount
  lanes := []
  fingerprint := loader.fingerprint
  seeded := sound.seeded
  covered filled := absurd rfl filled
  ordered := ⟨List.nodup_range, fun _ => List.mem_range.mp⟩

variable {active : ActiveLanes Object loader.source.laneCount}

/-- A live iterator is captured as its lanes stand. -/
theorem capture_live (sound : loader.Sound session) (here : session.active = some active)
    (unfinished : active.complete = false) :
    loader.capture session = (liveState sound here).toDict := by
  have written : loader.writtenLanes active.runtime =
      (laneStates (sound.active active here).1.rings).map fun lane =>
        (lane.lane, lane.checkpoint) := by
    rw [writtenLanes, laneStates, List.map_map]
    rfl
  rw [capture, here]
  dsimp only
  rw [unfinished, written]
  rfl

theorem fits_own (equal : ∀ element ∈ loader.fingerprint.elements,
      library.equal element.value element.value = true) {state : IterableState library}
    (fingerprint : state.fingerprint = loader.fingerprint)
    (worldSize : state.worldSize = loader.worldSize)
    (laneCount : state.laneCount = loader.source.laneCount) : loader.Fits state where
  matching := by
    rw [fingerprint]
    exact requireFingerprintMatch_self equal
  worldSize := worldSize
  laneCount := laneCount

/-- Whatever a loader captures is the public form of a checkpoint that fits it. -/
theorem capture_state (equal : ∀ element ∈ loader.fingerprint.elements,
      library.equal element.value element.value = true) (sound : loader.Sound session) :
    ∃ state, loader.capture session = IterableState.toDict state ∧ loader.Fits state ∧
      state.rootSeed = session.rootSeed ∧
      ∀ active (here : session.active = some active), active.complete = false →
        state = liveState sound here := by
  obtain here | ⟨active, here⟩ := Option.eq_none_or_eq_some session.active
  · have idle : ∀ {active}, session.active ≠ some active := fun same => by
      cases here.symm.trans same
    cases loaded : session.resume with
    | none =>
        refine ⟨pristineState sound, ?_, fits_own equal rfl rfl rfl, rfl,
          fun _ same => absurd same idle⟩
        rw [capture, here, loaded]
        rfl
    | some state =>
        obtain ⟨fits, rootSeed⟩ := sound.resume state loaded
        refine ⟨state, ?_, fits, rootSeed, fun _ same => absurd same idle⟩
        rw [capture, here, loaded]
  · cases unfinished : active.complete with
    | false =>
        refine ⟨liveState sound here, capture_live sound here unfinished,
          fits_own equal rfl rfl rfl, rfl, fun other same _ => ?_⟩
        cases here.symm.trans same
        rfl
    | true =>
        refine ⟨pristineState sound, ?_, fits_own equal rfl rfl rfl, rfl,
          fun other same going => ?_⟩
        · rw [capture, here]
          dsimp only
          rw [unfinished]
          rfl
        · cases here.symm.trans same
          cases unfinished.symm.trans going

/-- The lane states of a live iterator give every lane its checkpoint. -/
theorem find_laneStates (rings : ∀ identity, (runtime.held identity).ring.Plain)
    (identity : Fin loader.source.laneCount) :
    ((laneStates rings).find? (·.lane == identity.val)).map (·.checkpoint) =
      some (Runtime.laneCheckpoint (runtime.held identity)) := by
  rw [laneStates, List.find?_map, Option.map_map]
  have found : (List.finRange loader.source.laneCount).find?
      (fun other => other.val == identity.val) = some identity := by
    cases search : (List.finRange loader.source.laneCount).find?
        fun other => other.val == identity.val with
    | none =>
        have missed := List.find?_eq_none.mp search identity (List.mem_finRange identity)
        exact absurd (beq_self_eq_true _) missed
    | some other =>
        have same := List.find?_some search
        exact congrArg some (Fin.ext (beq_iff_eq.mp same))
  exact congrArg (Option.map _) found

/-- A captured lane passes the checks it is loaded with. -/
theorem check_laneCheckpoint {held : Held Object} (plain : held.ring.Plain) :
    (Runtime.laneCheckpoint held).check = .ok () := by
  have first : ¬((Runtime.laneCheckpoint held).stateful = false ∧
      (Runtime.laneCheckpoint held).snapshot.isSome) := by
    rintro ⟨unstated, some⟩
    have nothing : (Runtime.laneCheckpoint held).snapshot = none :=
      SnapshotRing.select_of_plain plain unstated _
    rw [nothing] at some
    cases some
  have second : ¬((Runtime.laneCheckpoint held).snapshot.any fun snapshot =>
      (Runtime.laneCheckpoint held).deliveredArrival < snapshot.arrival) := by
    cases found : (Runtime.laneCheckpoint held).snapshot with
    | none => exact Bool.false_ne_true
    | some snapshot =>
        rw [Option.any_some, decide_eq_true_eq]
        exact Nat.not_lt_of_le (SnapshotRing.select_eq_some found).2
  rw [LaneCheckpoint.check, if_neg first, if_neg second]

/-- Loading what a live iterator captured rebuilds its lanes as its checkpoint would. -/
theorem buildLanes_live (sound : loader.Sound session) (here : session.active = some active)
    (dataset : Object) :
    loader.buildLanes session.rootSeed active.runtime.epoch (some (liveState sound here)) dataset =
      active.runtime.resume loader.source dataset := by
  obtain ⟨orderly, rootSeed⟩ := sound.active active here
  have checked : active.runtime.captureCheckpoint.check = .ok () := by
    have lane : ∀ identity, (active.runtime.captureCheckpoint.lanes identity).check = .ok () :=
      fun identity => check_laneCheckpoint (orderly.rings identity)
    rw [IterableCheckpoint.check, forM_ok fun identity _ => lane identity]
    exact if_pos orderly.distinct
  have stateful : ((liveState sound here).lanes.all (·.checkpoint.stateful)) =
      (List.finRange loader.source.laneCount).all fun identity =>
        (active.runtime.captureCheckpoint.lanes identity).stateful := by
    show (laneStates orderly.rings).all (·.checkpoint.stateful) = _
    rw [laneStates, List.all_map]
    rfl
  have order : (liveState sound here).laneOrder.filterMap (fun lane =>
      if inside : lane < loader.source.laneCount then
        some (⟨lane, inside⟩ : Fin loader.source.laneCount) else none) = active.runtime.lanes := by
    show (active.runtime.lanes.map (·.val)).filterMap _ = _
    rw [List.filterMap_map]
    have whole : ∀ lanes : List (Fin loader.source.laneCount), lanes.filterMap
        ((fun lane : Nat => if inside : lane < loader.source.laneCount then
          some (⟨lane, inside⟩ : Fin loader.source.laneCount) else none) ∘ (·.val)) = lanes := by
      intro lanes
      induction lanes with
      | nil => rfl
      | cons lane lanes ih =>
          rw [List.filterMap_cons, ih, Function.comp_apply, dif_pos lane.isLt]
    exact whole _
  rw [Runtime.resume, checked]
  show _ = loader.source.buildLanes active.runtime.rootSeed active.runtime.epoch
    (some active.runtime.captureCheckpoint) dataset
  rw [rootSeed, buildLanes, IterableLoader.buildLanes]
  dsimp only
  rw [Option.filter_some, Option.filter_some, stateful]
  split
  · have lanes : (fun identity : Fin loader.source.laneCount =>
        (some (liveState sound here)).bind fun state : IterableState library =>
          (state.lanes.find? (·.lane == identity.val)).map (·.checkpoint)) = fun identity =>
            (some active.runtime.captureCheckpoint).map (·.lanes identity) := by
      funext identity
      exact find_laneStates orderly.rings identity
    rw [lanes, Option.elim_some, order]
    rfl
  · rfl

/-- Whatever a program does with a loader, what it captures loads in every loader of the same
kind, in whatever state that one is: it continues under the seed captured, captures the same
payload again, and rebuilds the lanes of an unfinished iterator as the iterator's own checkpoint
does. -/
theorem captured_loads (texts : ∀ text : String, library.equal (.text text) (.text text) = true)
    (equal : ∀ element ∈ loader.fingerprint.elements,
      library.equal element.value element.value = true)
    {commands : List (Command Object Other loader.source.laneCount)}
    {trace : List (Command Object Other loader.source.laneCount × Answer Value Other)}
    (ran : loader.machine.run loader.start commands = some (trace, session))
    (other : Session Object loader.source.laneCount library) :
    ∃ loaded, loader.load other (loader.capture session) = .ok loaded ∧
      loader.capture loaded = loader.capture session ∧
      loaded.rootSeed = session.rootSeed ∧ loaded.dataset = other.dataset ∧
      ∀ active, session.active = some active → active.complete = false → ∀ dataset,
        loader.buildLanes loaded.rootSeed loaded.epochState.current loaded.resume dataset =
          active.runtime.resume loader.source dataset := by
  have keeps : ∀ before command answer after, loader.Sound before → True →
      loader.machine.step before command = some (answer, after) → loader.Sound after :=
    fun _ _ _ _ kept _ stepEq => sound_step kept stepEq
  have sound : loader.Sound session :=
    loader.machine.run_invariant keeps sound_start (loader.machine.along_true _ _) ran
  obtain ⟨state, written, fits, rootSeed, live⟩ := capture_state equal sound
  refine ⟨other.install state, load_ok_iff.mpr ⟨state, ?_, fits, rfl⟩, written.symm, rootSeed, rfl,
    fun active here unfinished dataset => ?_⟩
  · rw [written]
    exact state.fromDict_toDict texts
  · obtain rfl := live active here unfinished
    exact buildLanes_live sound here dataset

end StateLoader

/-- One lane that counts to three. -/
def countedLoader : StateLoader Nat Nat Unit pendingLibrary :=
  ⟨counterLoader (some 0), 1, pendingFingerprint, Nat.zero_le _⟩

/-- After its first batch the loader's checkpoint loads in a fresh one. -/
theorem captured_loads_counted : ∃ trace session,
    countedLoader.machine.run countedLoader.start [.iterate 0, .next] = some (trace, session) ∧
      ∃ loaded, countedLoader.load countedLoader.start (countedLoader.capture session) =
        .ok loaded ∧ countedLoader.capture loaded = countedLoader.capture session := by
  refine ⟨_, _, rfl, ?_⟩
  obtain ⟨loaded, accepted, same, -⟩ := @StateLoader.captured_loads _ _ _ _ _ countedLoader _
    (fun _ => decide_eq_true rfl) (by decide) [.iterate 0, .next] _ rfl countedLoader.start
  exact ⟨loaded, accepted, same⟩

end Hyperloader.Iterable
