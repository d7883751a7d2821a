/-
Module: Hyperloader.State.MapState
Purpose: Map-style coordinate state, state/map.py with the fingerprint of fingerprint/model.py:
  what `load_state_dict` accepts and installs, what `state_dict` captures, and when a
  chain of restores and captures keeps the coordinate.
Trusted boundary: json.dumps and hashlib.sha256 are parameters.
Main exports:
  ContractFingerprint, MapCoordinateState, captureMapState, restoreMapState, chain,
  chain_coordinate_iff
-/
import Hyperloader.Distributed.Elastic
import Hyperloader.Foundations.Fallible
import Hyperloader.Process.Epochs
import Hyperloader.State.Delivery

namespace Hyperloader.State

open Foundations Distributed Process

/-! ### Checkpoint payloads -/

/-- A Python object as far as a checkpoint payload is read. -/
inductive Object (Other : Type) where
  | none
  | bool (value : Bool)
  | integer (value : Int)
  | bytes (value : List UInt8)
  | text (value : String)
  | list (items : List (Object Other))
  | dict (entries : List (String × Object Other))
  | other (value : Other)

/-- What the library functions a fingerprint uses do: `==`, `int`, `json.dumps` with
sorted keys, compact or as it renders by default, and SHA-256 of a document. -/
structure Library (Other : Type) where
  equal : Object Other → Object Other → Bool
  toInteger : Object Other → Except Raised Int
  dumps : Object Other → Option String
  render : Object Other → String
  sha256 : String → String

namespace Object

variable {Other : Type}

/-- `payload.get(key)` -/
def get (entries : List (String × Object Other)) (key : String) : Object Other :=
  (entries.lookup key).getD .none

end Object

variable {Other : Type}

def MAX_U64 : Nat := 2 ^ 64 - 1

/-- `_integer` -/
def integer (payload : List (String × Object Other)) (key : String) (maximum : Option Nat) :
    Except Raised Nat :=
  match Object.get payload key with
  | .integer value =>
      if value < 0 then .error (.valueError s!"loader state {key} must be nonnegative")
      else if maximum.any fun limit => limit < value.toNat then
        .error (.valueError s!"loader state {key} exceeds its supported range")
      else .ok value.toNat
  | _ => .error (.typeError s!"loader state {key} must be an integer")

/-- `_byte_string` -/
def byteString (payload : List (String × Object Other)) (key : String) :
    Except Raised (List UInt8) :=
  match (payload.lookup key).getD (.bytes []) with
  | .bytes value => .ok value
  | _ => .error (.typeError s!"loader state {key} must be bytes")

/-! ### Fingerprints -/

/-- `FingerprintElement`, whose path is not empty. -/
structure FingerprintElement (Other : Type) where
  path : String
  value : Object Other
  named : path ≠ ""

variable (library : Library Other)

/-- `_canonical_bytes`, before they are encoded. -/
def canonicalBytes (elements : List (FingerprintElement Other)) : Option String :=
  library.dumps (.list (elements.map fun element =>
    .dict [("path", .text element.path), ("value", element.value)]))

/-- `ContractFingerprint`, checked as its constructor checks it. -/
structure ContractFingerprint where
  elements : List (FingerprintElement Other)
  unique : (elements.map (·.path)).Nodup
  document : String
  canonical : canonicalBytes library elements = some document

def EMPTY_PATH : String := "fingerprint element path must not be empty"

def REPEATED_PATH : String := "fingerprint element paths must be unique"

def NOT_CANONICAL : String := "fingerprint values must be canonical JSON values"

def NOT_LIST : String := "fingerprint elements must be a list"

def NOT_PATHS : String := "fingerprint elements must contain string paths"

def WRONG_DIGEST : String := "fingerprint digest does not match its elements"

/-- One entry of `elements`. -/
def readElement : Object Other → Except Raised (FingerprintElement Other)
  | .dict entries =>
      match Object.get entries "path" with
      | .text path =>
          if named : path ≠ "" then .ok ⟨path, Object.get entries "value", named⟩
          else .error (.valueError EMPTY_PATH)
      | _ => .error (.valueError NOT_PATHS)
  | _ => .error (.valueError NOT_PATHS)

namespace ContractFingerprint

variable {library}

def digest (fingerprint : ContractFingerprint library) : String :=
  library.sha256 fingerprint.document

def toDict (fingerprint : ContractFingerprint library) : Object Other :=
  .dict
    [("digest", .text fingerprint.digest),
      ("elements", .list (fingerprint.elements.map fun element =>
        .dict [("path", .text element.path), ("value", element.value)]))]

/-- The constructor. -/
def build (elements : List (FingerprintElement Other)) :
    Except Raised (ContractFingerprint library) :=
  if unique : (elements.map (·.path)).Nodup then
    match canonical : canonicalBytes library elements with
    | some document => .ok ⟨elements, unique, document, canonical⟩
    | none => .error (.typeError NOT_CANONICAL)
  else .error (.valueError REPEATED_PATH)

/-- `ContractFingerprint.from_dict` -/
def fromDict (payload : List (String × Object Other)) :
    Except Raised (ContractFingerprint library) :=
  match Object.get payload "elements" with
  | .list raw => do
      let elements ← raw.mapM readElement
      let fingerprint ← build elements
      if library.equal (Object.get payload "digest") (.text fingerprint.digest) then
        .ok fingerprint
      else .error (.valueError WRONG_DIGEST)
  | _ => .error (.valueError NOT_LIST)

/-- The value of an element; nothing where the path is missing. -/
def lookup (fingerprint : ContractFingerprint library) (path : String) :
    Option (Object Other) :=
  (fingerprint.elements.find? fun element => element.path == path).map (·.value)

/-- `_fingerprint_value` -/
def value (fingerprint : ContractFingerprint library) (path : String) :
    Except Raised (Object Other) :=
  match fingerprint.lookup path with
  | some value => .ok value
  | none => .error (.runtimeError s!"contract fingerprint is missing {path}")

end ContractFingerprint

/-- `_render` of a value or of `_MISSING`. -/
def render : Option (Object Other) → String
  | none => "<missing>"
  | some value => library.render value

/-- Whether both fingerprints have the same value, or neither has one. -/
def sameValue : Option (Object Other) → Option (Object Other) → Bool
  | some old, some new => library.equal old new
  | none, none => true
  | _, _ => false

/-- `require_fingerprint_match` -/
def requireFingerprintMatch (expected actual : ContractFingerprint library) :
    Except Raised Unit :=
  let added := (actual.elements.map (·.path)).filter fun path =>
    (expected.lookup path).isNone
  let changed := (expected.elements.map (·.path) ++ added).find? fun path =>
    !sameValue library (expected.lookup path) (actual.lookup path)
  match changed with
  | none => .ok ()
  | some path =>
      .error (.valueError ("fingerprint mismatch at " ++
        s!"{path}: expected {render library (expected.lookup path)}, " ++
        s!"found {render library (actual.lookup path)}"))

/-! ### Coordinates of a loader -/

structure MapCoordinateState where
  rootSeed : Nat
  epoch : Nat
  cursor : Nat
  globalBatch : Int
  samplerChecksum : Nat
  deliveredBitmap : List UInt8
  fingerprint : ContractFingerprint library
  batchShape : Object Other

namespace MapCoordinateState

variable {library}

def toDict (state : MapCoordinateState library) : Object Other :=
  .dict
    [("root_seed", .integer state.rootSeed), ("epoch", .integer state.epoch),
      ("cursor", .integer state.cursor), ("B_g", .integer state.globalBatch),
      ("sampler_checksum", .integer state.samplerChecksum),
      ("delivered_bitmap", .bytes state.deliveredBitmap),
      ("fingerprint", state.fingerprint.toDict), ("batch_shape", state.batchShape)]

def NOT_DICTIONARY : String := "loader state must be a dictionary"

def FINGERPRINT_NOT_DICTIONARY : String := "loader state fingerprint must be a dictionary"

/-- `MapCoordinateState.from_dict` -/
def fromDict : Object Other → Except Raised (MapCoordinateState library)
  | .dict payload =>
      match Object.get payload "fingerprint" with
      | .dict fingerprintPayload => do
          let rootSeed ← integer payload "root_seed" (some MAX_U64)
          let epoch ← integer payload "epoch" none
          let cursor ← integer payload "cursor" none
          let globalBatch ← integer payload "B_g" none
          let samplerChecksum ← integer payload "sampler_checksum" (some MAX_U64)
          let deliveredBitmap ← byteString payload "delivered_bitmap"
          let fingerprint ← ContractFingerprint.fromDict fingerprintPayload
          .ok
            { rootSeed := rootSeed
              epoch := epoch
              cursor := cursor
              globalBatch := globalBatch
              samplerChecksum := samplerChecksum
              deliveredBitmap := deliveredBitmap
              fingerprint := fingerprint
              batchShape := Object.get payload "batch_shape" }
      | _ => .error (.typeError FINGERPRINT_NOT_DICTIONARY)
  | _ => .error (.typeError NOT_DICTIONARY)

end MapCoordinateState

inductive Delivery where
  | inOrder
  | onCompletion
deriving DecidableEq

/-- The iterator a loader still refers to, with its checkpoint properties; only
some iterators have a bitmap. -/
structure ActiveIterator where
  complete : Bool
  coordinateEpoch : Nat
  deliveredBatches : Nat
  samplerChecksum : Nat
  deliveredBitmap : Option (List UInt8)

/-- The fields of a map-style loader its coordinate depends on.  A sampler runtime
carries its length, which an unsized sampler does not have. -/
structure MapLoader where
  placement : MapPlacement
  planLength : Nat
  batchSize : Option Nat
  dropLast : Bool
  sampler : Bool
  batchSampler : Bool
  delivery : Delivery
  fingerprint : ContractFingerprint library
  rootSeed : Nat
  epochState : EpochState
  activeIterator : Option ActiveIterator
  samplerRuntime : Option (Option Nat)
  resumeCursorBatches : Nat
  resumeSamplerChecksum : Nat
  resumeDeliveredBitmap : List UInt8

namespace MapLoader

variable {library}

/-- `loader.batch_size or 1` -/
def width (loader : MapLoader library) : Nat :=
  match loader.batchSize with
  | none | some 0 => 1
  | some (size + 1) => size + 1

/-- `delivery_length`; the length of an unsized sampler is `None`. -/
def deliveryLength (loader : MapLoader library) : Option Nat :=
  match loader.samplerRuntime with
  | some length => length
  | none =>
      if loader.placement.enabled then some loader.placement.length
      else
        match loader.dropLast, loader.batchSize with
        | true, some size => some (loader.planLength - loader.planLength % size)
        | _, _ => some loader.planLength

/-- `close`, as far as the coordinate goes. -/
def close (loader : MapLoader library) : MapLoader library :=
  { loader with activeIterator := none, samplerRuntime := none }

def hasSampler (loader : MapLoader library) : Bool := loader.sampler || loader.batchSampler

end MapLoader

variable {library}

/-- The epoch, cursor, checksum and bitmap of `capture_map_state`. -/
def MapLoader.capturedFields (loader : MapLoader library) : Nat × Nat × Nat × List UInt8 :=
  match loader.activeIterator with
  | none =>
      if loader.resumeCursorBatches ≠ 0 then
        (loader.epochState.current, loader.resumeCursorBatches,
          loader.resumeSamplerChecksum, loader.resumeDeliveredBitmap)
      else (loader.epochState.current, 0, 0, [])
  | some active =>
      if active.complete then (loader.epochState.current, 0, 0, [])
      else
        (active.coordinateEpoch, active.deliveredBatches,
          if loader.hasSampler then active.samplerChecksum else 0,
          active.deliveredBitmap.getD [])

/-- `capture_map_state` -/
def captureMapState (loader : MapLoader library) :
    Except Raised (MapCoordinateState library) := do
  let (epoch, cursor, checksum, bitmap) := loader.capturedFields
  let globalBatch ← (← loader.fingerprint.value "placement.B_g") |> library.toInteger
  let batchShape ← loader.fingerprint.value "batch_shape"
  .ok
    { rootSeed := loader.rootSeed
      epoch := epoch
      cursor := cursor
      globalBatch := globalBatch
      samplerChecksum := checksum
      deliveredBitmap := bitmap
      fingerprint := loader.fingerprint
      batchShape := batchShape }

def WRONG_GLOBAL_BATCH : String :=
  "loader state B_g does not match the current placement.B_g fingerprint"

def WRONG_BATCH_SHAPE : String :=
  "loader state batch_shape does not match the current fingerprint"

def NATIVE_CHECKSUM : String := "native sampler state requires sampler_checksum=0"

def IN_ORDER_BITMAP : String := "in-order loader state requires an empty delivered_bitmap"

def UNSIZED : String := "unsupported operand type(s) for +: 'NoneType' and 'int'"

/-- The checks of `restore_map_state` on a state that has the right types. -/
def validateMapState (loader : MapLoader library) (state : MapCoordinateState library) :
    Except Raised Unit := do
  (validateElasticRestore { loader.placement with batchSize := loader.width }
    loader.hasSampler state.globalBatch.toNat).mapError .valueError
  requireFingerprintMatch library state.fingerprint loader.fingerprint
  let currentBatch ← (← loader.fingerprint.value "placement.B_g") |> library.toInteger
  if state.globalBatch ≠ currentBatch then throw (.valueError WRONG_GLOBAL_BATCH)
  let currentShape ← loader.fingerprint.value "batch_shape"
  if !library.equal state.batchShape currentShape then throw (.valueError WRONG_BATCH_SHAPE)
  if !loader.hasSampler ∧ state.samplerChecksum ≠ 0 then throw (.valueError NATIVE_CHECKSUM)
  if loader.delivery = .inOrder ∧ state.deliveredBitmap ≠ [] then
    throw (.valueError IN_ORDER_BITMAP)
  if loader.delivery = .onCompletion ∧ state.deliveredBitmap ≠ [] then
    match loader.deliveryLength with
    | none => throw (.typeError UNSIZED)
    | some length =>
        let totalBatches := (length + loader.width - 1) / loader.width
        let _ ← decodeDeliveredBitmap state.cursor state.deliveredBitmap totalBatches

/-- The loader closed, and the coordinate installed for its next iterator. -/
def MapLoader.install (loader : MapLoader library) (state : MapCoordinateState library) :
    MapLoader library :=
  { loader.close with
    rootSeed := state.rootSeed
    epochState := loader.epochState.restore state.epoch
    resumeCursorBatches := state.cursor
    resumeSamplerChecksum := state.samplerChecksum
    resumeDeliveredBitmap := state.deliveredBitmap }

/-- `restore_map_state` -/
def restoreMapState (loader : MapLoader library) (payload : Object Other) :
    Except Raised (MapLoader library) := do
  let state ← MapCoordinateState.fromDict payload
  validateMapState loader state
  .ok (loader.install state)

/-- Restoring a payload in one loader after the other, each time from what the last
one captured. -/
def chain : List (MapLoader library) → Object Other → Except Raised (Object Other)
  | [], payload => .ok payload
  | loader :: loaders, payload => do
      let restored ← restoreMapState loader payload
      let captured ← captureMapState restored
      chain loaders captured.toDict

/-- The resume coordinate of a checkpoint: where to continue, and the batches
delivered ahead of there. -/
structure Coordinate where
  epoch : Nat
  cursor : Nat
  samplerChecksum : Nat
  ahead : Finset Nat
deriving DecidableEq

/-- The coordinate a payload holds. -/
def coordinate : Object Other → Except Raised Coordinate
  | .dict payload => do
      let epoch ← integer payload "epoch" none
      let cursor ← integer payload "cursor" none
      let samplerChecksum ← integer payload "sampler_checksum" (some MAX_U64)
      let deliveredBitmap ← byteString payload "delivered_bitmap"
      .ok ⟨epoch, cursor, samplerChecksum, Bitmap.members cursor deliveredBitmap⟩
  | _ => .error (.typeError MapCoordinateState.NOT_DICTIONARY)

/-- A capture keeps the coordinate: there is something to resume, or nothing in it but
the epoch. -/
def Coordinate.Kept (coordinate : Coordinate) : Prop :=
  coordinate.cursor ≠ 0 ∨ coordinate.samplerChecksum = 0 ∧ coordinate.ahead = ∅

/-! ### Reading a payload -/

variable {payload : List (String × Object Other)}

theorem integer_le {key : String} {limit value : Nat}
    (read : integer payload key (some limit) = .ok value) : value ≤ limit := by
  unfold integer at read
  split at read
  · rw [if_error_ok_iff, if_error_ok_iff] at read
    obtain ⟨-, within, same⟩ := read
    cases same
    simpa using within
  · cases read

/-- A natural number within its limit is read back. -/
theorem integer_of_get {key : String} {maximum : Option Nat} {value : Nat}
    (entry : Object.get payload key = .integer value) (within : ∀ limit ∈ maximum, value ≤ limit) :
    integer payload key maximum = .ok value := by
  rw [integer, entry]
  have inside : ¬ (maximum.any fun limit => limit < value) = true := by
    cases maximum with
    | none => simp
    | some limit => simpa using within limit rfl
  simp [inside]

namespace MapCoordinateState

variable {state : MapCoordinateState library}

def coordinate (state : MapCoordinateState library) : Coordinate :=
  ⟨state.epoch, state.cursor, state.samplerChecksum,
    Bitmap.members state.cursor state.deliveredBitmap⟩

theorem fromDict_ok {payload : Object Other} (read : fromDict payload = .ok state) :
    State.coordinate payload = .ok state.coordinate ∧ state.samplerChecksum ≤ MAX_U64 := by
  unfold fromDict at read
  split at read
  · split at read
    · simp only [bind_ok_iff] at read
      obtain ⟨rootSeed, -, epoch, epochRead, cursor, cursorRead, globalBatch, -, checksum,
        checksumRead, bitmap, bitmapRead, fingerprint, -, same⟩ := read
      cases same
      have bounded := integer_le checksumRead
      refine ⟨?_, bounded⟩
      simp only [State.coordinate, bind_ok_iff]
      exact ⟨epoch, epochRead, cursor, cursorRead, checksum, checksumRead, bitmap,
        bitmapRead, rfl⟩
    · cases read
  · cases read

/-- The cursor and the bitmap of a public representation are read back. -/
theorem fromDict_toDict {read : MapCoordinateState library}
    (accepted : fromDict state.toDict = .ok read) :
    read.cursor = state.cursor ∧ read.deliveredBitmap = state.deliveredBitmap := by
  unfold fromDict toDict at accepted
  simp only at accepted
  split at accepted
  · simp only [bind_ok_iff] at accepted
    obtain ⟨rootSeed, -, epoch, -, cursor, cursorRead, globalBatch, -, checksum, -, bitmap,
      bitmapRead, fingerprint, -, same⟩ := accepted
    cases same
    have own := cursorRead.symm.trans (integer_of_get rfl fun _ none => nomatch none)
    exact ⟨Except.ok.inj own, (Except.ok.inj bitmapRead).symm⟩
  · cases accepted

/-- The public representation of a state holds its coordinate. -/
theorem coordinate_toDict (small : state.samplerChecksum ≤ MAX_U64) :
    State.coordinate state.toDict = .ok state.coordinate := by
  have within : ∀ limit ∈ some MAX_U64, state.samplerChecksum ≤ limit := by
    intro limit same
    cases same
    exact small
  simp only [State.coordinate, toDict, bind_ok_iff]
  refine ⟨state.epoch, integer_of_get rfl (fun _ none => nomatch none),
    state.cursor, integer_of_get rfl (fun _ none => nomatch none),
    state.samplerChecksum, integer_of_get rfl within, state.deliveredBitmap, rfl, rfl⟩

end MapCoordinateState

/-! ### One restore and one capture -/

/-- What a capture right after the restore makes of a coordinate: at cursor 0 it
takes the loader for one with nothing to resume. -/
def Coordinate.recaptured (coordinate : Coordinate) : Coordinate :=
  if coordinate.cursor ≠ 0 then coordinate
  else ⟨coordinate.epoch, 0, 0, ∅⟩

theorem Coordinate.recaptured_of_start {coordinate : Coordinate}
    (start : coordinate.cursor = 0) : coordinate.recaptured = ⟨coordinate.epoch, 0, 0, ∅⟩ :=
  if_neg (not_not.mpr start)

theorem Coordinate.recaptured_of_past {coordinate : Coordinate}
    (past : coordinate.cursor ≠ 0) : coordinate.recaptured = coordinate :=
  if_pos past

theorem Coordinate.recaptured_recaptured (coordinate : Coordinate) :
    coordinate.recaptured.recaptured = coordinate.recaptured := by
  by_cases start : coordinate.cursor = 0
  · rw [recaptured_of_start start, recaptured_of_start rfl]
  · rw [recaptured_of_past start, recaptured_of_past start]

theorem Coordinate.recaptured_eq_iff (coordinate : Coordinate) :
    coordinate.recaptured = coordinate ↔ coordinate.Kept := by
  obtain ⟨epoch, cursor, samplerChecksum, ahead⟩ := coordinate
  by_cases start : cursor = 0
  · subst start
    simp [recaptured, Kept, eq_comm]
  · simp [recaptured, Kept, start]

variable {loader restored : MapLoader library}

theorem restoreMapState_ok {payload : Object Other}
    (accepted : restoreMapState loader payload = .ok restored) :
    ∃ state, MapCoordinateState.fromDict payload = .ok state ∧
      restored = loader.install state := by
  simp only [restoreMapState, bind_ok_iff] at accepted
  obtain ⟨state, read, _, _, same⟩ := accepted
  exact ⟨state, read, (Except.ok.inj same).symm⟩

variable {captured : MapCoordinateState library}

theorem captureMapState_ok {loader : MapLoader library}
    (taken : captureMapState loader = .ok captured) :
    (captured.epoch, captured.cursor, captured.samplerChecksum, captured.deliveredBitmap) =
      loader.capturedFields := by
  simp only [captureMapState, bind_ok_iff] at taken
  obtain ⟨_, _, _, _, _, _, same⟩ := taken
  cases same
  rfl

theorem capturedFields_install (loader : MapLoader library) (state : MapCoordinateState library) :
    (loader.install state).capturedFields =
      if state.cursor ≠ 0 then
        (state.epoch, state.cursor, state.samplerChecksum, state.deliveredBitmap)
      else (state.epoch, 0, 0, []) := rfl

theorem coordinate_of_capture {loader : MapLoader library}
    {state captured : MapCoordinateState library}
    (taken : captureMapState (loader.install state) = .ok captured) :
    captured.coordinate = state.coordinate.recaptured := by
  have fields := captureMapState_ok taken
  rw [capturedFields_install] at fields
  by_cases start : state.cursor = 0
  · rw [if_neg (not_not.mpr start)] at fields
    simp only [Prod.mk.injEq] at fields
    obtain ⟨epoch, cursor, checksum, bitmap⟩ := fields
    rw [MapCoordinateState.coordinate, epoch, cursor, checksum, bitmap,
      Bitmap.members_nil]
    have held : state.coordinate.cursor = 0 := start
    exact (Coordinate.recaptured_of_start held).symm
  · rw [if_pos start] at fields
    simp only [Prod.mk.injEq] at fields
    obtain ⟨epoch, cursor, checksum, bitmap⟩ := fields
    rw [MapCoordinateState.coordinate, epoch, cursor, checksum, bitmap]
    have held : state.coordinate.cursor ≠ 0 := start
    exact (Coordinate.recaptured_of_past held).symm

/-- An accepted payload holds a coordinate, and the payload captured next the
recaptured one. -/
theorem coordinate_of_roundTrip {payload : Object Other}
    (accepted : restoreMapState loader payload = .ok restored)
    (taken : captureMapState restored = .ok captured) :
    ∃ held, coordinate payload = .ok held ∧
      coordinate captured.toDict = .ok held.recaptured := by
  obtain ⟨state, read, rfl⟩ := restoreMapState_ok accepted
  obtain ⟨held, small⟩ := MapCoordinateState.fromDict_ok read
  have moved := coordinate_of_capture taken
  have stillSmall : captured.samplerChecksum ≤ MAX_U64 := by
    have checksum : captured.samplerChecksum = state.coordinate.recaptured.samplerChecksum :=
      congrArg Coordinate.samplerChecksum moved
    rw [checksum, Coordinate.recaptured]
    split
    · exact small
    · exact Nat.zero_le _
  exact ⟨state.coordinate, held, moved ▸ MapCoordinateState.coordinate_toDict stillSmall⟩

/-! ### Chains -/

theorem chain_cons {first : MapLoader library} {payload next : Object Other}
    (step : chain [first] payload = .ok next) (loaders : List (MapLoader library)) :
    chain (first :: loaders) payload = chain loaders next := by
  simp only [chain, bind_ok_iff] at step
  obtain ⟨restored, restoring, captured, capturing, same⟩ := step
  cases same
  rw [chain, restoring]
  change (captureMapState restored >>= fun captured => chain loaders captured.toDict) = _
  rw [capturing]
  rfl

/-- However many loaders a payload passes through, they make of it what the first does. -/
theorem coordinate_of_chain (first : MapLoader library) (loaders : List (MapLoader library))
    {payload result : Object Other} (accepted : chain (first :: loaders) payload = .ok result) :
    ∃ held, coordinate payload = .ok held ∧ coordinate result = .ok held.recaptured := by
  induction loaders generalizing first payload with
  | nil =>
      simp only [chain, bind_ok_iff] at accepted
      obtain ⟨restored, restoring, captured, capturing, same⟩ := accepted
      cases same
      exact coordinate_of_roundTrip restoring capturing
  | cons second loaders ih =>
      rw [chain] at accepted
      simp only [bind_ok_iff] at accepted
      obtain ⟨restored, restoring, captured, capturing, rest⟩ := accepted
      obtain ⟨held, read, next⟩ := coordinate_of_roundTrip restoring capturing
      obtain ⟨kept, readNext, last⟩ := ih second rest
      obtain rfl := Except.ok.inj (readNext.symm.trans next)
      rw [Coordinate.recaptured_recaptured] at last
      exact ⟨held, read, last⟩

/-- A chain of restores and captures with no delivery in between keeps the coordinate of
the payload it starts from exactly when the cursor is past the first batch, or there is
neither a checksum nor a batch delivered ahead. -/
theorem chain_coordinate_iff (first : MapLoader library) (loaders : List (MapLoader library))
    (payload result : Object Other) (accepted : chain (first :: loaders) payload = .ok result) :
    ∃ held, coordinate payload = .ok held ∧
      (coordinate result = .ok held ↔ held.Kept) := by
  obtain ⟨held, read, last⟩ := coordinate_of_chain first loaders accepted
  refine ⟨held, read, ?_⟩
  rw [last, ← held.recaptured_eq_iff]
  exact ⟨Except.ok.inj, congrArg Except.ok⟩

/-! ### A loader of six batches -/

mutual

/-- `==` of JSON values. -/
def sameJson : Object Empty → Object Empty → Bool
  | .none, .none => true
  | .bool one, .bool two => one == two
  | .integer one, .integer two => one == two
  | .text one, .text two => one == two
  | .list ones, .list twos => sameItems ones twos
  | .dict ones, .dict twos => sameEntries ones twos
  | _, _ => false

def sameItems : List (Object Empty) → List (Object Empty) → Bool
  | [], [] => true
  | one :: ones, two :: twos => sameJson one two && sameItems ones twos
  | _, _ => false

def sameEntries : List (String × Object Empty) → List (String × Object Empty) → Bool
  | [], [] => true
  | (key, one) :: ones, (other, two) :: twos =>
      key == other && sameJson one two && sameEntries ones twos
  | _, _ => false

end

def DOCUMENT : String :=
  "[\x7b\"path\":\"placement.B_g\",\"value\":2\x7d," ++
  "\x7b\"path\":\"delivery\",\"value\":\"on-completion\"\x7d," ++
  "\x7b\"path\":\"batch_shape\",\"value\":\x7b\"source\":\"probe-pending\"\x7d\x7d]"

/-- The library on the fingerprint of the loader below. -/
def pendingLibrary : Library Empty where
  equal := sameJson
  toInteger
    | .integer value => .ok value
    | _ => .error (.typeError "int() argument must be a number")
  dumps _ := some DOCUMENT
  render _ := ""
  sha256 _ := "114f051a3800334315db0517d5b5717e3994cf080a371dbc5be3b9083b3d0011"

def pendingFingerprint : ContractFingerprint pendingLibrary where
  elements :=
    [⟨"placement.B_g", .integer 2, nofun⟩,
      ⟨"delivery", .text "on-completion", nofun⟩,
      ⟨"batch_shape", .dict [("source", .text "probe-pending")], nofun⟩]
  unique := by decide
  document := DOCUMENT
  canonical := rfl

def twelveSamples : MapLoader pendingLibrary where
  placement := ⟨12, 2, 0, 1, false, false, false⟩
  planLength := 12
  batchSize := some 2
  dropLast := false
  sampler := false
  batchSampler := false
  delivery := .onCompletion
  fingerprint := pendingFingerprint
  rootSeed := 7
  epochState := EpochState.new
  activeIterator := none
  samplerRuntime := none
  resumeCursorBatches := 0
  resumeSamplerChecksum := 0
  resumeDeliveredBitmap := []

/-- A checkpoint of the loader above. -/
def checkpointAt (cursor : Nat) (bitmap : List UInt8) : Object Empty :=
  let state : MapCoordinateState pendingLibrary :=
    { rootSeed := 7
      epoch := 0
      cursor := cursor
      globalBatch := 2
      samplerChecksum := 0
      deliveredBitmap := bitmap
      fingerprint := pendingFingerprint
      batchShape := .dict [("source", .text "probe-pending")] }
  state.toDict

/-- A run that delivered its second batch first, captured and restored: the next capture
has forgotten the batch. -/
theorem batch_before_first_forgotten :
    ¬ ∀ (loader : MapLoader pendingLibrary) (payload result : Object Empty),
      chain [loader] payload = .ok result → coordinate result = coordinate payload := by
  intro always
  have accepted : chain [twelveSamples] (checkpointAt 0 [2]) = .ok (checkpointAt 0 []) := rfl
  have same := always twelveSamples (checkpointAt 0 [2]) (checkpointAt 0 []) accepted
  have kept : coordinate (checkpointAt 0 [2]) = .ok ⟨0, 0, 0, {1}⟩ := by decide +kernel
  have forgotten : coordinate (checkpointAt 0 []) = .ok ⟨0, 0, 0, ∅⟩ := by decide +kernel
  rw [kept, forgotten] at same
  exact absurd same (by decide)

theorem chain_coordinate_iff_three :
    ∃ held, coordinate (checkpointAt 1 [2]) = .ok held ∧
      (coordinate (checkpointAt 1 [2]) = .ok held ↔ held.Kept) := by
  have once : chain [twelveSamples] (checkpointAt 1 [2]) = .ok (checkpointAt 1 [2]) := rfl
  have twice : chain [twelveSamples, twelveSamples] (checkpointAt 1 [2]) =
      .ok (checkpointAt 1 [2]) := (chain_cons once _).trans once
  exact chain_coordinate_iff twelveSamples [twelveSamples, twelveSamples] (checkpointAt 1 [2])
    (checkpointAt 1 [2]) ((chain_cons once _).trans twice)

end Hyperloader.State
