/-
Module: Hyperloader.Process.Serialization
Purpose: The stateful result codec of python/hyperloader/process/serialization.py
  and when it round-trips over histories of storage lifetimes.
Trusted boundary: pickling and strided reads are parameters
Main exports:
  Tensor, Value, ResultEncoder, ResultDecoder, encode_spec, decode_spec
-/
import Hyperloader.Foundations.Interning
import Hyperloader.Foundations.Transition

namespace Hyperloader.Process

open Foundations

abbrev Bytes := List UInt8

/-- An untyped storage: the address of its implementation object, which only
the encoder reads, and the memory it names. -/
structure Storage (Data : Type) where
  cdata : Nat
  data : Data

/-- What a view says about its storage. -/
structure Coordinates where
  size : List Nat
  stride : List Nat
  offset : Nat
  requiresGrad : Bool

inductive DeviceType where
  | cpu
  | accelerator
deriving DecidableEq

inductive Layout where
  | strided
  | sparse
deriving DecidableEq

structure Tensor (Dtype Data : Type) where
  storage : Storage Data
  dtype : Dtype
  coordinates : Coordinates
  device : DeviceType
  layout : Layout
  isConj : Bool
  isNeg : Bool

/-- A successful worker value: a top-level tensor or any other object. -/
inductive Value (Dtype Data Object : Type) where
  | tensor (value : Tensor Dtype Data)
  | object (value : Object)

/-- One pickled shape and its reader, which gets back what was written. -/
structure Pickling (Shape : Type) where
  dumps : Shape → Bytes
  loads : Bytes → Option Shape
  loads_dumps : ∀ shape, loads (dumps shape) = some shape

/-- The libraries under the codec: the pickles of its three bodies, and the
elements torch shows of a memory through a dtype and coordinates, `none` where
it refuses the view. -/
structure Libraries (Dtype Data Object Elements : Type) where
  values : Pickling (Value Dtype Data Object)
  bases : Pickling (Nat × Tensor Dtype Data)
  views : Pickling (Nat × Coordinates)
  read : Dtype → Data → Coordinates → Option Elements

inductive DecodeError where
  | runtimeError (text : String)
  | unpickling
  | refusedView

def MAGIC : Bytes := [0x48, 0x4C, 0x52, 0x45, 0x53, 0x00]

def PICKLE_VALUE : UInt8 := 0

def TENSOR_BASE : UInt8 := 1

def TENSOR_VIEW : UInt8 := 2

variable {Dtype Data Object Elements : Type}

/-- `_shareable_tensor` -/
def shareableTensor (tensor : Tensor Dtype Data) : Bool :=
  tensor.device = .cpu && tensor.layout = .strided && !tensor.isConj && !tensor.isNeg

/-- `_envelope` -/
def envelope (kind : UInt8) (body : Bytes) : Bytes := MAGIC ++ [kind] ++ body

structure ResultEncoder where
  storageIds : Finmap fun _ : Nat => Nat

namespace ResultEncoder

def new : ResultEncoder := ⟨∅⟩

/-- Encode one successful worker value. -/
def encode (libraries : Libraries Dtype Data Object Elements)
    (encoder : ResultEncoder) : Value Dtype Data Object → Bytes × ResultEncoder
  | .tensor tensor =>
      if shareableTensor tensor then
        match encoder.storageIds.lookup tensor.storage.cdata with
        | none =>
            let storageId := encoder.storageIds.keys.card
            (envelope TENSOR_BASE (libraries.bases.dumps (storageId, tensor)),
              { storageIds :=
                  encoder.storageIds.insert tensor.storage.cdata storageId })
        | some storageId =>
            (envelope TENSOR_VIEW
              (libraries.views.dumps (storageId, tensor.coordinates)), encoder)
      else
        (envelope PICKLE_VALUE (libraries.values.dumps (.tensor tensor)), encoder)
  | .object object =>
      (envelope PICKLE_VALUE (libraries.values.dumps (.object object)), encoder)

/-- Encode one value without retaining its storage identity. -/
def encodeUncached (libraries : Libraries Dtype Data Object Elements)
    (value : Value Dtype Data Object) : Bytes :=
  envelope PICKLE_VALUE (libraries.values.dumps value)

end ResultEncoder

structure ResultDecoder (Dtype Data : Type) where
  tensorBases : Finmap fun _ : Nat × Nat => Tensor Dtype Data

namespace ResultDecoder

def new : ResultDecoder Dtype Data := ⟨∅⟩

/-- `base.new_empty(0)` set to the storage of `base`: the dtype is the base's. -/
def viewOf (base : Tensor Dtype Data) (coordinates : Coordinates) :
    Tensor Dtype Data :=
  { base with coordinates := coordinates }

/-- Decode one successful value from a named worker. -/
def decode (libraries : Libraries Dtype Data Object Elements)
    (decoder : ResultDecoder Dtype Data) (payload : Bytes) (worker : Nat) :
    Except DecodeError (Value Dtype Data Object) × ResultDecoder Dtype Data :=
  if ¬ MAGIC <+: payload ∨ payload.length = MAGIC.length then
    (.error (.runtimeError "Worker result envelope is invalid."), decoder)
  else
    let kind := (payload.drop MAGIC.length).headD 0
    let body := payload.drop (MAGIC.length + 1)
    if kind = PICKLE_VALUE then
      match libraries.values.loads body with
      | none => (.error .unpickling, decoder)
      | some value => (.ok value, decoder)
    else if kind = TENSOR_BASE then
      match libraries.bases.loads body with
      | none => (.error .unpickling, decoder)
      | some (storageId, value) =>
          (.ok (.tensor value),
            { tensorBases := decoder.tensorBases.insert (worker, storageId) value })
    else if kind ≠ TENSOR_VIEW then
      (.error (.runtimeError "Worker result envelope kind is invalid."), decoder)
    else
      match libraries.views.loads body with
      | none => (.error .unpickling, decoder)
      | some (storageId, coordinates) =>
          match decoder.tensorBases.lookup (worker, storageId) with
          | none =>
              (.error (.runtimeError "Worker tensor storage reference is unknown."),
                decoder)
          | some base =>
              match libraries.read base.dtype base.storage.data coordinates with
              | none => (.error .refusedView, decoder)
              | some _ => (.ok (.tensor (viewOf base coordinates)), decoder)

end ResultDecoder

section Codec

variable (libraries : Libraries Dtype Data Object Elements)

/-- What a value shows: the dtype, coordinates and elements of a tensor. -/
inductive Shown (Dtype Object Elements : Type) where
  | tensor (dtype : Dtype) (coordinates : Coordinates) (elements : Option Elements)
  | object (value : Object)

def Tensor.elements (tensor : Tensor Dtype Data) : Option Elements :=
  libraries.read tensor.dtype tensor.storage.data tensor.coordinates

def Value.shown : Value Dtype Data Object → Shown Dtype Object Elements
  | .tensor held => .tensor held.dtype held.coordinates (held.elements libraries)
  | .object held => .object held

/-- Decoding gave a value with the contents of `value`. -/
def Yields (outcome : Except DecodeError (Value Dtype Data Object))
    (value : Value Dtype Data Object) : Prop :=
  ∃ decoded, outcome = .ok decoded ∧ decoded.shown libraries = value.shown libraries

/-- A tensor the encoder shares by storage. -/
def Value.shared? : Value Dtype Data Object → Option (Tensor Dtype Data)
  | .tensor held => if shareableTensor held then some held else none
  | .object _ => none

/-- The tensors of a history that the encoder shares by storage, in order. -/
def sharedTensors (history : List (Value Dtype Data Object)) :
    List (Tensor Dtype Data) :=
  history.filterMap Value.shared?

def Tensor.cdata (tensor : Tensor Dtype Data) : Nat := tensor.storage.cdata

/-- The first tensor of a history shipped from an address. -/
def firstFrom (history : List (Value Dtype Data Object)) (cdata : Nat) :
    Option (Tensor Dtype Data) :=
  firstWith Tensor.cdata (sharedTensors history) cdata

/-- The number of an address in a history. -/
def storageRank (history : List (Value Dtype Data Object)) (cdata : Nat) : Nat :=
  rank ((sharedTensors history).map Tensor.cdata) cdata

/-! ### Payloads -/

section Envelopes

variable (decoder : ResultDecoder Dtype Data) (worker : Nat)

theorem envelope_kind (kind : UInt8) (body : Bytes) :
    ((envelope kind body).drop MAGIC.length).headD 0 = kind := rfl

theorem envelope_body (kind : UInt8) (body : Bytes) :
    (envelope kind body).drop (MAGIC.length + 1) = body := rfl

theorem envelope_valid (kind : UInt8) (body : Bytes) :
    ¬ (¬ MAGIC <+: envelope kind body ∨
      (envelope kind body).length = MAGIC.length) := by
  simp [envelope]

theorem decode_value (value : Value Dtype Data Object) :
    decoder.decode libraries
        (envelope PICKLE_VALUE (libraries.values.dumps value)) worker =
      (.ok value, decoder) := by
  simp only [ResultDecoder.decode, if_neg (envelope_valid _ _), envelope_kind,
    envelope_body, if_true, libraries.values.loads_dumps]

theorem decode_base (storageId : Nat) (tensor : Tensor Dtype Data) :
    decoder.decode libraries
        (envelope TENSOR_BASE (libraries.bases.dumps (storageId, tensor))) worker =
      (.ok (.tensor tensor),
        { tensorBases := decoder.tensorBases.insert (worker, storageId) tensor }) := by
  have other : TENSOR_BASE ≠ PICKLE_VALUE := by decide
  simp only [ResultDecoder.decode, if_neg (envelope_valid _ _), envelope_kind,
    envelope_body, if_true, if_neg other, libraries.bases.loads_dumps]

/-- A view decodes against the base stored under its reference. -/
def resolveView (base : Option (Tensor Dtype Data)) (coordinates : Coordinates) :
    Except DecodeError (Value Dtype Data Object) :=
  match base with
  | none => .error (.runtimeError "Worker tensor storage reference is unknown.")
  | some base =>
      match libraries.read base.dtype base.storage.data coordinates with
      | none => .error .refusedView
      | some _ => .ok (.tensor (ResultDecoder.viewOf base coordinates))

theorem decode_view (storageId : Nat) (coordinates : Coordinates) :
    decoder.decode libraries
        (envelope TENSOR_VIEW (libraries.views.dumps (storageId, coordinates))) worker =
      (resolveView libraries (decoder.tensorBases.lookup (worker, storageId)) coordinates,
        decoder) := by
  have notValue : TENSOR_VIEW ≠ PICKLE_VALUE := by decide
  have notBase : TENSOR_VIEW ≠ TENSOR_BASE := by decide
  simp only [ResultDecoder.decode, if_neg (envelope_valid _ _), envelope_kind,
    envelope_body, if_neg notValue, if_neg notBase, ne_eq, not_true_eq_false, if_false,
    libraries.views.loads_dumps, resolveView]
  split
  · rfl
  · split <;> rfl

end Envelopes

/-- A view of `base` shows `tensor` exactly when it has its dtype and the
memory of `base` shows the same elements at the coordinates of `tensor`. -/
theorem yields_resolveView_iff (base tensor : Tensor Dtype Data)
    (readable : (tensor.elements libraries).isSome) :
    Yields libraries (resolveView libraries (some base) tensor.coordinates)
        (.tensor tensor : Value Dtype Data Object) ↔
      base.dtype = tensor.dtype ∧
        libraries.read tensor.dtype base.storage.data tensor.coordinates =
          tensor.elements libraries := by
  constructor
  · intro yields
    obtain ⟨decoded, outcome, same⟩ := yields
    cases shown : libraries.read base.dtype base.storage.data tensor.coordinates with
    | none =>
        simp only [resolveView, shown] at outcome
        cases outcome
    | some elements =>
        simp only [resolveView, shown] at outcome
        cases outcome
        simp only [Value.shown, ResultDecoder.viewOf, Tensor.elements,
          Shown.tensor.injEq, true_and] at same
        exact ⟨same.1, same.1 ▸ same.2⟩
  · intro agreement
    obtain ⟨sameDtype, sameElements⟩ := agreement
    rw [← sameDtype] at sameElements
    obtain ⟨elements, elementsEq⟩ := Option.isSome_iff_exists.mp readable
    refine ⟨.tensor (ResultDecoder.viewOf base tensor.coordinates), ?_, ?_⟩
    · simp only [resolveView, sameElements, elementsEq]
    · simp only [Value.shown, ResultDecoder.viewOf, Tensor.elements,
        Shown.tensor.injEq, true_and]
      exact ⟨sameDtype, sameElements⟩

/-! ### The encoder table -/

/-- The encoder has encoded exactly `history`. -/
def Encoded (history : List (Value Dtype Data Object)) (encoder : ResultEncoder) :
    Prop :=
  Numbered ((sharedTensors history).map Tensor.cdata) encoder.storageIds

/-- The payload of `value` after `history`. -/
def payloadOf (history : List (Value Dtype Data Object))
    (value : Value Dtype Data Object) : Bytes :=
  match value.shared? with
  | none => envelope PICKLE_VALUE (libraries.values.dumps value)
  | some tensor =>
      match firstFrom history tensor.cdata with
      | none =>
          envelope TENSOR_BASE (libraries.bases.dumps
            (storageRank (history ++ [value]) tensor.cdata, tensor))
      | some _ =>
          envelope TENSOR_VIEW (libraries.views.dumps
            (storageRank history tensor.cdata, tensor.coordinates))

theorem encoded_new : Encoded ([] : List (Value Dtype Data Object)) .new :=
  Numbered.empty

theorem sharedTensors_append (history : List (Value Dtype Data Object))
    (value : Value Dtype Data Object) :
    sharedTensors (history ++ [value]) =
      sharedTensors history ++ value.shared?.toList := by
  cases shared : value.shared? <;>
    simp [sharedTensors, List.filterMap_append, shared]

variable {value : Value Dtype Data Object}

theorem Value.eq_tensor_of_shared {tensor : Tensor Dtype Data}
    (shared : value.shared? = some tensor) :
    value = .tensor tensor ∧ shareableTensor tensor = true := by
  cases value with
  | object => cases shared
  | tensor other =>
      simp only [Value.shared?, Option.ite_none_right_eq_some, Option.some.injEq]
        at shared
      obtain ⟨shareable, rfl⟩ := shared
      exact ⟨rfl, shareable⟩

variable {history : List (Value Dtype Data Object)}

/-- The encoder's spec: one step encodes the next value of its history, with
the payload the history determines. -/
theorem encode_spec {encoder : ResultEncoder} (encoded : Encoded history encoder)
    (value : Value Dtype Data Object) :
    (encoder.encode libraries value).1 = payloadOf libraries history value ∧
      Encoded (history ++ [value]) (encoder.encode libraries value).2 := by
  unfold Encoded at encoded ⊢
  rw [sharedTensors_append]
  cases shared : value.shared? with
  | none =>
      simp only [payloadOf, shared, Option.toList_none, List.append_nil]
      cases value with
      | object object => exact ⟨rfl, encoded⟩
      | tensor tensor =>
          have unshareable : shareableTensor tensor = false := by
            simpa [Value.shared?] using shared
          simp only [ResultEncoder.encode, unshareable, Bool.false_eq_true, if_false]
          exact ⟨trivial, encoded⟩
  | some tensor =>
      obtain ⟨rfl, shareable⟩ := Value.eq_tensor_of_shared shared
      simp only [payloadOf, shared, Option.toList_some, List.map_append, List.map_cons,
        List.map_nil, ResultEncoder.encode, shareable, if_true, firstFrom]
      by_cases used : tensor.cdata ∈ (sharedTensors history).map Tensor.cdata
      · obtain ⟨first, found⟩ := firstWith_isSome used
        have known := encoded.lookup_of_mem used
        simp only [Tensor.cdata] at known found
        simp only [known, found, storageRank, Tensor.cdata]
        exact ⟨trivial, encoded.known used⟩
      · have absent := encoded.lookup_of_notMem used
        have first := firstWith_eq_none.mpr used
        have next := rank_append_self used
        simp only [Tensor.cdata] at absent first next
        simp only [absent, first, storageRank, sharedTensors_append, shared,
          Option.toList_some, List.map_append, List.map_cons, List.map_nil, Tensor.cdata,
          next, encoded.card]
        refine ⟨trivial, ?_⟩
        rw [← encoded.card]
        exact encoded.fresh used

/-! ### The decoder table -/

theorem firstFrom_append (history : List (Value Dtype Data Object))
    (value : Value Dtype Data Object) (cdata : Nat) :
    firstFrom (history ++ [value]) cdata =
      (firstFrom history cdata).or
        (value.shared?.filter fun tensor => tensor.cdata = cdata) := by
  unfold firstFrom
  rw [sharedTensors_append]
  cases shared : value.shared? with
  | none => simp
  | some tensor =>
      rw [Option.toList_some, firstWith_append]
      by_cases same : tensor.cdata = cdata <;> simp [Option.filter, same]

variable {first : Tensor Dtype Data}

theorem used_of_firstFrom {cdata : Nat} (found : firstFrom history cdata = some first) :
    cdata ∈ (sharedTensors history).map Tensor.cdata := by
  by_contra unused
  rw [firstFrom, firstWith_eq_none.mpr unused] at found
  cases found

/-- A shipped address keeps its number. -/
theorem storageRank_append {cdata : Nat} (found : firstFrom history cdata = some first)
    (value : Value Dtype Data Object) :
    storageRank (history ++ [value]) cdata = storageRank history cdata := by
  unfold storageRank
  rw [sharedTensors_append]
  cases shared : value.shared? with
  | none => simp
  | some tensor =>
      rw [Option.toList_some, List.map_append, List.map_cons, List.map_nil]
      exact rank_append_of_mem (used_of_firstFrom found) _

/-- Two addresses in use have different numbers. -/
theorem storageRank_inj {one two : Nat} (found : firstFrom history one = some first) :
    storageRank history one = storageRank history two ↔ one = two :=
  rank_inj (used_of_firstFrom found)

/-- The decoder holds, under each number of a decoded history, the first tensor
shipped from that address. -/
def Based (worker : Nat) (history : List (Value Dtype Data Object))
    (decoder : ResultDecoder Dtype Data) : Prop :=
  ∀ cdata first, firstFrom history cdata = some first →
    decoder.tensorBases.lookup (worker, storageRank history cdata) = some first

/-- The first tensor shipped from the address of `value` has its dtype and
shows its elements. -/
def KeepsFirst (history : List (Value Dtype Data Object))
    (value : Value Dtype Data Object) : Prop :=
  ∀ tensor first, value.shared? = some tensor →
    firstFrom history tensor.cdata = some first →
      first.dtype = tensor.dtype ∧
        libraries.read tensor.dtype first.storage.data tensor.coordinates =
          tensor.elements libraries

/-- A live tensor shows its elements. -/
def Readable (value : Value Dtype Data Object) : Prop :=
  ∀ tensor, value.shared? = some tensor → (tensor.elements libraries).isSome

theorem yields_self (value : Value Dtype Data Object) : Yields libraries (.ok value) value :=
  ⟨value, rfl, rfl⟩

theorem based_new (worker : Nat) :
    Based worker ([] : List (Value Dtype Data Object)) (.new : ResultDecoder Dtype Data) := by
  intro cdata first found
  simp [firstFrom, sharedTensors, firstWith] at found

variable {decoder : ResultDecoder Dtype Data}

/-- A step that ships no new address leaves the bases in place. -/
theorem Based.append_old {worker : Nat} (based : Based worker history decoder)
    (old : ∀ tensor, value.shared? = some tensor →
      ∃ first, firstFrom history tensor.cdata = some first) :
    Based worker (history ++ [value]) decoder := by
  intro cdata first found
  have before : firstFrom history cdata = some first := by
    rw [firstFrom_append] at found
    cases known : firstFrom history cdata with
    | some other => simpa [known] using found
    | none =>
        rw [known, Option.none_or] at found
        obtain ⟨shared, same⟩ := Option.filter_eq_some_iff.mp found
        obtain ⟨other, otherEq⟩ := old first shared
        simp only [decide_eq_true_eq] at same
        rw [same, known] at otherEq
        cases otherEq
  rw [storageRank_append before]
  exact based cdata first before

/-- Decoding the first payload of an address stores its tensor under the next
number, beside the others. -/
theorem Based.append_new {worker : Nat} (based : Based worker history decoder)
    {tensor : Tensor Dtype Data} (shared : value.shared? = some tensor)
    (new : firstFrom history tensor.cdata = none) :
    Based worker (history ++ [value])
      { tensorBases := decoder.tensorBases.insert
          (worker, storageRank (history ++ [value]) tensor.cdata) tensor } := by
  intro cdata first found
  simp only [lookup_insert_if, Prod.mk.injEq, true_and, storageRank_inj found]
  by_cases same : cdata = tensor.cdata
  · rw [if_pos same]
    rw [firstFrom_append, same, new, shared] at found
    simpa [Option.filter] using found
  · have before : firstFrom history cdata = some first := by
      rw [firstFrom_append, shared] at found
      simpa [Option.filter, Ne.symm same] using found
    rw [if_neg same, storageRank_append before]
    exact based cdata first before

/-- The decoder's spec: on the payload the history determines, it yields the
value exactly when the value keeps to the first tensor of its address. -/
theorem decode_spec {worker : Nat} (based : Based worker history decoder)
    (value : Value Dtype Data Object) (readable : Readable libraries value) :
    (Yields libraries
        (decoder.decode libraries (payloadOf libraries history value) worker).1 value ↔
      KeepsFirst libraries history value) ∧
    Based worker (history ++ [value])
      (decoder.decode libraries (payloadOf libraries history value) worker).2 := by
  cases shared : value.shared? with
  | none =>
      simp only [payloadOf, shared, decode_value]
      refine ⟨iff_of_true (yields_self libraries value) ?_, based.append_old ?_⟩
      · intro tensor first other
        rw [shared] at other
        cases other
      · intro tensor other
        rw [shared] at other
        cases other
  | some tensor =>
      obtain ⟨rfl, _⟩ := Value.eq_tensor_of_shared shared
      cases known : firstFrom history tensor.cdata with
      | none =>
          simp only [payloadOf, shared, known, decode_base]
          refine ⟨iff_of_true (yields_self libraries _) ?_, based.append_new shared known⟩
          intro other first same found
          rw [shared] at same
          cases same
          rw [known] at found
          cases found
      | some first =>
          simp only [payloadOf, shared, known, decode_view, based _ _ known]
          refine ⟨?_, based.append_old ?_⟩
          · rw [yields_resolveView_iff libraries first tensor (readable tensor shared)]
            constructor
            · intro agreement other otherFirst same found
              rw [shared] at same
              cases same
              rw [known] at found
              cases found
              exact agreement
            · intro keeps
              exact keeps tensor first shared known
          · intro other same
            rw [shared] at same
            cases same
            exact ⟨first, known⟩

end Codec

end Hyperloader.Process
