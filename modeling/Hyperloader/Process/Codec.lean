/-
Module: Hyperloader.Process.Codec
Purpose: One encoder and one decoder joined in order over a heap of storages
  that are allocated, shipped and freed, and the exact histories on which
  every value round-trips.
Trusted boundary: none
Main exports: Codec.machine, Codec.roundtrip_iff
-/
import Mathlib.Data.Nat.Digits.Defs
import Mathlib.Logic.Equiv.List
import Mathlib.Tactic.DeriveEncodable
import Hyperloader.Process.Serialization

namespace Hyperloader.Process.Codec

open Foundations

variable {Dtype Data Object Elements : Type}

/-- The worker's storages by address, its encoder, the payloads in order, and
the consumer's decoder. -/
structure State (Dtype Data : Type) where
  heap : Finmap fun _ : Nat => Data
  encoder : ResultEncoder
  channel : List Bytes
  decoder : ResultDecoder Dtype Data

def State.initial : State Dtype Data := ⟨∅, .new, [], .new⟩

inductive Label (Dtype Data Object : Type) where
  | allocate (cdata : Nat) (data : Data)
  | free (cdata : Nat)
  | encode (value : Value Dtype Data Object)
  | decode

inductive Event (Dtype Data Object : Type) where
  | quiet
  | decoded (outcome : Except DecodeError (Value Dtype Data Object))

/-- The tensor's storage is alive at its address, and the tensor is one torch
can show. -/
def Lives (libraries : Libraries Dtype Data Object Elements)
    (heap : Finmap fun _ : Nat => Data) (value : Value Dtype Data Object) : Prop :=
  ∀ tensor ∈ value.shared?,
    heap.lookup tensor.storage.cdata = some tensor.storage.data ∧
      (tensor.elements libraries).isSome

instance [DecidableEq Data] (libraries : Libraries Dtype Data Object Elements)
    (heap : Finmap fun _ : Nat => Data) (value : Value Dtype Data Object) :
    Decidable (Lives libraries heap value) :=
  inferInstanceAs (Decidable (∀ tensor ∈ value.shared?, _))

variable (libraries : Libraries Dtype Data Object Elements) (worker : Nat)

abbrev Trace (Dtype Data Object : Type) :=
  List (Label Dtype Data Object × Event Dtype Data Object)

/-- The values encoded along a trace, in order. -/
def encodings (trace : Trace Dtype Data Object) : List (Value Dtype Data Object) :=
  trace.filterMap fun entry =>
    match entry.1 with
    | .encode value => some value
    | _ => none

/-- The results decoded along a trace, in order. -/
def decodings (trace : Trace Dtype Data Object) :
    List (Except DecodeError (Value Dtype Data Object)) :=
  trace.filterMap fun entry =>
    match entry.2 with
    | .decoded outcome => some outcome
    | .quiet => none

/-- The payloads of values encoded after a history. -/
def payloads (history : List (Value Dtype Data Object)) :
    List (Value Dtype Data Object) → List Bytes
  | [] => []
  | value :: values =>
      payloadOf libraries history value :: payloads (history ++ [value]) values

theorem payloads_append (history values : List (Value Dtype Data Object))
    (value : Value Dtype Data Object) :
    payloads libraries history (values ++ [value]) =
      payloads libraries history values ++
        [payloadOf libraries (history ++ values) value] := by
  induction values generalizing history with
  | nil => simp [payloads]
  | cons first values ih => simp [payloads, ih]

/-- Each answered value is yielded exactly when it keeps to the first tensor of
its address. -/
def Answered (values : List (Value Dtype Data Object))
    (outcomes : List (Except DecodeError (Value Dtype Data Object))) : Prop :=
  ∀ (index : Nat) value outcome, values[index]? = some value →
    outcomes[index]? = some outcome →
      (Yields libraries outcome value ↔
        KeepsFirst libraries (values.take index) value)

/-- The two tables after a trace: the decoder is at `finished`, the encoder is
also past `pending`, and the channel holds the payloads between them. -/
structure InStep (trace : Trace Dtype Data Object) (state : State Dtype Data)
    (finished pending : List (Value Dtype Data Object)) : Prop where
  split : encodings trace = finished ++ pending
  decoded : finished.length = (decodings trace).length
  encoder : Encoded (finished ++ pending) state.encoder
  channel : state.channel = payloads libraries finished pending
  decoder : Based worker finished state.decoder
  readable : ∀ value ∈ finished ++ pending, Readable libraries value
  answered : Answered libraries finished (decodings trace)

/-- Two storages alive together have different addresses; an address may be
used again once its storage is freed. -/
def machine [DecidableEq Data] : Machine (State Dtype Data) (Label Dtype Data Object)
    (Event Dtype Data Object) where
  step state label :=
    match label with
    | .allocate cdata data =>
        if cdata ∈ state.heap then none
        else some (.quiet, { state with heap := state.heap.insert cdata data })
    | .free cdata =>
        if cdata ∈ state.heap then
          some (.quiet, { state with heap := state.heap.erase cdata })
        else none
    | .encode value =>
        if Lives libraries state.heap value then
          let encoded := state.encoder.encode libraries value
          some (.quiet,
            { state with
              encoder := encoded.2, channel := state.channel ++ [encoded.1] })
        else none
    | .decode =>
        match state.channel with
        | [] => none
        | payload :: rest =>
            let result := state.decoder.decode libraries payload worker
            some (.decoded result.1,
              { state with channel := rest, decoder := result.2 })

section Traces

variable {trace : Trace Dtype Data Object} {state next : State Dtype Data}
  {finished pending : List (Value Dtype Data Object)}

theorem encodings_append (entry : Label Dtype Data Object × Event Dtype Data Object) :
    encodings (trace ++ [entry]) = encodings trace ++ encodings [entry] := by
  simp [encodings]

theorem decodings_append (entry : Label Dtype Data Object × Event Dtype Data Object) :
    decodings (trace ++ [entry]) = decodings trace ++ decodings [entry] := by
  simp [decodings]

/-- Allocating and freeing leave the codec alone. -/
theorem InStep.heap (inStep : InStep libraries worker trace state finished pending)
    (entry : Label Dtype Data Object × Event Dtype Data Object) (noValue : encodings [entry] = [])
    (noOutcome : decodings [entry] = []) (heap : Finmap fun _ : Nat => Data) :
    InStep libraries worker (trace ++ [entry]) { state with heap := heap } finished
      pending := by
  have sameValues : encodings (trace ++ [entry]) = encodings trace := by
    rw [encodings_append, noValue, List.append_nil]
  have sameOutcomes : decodings (trace ++ [entry]) = decodings trace := by
    rw [decodings_append, noOutcome, List.append_nil]
  exact
    { inStep with
      split := sameValues ▸ inStep.split
      decoded := sameOutcomes ▸ inStep.decoded
      answered := sameOutcomes ▸ inStep.answered }

theorem InStep.encode (inStep : InStep libraries worker trace state finished pending)
    (value : Value Dtype Data Object) (readable : Readable libraries value) :
    InStep libraries worker (trace ++ [(.encode value, .quiet)])
      { state with
        encoder := (state.encoder.encode libraries value).2
        channel := state.channel ++ [(state.encoder.encode libraries value).1] }
      finished (pending ++ [value]) := by
  obtain ⟨payloadEq, encoded⟩ := encode_spec libraries inStep.encoder value
  have sameOutcomes : decodings (trace ++ [(.encode value, .quiet)]) =
      decodings trace := by
    simp [decodings]
  refine
    { split := ?_
      decoded := sameOutcomes ▸ inStep.decoded
      encoder := ?_
      channel := ?_
      decoder := inStep.decoder
      readable := ?_
      answered := sameOutcomes ▸ inStep.answered }
  · rw [encodings_append, inStep.split]
    simp [encodings]
  · rw [← List.append_assoc]
    exact encoded
  · rw [payloads_append, ← payloadEq, ← inStep.channel]
  · intro other member
    rw [← List.append_assoc, List.mem_append, List.mem_singleton] at member
    rcases member with old | same
    · exact inStep.readable other old
    · exact same ▸ readable

/-- One more answer after `finished`. -/
theorem Answered.append {outcomes : List (Except DecodeError (Value Dtype Data Object))}
    (answered : Answered libraries finished outcomes) (lengths : finished.length = outcomes.length)
    {value : Value Dtype Data Object} {outcome : Except DecodeError (Value Dtype Data Object)}
    (exact : Yields libraries outcome value ↔ KeepsFirst libraries finished value) :
    Answered libraries (finished ++ [value]) (outcomes ++ [outcome]) := by
  intro index other otherOutcome valueAt outcomeAt
  rcases Nat.lt_trichotomy index finished.length with before | here | beyond
  · rw [List.getElem?_append_left before] at valueAt
    rw [List.getElem?_append_left (lengths ▸ before)] at outcomeAt
    rw [List.take_append_of_le_length (Nat.le_of_lt before)]
    exact answered index other otherOutcome valueAt outcomeAt
  · subst here
    rw [List.getElem?_concat_length] at valueAt
    rw [lengths, List.getElem?_concat_length] at outcomeAt
    cases valueAt
    cases outcomeAt
    rw [List.take_left]
    exact exact
  · rw [List.getElem?_eq_none] at valueAt
    · cases valueAt
    · rw [List.length_append, List.length_singleton]
      exact beyond

theorem InStep.decode {value : Value Dtype Data Object}
    (inStep : InStep libraries worker trace state finished (value :: pending)) :
    let result :=
      state.decoder.decode libraries (payloadOf libraries finished value) worker
    InStep libraries worker (trace ++ [(.decode, .decoded result.1)])
      { state with
        channel := payloads libraries (finished ++ [value]) pending
        decoder := result.2 }
      (finished ++ [value]) pending := by
  intro result
  have moved : finished ++ value :: pending = (finished ++ [value]) ++ pending := by
    simp
  have readable := inStep.readable value (by simp)
  obtain ⟨exact, based⟩ := decode_spec libraries inStep.decoder value readable
  have oneMore : decodings (trace ++ [(.decode, .decoded result.1)]) =
      decodings trace ++ [result.1] := by
    simp [decodings]
  refine
    { split := ?_
      decoded := ?_
      encoder := moved ▸ inStep.encoder
      channel := rfl
      decoder := based
      readable := moved ▸ inStep.readable
      answered := ?_ }
  · rw [encodings_append, inStep.split, moved]
    simp [encodings]
  · rw [oneMore, List.length_append, List.length_append, inStep.decoded]
    rfl
  · rw [oneMore]
    exact inStep.answered.append libraries inStep.decoded exact

/-- In step, every decoded payload yields its value exactly when every decoded
value keeps to the first tensor of its address. -/
theorem InStep.yields_iff (inStep : InStep libraries worker trace state finished pending) :
    (∀ (index : Nat) value outcome, (encodings trace)[index]? = some value →
        (decodings trace)[index]? = some outcome → Yields libraries outcome value) ↔
      ∀ (index : Nat) value, index < (decodings trace).length →
        (encodings trace)[index]? = some value →
          KeepsFirst libraries ((encodings trace).take index) value := by
  rw [inStep.split, ← inStep.decoded]
  have prefixAt : ∀ index, index < finished.length →
      (finished ++ pending)[index]? = finished[index]? ∧
        (finished ++ pending).take index = finished.take index := by
    intro index before
    exact ⟨List.getElem?_append_left before,
      List.take_append_of_le_length (Nat.le_of_lt before)⟩
  constructor
  · intro all index value before valueAt
    obtain ⟨sameValue, samePrefix⟩ := prefixAt index before
    have answeredBefore : index < (decodings trace).length := inStep.decoded ▸ before
    have outcomeAt := List.getElem?_eq_getElem answeredBefore
    rw [samePrefix]
    apply (inStep.answered index value _ (sameValue ▸ valueAt) outcomeAt).mp
    exact all index value _ valueAt outcomeAt
  · intro all index value outcome valueAt outcomeAt
    have before : index < finished.length := by
      rw [inStep.decoded]
      exact (List.getElem?_eq_some_iff.mp outcomeAt).1
    obtain ⟨sameValue, samePrefix⟩ := prefixAt index before
    apply (inStep.answered index value outcome (sameValue ▸ valueAt) outcomeAt).mpr
    exact samePrefix ▸ all index value before valueAt

theorem inStep_initial : InStep libraries worker ([] : Trace Dtype Data Object)
    .initial [] [] where
  split := rfl
  decoded := rfl
  encoder := encoded_new
  channel := rfl
  decoder := based_new worker
  readable := fun value member => absurd member List.not_mem_nil
  answered := fun index value outcome valueAt => by simp at valueAt

variable [DecidableEq Data]

/-- Every step of the machine keeps the two tables in step. -/
theorem InStep.step (inStep : InStep libraries worker trace state finished pending)
    {label : Label Dtype Data Object} {event : Event Dtype Data Object}
    (stepEq : (machine libraries worker).step state label = some (event, next)) :
    ∃ finished' pending', InStep libraries worker (trace ++ [(label, event)]) next
      finished' pending' := by
  cases label with
  | allocate cdata data =>
      simp only [machine, Option.ite_none_left_eq_some, Option.some.injEq,
        Prod.mk.injEq] at stepEq
      obtain ⟨_, rfl, rfl⟩ := stepEq
      exact ⟨finished, pending, inStep.heap libraries worker _ rfl rfl _⟩
  | free cdata =>
      simp only [machine, Option.ite_none_right_eq_some, Option.some.injEq,
        Prod.mk.injEq] at stepEq
      obtain ⟨_, rfl, rfl⟩ := stepEq
      exact ⟨finished, pending, inStep.heap libraries worker _ rfl rfl _⟩
  | encode value =>
      simp only [machine, Option.ite_none_right_eq_some, Option.some.injEq,
        Prod.mk.injEq] at stepEq
      obtain ⟨lives, rfl, rfl⟩ := stepEq
      exact ⟨finished, pending ++ [value], inStep.encode libraries worker value
        fun tensor shared => (lives tensor shared).2⟩
  | decode =>
      cases pending with
      | nil =>
          simp [machine, inStep.channel, payloads] at stepEq
      | cons value rest =>
          simp only [machine, inStep.channel, payloads, Option.some.injEq,
            Prod.mk.injEq] at stepEq
          obtain ⟨rfl, rfl⟩ := stepEq
          exact ⟨finished ++ [value], rest, inStep.decode libraries worker⟩

/-- The tables are in step after every run. -/
theorem run_inStep {labels : List (Label Dtype Data Object)}
    (reached : (machine libraries worker).run .initial labels = some (trace, state)) :
    ∃ finished pending, InStep libraries worker trace state finished pending :=
  (machine libraries worker).run_induction
    (motive := fun trace state => ∃ finished pending,
      InStep libraries worker trace state finished pending)
    (fun trace state label event next holds (_ : True) stepEq => by
      obtain ⟨finished, pending, inStep⟩ := holds
      exact inStep.step libraries worker stepEq)
    [] ⟨[], [], inStep_initial libraries worker⟩
    ((machine libraries worker).along_true .initial labels) reached

end Traces

/-! ### Reusing an address -/

/-- Ship a tensor, free its storage, and ship one whose storage took the
address. -/
def reuseLabels (older newer : Tensor Dtype Data) : List (Label Dtype Data Object) :=
  [.allocate older.cdata older.storage.data, .encode (.tensor older),
    .free older.cdata, .allocate newer.cdata newer.storage.data,
    .encode (.tensor newer), .decode, .decode]

variable [DecidableEq Data]

/-- The second payload resolves against the storage that was freed. -/
theorem reuse_run (older newer : Tensor Dtype Data) (olderShared : shareableTensor older = true)
    (newerShared : shareableTensor newer = true) (olderReadable : (older.elements libraries).isSome)
    (newerReadable : (newer.elements libraries).isSome) (reused : newer.cdata = older.cdata) :
    ∃ trace final, (machine libraries worker).run .initial
        (reuseLabels older newer : List (Label Dtype Data Object)) =
          some (trace, final) ∧
      encodings trace = [.tensor older, .tensor newer] ∧
      decodings trace =
        [.ok (.tensor older), resolveView libraries (some older) newer.coordinates] := by
  obtain ⟨⟨cdata, data⟩, dtype, coordinates, device, layout, isConj, isNeg⟩ := newer
  simp only [Tensor.cdata] at reused
  subst reused
  simp [Machine.run, machine, reuseLabels, State.initial, Lives, Value.shared?,
    olderReadable, newerReadable, Tensor.cdata, ResultEncoder.encode,
    ResultEncoder.new, olderShared, newerShared, encodings, decodings, decode_base,
    decode_view, ResultDecoder.new, Finmap.notMem_empty]

/-- The round trip holds exactly on the histories whose values keep to the first
tensor shipped from their address: in a run, every decoded payload yields its
value if and only if every decoded value whose address was shipped before has the
dtype of the first tensor shipped from there, and that tensor's storage shows the
value's elements at the value's own coordinates. -/
theorem roundtrip_iff {labels : List (Label Dtype Data Object)}
    {trace : Trace Dtype Data Object} {final : State Dtype Data}
    (reached : (machine libraries worker).run .initial labels = some (trace, final)) :
    (∀ (index : Nat) value outcome, (encodings trace)[index]? = some value →
        (decodings trace)[index]? = some outcome → Yields libraries outcome value) ↔
      ∀ (index : Nat) value, index < (decodings trace).length →
        (encodings trace)[index]? = some value →
          KeepsFirst libraries ((encodings trace).take index) value := by
  obtain ⟨finished, pending, inStep⟩ := run_inStep libraries worker reached
  exact inStep.yields_iff libraries worker

/-! ### A concrete library -/

deriving instance Encodable for Storage
deriving instance Encodable for Coordinates
deriving instance Encodable for DeviceType
deriving instance Encodable for Layout
deriving instance Encodable for Tensor
deriving instance Encodable for Value

/-- Pickling by the base-256 digits of an encoding. -/
def digitPickling (Shape : Type) [Encodable Shape] : Pickling Shape where
  dumps shape := (Nat.digits 256 (Encodable.encode shape)).map UInt8.ofNat
  loads bytes := Encodable.decode (Nat.ofDigits 256 (bytes.map UInt8.toNat))
  loads_dumps shape := by
    have digits : ((Nat.digits 256 (Encodable.encode shape)).map UInt8.ofNat).map
        UInt8.toNat = Nat.digits 256 (Encodable.encode shape) := by
      rw [List.map_map]
      nth_rewrite 2 [← List.map_id (Nat.digits 256 (Encodable.encode shape))]
      apply List.map_congr_left
      intro digit member
      have small : digit < 256 := Nat.digits_lt_base (by decide) member
      exact UInt8.toNat_ofNat_of_lt small
    rw [digits, Nat.ofDigits_digits, Encodable.encodek]

/-- Offsets of the elements of a strided view, in row-major order. -/
def stridedOffsets : List Nat → List Nat → List Nat
  | size :: sizes, stride :: strides =>
      (List.range size).flatMap fun index =>
        (stridedOffsets sizes strides).map (index * stride + ·)
  | _, _ => [0]

/-- Elements of a strided view; a view beyond its memory is refused. -/
def stridedRead (memory : List Nat) (coordinates : Coordinates) : Option (List Nat) :=
  (stridedOffsets coordinates.size coordinates.stride).mapM fun offset =>
    memory[coordinates.offset + offset]?

/-- One dtype over memories of numbers; the other objects are numbers. -/
def stridedLibraries : Libraries Unit (List Nat) Nat (List Nat) where
  values := digitPickling _
  bases := digitPickling _
  views := digitPickling _
  read _ memory coordinates := stridedRead memory coordinates

/-- A contiguous vector over a storage. -/
def vectorAt (cdata : Nat) (memory : List Nat) : Tensor Unit (List Nat) where
  storage := ⟨cdata, memory⟩
  dtype := ()
  coordinates := ⟨[memory.length], [1], 0, false⟩
  device := .cpu
  layout := .strided
  isConj := false
  isNeg := false

/-- After `[1, 2]` is freed and `[8, 9]` takes its address, the second payload
decodes to `[1, 2]`. -/
theorem reuse_decodes_older :
    ∃ trace final, (machine stridedLibraries 0).run .initial
        (reuseLabels (vectorAt 64 [1, 2]) (vectorAt 64 [8, 9])) = some (trace, final) ∧
      ∃ value outcome, (encodings trace)[1]? = some value ∧
        (decodings trace)[1]? = some outcome ∧
        ¬ Yields stridedLibraries outcome value := by
  obtain ⟨trace, final, reached, values, outcomes⟩ :=
    reuse_run stridedLibraries 0 (vectorAt 64 [1, 2]) (vectorAt 64 [8, 9]) rfl rfl rfl rfl
      rfl
  refine ⟨trace, final, reached, _, _, by rw [values]; rfl, by rw [outcomes]; rfl, ?_⟩
  rw [yields_resolveView_iff stridedLibraries _ (vectorAt 64 [8, 9]) rfl]
  intro agreement
  have different : stridedRead [1, 2] ⟨[2], [1], 0, false⟩ ≠
      stridedRead [8, 9] ⟨[2], [1], 0, false⟩ := by decide
  exact different agreement.2

/-- The exact condition at the same history with equal memories. -/
theorem roundtrip_iff_example :
    ∃ trace final, (machine stridedLibraries 0).run .initial
        (reuseLabels (vectorAt 64 [1, 2]) (vectorAt 64 [1, 2])) = some (trace, final) ∧
      ((∀ (index : Nat) value outcome, (encodings trace)[index]? = some value →
          (decodings trace)[index]? = some outcome →
          Yields stridedLibraries outcome value) ↔
        ∀ (index : Nat) value, index < (decodings trace).length →
          (encodings trace)[index]? = some value →
            KeepsFirst stridedLibraries ((encodings trace).take index) value) := by
  obtain ⟨trace, final, reached, _, _⟩ :=
    reuse_run stridedLibraries 0 (vectorAt 64 [1, 2]) (vectorAt 64 [1, 2]) rfl rfl rfl rfl
      rfl
  exact ⟨trace, final, reached, roundtrip_iff stridedLibraries 0 reached⟩

end Hyperloader.Process.Codec
