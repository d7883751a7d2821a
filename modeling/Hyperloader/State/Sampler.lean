/-
Module: Hyperloader.State.Sampler
Purpose: The runtimes of user samplers and batch samplers, state/sampler.py: a sampler read as far
  as an iterator asks, with the rolling checksum of every delivered prefix.
Trusted boundary: `pickle` is what pickle.dumps makes of an index; positions are not negative; the
  batches of a batch sampler are iterable.
Main exports: crc32, SamplerRuntime.new, BatchSamplerRuntime.new, generateTo_ensures
-/
import Hyperloader.Foundations.ByteFrame
import Hyperloader.Foundations.Effects
import Hyperloader.Foundations.Rolling

namespace Hyperloader.State

open Foundations

/-! ### Checksums -/

def crc32Bit (checksum : UInt32) : UInt32 :=
  if checksum &&& 1 = 1 then (checksum >>> 1) ^^^ 0xEDB88320 else checksum >>> 1

def crc32Byte (checksum : UInt32) (byte : UInt8) : UInt32 :=
  (crc32Bit ∘ crc32Bit ∘ crc32Bit ∘ crc32Bit ∘ crc32Bit ∘ crc32Bit ∘ crc32Bit ∘ crc32Bit)
    (checksum ^^^ byte.toUInt32)

/-- `zlib.crc32` -/
def crc32 (payload : List UInt8) (checksum : UInt32) : UInt32 :=
  payload.foldl crc32Byte (checksum ^^^ 0xFFFFFFFF) ^^^ 0xFFFFFFFF

section Runtimes

variable {Index : Type} (pickle : Index → List UInt8)

def updateChecksum (checksum : UInt32) (value : Index) : UInt32 :=
  let payload := pickle value
  crc32 payload (crc32 (toLittleEndian 8 payload.length) checksum)

/-- The bytes of `b"batch"`. -/
def BOUNDARY : List UInt8 := [98, 97, 116, 99, 104]

def updateBoundary (checksum : UInt32) (length : Nat) : UInt32 :=
  crc32 (BOUNDARY ++ toLittleEndian 8 length) checksum

/-- The sample offset and the checksum behind another batch. -/
def updateBatch (before : Nat × UInt32) (batch : List Index) : Nat × UInt32 :=
  (before.1 + batch.length,
    batch.foldl (updateChecksum pickle) (updateBoundary before.2 batch.length))

/-! ### Reading a sampler -/

inductive SamplerError where
  | valueError (text : String)
  | runtimeError (text : String)
  | indexError (text : String)
deriving DecidableEq

variable {Item Value : Type} {roll : Value → Item → Value} {first : Value}

/-- A call on what has been read of a sampler. -/
abbrev Reading (roll : Value → Item → Value) (first : Value) :=
  EStateM SamplerError (Rolling roll first)

/-- The texts in which the two runtimes differ. -/
structure ReadingTexts where
  past : String
  ended : String
  outside : String

/-- `_generate_to`: each round of its loop adds one item or ends. -/
def generateTo (texts : ReadingTexts) (source : Nat → Option Item) (count : Nat)
    (allowEnd : Bool) : Reading roll first Unit := do
  let before ← get
  modify fun read => read.draw source (count - read.items.length)
  let after ← get
  if after.items.length < count ∧ !allowEnd then
    throw (.runtimeError (if before.exhausted then texts.past else texts.ended))
  else pure ()

def readItem (texts : ReadingTexts) (source : Nat → Option Item) (position : Nat) :
    Reading roll first Item := do
  generateTo texts source (position + 1) true
  match (← get).items[position]? with
  | some item => return item
  | none => throw (.indexError texts.outside)

def hasItem (texts : ReadingTexts) (source : Nat → Option Item) (position : Nat) :
    Reading roll first Bool := do
  generateTo texts source (position + 1) true
  return decide (position < (← get).items.length)

/-- The value behind a prefix that has been delivered. -/
def valueAt (texts : ReadingTexts) (source : Nat → Option Item) (count : Nat) :
    Reading roll first Value := do
  generateTo texts source count false
  match (← get).values[count]? with
  | some value => return value
  | none => throw (.indexError "list index out of range")

def MISMATCH : String :=
  "sampler checksum mismatch while restoring the delivered prefix; " ++
    "the sampler is nondeterministic or this rank's state belongs to a different rank"

/-- `_verify` -/
def verify (expected : Nat) (actual : UInt32) : Reading roll first Unit :=
  if expected ≠ actual.toNat then throw (.valueError MISMATCH) else pure ()

/-! ### Samplers -/

/-- A user sampler on a loader: the length it reports and the indices it hands out. -/
structure Sampler (Index : Type) where
  length : Option Int
  produced : Nat → Option Index
  batchSize : Option Nat
  dropLast : Bool

namespace Sampler

/-- `batch_size or 1` -/
def width (sampler : Sampler Index) : Nat :=
  match sampler.batchSize with
  | none | some 0 => 1
  | some (size + 1) => size + 1

def texts : ReadingTexts where
  past := "user sampler ended before the delivered prefix"
  ended := "user sampler ended before its declared length"
  outside := "sampler position is outside the produced stream"

variable (sampler : Sampler Index)

def hasIndex (position : Nat) : Reading (updateChecksum pickle) 0 Bool :=
  hasItem texts sampler.produced position

def index (position : Nat) : Reading (updateChecksum pickle) 0 Index :=
  readItem texts sampler.produced position

def checksumAt (deliveredSamples : Nat) : Reading (updateChecksum pickle) 0 UInt32 :=
  valueAt texts sampler.produced deliveredSamples

/-- `probe`, from the first sample behind the restored prefix. -/
def probe (startSamples : Nat) : Reading (updateChecksum pickle) 0 (Option (Nat × Index)) := do
  if ← sampler.hasIndex pickle startSamples then
    return some (startSamples, ← sampler.index pickle startSamples)
  else return none

/-- `SamplerRuntime.__init__` behind the length: `start_samples`. -/
def replay (cursorBatches expectedChecksum : Nat) : Reading (updateChecksum pickle) 0 Nat := do
  let requestedStart := cursorBatches * sampler.width
  generateTo texts sampler.produced requestedStart true
  let read ← get
  let startSamples := min requestedStart read.items.length
  let fullBatches := read.items.length / sampler.width
  let remainder := read.items.length % sampler.width
  let availableBatches := fullBatches + if remainder ≠ 0 ∧ !sampler.dropLast then 1 else 0
  if read.exhausted ∧ availableBatches < cursorBatches then throw (.valueError MISMATCH)
  else
    verify expectedChecksum (read.values[startSamples]?.getD 0)
    return startSamples

end Sampler

structure SamplerRuntime where
  length : Option Int
  startSamples : Nat
  read : Rolling (updateChecksum pickle) 0

/-- `SamplerRuntime.__init__` -/
def SamplerRuntime.new (sampler : Sampler Index) (cursorBatches expectedChecksum : Nat) :
    Except SamplerError (SamplerRuntime pickle) :=
  if sampler.length.any (fun length => length < 0) then
    .error (.valueError "user sampler length must be nonnegative")
  else
    match sampler.replay pickle cursorBatches expectedChecksum .new with
    | .ok startSamples read => .ok ⟨sampler.length, startSamples, read⟩
    | .error error _ => .error error

/-! ### Batch samplers -/

structure BatchSampler (Index : Type) where
  length : Option Int
  produced : Nat → Option (List Index)

namespace BatchSampler

def texts : ReadingTexts where
  past := "user batch_sampler ended before the delivered prefix"
  ended := "user batch_sampler ended before its declared length"
  outside := "batch sampler position is outside the produced stream"

variable (sampler : BatchSampler Index)

def hasBatch (ordinal : Nat) : Reading (updateBatch pickle) (0, 0) Bool :=
  hasItem texts sampler.produced ordinal

def batch (ordinal : Nat) : Reading (updateBatch pickle) (0, 0) (List Index) :=
  readItem texts sampler.produced ordinal

def sampleOffset (ordinal : Nat) : Reading (updateBatch pickle) (0, 0) Nat := do
  return (← valueAt texts sampler.produced ordinal).1

def checksumAt (deliveredBatches : Nat) : Reading (updateBatch pickle) (0, 0) UInt32 := do
  return (← valueAt texts sampler.produced deliveredBatches).2

def EMPTY_BATCH : String := "user batch_sampler yielded an empty batch"

/-- `probe`, from the first batch behind the restored prefix. -/
def probe (startBatch : Nat) :
    Reading (updateBatch pickle) (0, 0) (Option (Nat × Index)) := do
  if ← sampler.hasBatch pickle startBatch then
    match ← sampler.batch pickle startBatch with
    | [] => throw (.valueError EMPTY_BATCH)
    | index :: _ => return some (← sampler.sampleOffset pickle startBatch, index)
  else return none

/-- `BatchSamplerRuntime.__init__` behind the length. -/
def replay (cursorBatches expectedChecksum : Nat) : Reading (updateBatch pickle) (0, 0) Unit := do
  generateTo texts sampler.produced cursorBatches true
  let read ← get
  if read.items.length < cursorBatches then throw (.valueError MISMATCH)
  else verify expectedChecksum (read.values[cursorBatches]?.getD (0, 0)).2

end BatchSampler

structure BatchSamplerRuntime where
  length : Option Int
  startBatch : Nat
  read : Rolling (updateBatch pickle) (0, 0)

/-- `BatchSamplerRuntime.__init__` -/
def BatchSamplerRuntime.new (sampler : BatchSampler Index)
    (cursorBatches expectedChecksum : Nat) : Except SamplerError (BatchSamplerRuntime pickle) :=
  if sampler.length.any (fun length => length < 0) then
    .error (.valueError "user batch_sampler length must be nonnegative")
  else
    match sampler.replay pickle cursorBatches expectedChecksum .new with
    | .ok _ read => .ok ⟨sampler.length, cursorBatches, read⟩
    | .error error _ => .error error

end Runtimes

/-! ### What a call reads -/

section Calls

variable {Item Value : Type} {roll : Value → Item → Value} {first : Value} {texts : ReadingTexts}
  {source : Nat → Option Item} {read : Rolling roll first}

/-- What has been read behind a call: as much as before at least, and up to a count or to the end
of the source. -/
structure Further (source : Nat → Option Item) (count : Nat) (read after : Rolling roll first) :
    Prop where
  reads : after.Reads source
  more : read.items.length ≤ after.items.length
  reaches : after.items.length < count → source after.items.length = none
  bounded : after.items.length ≤ max count read.items.length

theorem further_draw (reads : read.Reads source) (count : Nat) :
    Further source count read (read.draw source (count - read.items.length)) := by
  obtain ⟨after, items⟩ := reads.draw (count - read.items.length)
  have length := congrArg List.length items
  rw [List.length_append] at length
  have bound := length_drawn_le source read.items.length (count - read.items.length)
  refine ⟨after, by omega, fun short => ?_, by omega⟩
  rw [length]
  exact source_of_length_drawn_lt (by omega)

theorem generateTo_end (count : Nat) :
    generateTo texts source count true read =
      .ok () (read.draw source (count - read.items.length)) := by
  have passes (after : Rolling roll first) :
      ¬(after.items.length < count ∧ (!true) = true) := fun both => nomatch both.2
  show (if _ ∧ _ then _ else _ : Reading roll first Unit) (read.draw source _) = _
  rw [if_neg (passes _)]
  rfl

theorem generateTo_ensures (reads : read.Reads source) (count : Nat) :
    Ensures (generateTo texts source count true) read
      (fun _ after => Further source count read after) (fun _ _ => False) :=
  (ensures_ok_iff (generateTo_end count)).mpr (further_draw reads count)

theorem generateTo_within {count : Nat} (within : count ≤ read.items.length) (allowEnd : Bool) :
    generateTo texts source count allowEnd read = .ok () read := by
  have none : count - read.items.length = 0 := Nat.sub_eq_zero_of_le within
  have ensured : Ensures (generateTo texts source count allowEnd) read
      (fun _ after => after = read) (fun _ _ => False) := by
    unfold generateTo
    apply ensures_get
    apply ensures_modify_bind
    rw [none]
    apply ensures_get
    apply ensures_ite
    · exact fun short => absurd short.1 (Nat.not_lt.mpr within)
    · exact fun _ => ensures_pure rfl
  unfold Ensures at ensured
  split at ensured
  · rename_i after done
    rw [done, ensured]
  · exact ensured.elim

/-- A position has an item exactly where reading gets there. -/
theorem hasItem_ensures (reads : read.Reads source) (position : Nat) :
    Ensures (hasItem texts source position) read
      (fun there after => Further source (position + 1) read after ∧
        there = decide (position < after.items.length)) (fun _ _ => False) := by
  unfold hasItem
  apply ensures_bind (generateTo_ensures reads (position + 1))
  intro _ after further
  apply ensures_get
  exact ensures_pure ⟨further, rfl⟩

theorem readItem_within {position : Nat} {item : Item} (there : read.items[position]? = some item) :
    readItem texts source position read = .ok item read := by
  have within : position + 1 ≤ read.items.length := (List.getElem?_eq_some_iff.mp there).1
  unfold readItem
  show EStateM.bind _ _ _ = _
  unfold EStateM.bind
  rw [generateTo_within within]
  show (match read.items[position]? with
    | some item => pure item
    | none => throw (.indexError texts.outside) : Reading roll first Item) read = _
  rw [there]
  rfl

theorem valueAt_within (reads : read.Reads source) {count : Nat}
    (within : count ≤ read.items.length) :
    valueAt texts source count read = .ok ((drawn source 0 count).foldl roll first) read := by
  unfold valueAt
  show EStateM.bind _ _ _ = _
  unfold EStateM.bind
  rw [generateTo_within within]
  show (match read.values[count]? with
    | some value => pure value
    | none => throw (.indexError "list index out of range") : Reading roll first Value) read = _
  rw [reads.value_eq within]
  rfl

end Calls

/-! ### Restored prefixes -/

section Replay

variable {Index : Type} {pickle : Index → List UInt8}

/-- What a sampler hands out in some batches. -/
def Sampler.replayed (sampler : Sampler Index) (cursorBatches : Nat) : List Index :=
  drawn sampler.produced 0 (cursorBatches * sampler.width)

def Sampler.replayedChecksum (pickle : Index → List UInt8) (sampler : Sampler Index)
    (cursorBatches : Nat) : Nat :=
  ((sampler.replayed cursorBatches).foldl (updateChecksum pickle) 0).toNat

/-- The batches of a sampler reach a cursor: they are full, or the last one is kept short. -/
def Sampler.Reaches (sampler : Sampler Index) (cursorBatches : Nat) : Prop :=
  (sampler.replayed cursorBatches).length = cursorBatches * sampler.width ∨
    sampler.dropLast = false ∧
      cursorBatches * sampler.width < (sampler.replayed cursorBatches).length + sampler.width

theorem Sampler.width_pos (sampler : Sampler Index) : 0 < sampler.width := by
  unfold Sampler.width
  split <;> omega

/-- Batches of a width that a number of samples makes. -/
theorem available_lt_iff {samples width cursor : Nat} (positive : 0 < width)
    (short : samples < cursor * width) (kept : Bool) :
    samples / width + (if samples % width ≠ 0 ∧ kept then 1 else 0) < cursor ↔
      ¬(kept = true ∧ cursor * width < samples + width) := by
  have full : samples / width < cursor := (Nat.div_lt_iff_lt_mul positive).mpr short
  have parts := Nat.div_add_mod samples width
  have rest := Nat.mod_lt samples positive
  have products : cursor * width < samples + width ↔
      cursor = samples / width + 1 ∧ samples % width ≠ 0 := by
    obtain ⟨more, rfl⟩ : ∃ more, cursor = samples / width + 1 + more :=
      ⟨cursor - (samples / width + 1), by omega⟩
    have product : (samples / width + 1 + more) * width =
        width * (samples / width) + width + more * width := by
      rw [Nat.add_mul, Nat.add_mul, Nat.one_mul, Nat.mul_comm]
    rw [product]
    cases more with
    | zero => omega
    | succ more =>
        rw [Nat.succ_mul]
        omega
  rw [products]
  split <;> grind

theorem verify_ensures {Item Value : Type} {roll : Value → Item → Value} {first : Value}
    {read : Rolling roll first} (expected : Nat) (actual : UInt32) :
    Ensures (verify expected actual) read
      (fun _ after => after = read ∧ expected = actual.toNat)
      (fun error _ => error = .valueError MISMATCH ∧ expected ≠ actual.toNat) := by
  unfold verify
  apply ensures_ite
  · exact fun different => ensures_throw ⟨rfl, different⟩
  · exact fun same => ensures_pure ⟨rfl, not_not.mp same⟩

theorem Sampler.replay_ensures (sampler : Sampler Index) (cursorBatches expectedChecksum : Nat) :
    Ensures (sampler.replay pickle cursorBatches expectedChecksum) .new
      (fun startSamples after => after.Reads sampler.produced ∧
        after.items = sampler.replayed cursorBatches ∧
        startSamples = (sampler.replayed cursorBatches).length ∧
        sampler.Reaches cursorBatches ∧
        expectedChecksum = sampler.replayedChecksum pickle cursorBatches)
      (fun error _ => error = .valueError MISMATCH ∧
        ¬(sampler.Reaches cursorBatches ∧
          expectedChecksum = sampler.replayedChecksum pickle cursorBatches)) := by
  have start : Rolling.Reads sampler.produced (.new : Rolling (updateChecksum pickle) 0) :=
    Rolling.reads_new
  obtain ⟨reads, items⟩ := start.draw (cursorBatches * sampler.width)
  have ended := @Rolling.exhausted_draw_iff _ _ (updateChecksum pickle) 0 sampler.produced .new rfl
    (cursorBatches * sampler.width)
  have whole : cursorBatches * sampler.width -
      (.new : Rolling (updateChecksum pickle) 0).items.length = cursorBatches * sampler.width :=
    Nat.sub_zero _
  unfold Sampler.replay
  apply ensures_step (generateTo_end _)
  apply ensures_get
  rw [whole]
  generalize (.new : Rolling (updateChecksum pickle) 0).draw sampler.produced
    (cursorBatches * sampler.width) = after at reads items ended
  have items : after.items = sampler.replayed cursorBatches := items
  have bound : (sampler.replayed cursorBatches).length ≤ cursorBatches * sampler.width :=
    length_drawn_le _ _ _
  have value := reads.value_eq (Nat.le_refl after.items.length)
  have positive := sampler.width_pos
  rw [← reads.items] at value
  dsimp only
  rw [Nat.min_eq_right (items ▸ bound), value, items]
  apply ensures_ite
  · rintro ⟨exhausted, few⟩
    have short := ended.mp exhausted
    have lost := (available_lt_iff positive short (!sampler.dropLast)).mp few
    refine ensures_throw ⟨rfl, fun both => ?_⟩
    rcases both.1 with full | ⟨kept, close⟩
    · exact absurd full (Nat.ne_of_lt short)
    · exact lost ⟨by rw [kept]; rfl, close⟩
  · intro enough
    have reached : sampler.Reaches cursorBatches := by
      rcases Nat.lt_or_eq_of_le bound with short | full
      · have available := (available_lt_iff positive short (!sampler.dropLast)).not.mp
          fun few => enough ⟨ended.mpr short, few⟩
        rw [not_not, Bool.not_eq_true'] at available
        exact Or.inr available
      · exact Or.inl full
    apply ensures_bind
    · apply (verify_ensures _ _).weaken (fun _ _ verified => verified)
      rintro error _ ⟨isError, different⟩
      exact ⟨isError, fun both => different both.2⟩
    rintro _ _ ⟨rfl, same⟩
    exact ensures_pure ⟨reads, items, rfl, reached, same⟩

/-- A length that `len` may answer. -/
def Sized (length : Option Int) : Prop := ∀ reported, length = some reported → 0 ≤ reported

theorem sized_iff {length : Option Int} :
    ¬length.any (fun length => length < 0) = true ↔ Sized length := by
  unfold Sized
  cases length with
  | none => exact iff_of_true Bool.false_ne_true nofun
  | some reported => simp

/-- A runtime opens behind the prefix its sampler hands out, and on its checksum alone. -/
theorem SamplerRuntime.new_cases (sampler : Sampler Index) (cursorBatches expectedChecksum : Nat) :
    (∃ text, SamplerRuntime.new pickle sampler cursorBatches expectedChecksum =
        .error (.valueError text) ∧
      ¬(Sized sampler.length ∧ sampler.Reaches cursorBatches ∧
        expectedChecksum = sampler.replayedChecksum pickle cursorBatches)) ∨
    ∃ runtime, SamplerRuntime.new pickle sampler cursorBatches expectedChecksum = .ok runtime ∧
      runtime.read.Reads sampler.produced ∧
      runtime.read.items = sampler.replayed cursorBatches ∧
      runtime.startSamples = (sampler.replayed cursorBatches).length ∧
      sampler.Reaches cursorBatches ∧
      expectedChecksum = sampler.replayedChecksum pickle cursorBatches := by
  have ensured := @Sampler.replay_ensures _ pickle sampler cursorBatches expectedChecksum
  unfold SamplerRuntime.new
  split
  · rename_i negative
    exact Or.inl ⟨_, rfl, fun all => sized_iff.mpr all.1 negative⟩
  · unfold Ensures at ensured
    split at ensured
    · rename_i startSamples after done
      rw [done]
      exact Or.inr ⟨_, rfl, ensured⟩
    · rename_i error after done
      rw [done, ensured.1]
      exact Or.inl ⟨_, rfl, fun all => ensured.2 all.2⟩

/-- What a batch sampler hands out in some batches. -/
def BatchSampler.replayed (sampler : BatchSampler Index) (cursorBatches : Nat) :
    List (List Index) := drawn sampler.produced 0 cursorBatches

def BatchSampler.replayedChecksum (pickle : Index → List UInt8) (sampler : BatchSampler Index)
    (cursorBatches : Nat) : Nat :=
  ((sampler.replayed cursorBatches).foldl (updateBatch pickle) (0, 0)).2.toNat

def BatchSampler.Reaches (sampler : BatchSampler Index) (cursorBatches : Nat) : Prop :=
  (sampler.replayed cursorBatches).length = cursorBatches

theorem BatchSampler.replay_ensures (sampler : BatchSampler Index)
    (cursorBatches expectedChecksum : Nat) :
    Ensures (sampler.replay pickle cursorBatches expectedChecksum) .new
      (fun _ after => after.Reads sampler.produced ∧
        after.items = sampler.replayed cursorBatches ∧ sampler.Reaches cursorBatches ∧
        expectedChecksum = sampler.replayedChecksum pickle cursorBatches)
      (fun error _ => error = .valueError MISMATCH ∧
        ¬(sampler.Reaches cursorBatches ∧
          expectedChecksum = sampler.replayedChecksum pickle cursorBatches)) := by
  have start : Rolling.Reads sampler.produced (.new : Rolling (updateBatch pickle) (0, 0)) :=
    Rolling.reads_new
  obtain ⟨reads, items⟩ := start.draw cursorBatches
  have whole : cursorBatches - (.new : Rolling (updateBatch pickle) (0, 0)).items.length =
      cursorBatches := Nat.sub_zero _
  unfold BatchSampler.replay
  apply ensures_step (generateTo_end _)
  apply ensures_get
  rw [whole]
  generalize (.new : Rolling (updateBatch pickle) (0, 0)).draw sampler.produced
    cursorBatches = after at reads items
  have items : after.items = sampler.replayed cursorBatches := items
  have bound : (sampler.replayed cursorBatches).length ≤ cursorBatches := length_drawn_le _ _ _
  have value := reads.value_eq (Nat.le_refl after.items.length)
  rw [← reads.items] at value
  rw [items] at value ⊢
  apply ensures_ite
  · exact fun short => ensures_throw ⟨rfl, fun both => absurd both.1 (Nat.ne_of_lt short)⟩
  · intro enough
    have reached : sampler.Reaches cursorBatches := Nat.le_antisymm bound (Nat.le_of_not_lt enough)
    rw [show (sampler.replayed cursorBatches).length = cursorBatches from reached] at value
    rw [value]
    apply (verify_ensures _ _).weaken
    · rintro _ _ ⟨rfl, same⟩
      exact ⟨reads, items, reached, same⟩
    · rintro error _ ⟨isError, different⟩
      exact ⟨isError, fun both => different both.2⟩

theorem BatchSamplerRuntime.new_cases (sampler : BatchSampler Index)
    (cursorBatches expectedChecksum : Nat) :
    (∃ text, BatchSamplerRuntime.new pickle sampler cursorBatches expectedChecksum =
        .error (.valueError text) ∧
      ¬(Sized sampler.length ∧ sampler.Reaches cursorBatches ∧
        expectedChecksum = sampler.replayedChecksum pickle cursorBatches)) ∨
    ∃ runtime, BatchSamplerRuntime.new pickle sampler cursorBatches expectedChecksum =
        .ok runtime ∧ runtime.startBatch = cursorBatches ∧
      runtime.read.Reads sampler.produced ∧
      runtime.read.items = sampler.replayed cursorBatches ∧ sampler.Reaches cursorBatches ∧
      expectedChecksum = sampler.replayedChecksum pickle cursorBatches := by
  have ensured := @BatchSampler.replay_ensures _ pickle sampler cursorBatches expectedChecksum
  unfold BatchSamplerRuntime.new
  split
  · rename_i negative
    exact Or.inl ⟨_, rfl, fun all => sized_iff.mpr all.1 negative⟩
  · unfold Ensures at ensured
    split at ensured
    · rename_i value after done
      rw [done]
      exact Or.inr ⟨_, rfl, rfl, ensured⟩
    · rename_i error after done
      rw [done, ensured.1]
      exact Or.inl ⟨_, rfl, fun all => ensured.2 all.2⟩

end Replay

end Hyperloader.State
