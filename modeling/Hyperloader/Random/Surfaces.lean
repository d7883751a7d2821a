/-
Module: Hyperloader.Random.Surfaces
Purpose: The lazily armed random and NumPy surfaces, the sample and collation
  installs of the worker and of the calling process, and the word streams the
  surfaces serve after each.
Trusted boundary: NumPy's bit generator is a parameter
Main exports:
  PhiloxRandom, NumpyModuleSurface, Surfaces, InProcessRngSession,
  WorkerRngContext, served_eq, collateStream_separate_iff
-/
import Hyperloader.Process.Worker
import Hyperloader.Random.Philox

namespace Hyperloader.Random

open Process

/-! ### Surfaces -/

/-- An installed sample tuple.  The surfaces compare it by identity, which the token
stands for. -/
structure Install where
  token : Nat
  stream : RngStream

def STATE_RANDOM : UInt32 := 7

def STATE_NUMPY : UInt64 := 8

def DRAW_LIMIT : Nat := 1 <<< 32

/-- The Philox core of the module-level `random`. -/
structure PhiloxRandom where
  armed : Option Nat
  key : UInt64
  coord : UInt64
  nextBlock : Nat
  words : List UInt32
  wordOffset : Nat

namespace PhiloxRandom

def new : PhiloxRandom :=
  { armed := none, key := 0, coord := 0, nextBlock := 0, words := [], wordOffset := 0 }

/-- Start the stream of one coordinate. -/
def rekey (surface : PhiloxRandom) (key coord : UInt64) : PhiloxRandom :=
  { surface with key := key, coord := coord, nextBlock := 0, words := [], wordOffset := 0 }

/-- `_ensure_armed` -/
def ensureArmed (surface : PhiloxRandom) : Option Install → PhiloxRandom
  | none => surface
  | some sample =>
      if surface.armed = some sample.token then surface
      else
        { surface.rekey sample.stream.key sample.stream.coordinate with
          armed := some sample.token }

/-- The words of a block in the order they are served. -/
def blockWords (counter : Counter) : List UInt32 :=
  [counter.word0, counter.word1, counter.word2, counter.word3]

/-- The part of `_next_word` after arming; `none` is the `OverflowError` of an
exhausted counter domain. -/
def takeWord (surface : PhiloxRandom) : Option (UInt32 × PhiloxRandom) :=
  if surface.wordOffset = surface.words.length then
    if surface.nextBlock = DRAW_LIMIT then none
    else
      let words := blockWords
        (blockFromKey surface.key surface.coord (UInt32.ofNat surface.nextBlock) STATE_RANDOM)
      some (words[0]!,
        { surface with words := words, nextBlock := surface.nextBlock + 1, wordOffset := 1 })
  else
    some (surface.words[surface.wordOffset]!,
      { surface with wordOffset := surface.wordOffset + 1 })

/-- `_next_word` -/
def nextWord (surface : PhiloxRandom) (current : Option Install) :
    Option (UInt32 × PhiloxRandom) :=
  (surface.ensureArmed current).takeWord

/-- The words of `count` draws while one sample stays installed, up to the end of the
counter domain. -/
def serve (current : Option Install) : Nat → PhiloxRandom → List UInt32
  | 0, _ => []
  | count + 1, surface =>
      match surface.nextWord current with
      | none => []
      | some (word, surface) => word :: serve current count surface

end PhiloxRandom

/-- The state of NumPy's Philox bit generator that a rekey writes. -/
structure NumpyState where
  counter : UInt64 × UInt64 × UInt64 × UInt64
  key : UInt64 × UInt64
  buffer : List UInt64
  bufferPos : Nat
  hasUint32 : Nat
  uinteger : Nat

structure NumpyModuleSurface where
  armed : Option Nat
  state : NumpyState
  legacySeed : UInt64
  legacyDirty : Bool

namespace NumpyModuleSurface

/-- `np.random.Philox(key=0, counter=0)`, not yet armed. -/
def new : NumpyModuleSurface :=
  { armed := none
    state :=
      { counter := (0, 0, 0, 0), key := (0, 0), buffer := [0, 0, 0, 0], bufferPos := 4,
        hasUint32 := 0, uinteger := 0 }
    legacySeed := 0
    legacyDirty := true }

/-- The NumPy key of an epoch key. -/
def streamKey (key : UInt64) : UInt64 := key ^^^ splitmix64 STATE_NUMPY

def rekey (surface : NumpyModuleSurface) (key coord : UInt64) : NumpyModuleSurface :=
  { surface with
    state :=
      { counter := (coord, 0, 0, 0), key := (streamKey key, 0), buffer := [0, 0, 0, 0],
        bufferPos := 4, hasUint32 := 0, uinteger := 0 }
    legacySeed := streamKey key &&& 0xFFFFFFFF
    legacyDirty := true }

def ensureArmed (surface : NumpyModuleSurface) : Option Install → NumpyModuleSurface
  | none => surface
  | some sample =>
      if surface.armed = some sample.token then surface
      else
        { surface.rekey sample.stream.key sample.stream.coordinate with
          armed := some sample.token }

/-- The words of `count` draws from NumPy's bit generator, which is not part of the
repository: `generate` is its step. -/
def serve {Word : Type} (generate : NumpyState → Word × NumpyState)
    (current : Option Install) : Nat → NumpyModuleSurface → List Word
  | 0, _ => []
  | count + 1, surface =>
      let armed := surface.ensureArmed current
      let drawn := generate armed.state
      drawn.1 :: serve generate current count { armed with state := drawn.2 }

end NumpyModuleSurface

/-! ### Sessions -/

/-- The installed sample and the two surfaces bound to it.  A surface is armed with a
sample that was installed, so a fresh install always rearms it. -/
structure Surfaces where
  current : Option Install
  installs : Nat
  random : PhiloxRandom
  numpy : NumpyModuleSurface
  randomBelow : ∀ token, random.armed = some token → token < installs
  numpyBelow : ∀ token, numpy.armed = some token → token < installs

namespace Surfaces

def new : Surfaces where
  current := none
  installs := 0
  random := PhiloxRandom.new
  numpy := NumpyModuleSurface.new
  randomBelow := by
    intro token impossible
    cases impossible
  numpyBelow := by
    intro token impossible
    cases impossible

/-- Assign `CurrentSample.value`. -/
def select (surfaces : Surfaces) (stream : RngStream) : Surfaces where
  current := some ⟨surfaces.installs, stream⟩
  installs := surfaces.installs + 1
  random := surfaces.random
  numpy := surfaces.numpy
  randomBelow := fun token armed => Nat.lt_succ_of_lt (surfaces.randomBelow token armed)
  numpyBelow := fun token armed => Nat.lt_succ_of_lt (surfaces.numpyBelow token armed)

/-- The key, coordinate and stream the random surface reads next. -/
def randomIdentity (surfaces : Surfaces) : UInt64 × UInt64 × UInt32 :=
  let armed := surfaces.random.ensureArmed surfaces.current
  (armed.key, armed.coord, STATE_RANDOM)

/-- The key and counter the NumPy surface reads next. -/
def numpyIdentity (surfaces : Surfaces) :
    (UInt64 × UInt64) × (UInt64 × UInt64 × UInt64 × UInt64) :=
  let armed := surfaces.numpy.ensureArmed surfaces.current
  (armed.state.key, armed.state.counter)

def randomWords (surfaces : Surfaces) (count : Nat) : List UInt32 :=
  surfaces.random.serve surfaces.current count

def numpyWords {Word : Type} (generate : NumpyState → Word × NumpyState)
    (surfaces : Surfaces) (count : Nat) : List Word :=
  surfaces.numpy.serve generate surfaces.current count

end Surfaces

/-- The session of one batch in the calling process. -/
structure InProcessRngSession where
  surfaces : Surfaces

namespace InProcessRngSession

def new : InProcessRngSession := ⟨.new⟩

def install (session : InProcessRngSession) (rootSeed epoch coordinate : Nat) :
    Except PythonException RngStream × InProcessRngSession :=
  match sampleRngContext rootSeed epoch coordinate with
  | none => (.error overflowError, session)
  | some sample => (.ok sample, ⟨session.surfaces.select sample⟩)

def installCollate (session : InProcessRngSession) (rootSeed epoch ordinal : Nat) :
    Except PythonException RngStream × InProcessRngSession :=
  match collateRngContext rootSeed epoch ordinal with
  | none => (.error overflowError, session)
  | some sample => (.ok sample, ⟨session.surfaces.select sample⟩)

end InProcessRngSession

/-- The context of a worker.  `workerInfo` is the seed begun last on the attached
dataset. -/
structure WorkerRngContext where
  surfaces : Surfaces
  workerInfo : Option (Option UInt64)

namespace WorkerRngContext

def new : WorkerRngContext := ⟨.new, none⟩

/-- `attach_dataset` -/
def attachDataset (context : WorkerRngContext) :
    Except PythonException WorkerRngContext :=
  match context.workerInfo with
  | some _ => .error (runtimeError "worker RNG context already has a dataset")
  | none => .ok { context with workerInfo := some none }

/-- Assign the sample, then begin it on the dataset. -/
def begin (context : WorkerRngContext) (sample : RngStream) :
    Except PythonException UInt64 × WorkerRngContext :=
  let selected := { context with surfaces := context.surfaces.select sample }
  match context.workerInfo with
  | none => (.error (runtimeError "worker RNG context has no attached dataset"), selected)
  | some _ =>
      (.ok sample.torchSeed, { selected with workerInfo := some (some sample.torchSeed) })

def install (context : WorkerRngContext) (rootSeed epoch position : Nat) :
    Except PythonException UInt64 × WorkerRngContext :=
  match sampleRngContext rootSeed epoch position with
  | none => (.error overflowError, context)
  | some sample => context.begin sample

def installCollate (context : WorkerRngContext) (rootSeed epoch ordinal : Nat) :
    Except PythonException UInt64 × WorkerRngContext :=
  match collateRngContext rootSeed epoch ordinal with
  | none => (.error overflowError, context)
  | some sample => context.begin sample

end WorkerRngContext

/-! ### What a fresh install serves -/

/-- The surface of a fresh stream. -/
def freshRandom (token : Nat) (key coord : UInt64) : PhiloxRandom :=
  { armed := some token, key := key, coord := coord, nextBlock := 0, words := [],
    wordOffset := 0 }

theorem ensureArmed_select (surfaces : Surfaces) (stream : RngStream) :
    (surfaces.select stream).random.ensureArmed (surfaces.select stream).current =
      freshRandom surfaces.installs stream.key stream.coordinate := by
  have stale : surfaces.random.armed ≠ some surfaces.installs := by
    intro armed
    exact Nat.lt_irrefl _ (surfaces.randomBelow _ armed)
  exact if_neg stale

theorem numpy_ensureArmed_select (surfaces : Surfaces) (stream : RngStream) :
    (surfaces.select stream).numpy.ensureArmed (surfaces.select stream).current =
      { surfaces.numpy.rekey stream.key stream.coordinate with
        armed := some surfaces.installs } := by
  have stale : surfaces.numpy.armed ≠ some surfaces.installs := by
    intro armed
    exact Nat.lt_irrefl _ (surfaces.numpyBelow _ armed)
  exact if_neg stale

theorem ensureArmed_armed {surface : PhiloxRandom} {sample : Install}
    (armed : surface.armed = some sample.token) :
    surface.ensureArmed (some sample) = surface := if_pos armed

theorem armed_ensureArmed (surface : PhiloxRandom) (sample : Install) :
    (surface.ensureArmed (some sample)).armed = some sample.token := by
  by_cases armed : surface.armed = some sample.token
  · rw [ensureArmed_armed armed]
    exact armed
  · rw [PhiloxRandom.ensureArmed, if_neg armed]

/-- The words of a surface that stays armed are the words it takes. -/
def PhiloxRandom.take : Nat → PhiloxRandom → List UInt32
  | 0, _ => []
  | count + 1, surface =>
      match surface.takeWord with
      | none => []
      | some (word, surface) => word :: PhiloxRandom.take count surface

theorem takeWord_armed {surface next : PhiloxRandom} {word : UInt32}
    (taken : surface.takeWord = some (word, next)) : next.armed = surface.armed := by
  unfold PhiloxRandom.takeWord at taken
  split at taken
  · split at taken
    · cases taken
    · cases taken
      rfl
  · cases taken
    rfl

theorem serve_armed {sample : Install} (count : Nat) {surface : PhiloxRandom}
    (armed : surface.armed = some sample.token) :
    surface.serve (some sample) count = surface.take count := by
  induction count generalizing surface with
  | zero => rfl
  | succ count ih =>
      rw [PhiloxRandom.serve, PhiloxRandom.take, PhiloxRandom.nextWord, ensureArmed_armed armed]
      cases taken : surface.takeWord with
      | none => rfl
      | some pair =>
          obtain ⟨word, next⟩ := pair
          have kept := (takeWord_armed taken).trans armed
          exact congrArg (word :: ·) (ih kept)

/-- Arming is done by the first draw and changes nothing after it. -/
theorem serve_ensureArmed (current : Option Install) (count : Nat) (surface : PhiloxRandom) :
    surface.serve current count = (surface.ensureArmed current).serve current count := by
  cases count with
  | zero => rfl
  | succ count =>
      have twice : (surface.ensureArmed current).ensureArmed current =
          surface.ensureArmed current := by
        cases current with
        | none => rfl
        | some sample =>
            exact ensureArmed_armed (armed_ensureArmed surface sample)
      rw [PhiloxRandom.serve, PhiloxRandom.serve, PhiloxRandom.nextWord, PhiloxRandom.nextWord,
        twice]

/-- The stream of an install depends on its key and coordinate alone. -/
def streamWords (key coord : UInt64) (count : Nat) : List UInt32 :=
  (freshRandom 0 key coord).take count

/-- Taking a word does not look at what the surface is armed with. -/
theorem takeWord_token (token : Option Nat) (surface : PhiloxRandom) :
    PhiloxRandom.takeWord { surface with armed := token } =
      surface.takeWord.map fun taken => (taken.1, { taken.2 with armed := token }) := by
  unfold PhiloxRandom.takeWord
  split
  · split <;> rfl
  · rfl

theorem take_token (token : Option Nat) (count : Nat) (surface : PhiloxRandom) :
    PhiloxRandom.take count { surface with armed := token } = surface.take count := by
  induction count generalizing surface with
  | zero => rfl
  | succ count ih =>
      rw [PhiloxRandom.take, PhiloxRandom.take, takeWord_token]
      cases surface.takeWord with
      | none => rfl
      | some taken => exact congrArg (taken.1 :: ·) (ih taken.2)

/-- A selected surface serves the words of its stream. -/
theorem served_eq (surfaces : Surfaces) (stream : RngStream) (count : Nat) :
    (surfaces.select stream).randomWords count =
      streamWords stream.key stream.coordinate count := by
  rw [Surfaces.randomWords, serve_ensureArmed, ensureArmed_select]
  have armed : (freshRandom surfaces.installs stream.key stream.coordinate).armed =
      some (⟨surfaces.installs, stream⟩ : Install).token := rfl
  calc (freshRandom surfaces.installs stream.key stream.coordinate).serve
          (some ⟨surfaces.installs, stream⟩) count
      = (freshRandom surfaces.installs stream.key stream.coordinate).take count :=
        serve_armed count armed
    _ = streamWords stream.key stream.coordinate count :=
        take_token (some surfaces.installs) count (freshRandom 0 stream.key stream.coordinate)

/-- The first four words are the first block. -/
theorem streamWords_four (key coord : UInt64) :
    streamWords key coord 4 =
      PhiloxRandom.blockWords (blockFromKey key coord 0 STATE_RANDOM) := rfl

/-- Under one key different coordinates serve different words. -/
theorem streamWords_injective {key coord other : UInt64}
    (same : streamWords key coord 4 = streamWords key other 4) : coord = other := by
  rw [streamWords_four, streamWords_four] at same
  have blocks : blockFromKey key coord 0 STATE_RANDOM = blockFromKey key other 0 STATE_RANDOM := by
    simp only [PhiloxRandom.blockWords, List.cons.injEq] at same
    obtain ⟨word0, word1, word2, word3, _⟩ := same
    cases one : blockFromKey key coord 0 STATE_RANDOM
    cases two : blockFromKey key other 0 STATE_RANDOM
    rw [one, two] at word0 word1 word2 word3
    exact Counter.mk.injEq .. ▸ ⟨word0, word1, word2, word3⟩
  exact (blockFromKey_injective blocks).1

/-! ### Sample and collation streams of one epoch -/

/-- The stream a sample of the epoch is installed with. -/
def sampleStream (rootSeed epoch coordinate : UInt64) : RngStream :=
  { torchSeed := seedOfBlock (blockFromKey (key64 rootSeed epoch) coordinate 0 SAMPLE_STREAM)
    key := key64 rootSeed epoch
    coordinate := coordinate }

/-- The stream a batch of the epoch is collated with: only the torch seed comes from
the collation stream. -/
def collateStream (rootSeed epoch ordinal : UInt64) : RngStream :=
  { torchSeed := seedOfBlock (blockFromKey (key64 rootSeed epoch) ordinal 0 COLLATE_STREAM)
    key := key64 rootSeed epoch
    coordinate := ordinal }

theorem asU64_toNat (value : UInt64) : asU64 value.toNat = some value := by
  rw [asU64, if_pos value.toNat_lt, UInt64.ofNat_toNat]

theorem sampleRngContext_eq (rootSeed epoch coordinate : UInt64) :
    sampleRngContext rootSeed.toNat epoch.toNat coordinate.toNat =
      some (sampleStream rootSeed epoch coordinate) := by
  simp only [sampleRngContext, asU64_toNat, Option.bind_eq_bind, Option.bind_some, sampleStream]

theorem collateRngContext_eq (rootSeed epoch ordinal : UInt64) :
    collateRngContext rootSeed.toNat epoch.toNat ordinal.toNat =
      some (collateStream rootSeed epoch ordinal) := by
  simp only [collateRngContext, sampleRngContext_eq, Option.bind_eq_bind, Option.bind_some,
    sampleStream, collateStream]

theorem begin_surfaces (context : WorkerRngContext) (sample : RngStream) :
    (context.begin sample).2.surfaces = context.surfaces.select sample := by
  unfold WorkerRngContext.begin
  dsimp only
  split <;> rfl

/-- The streams after two installs differ on both surfaces, and the words of the random
surface show it. -/
structure StreamsSeparate (collating sampling : Surfaces) : Prop where
  random : collating.randomIdentity ≠ sampling.randomIdentity
  numpy : collating.numpyIdentity ≠ sampling.numpyIdentity
  words : ∃ count, collating.randomWords count ≠ sampling.randomWords count

theorem randomIdentity_select (surfaces : Surfaces) (stream : RngStream) :
    (surfaces.select stream).randomIdentity =
      (stream.key, stream.coordinate, STATE_RANDOM) := by
  rw [Surfaces.randomIdentity, ensureArmed_select]
  rfl

theorem numpyIdentity_select (surfaces : Surfaces) (stream : RngStream) :
    (surfaces.select stream).numpyIdentity =
      ((NumpyModuleSurface.streamKey stream.key, 0), (stream.coordinate, 0, 0, 0)) := by
  rw [Surfaces.numpyIdentity, numpy_ensureArmed_select]
  rfl

theorem separate_iff (collating sampling : Surfaces) (rootSeed epoch ordinal coordinate : UInt64) :
    StreamsSeparate (collating.select (collateStream rootSeed epoch ordinal))
        (sampling.select (sampleStream rootSeed epoch coordinate)) ↔
      ordinal ≠ coordinate := by
  constructor
  · rintro ⟨random, _, _⟩ same
    apply random
    rw [randomIdentity_select, randomIdentity_select, same]
    rfl
  · intro apart
    refine ⟨?_, ?_, 4, ?_⟩
    · intro same
      rw [randomIdentity_select, randomIdentity_select] at same
      exact apart (Prod.mk.inj (Prod.mk.inj same).2).1
    · intro same
      rw [numpyIdentity_select, numpyIdentity_select] at same
      exact apart (Prod.mk.inj (Prod.mk.inj same).2).1
    · intro same
      rw [served_eq, served_eq] at same
      exact apart (streamWords_injective same)

/-- NumPy's generator continues from the state alone. -/
theorem numpy_serve_congr {Word : Type} (generate : NumpyState → Word × NumpyState)
    {one two : NumpyModuleSurface} {oneSample twoSample : Install} (count : Nat)
    (oneArmed : one.armed = some oneSample.token) (twoArmed : two.armed = some twoSample.token)
    (states : one.state = two.state) :
    one.serve generate (some oneSample) count = two.serve generate (some twoSample) count := by
  induction count generalizing one two with
  | zero => rfl
  | succ count ih =>
      have oneKept : one.ensureArmed (some oneSample) = one := if_pos oneArmed
      have twoKept : two.ensureArmed (some twoSample) = two := if_pos twoArmed
      rw [NumpyModuleSurface.serve, NumpyModuleSurface.serve, oneKept, twoKept, states]
      exact congrArg ((generate two.state).1 :: ·) (ih oneArmed twoArmed rfl)

theorem numpy_serve_ensureArmed {Word : Type} (generate : NumpyState → Word × NumpyState)
    (sample : Install) (count : Nat) (surface : NumpyModuleSurface) :
    surface.serve generate (some sample) count =
      (surface.ensureArmed (some sample)).serve generate (some sample) count := by
  cases count with
  | zero => rfl
  | succ count =>
      have twice : (surface.ensureArmed (some sample)).ensureArmed (some sample) =
          surface.ensureArmed (some sample) := by
        by_cases armed : surface.armed = some sample.token
        · have kept : surface.ensureArmed (some sample) = surface := if_pos armed
          rw [kept, kept]
        · have rearmed : (surface.ensureArmed (some sample)).armed = some sample.token := by
            rw [NumpyModuleSurface.ensureArmed, if_neg armed]
          exact if_pos rearmed
      rw [NumpyModuleSurface.serve, NumpyModuleSurface.serve, twice]

/-- With one key and coordinate NumPy serves one stream, whatever its generator is. -/
theorem numpyWords_eq {Word : Type} (generate : NumpyState → Word × NumpyState)
    (collating sampling : Surfaces) {one two : RngStream} (keys : one.key = two.key)
    (coordinates : one.coordinate = two.coordinate) (count : Nat) :
    (collating.select one).numpyWords generate count =
      (sampling.select two).numpyWords generate count := by
  have oneArmed := numpy_ensureArmed_select collating one
  have twoArmed := numpy_ensureArmed_select sampling two
  have states : (collating.numpy.rekey one.key one.coordinate).state =
      (sampling.numpy.rekey two.key two.coordinate).state := by
    rw [keys, coordinates]
    rfl
  unfold Surfaces.numpyWords
  calc (collating.select one).numpy.serve generate (collating.select one).current count
      = ((collating.select one).numpy.ensureArmed (collating.select one).current).serve generate
          (collating.select one).current count := numpy_serve_ensureArmed generate _ count _
    _ = ((sampling.select two).numpy.ensureArmed (sampling.select two).current).serve generate
          (sampling.select two).current count := by
        rw [oneArmed, twoArmed]
        exact numpy_serve_congr generate count rfl rfl states
    _ = (sampling.select two).numpy.serve generate (sampling.select two).current count :=
        (numpy_serve_ensureArmed generate _ count _).symm

/-- A batch is collated on streams of its own exactly when its ordinal is not the
coordinate of the sample, in the calling process and in a worker.  Where it is, the
random surface serves the sample's words again, and so does NumPy. -/
theorem collateStream_separate_iff (rootSeed epoch ordinal coordinate : UInt64) :
    (∀ collating sampling : InProcessRngSession,
      StreamsSeparate
          (collating.installCollate rootSeed.toNat epoch.toNat ordinal.toNat).2.surfaces
          (sampling.install rootSeed.toNat epoch.toNat coordinate.toNat).2.surfaces ↔
        ordinal ≠ coordinate) ∧
    (∀ collating sampling : WorkerRngContext,
      StreamsSeparate
          (collating.installCollate rootSeed.toNat epoch.toNat ordinal.toNat).2.surfaces
          (sampling.install rootSeed.toNat epoch.toNat coordinate.toNat).2.surfaces ↔
        ordinal ≠ coordinate) ∧
    (ordinal = coordinate → ∀ (collating sampling : WorkerRngContext) (count : Nat),
      (collating.installCollate rootSeed.toNat epoch.toNat
          ordinal.toNat).2.surfaces.randomWords count =
        (sampling.install rootSeed.toNat epoch.toNat
          coordinate.toNat).2.surfaces.randomWords count ∧
      ∀ (Word : Type) (generate : NumpyState → Word × NumpyState),
        (collating.installCollate rootSeed.toNat epoch.toNat
            ordinal.toNat).2.surfaces.numpyWords generate count =
          (sampling.install rootSeed.toNat epoch.toNat
            coordinate.toNat).2.surfaces.numpyWords generate count) := by
  simp only [InProcessRngSession.installCollate, InProcessRngSession.install,
    WorkerRngContext.installCollate, WorkerRngContext.install, sampleRngContext_eq,
    collateRngContext_eq, begin_surfaces]
  refine ⟨fun _ _ => separate_iff _ _ _ _ _ _, fun _ _ => separate_iff _ _ _ _ _ _, ?_⟩
  intro same collating sampling count
  constructor
  · rw [served_eq, served_eq, same]
    rfl
  · intro Word generate
    have keys : (collateStream rootSeed epoch ordinal).key =
        (sampleStream rootSeed epoch coordinate).key := rfl
    have coordinates : (collateStream rootSeed epoch ordinal).coordinate =
        (sampleStream rootSeed epoch coordinate).coordinate := same
    exact numpyWords_eq generate _ _ keys coordinates count

/-- The first batch of an epoch is collated on the words of its first sample. -/
theorem collate_repeats_sample : ¬∀ (rootSeed epoch ordinal coordinate : UInt64)
    (collating sampling : InProcessRngSession),
    StreamsSeparate
      (collating.installCollate rootSeed.toNat epoch.toNat ordinal.toNat).2.surfaces
      (sampling.install rootSeed.toNat epoch.toNat coordinate.toNat).2.surfaces := by
  intro separate
  have apart := separate 0 0 0 0 .new .new
  simp only [InProcessRngSession.installCollate, InProcessRngSession.install,
    sampleRngContext_eq, collateRngContext_eq] at apart
  exact (separate_iff _ _ 0 0 0 0).mp apart rfl

end Hyperloader.Random
