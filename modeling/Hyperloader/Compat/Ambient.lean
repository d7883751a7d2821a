/-
Module: Hyperloader.Compat.Ambient
Purpose: The random state of the calling process that the zero-worker torch mode carries, how it
  is captured and restored, and the checkpoint format it travels in.
Trusted boundary: the generators and their serialized forms, `==`, json.dumps and SHA-256.
Main exports:
  Generators, Ambient, captureGlobals, restoreGlobals, restoreGenerator, Decodes,
  CompatZeroCheckpoint, CompatZeroCheckpoint.fromDict_toDict
-/
import Mathlib.Data.Option.Basic
import Hyperloader.Foundations.Effects
import Hyperloader.State.Payload

namespace Hyperloader.Compat.Zero

open Foundations Hyperloader.State

/-! ### The random state of a process -/

/-- The serialized form of one generator's state, which reads back. -/
structure Serial (Held : Type) where
  write : Held → List UInt8
  read : List UInt8 → Except Raised Held
  read_write : ∀ held, read (write held) = .ok held

/-- The three generators of a process as `pickle` and torch serialize them. -/
structure Generators (Python Numpy Torch : Type) where
  python : Serial Python
  numpy : Serial Numpy
  torch : Serial Torch

structure Globals (Python Numpy Torch : Type) where
  random : Python
  numpy : Numpy
  torch : Torch

/-- What a loader draws from: the globals, and the generator it may own. -/
structure Ambient (Python Numpy Torch : Type) (owns : Bool) where
  globals : Globals Python Numpy Torch
  generator : Option Torch
  owned : generator.isSome = owns

variable {Python Numpy Torch : Type} {owns : Bool}

namespace Ambient

variable (ambient : Ambient Python Numpy Torch owns)

def setRandom (random : Python) : Ambient Python Numpy Torch owns :=
  { ambient with globals := { ambient.globals with random } }

def setNumpy (numpy : Numpy) : Ambient Python Numpy Torch owns :=
  { ambient with globals := { ambient.globals with numpy } }

def setTorch (torch : Torch) : Ambient Python Numpy Torch owns :=
  { ambient with globals := { ambient.globals with torch } }

/-- A state put in the generator, where there is one. -/
def setGenerator (torch : Torch) : Ambient Python Numpy Torch owns where
  globals := ambient.globals
  generator := ambient.generator.map fun _ => torch
  owned := by rw [Option.isSome_map, ambient.owned]

end Ambient

/-- The serialized globals, as `validate_globals` accepts them. -/
structure GlobalStates where
  random : List UInt8
  numpy : List UInt8
  torch : List UInt8

def PRESENCE_CHANGED : String := "compat checkpoint generator presence changed"

def GENERATOR_REQUIRED : String := "compat checkpoint requires its torch generator"

section Restore

variable (generators : Generators Python Numpy Torch)

/-- `capture_globals` -/
def captureGlobals (globals : Globals Python Numpy Torch) : GlobalStates where
  random := generators.python.write globals.random
  numpy := generators.numpy.write globals.numpy
  torch := generators.torch.write globals.torch

/-- `capture_generator` -/
def captureGenerator (generator : Option Torch) : Option (List UInt8) :=
  generator.map generators.torch.write

/-- `restore_globals`; what was set before a state that does not read stays set. -/
def restoreGlobals (states : GlobalStates) :
    EStateM Raised (Ambient Python Numpy Torch owns) PUnit := do
  let random ← MonadExcept.ofExcept (generators.python.read states.random)
  modify (·.setRandom random)
  let numpy ← MonadExcept.ofExcept (generators.numpy.read states.numpy)
  modify (·.setNumpy numpy)
  let torch ← MonadExcept.ofExcept (generators.torch.read states.torch)
  modify (·.setTorch torch)

/-- `restore_generator` -/
def restoreGenerator (payload : Option (List UInt8)) :
    EStateM Raised (Ambient Python Numpy Torch owns) PUnit := do
  let ambient ← get
  match payload, ambient.generator with
  | none, some _ => throw (.valueError PRESENCE_CHANGED)
  | none, none => pure ⟨⟩
  | some _, none => throw (.valueError GENERATOR_REQUIRED)
  | some bytes, some _ =>
      let torch ← MonadExcept.ofExcept (generators.torch.read bytes)
      modify (·.setGenerator torch)

/-- The serialized states are those of a process. -/
structure Decodes (generator : Option (List UInt8)) (states : GlobalStates)
    (ambient : Ambient Python Numpy Torch owns) : Prop where
  random : generators.python.read states.random = .ok ambient.globals.random
  numpy : generators.numpy.read states.numpy = .ok ambient.globals.numpy
  torch : generators.torch.read states.torch = .ok ambient.globals.torch
  generator : generator.map generators.torch.read = ambient.generator.map .ok

variable {generators} {states : GlobalStates} {payload : Option (List UInt8)}
  {before after : Ambient Python Numpy Torch owns}

theorem Ambient.eq_of_parts (globals : before.globals = after.globals)
    (generator : before.generator = after.generator) : before = after := by
  obtain ⟨one, held, owned⟩ := before
  obtain ⟨two, other, owned'⟩ := after
  cases globals
  cases generator
  rfl

theorem restoreGlobals_ok_iff :
    restoreGlobals generators states before = .ok ⟨⟩ after ↔
      generators.python.read states.random = .ok after.globals.random ∧
        generators.numpy.read states.numpy = .ok after.globals.numpy ∧
          generators.torch.read states.torch = .ok after.globals.torch ∧
            after.generator = before.generator := by
  unfold restoreGlobals
  constructor
  · intro done
    obtain ⟨_, _, read, afterRandom⟩ := bind_eq_ok_iff.mp done
    obtain ⟨random, rfl⟩ := ofExcept_eq_ok_iff.mp read
    obtain ⟨_, _, set, done⟩ := bind_eq_ok_iff.mp afterRandom
    cases set
    obtain ⟨_, _, read, afterNumpy⟩ := bind_eq_ok_iff.mp done
    obtain ⟨numpy, rfl⟩ := ofExcept_eq_ok_iff.mp read
    obtain ⟨_, _, set, done⟩ := bind_eq_ok_iff.mp afterNumpy
    cases set
    obtain ⟨_, _, read, afterTorch⟩ := bind_eq_ok_iff.mp done
    obtain ⟨torch, rfl⟩ := ofExcept_eq_ok_iff.mp read
    cases afterTorch
    exact ⟨random, numpy, torch, rfl⟩
  · rintro ⟨first, second, third, generator⟩
    refine bind_eq_ok_iff.mpr ⟨_, _, ofExcept_eq_ok_iff.mpr ⟨first, rfl⟩, ?_⟩
    refine bind_eq_ok_iff.mpr ⟨_, _, rfl, ?_⟩
    refine bind_eq_ok_iff.mpr ⟨_, _, ofExcept_eq_ok_iff.mpr ⟨second, rfl⟩, ?_⟩
    refine bind_eq_ok_iff.mpr ⟨_, _, rfl, ?_⟩
    refine bind_eq_ok_iff.mpr ⟨_, _, ofExcept_eq_ok_iff.mpr ⟨third, rfl⟩, ?_⟩
    exact congrArg (EStateM.Result.ok _) (Ambient.eq_of_parts rfl generator.symm)

theorem restoreGenerator_ok_iff :
    restoreGenerator generators payload before = .ok ⟨⟩ after ↔
      payload.map generators.torch.read = after.generator.map .ok ∧
        after.globals = before.globals := by
  obtain ⟨globals, held, owned⟩ := before
  obtain ⟨globals', held', owned'⟩ := after
  have both : held.isSome = held'.isSome := owned.trans owned'.symm
  constructor
  · intro done
    obtain ⟨_, _, same, done⟩ := bind_eq_ok_iff.mp done
    cases same
    cases payload with
    | none =>
        cases held with
        | none =>
            cases done
            exact ⟨rfl, rfl⟩
        | some _ => cases done
    | some bytes =>
        cases held with
        | none => cases done
        | some _ =>
            obtain ⟨torch, _, read, set⟩ := bind_eq_ok_iff.mp done
            obtain ⟨reads, rfl⟩ := ofExcept_eq_ok_iff.mp read
            cases set
            exact ⟨congrArg some reads, rfl⟩
  · rintro ⟨reads, same⟩
    cases same
    refine bind_eq_ok_iff.mpr ⟨_, _, rfl, ?_⟩
    cases payload with
    | none =>
        cases held' with
        | none =>
            cases held with
            | none => rfl
            | some _ => cases both
        | some _ => cases reads
    | some bytes =>
        cases held' with
        | none => cases reads
        | some torch =>
            cases held with
            | none => cases both
            | some _ =>
                exact bind_eq_ok_iff.mpr
                  ⟨torch, _, ofExcept_eq_ok_iff.mpr ⟨Option.some.inj reads, rfl⟩, rfl⟩

/-- The globals are restored before the generator where an iterator starts. -/
theorem restore_globals_generator_ok_iff :
    (restoreGlobals generators states >>= fun _ => restoreGenerator generators payload) before =
        .ok ⟨⟩ after ↔ Decodes generators payload states after := by
  constructor
  · intro done
    obtain ⟨_, middle, first, second⟩ := bind_eq_ok_iff.mp done
    obtain ⟨random, numpy, torch, -⟩ := restoreGlobals_ok_iff.mp first
    obtain ⟨generator, same⟩ := restoreGenerator_ok_iff.mp second
    exact ⟨same ▸ random, same ▸ numpy, same ▸ torch, generator⟩
  · intro decodes
    refine bind_eq_ok_iff.mpr ⟨⟨⟩, { before with globals := after.globals }, ?_, ?_⟩
    · exact restoreGlobals_ok_iff.mpr ⟨decodes.random, decodes.numpy, decodes.torch, rfl⟩
    · exact restoreGenerator_ok_iff.mpr ⟨decodes.generator, rfl⟩

/-- And after it where a checkpoint is installed. -/
theorem restore_generator_globals_ok_iff :
    (restoreGenerator generators payload >>= fun _ => restoreGlobals generators states) before =
        .ok ⟨⟩ after ↔ Decodes generators payload states after := by
  constructor
  · intro done
    obtain ⟨_, middle, first, second⟩ := bind_eq_ok_iff.mp done
    obtain ⟨random, numpy, torch, same⟩ := restoreGlobals_ok_iff.mp second
    obtain ⟨generator, -⟩ := restoreGenerator_ok_iff.mp first
    exact ⟨random, numpy, torch, same ▸ generator⟩
  · intro decodes
    refine bind_eq_ok_iff.mpr ⟨⟨⟩, { after with globals := before.globals }, ?_, ?_⟩
    · exact restoreGenerator_ok_iff.mpr ⟨decodes.generator, rfl⟩
    · exact restoreGlobals_ok_iff.mpr ⟨decodes.random, decodes.numpy, decodes.torch, rfl⟩

/-- What is captured of a process decodes to it. -/
theorem decodes_capture (ambient : Ambient Python Numpy Torch owns) :
    Decodes generators (captureGenerator generators ambient.generator)
      (captureGlobals generators ambient.globals) ambient where
  random := generators.python.read_write _
  numpy := generators.numpy.read_write _
  torch := generators.torch.read_write _
  generator := by
    rw [captureGenerator, Option.map_map]
    exact congrArg (ambient.generator.map ·) (funext fun held => generators.torch.read_write held)

/-- Serialized states are those of one process at most. -/
theorem Decodes.unique (one : Decodes generators payload states before)
    (two : Decodes generators payload states after) : before = after := by
  refine Ambient.eq_of_parts ?_ ?_
  · have random := Except.ok.inj (one.random.symm.trans two.random)
    have numpy := Except.ok.inj (one.numpy.symm.trans two.numpy)
    have torch := Except.ok.inj (one.torch.symm.trans two.torch)
    obtain ⟨⟨_, _, _⟩, _, _⟩ := before
    cases random
    cases numpy
    cases torch
    rfl
  · exact Option.map_injective (fun _ _ => Except.ok.inj)
      (one.generator.symm.trans two.generator)

/-- There is a generator's state where there is a generator. -/
theorem Decodes.owned (decodes : Decodes generators payload states after) :
    payload.isSome = owns := by
  have both := congrArg Option.isSome decodes.generator
  rw [Option.isSome_map, Option.isSome_map, after.owned] at both
  exact both

theorem isSome_captureGenerator (ambient : Ambient Python Numpy Torch owns) :
    (captureGenerator generators ambient.generator).isSome = owns :=
  (decodes_capture ambient).owned

end Restore

/-! ### The checkpoint format -/

variable {Other : Type} {library : Library Other}

/-- `CompatZeroCheckpoint` as `from_dict` accepts it. -/
structure CompatZeroCheckpoint (library : Library Other) where
  deliveredBatches : Nat
  iteratorGlobals : GlobalStates
  currentGlobals : GlobalStates
  iteratorGenerator : Option (List UInt8)
  currentGenerator : Option (List UInt8)
  fingerprint : ContractFingerprint library
  paired : iteratorGenerator.isSome = currentGenerator.isSome

def GlobalStates.toDict (states : GlobalStates) : Object Other :=
  .dict [("random", .bytes states.random), ("numpy", .bytes states.numpy),
    ("torch", .bytes states.torch)]

/-- `CompatZeroCheckpoint.to_dict` -/
def writeCheckpoint (deliveredBatches : Nat) (iteratorGlobals currentGlobals : GlobalStates)
    (iteratorGenerator currentGenerator : Option (List UInt8))
    (fingerprint : ContractFingerprint library) : Object Other :=
  .dict
    [("kind", .text "compat-zero"), ("sampler_position", .integer deliveredBatches),
      ("delivered_cursor", .integer deliveredBatches),
      ("iterator_globals", iteratorGlobals.toDict), ("current_globals", currentGlobals.toDict),
      ("iterator_generator", .ofBytes iteratorGenerator),
      ("current_generator", .ofBytes currentGenerator), ("fingerprint", fingerprint.toDict)]

def GLOBAL_NAMES : List String := ["random", "numpy", "torch"]

def GLOBALS_INCOMPLETE : String := "compat RNG state must contain random, numpy, and torch"

/-- The state of one generator in a bundle. -/
def readGlobal (payload : List (String × Object Other)) (name : String) :
    Except Raised (List UInt8) :=
  match Object.get payload name with
  | .bytes value => .ok value
  | _ => .error (.typeError s!"compat {name} RNG state must be bytes")

/-- `validate_globals` -/
def validateGlobals : Object Other → Except Raised GlobalStates
  | .dict payload =>
      if (∀ entry ∈ payload, entry.1 ∈ GLOBAL_NAMES) ∧
          ∀ name ∈ GLOBAL_NAMES, name ∈ payload.map (·.1) then do
        let random ← readGlobal payload "random"
        let numpy ← readGlobal payload "numpy"
        let torch ← readGlobal payload "torch"
        .ok ⟨random, numpy, torch⟩
      else .error (.typeError GLOBALS_INCOMPLETE)
  | _ => .error (.typeError GLOBALS_INCOMPLETE)

def OWNER : String := "compat loader state"

def NOT_DICTIONARY : String := "loader state must be a dictionary"

def WRONG_KIND : String := "compat zero-worker state requires kind='compat-zero'"

def POSITIONS_DIFFER : String := "compat sampler position must match delivered cursor"

def FINGERPRINT_NOT_DICTIONARY : String := "loader state fingerprint must be a dictionary"

def GENERATORS_APART : String := "compat generator states must appear together"

namespace CompatZeroCheckpoint

def toDict (state : CompatZeroCheckpoint library) : Object Other :=
  writeCheckpoint state.deliveredBatches state.iteratorGlobals state.currentGlobals
    state.iteratorGenerator state.currentGenerator state.fingerprint

/-- `CompatZeroCheckpoint.from_dict` -/
def fromDict : Object Other → Except Raised (CompatZeroCheckpoint library)
  | .dict payload =>
      if library.equal (Object.get payload "kind") (.text "compat-zero") then do
        let samplerPosition ← readInteger OWNER payload "sampler_position" none
        let deliveredCursor ← readInteger OWNER payload "delivered_cursor" none
        if samplerPosition = deliveredCursor then
          match Object.get payload "fingerprint" with
          | .dict fingerprintPayload => do
              let iteratorGenerator ← readOptionalBytes OWNER payload "iterator_generator"
              let currentGenerator ← readOptionalBytes OWNER payload "current_generator"
              if paired : iteratorGenerator.isSome = currentGenerator.isSome then do
                let iteratorGlobals ← validateGlobals (Object.get payload "iterator_globals")
                let currentGlobals ← validateGlobals (Object.get payload "current_globals")
                let fingerprint ← ContractFingerprint.fromDict fingerprintPayload
                .ok
                  { deliveredBatches := deliveredCursor, iteratorGlobals, currentGlobals,
                    iteratorGenerator, currentGenerator, fingerprint, paired }
              else .error (.valueError GENERATORS_APART)
          | _ => .error (.typeError FINGERPRINT_NOT_DICTIONARY)
        else .error (.valueError POSITIONS_DIFFER)
      else .error (.valueError WRONG_KIND)
  | _ => .error (.typeError NOT_DICTIONARY)

end CompatZeroCheckpoint

theorem validateGlobals_toDict (states : GlobalStates) :
    validateGlobals (states.toDict : Object Other) = .ok states := by
  have named : (∀ entry ∈ [("random", (Object.bytes states.random : Object Other)),
      ("numpy", .bytes states.numpy), ("torch", .bytes states.torch)], entry.1 ∈ GLOBAL_NAMES) ∧
        ∀ name ∈ GLOBAL_NAMES, name ∈ [("random", (Object.bytes states.random : Object Other)),
          ("numpy", .bytes states.numpy), ("torch", .bytes states.torch)].map (·.1) := by
    simp [GLOBAL_NAMES]
  rw [GlobalStates.toDict, validateGlobals, if_pos named]
  rfl

/-- Every accepted checkpoint reads back from what it writes. -/
theorem CompatZeroCheckpoint.fromDict_toDict
    (texts : ∀ text : String, library.equal (.text text) (.text text) = true)
    (state : CompatZeroCheckpoint library) : fromDict state.toDict = .ok state := by
  have unbounded : ∀ bound ∈ (none : Option Nat), state.deliveredBatches ≤ bound :=
    fun _ absent => by cases absent
  show (if library.equal (.text "compat-zero") (.text "compat-zero") then _ else _) = _
  rw [if_pos (texts _)]
  refine bind_ok_iff.mpr ⟨_, readInteger_of_get rfl unbounded, ?_⟩
  refine bind_ok_iff.mpr ⟨_, readInteger_of_get rfl unbounded, ?_⟩
  rw [if_pos rfl]
  refine bind_ok_iff.mpr ⟨state.iteratorGenerator, readOptionalBytes_of_get rfl, ?_⟩
  refine bind_ok_iff.mpr ⟨state.currentGenerator, readOptionalBytes_of_get rfl, ?_⟩
  rw [dif_pos state.paired]
  refine bind_ok_iff.mpr ⟨_, validateGlobals_toDict state.iteratorGlobals, ?_⟩
  refine bind_ok_iff.mpr ⟨_, validateGlobals_toDict state.currentGlobals, ?_⟩
  exact bind_ok_iff.mpr ⟨_, ContractFingerprint.fromDict_entries texts state.fingerprint, rfl⟩

end Hyperloader.Compat.Zero
