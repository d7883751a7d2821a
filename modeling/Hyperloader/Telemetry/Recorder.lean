/-
Module: Hyperloader.Telemetry.Recorder
Purpose: The telemetry recorders of the engine, engine/src/telemetry/recorder.rs with its binding,
  and of fallback/telemetry.py, and when their snapshots agree. The delivery rate, a quotient in
  floating point, and the interval it divides by are left out.
Trusted boundary: both recorders read the same clock; records come one after the other.
Main exports:
  Record, PyTelemetry, Fallback.Telemetry, History, Tally.Agrees, telemetry_snapshots_agree_iff
-/
import Hyperloader.Telemetry.Histogram

namespace Hyperloader.Instruments

open Foundations

/-- One inspectable controller decision; the resource loss is a number no recorder reads. -/
structure ControllerRecord (Loss : Type) where
  previousWidth : UInt32
  width : UInt32
  reason : String
  starvation : Bool
  binding : Option String
  resourceLoss : Loss

/-- A call of a recorder. The binding takes unsigned numbers of 64 and 32 bits, and raises at any
other. -/
inductive Record (Loss : Type) where
  | startup (nanoseconds : UInt64)
  | startupNow
  | delivery (samples bytes latencyNs : UInt64)
  | deliveries (samples batches bytes latencyNs : UInt64)
  | counts (samples batches bytes : UInt64)
  | stall
  | gilRestore
  | controller (decision : ControllerRecord Loss)
  | finishEpoch (epoch : UInt64)

/-- What a snapshot shows of an epoch. -/
structure Summary (Loss : Type) where
  epoch : Nat
  deliveredSamples : Nat
  deliveredBatches : Nat
  deliveredBytes : Nat
  deliveryLatencyNs : List Nat
  stallEvents : Nat
  gilRestoreEvents : Nat
  controllerDecisions : List (ControllerRecord Loss)
  ceilingBinds : Nat

structure Snapshot (Loss : Type) where
  startupNs : Int
  current : Summary Loss
  lastEpoch : Option (Summary Loss)

/-! ### Engine -/

structure EpochSummary (Loss : Type) where
  epoch : UInt64
  deliveredSamples : UInt64
  deliveredBatches : UInt64
  deliveredBytes : UInt64
  deliveryLatencyNs : List UInt64
  stallEvents : UInt64
  gilRestoreEvents : UInt64
  controllerDecisions : List (ControllerRecord Loss)
  ceilingBinds : UInt64

structure Telemetry (Loss : Type) where
  startupNs : UInt64
  deliveredSamples : UInt64
  deliveredBatches : UInt64
  deliveredBytes : UInt64
  deliveryLatency : LatencyHistogram
  stallEvents : UInt64
  gilRestoreEvents : UInt64
  ceilingBinds : UInt64
  controllerDecisions : List (ControllerRecord Loss)
  lastEpoch : Option (EpochSummary Loss)

namespace Telemetry

variable {Loss : Type}

def new : Telemetry Loss :=
  { startupNs := 0
    deliveredSamples := 0
    deliveredBatches := 0
    deliveredBytes := 0
    deliveryLatency := LatencyHistogram.new
    stallEvents := 0
    gilRestoreEvents := 0
    ceilingBinds := 0
    controllerDecisions := []
    lastEpoch := none }

section

variable (telemetry : Telemetry Loss)

/-- The first duration is kept, as at least one. -/
def recordStartup (nanoseconds : UInt64) : Telemetry Loss :=
  if telemetry.startupNs = 0 then { telemetry with startupNs := max nanoseconds 1 } else telemetry

def recordCounts (samples batches bytes : UInt64) : Telemetry Loss :=
  { telemetry with
    deliveredSamples := telemetry.deliveredSamples + samples
    deliveredBatches := telemetry.deliveredBatches + batches
    deliveredBytes := telemetry.deliveredBytes + bytes }

def recordDeliveries (samples batches bytes latencyNs : UInt64) :
    Telemetry Loss :=
  { telemetry with
    deliveredSamples := telemetry.deliveredSamples + samples
    deliveredBatches := telemetry.deliveredBatches + batches
    deliveredBytes := telemetry.deliveredBytes + bytes
    deliveryLatency := telemetry.deliveryLatency.observe latencyNs }

def recordStall : Telemetry Loss :=
  { telemetry with stallEvents := telemetry.stallEvents + 1 }

def recordGilRestore : Telemetry Loss :=
  { telemetry with gilRestoreEvents := telemetry.gilRestoreEvents + 1 }

def recordController (decision : ControllerRecord Loss) :
    Telemetry Loss :=
  { telemetry with
    ceilingBinds :=
      if decision.binding.isSome then telemetry.ceilingBinds + 1 else telemetry.ceilingBinds
    controllerDecisions := telemetry.controllerDecisions ++ [decision] }

def currentSummary (epoch : UInt64) : EpochSummary Loss :=
  { epoch
    deliveredSamples := telemetry.deliveredSamples
    deliveredBatches := telemetry.deliveredBatches
    deliveredBytes := telemetry.deliveredBytes
    deliveryLatencyNs := telemetry.deliveryLatency.percentiles
    stallEvents := telemetry.stallEvents
    gilRestoreEvents := telemetry.gilRestoreEvents
    controllerDecisions := telemetry.controllerDecisions
    ceilingBinds := telemetry.ceilingBinds }

/-- `reset_epoch` -/
def resetEpoch : Telemetry Loss :=
  { telemetry with
    deliveredSamples := 0
    deliveredBatches := 0
    deliveredBytes := 0
    deliveryLatency := LatencyHistogram.new
    stallEvents := 0
    gilRestoreEvents := 0
    ceilingBinds := 0
    controllerDecisions := [] }

def finishEpoch (epoch : UInt64) : Telemetry Loss :=
  { telemetry.resetEpoch with lastEpoch := some (telemetry.currentSummary epoch) }

end

end Telemetry

/-- `duration_ns` -/
def durationNs (duration : Nat) : UInt64 := UInt64.ofNat (min duration (2 ^ 64 - 1))

/-- `summary_dict` -/
def EpochSummary.dict {Loss : Type} (summary : EpochSummary Loss) : Summary Loss :=
  { epoch := summary.epoch.toNat
    deliveredSamples := summary.deliveredSamples.toNat
    deliveredBatches := summary.deliveredBatches.toNat
    deliveredBytes := summary.deliveredBytes.toNat
    deliveryLatencyNs := summary.deliveryLatencyNs.map UInt64.toNat
    stallEvents := summary.stallEvents.toNat
    gilRestoreEvents := summary.gilRestoreEvents.toNat
    controllerDecisions := summary.controllerDecisions
    ceilingBinds := summary.ceilingBinds.toNat }

structure PyTelemetry (Loss : Type) where
  recorder : Telemetry Loss
  constructedAt : Nat

namespace PyTelemetry

variable {Loss : Type}

def new (now : Nat) : PyTelemetry Loss := { recorder := Telemetry.new, constructedAt := now }

/-- `record_startup_now`; `duration_since` of a later instant is zero. -/
def recordStartupNow (telemetry : PyTelemetry Loss) (now : Nat) : PyTelemetry Loss :=
  { telemetry with
    recorder := telemetry.recorder.recordStartup (durationNs (now - telemetry.constructedAt)) }

def recordDeliveries (telemetry : PyTelemetry Loss) (now : Nat)
    (samples batches bytes latencyNs : UInt64) : PyTelemetry Loss :=
  let started := telemetry.recordStartupNow now
  { started with recorder := started.recorder.recordDeliveries samples batches bytes latencyNs }

def recordCounts (telemetry : PyTelemetry Loss) (now : Nat) (samples batches bytes : UInt64) :
    PyTelemetry Loss :=
  let started := telemetry.recordStartupNow now
  { started with recorder := started.recorder.recordCounts samples batches bytes }

def record (telemetry : PyTelemetry Loss) (now : Nat) : Record Loss → PyTelemetry Loss
  | .startup nanoseconds =>
      { telemetry with recorder := telemetry.recorder.recordStartup nanoseconds }
  | .startupNow => telemetry.recordStartupNow now
  | .delivery samples bytes latencyNs => telemetry.recordDeliveries now samples 1 bytes latencyNs
  | .deliveries samples batches bytes latencyNs =>
      telemetry.recordDeliveries now samples batches bytes latencyNs
  | .counts samples batches bytes => telemetry.recordCounts now samples batches bytes
  | .stall => { telemetry with recorder := telemetry.recorder.recordStall }
  | .gilRestore => { telemetry with recorder := telemetry.recorder.recordGilRestore }
  | .controller decision =>
      { telemetry with recorder := telemetry.recorder.recordController decision }
  | .finishEpoch epoch => { telemetry with recorder := telemetry.recorder.finishEpoch epoch }

def snapshot (telemetry : PyTelemetry Loss) : Snapshot Loss :=
  { startupNs := telemetry.recorder.startupNs.toNat
    current := (telemetry.recorder.currentSummary 0).dict
    lastEpoch := telemetry.recorder.lastEpoch.map EpochSummary.dict }

end PyTelemetry

/-! ### Fallback -/

namespace Fallback

structure Telemetry (Loss : Type) where
  constructedAt : Int
  startupNs : Int
  lastEpoch : Option (Summary Loss)
  deliveredSamples : Nat
  deliveredBatches : Nat
  deliveredBytes : Nat
  latencies : List Nat
  stallEvents : Nat
  gilRestoreEvents : Nat
  decisions : List (ControllerRecord Loss)

namespace Telemetry

variable {Loss : Type}

def new (now : Int) : Telemetry Loss :=
  { constructedAt := now
    startupNs := 0
    lastEpoch := none
    deliveredSamples := 0
    deliveredBatches := 0
    deliveredBytes := 0
    latencies := []
    stallEvents := 0
    gilRestoreEvents := 0
    decisions := [] }

section

variable (telemetry : Telemetry Loss)

/-- The largest duration is kept. -/
def recordStartup (nanoseconds : Int) : Telemetry Loss :=
  { telemetry with startupNs := max telemetry.startupNs nanoseconds }

def recordStartupNow (now : Int) : Telemetry Loss :=
  telemetry.recordStartup (now - telemetry.constructedAt)

/-- `_record_counts` -/
def addCounts (samples batches bytes : Nat) : Telemetry Loss :=
  { telemetry with
    deliveredSamples := telemetry.deliveredSamples + samples
    deliveredBatches := telemetry.deliveredBatches + batches
    deliveredBytes := telemetry.deliveredBytes + bytes }

def recordDeliveries (now : Int) (samples batches bytes latencyNs : Nat) : Telemetry Loss :=
  let counted := (telemetry.recordStartupNow now).addCounts samples batches bytes
  { counted with latencies := counted.latencies ++ [latencyBucket latencyNs] }

def recordCounts (now : Int) (samples batches bytes : Nat) :
    Telemetry Loss :=
  (telemetry.recordStartupNow now).addCounts samples batches bytes

/-- `_summary` -/
def summary (epoch : Nat) : Summary Loss :=
  { epoch
    deliveredSamples := telemetry.deliveredSamples
    deliveredBatches := telemetry.deliveredBatches
    deliveredBytes := telemetry.deliveredBytes
    deliveryLatencyNs := [50, 95, 99].map (quantile telemetry.latencies)
    stallEvents := telemetry.stallEvents
    gilRestoreEvents := telemetry.gilRestoreEvents
    controllerDecisions := telemetry.decisions
    ceilingBinds := telemetry.decisions.countP fun decision => decision.binding.isSome }

/-- `_reset_current` -/
def resetCurrent : Telemetry Loss :=
  { telemetry with
    deliveredSamples := 0
    deliveredBatches := 0
    deliveredBytes := 0
    latencies := []
    stallEvents := 0
    gilRestoreEvents := 0
    decisions := [] }

def finishEpoch (epoch : Nat) : Telemetry Loss :=
  { telemetry.resetCurrent with lastEpoch := some (telemetry.summary epoch) }

end

def record (telemetry : Telemetry Loss) (now : Int) : Record Loss → Telemetry Loss
  | .startup nanoseconds => telemetry.recordStartup nanoseconds.toNat
  | .startupNow => telemetry.recordStartupNow now
  | .delivery samples bytes latencyNs =>
      telemetry.recordDeliveries now samples.toNat 1 bytes.toNat latencyNs.toNat
  | .deliveries samples batches bytes latencyNs =>
      telemetry.recordDeliveries now samples.toNat batches.toNat bytes.toNat latencyNs.toNat
  | .counts samples batches bytes =>
      telemetry.recordCounts now samples.toNat batches.toNat bytes.toNat
  | .stall => { telemetry with stallEvents := telemetry.stallEvents + 1 }
  | .gilRestore => { telemetry with gilRestoreEvents := telemetry.gilRestoreEvents + 1 }
  | .controller decision => { telemetry with decisions := telemetry.decisions ++ [decision] }
  | .finishEpoch epoch => telemetry.finishEpoch epoch.toNat

def snapshot (telemetry : Telemetry Loss) : Snapshot Loss :=
  { startupNs := telemetry.startupNs
    current := telemetry.summary 0
    lastEpoch := telemetry.lastEpoch }

end Telemetry

end Fallback

/-! ### What was recorded -/

section

variable {Loss : Type}

/-- What the records of an epoch come to. -/
structure Tally (Loss : Type) where
  samples : Nat
  batches : Nat
  bytes : Nat
  latencies : List UInt64
  stalls : Nat
  gilRestores : Nat
  decisions : List (ControllerRecord Loss)

/-- The totals the recorders are built for. -/
structure Tally.Bounded (tally : Tally Loss) : Prop where
  samples : tally.samples * 100 < 2 ^ 64
  batches : tally.batches * 100 < 2 ^ 64
  bytes : tally.bytes * 100 < 2 ^ 64
  latencies : tally.latencies.length * 100 < 2 ^ 64
  stalls : tally.stalls * 100 < 2 ^ 64
  gilRestores : tally.gilRestores * 100 < 2 ^ 64
  decisions : tally.decisions.length * 100 < 2 ^ 64

/-- The startup durations in order, the epoch in progress, and the last one that was finished. -/
structure History (Loss : Type) where
  startups : List Nat
  current : Tally Loss
  last : Option (UInt64 × Tally Loss)

namespace History

def empty : Tally Loss :=
  { samples := 0, batches := 0, bytes := 0, latencies := [], stalls := 0, gilRestores := 0,
    decisions := [] }

def new : History Loss := { startups := [], current := empty, last := none }

/-- A delivery also counts the duration since construction. -/
def delivered (history : History Loss) (elapsed : Nat) (samples batches bytes : UInt64)
    (latencies : List UInt64) : History Loss :=
  { history with
    startups := history.startups ++ [elapsed]
    current := { history.current with
      samples := history.current.samples + samples.toNat
      batches := history.current.batches + batches.toNat
      bytes := history.current.bytes + bytes.toNat
      latencies := history.current.latencies ++ latencies } }

def record (constructedAt : Nat) (history : History Loss) (now : Nat) : Record Loss → History Loss
  | .startup nanoseconds =>
      { history with startups := history.startups ++ [nanoseconds.toNat] }
  | .startupNow => { history with startups := history.startups ++ [now - constructedAt] }
  | .delivery samples bytes latencyNs =>
      history.delivered (now - constructedAt) samples 1 bytes [latencyNs]
  | .deliveries samples batches bytes latencyNs =>
      history.delivered (now - constructedAt) samples batches bytes [latencyNs]
  | .counts samples batches bytes =>
      history.delivered (now - constructedAt) samples batches bytes []
  | .stall => { history with current := { history.current with stalls := history.current.stalls + 1 } }
  | .gilRestore =>
      { history with
        current := { history.current with gilRestores := history.current.gilRestores + 1 } }
  | .controller decision =>
      { history with
        current := { history.current with decisions := history.current.decisions ++ [decision] } }
  | .finishEpoch epoch => { history with current := empty, last := some (epoch, history.current) }

end History

/-! ### Startup -/

/-- The first duration, taken as at least one, is the largest. -/
def StartupsAgree : List Nat → Prop
  | [] => True
  | first :: rest =>
      first < 2 ^ 64 ∧ (∀ later ∈ rest, later ≤ max first 1) ∧ (first = 0 → 1 ∈ rest)

/-- The startup value of the engine. -/
def firstStartup : List Nat → UInt64
  | [] => 0
  | first :: _ => max (durationNs first) 1

/-- The startup value of the fallback. -/
def largestStartup (startups : List Nat) : Nat := startups.foldl max 0

theorem foldl_max_eq_iff {startups : List Nat} {least largest : Nat} :
    startups.foldl max least = largest ↔
      least ≤ largest ∧ (∀ duration ∈ startups, duration ≤ largest) ∧
        (largest = least ∨ largest ∈ startups) := by
  induction startups generalizing least with
  | nil =>
      simp only [List.foldl_nil, List.not_mem_nil, false_implies, implies_true, true_and, or_false]
      constructor
      · rintro rfl
        exact ⟨Nat.le_refl _, rfl⟩
      · exact fun both => both.2.symm
  | cons first rest ih =>
      rw [List.foldl_cons, ih, List.forall_mem_cons, List.mem_cons, Nat.max_le]
      constructor
      · rintro ⟨⟨low, here⟩, later, top⟩
        refine ⟨low, ⟨here, later⟩, ?_⟩
        rcases top with same | member
        · rcases Nat.le_total least first with le | le
          · rw [Nat.max_eq_right le] at same
            exact Or.inr (Or.inl same)
          · rw [Nat.max_eq_left le] at same
            exact Or.inl same
        · exact Or.inr (Or.inr member)
      · rintro ⟨low, ⟨here, later⟩, top⟩
        refine ⟨⟨low, here⟩, later, ?_⟩
        rcases top with rfl | rfl | member
        · exact Or.inl (Nat.max_eq_left here).symm
        · exact Or.inl (Nat.max_eq_right low).symm
        · exact Or.inr member

theorem toNat_durationNs (duration : Nat) :
    (durationNs duration).toNat = min duration (2 ^ 64 - 1) := by
  have narrow : min duration (2 ^ 64 - 1) < 2 ^ 64 :=
    Nat.lt_of_le_of_lt (Nat.min_le_right _ _) (by decide)
  exact UInt64.toNat_ofNat_of_lt' narrow

theorem toNat_max (left right : UInt64) : (max left right).toNat = max left.toNat right.toNat := by
  change (if left ≤ right then right else left).toNat = _
  by_cases le : left ≤ right
  · rw [if_pos le, Nat.max_eq_right (UInt64.le_iff_toNat_le.mp le)]
  · have ge : right.toNat ≤ left.toNat :=
      Nat.le_of_not_le fun below => le (UInt64.le_iff_toNat_le.mpr below)
    rw [if_neg le, Nat.max_eq_left ge]

theorem toNat_firstStartup (first : Nat) (rest : List Nat) :
    (firstStartup (first :: rest)).toNat = max (min first (2 ^ 64 - 1)) 1 := by
  unfold firstStartup
  rw [toNat_max, toNat_durationNs]
  rfl

/-- The two recorders hold the same startup time exactly in this case. -/
theorem startups_agree_iff (startups : List Nat) :
    (firstStartup startups).toNat = largestStartup startups ↔ StartupsAgree startups := by
  cases startups with
  | nil => exact iff_of_true rfl trivial
  | cons first rest =>
      rw [toNat_firstStartup, eq_comm]
      unfold largestStartup StartupsAgree
      rw [foldl_max_eq_iff, List.forall_mem_cons, List.mem_cons]
      constructor
      · rintro ⟨-, ⟨here, later⟩, top⟩
        have narrow : first < 2 ^ 64 := by omega
        rw [Nat.min_eq_left (by omega)] at later top
        refine ⟨narrow, later, fun zero => ?_⟩
        subst zero
        rcases top with none | first | member
        · cases none
        · cases first
        · exact member
      · rintro ⟨narrow, later, one⟩
        rw [Nat.min_eq_left (by omega)]
        refine ⟨Nat.zero_le _, ⟨Nat.le_max_left _ _, later⟩, Or.inr ?_⟩
        by_cases zero : first = 0
        · subst zero
          exact Or.inr (one rfl)
        · exact Or.inl (Nat.max_eq_left (Nat.one_le_iff_ne_zero.mpr zero))

/-! ### The recorders hold the history -/

def Tally.buckets (tally : Tally Loss) : List Nat :=
  tally.latencies.map fun latency => Fallback.latencyBucket latency.toNat

/-- What the fallback shows of an epoch. -/
def Tally.summary (tally : Tally Loss) (epoch : Nat) : Summary Loss :=
  { epoch
    deliveredSamples := tally.samples
    deliveredBatches := tally.batches
    deliveredBytes := tally.bytes
    deliveryLatencyNs := [50, 95, 99].map (Fallback.quantile tally.buckets)
    stallEvents := tally.stalls
    gilRestoreEvents := tally.gilRestores
    controllerDecisions := tally.decisions
    ceilingBinds := tally.decisions.countP fun decision => decision.binding.isSome }

/-- The fallback's recorder, from the history. -/
structure Fallback.Telemetry.Tracks (telemetry : Fallback.Telemetry Loss) (constructedAt : Nat)
    (history : History Loss) : Prop where
  constructed : telemetry.constructedAt = constructedAt
  startup : telemetry.startupNs = largestStartup history.startups
  last : telemetry.lastEpoch = history.last.map fun entry => entry.2.summary entry.1.toNat
  samples : telemetry.deliveredSamples = history.current.samples
  batches : telemetry.deliveredBatches = history.current.batches
  bytes : telemetry.deliveredBytes = history.current.bytes
  latencies : telemetry.latencies = history.current.buckets
  stalls : telemetry.stallEvents = history.current.stalls
  gilRestores : telemetry.gilRestoreEvents = history.current.gilRestores
  decisions : telemetry.decisions = history.current.decisions

namespace Fallback.Telemetry

variable {telemetry : Fallback.Telemetry Loss} {constructedAt : Nat} {history : History Loss}

theorem tracks_new (constructedAt : Nat) :
    (new constructedAt : Fallback.Telemetry Loss).Tracks constructedAt History.new :=
  { constructed := rfl, startup := rfl, last := rfl, samples := rfl, batches := rfl, bytes := rfl,
    latencies := rfl, stalls := rfl, gilRestores := rfl, decisions := rfl }

theorem largestStartup_concat (startups : List Nat) (duration : Nat) :
    largestStartup (startups ++ [duration]) = max (largestStartup startups) duration :=
  List.foldl_concat ..

theorem Tracks.summary (tracks : telemetry.Tracks constructedAt history) (epoch : Nat) :
    telemetry.summary epoch = history.current.summary epoch := by
  unfold Fallback.Telemetry.summary Tally.summary
  rw [tracks.samples, tracks.batches, tracks.bytes, tracks.latencies, tracks.stalls,
    tracks.gilRestores, tracks.decisions]

theorem buckets_concat (tally : Tally Loss) (latency : UInt64) :
    { tally with latencies := tally.latencies ++ [latency] }.buckets =
      tally.buckets ++ [latencyBucket latency.toNat] :=
  List.map_append

section

variable (tracks : telemetry.Tracks constructedAt history)

include tracks

theorem Tracks.elapsed (now : Nat) :
    max telemetry.startupNs (now - telemetry.constructedAt) =
      largestStartup (history.startups ++ [now - constructedAt]) := by
  rw [tracks.constructed, tracks.startup, largestStartup_concat]
  omega

theorem Tracks.counts (now : Nat) (samples batches bytes : UInt64) :
    (telemetry.recordCounts now samples.toNat batches.toNat bytes.toNat).Tracks constructedAt
      (history.delivered (now - constructedAt) samples batches bytes []) :=
  { constructed := tracks.constructed
    startup := tracks.elapsed now
    last := tracks.last
    samples := congrArg (· + samples.toNat) tracks.samples
    batches := congrArg (· + batches.toNat) tracks.batches
    bytes := congrArg (· + bytes.toNat) tracks.bytes
    latencies := by
      refine tracks.latencies.trans ?_
      unfold Tally.buckets History.delivered
      dsimp only
      rw [List.append_nil]
    stalls := tracks.stalls
    gilRestores := tracks.gilRestores
    decisions := tracks.decisions }

theorem Tracks.deliveries (now : Nat) (samples batches bytes latencyNs : UInt64) :
    (telemetry.recordDeliveries now samples.toNat batches.toNat bytes.toNat latencyNs.toNat).Tracks
      constructedAt (history.delivered (now - constructedAt) samples batches bytes [latencyNs]) :=
  { constructed := tracks.constructed
    startup := tracks.elapsed now
    last := tracks.last
    samples := congrArg (· + samples.toNat) tracks.samples
    batches := congrArg (· + batches.toNat) tracks.batches
    bytes := congrArg (· + bytes.toNat) tracks.bytes
    latencies := (congrArg (· ++ [latencyBucket latencyNs.toNat]) tracks.latencies).trans
      (buckets_concat history.current latencyNs).symm
    stalls := tracks.stalls
    gilRestores := tracks.gilRestores
    decisions := tracks.decisions }

end

theorem Tracks.record (tracks : telemetry.Tracks constructedAt history) (now : Nat)
    (call : Record Loss) :
    (telemetry.record now call).Tracks constructedAt (history.record constructedAt now call) := by
  cases call with
  | startup nanoseconds =>
      refine { tracks with startup := ?_ }
      have larger := largestStartup_concat history.startups nanoseconds.toNat
      unfold Fallback.Telemetry.record Fallback.Telemetry.recordStartup History.record
      dsimp only
      rw [larger, tracks.startup]
      omega
  | startupNow => exact { tracks with startup := tracks.elapsed now }
  | delivery samples bytes latencyNs => exact tracks.deliveries now samples 1 bytes latencyNs
  | deliveries samples batches bytes latencyNs =>
      exact tracks.deliveries now samples batches bytes latencyNs
  | counts samples batches bytes => exact tracks.counts now samples batches bytes
  | stall => exact { tracks with stalls := congrArg (· + 1) tracks.stalls }
  | gilRestore => exact { tracks with gilRestores := congrArg (· + 1) tracks.gilRestores }
  | controller decision =>
      exact { tracks with decisions := congrArg (· ++ [decision]) tracks.decisions }
  | finishEpoch epoch =>
      exact
        { constructed := tracks.constructed
          startup := tracks.startup
          last := congrArg some (tracks.summary epoch.toNat)
          samples := rfl
          batches := rfl
          bytes := rfl
          latencies := rfl
          stalls := rfl
          gilRestores := rfl
          decisions := rfl }

end Fallback.Telemetry

/-- What the engine seals of an epoch. -/
structure EpochSummary.Tracks (summary : EpochSummary Loss) (epoch : UInt64) (tally : Tally Loss) :
    Prop where
  epoch : summary.epoch = epoch
  samples : summary.deliveredSamples = UInt64.ofNat tally.samples
  batches : summary.deliveredBatches = UInt64.ofNat tally.batches
  bytes : summary.deliveredBytes = UInt64.ofNat tally.bytes
  latencies : ∃ histogram : LatencyHistogram, histogram.Tracks tally.latencies ∧
    summary.deliveryLatencyNs = histogram.percentiles
  stalls : summary.stallEvents = UInt64.ofNat tally.stalls
  gilRestores : summary.gilRestoreEvents = UInt64.ofNat tally.gilRestores
  decisions : summary.controllerDecisions = tally.decisions
  binds : summary.ceilingBinds =
    UInt64.ofNat (tally.decisions.countP fun decision => decision.binding.isSome)

/-- The engine's recorder, from the history: its counters modulo their width. -/
structure PyTelemetry.Tracks (telemetry : PyTelemetry Loss) (constructedAt : Nat)
    (history : History Loss) : Prop where
  constructed : telemetry.constructedAt = constructedAt
  startup : telemetry.recorder.startupNs = firstStartup history.startups
  last : Option.Rel (fun summary entry => summary.Tracks entry.1 entry.2)
    telemetry.recorder.lastEpoch history.last
  samples : telemetry.recorder.deliveredSamples = UInt64.ofNat history.current.samples
  batches : telemetry.recorder.deliveredBatches = UInt64.ofNat history.current.batches
  bytes : telemetry.recorder.deliveredBytes = UInt64.ofNat history.current.bytes
  latencies : telemetry.recorder.deliveryLatency.Tracks history.current.latencies
  stalls : telemetry.recorder.stallEvents = UInt64.ofNat history.current.stalls
  gilRestores : telemetry.recorder.gilRestoreEvents = UInt64.ofNat history.current.gilRestores
  decisions : telemetry.recorder.controllerDecisions = history.current.decisions
  binds : telemetry.recorder.ceilingBinds =
    UInt64.ofNat (history.current.decisions.countP fun decision => decision.binding.isSome)

namespace PyTelemetry

variable {telemetry : PyTelemetry Loss} {constructedAt : Nat} {history : History Loss}

theorem tracks_new (constructedAt : Nat) :
    (new constructedAt : PyTelemetry Loss).Tracks constructedAt History.new :=
  { constructed := rfl, startup := rfl, last := .none, samples := rfl, batches := rfl, bytes := rfl,
    latencies := rfl, stalls := rfl, gilRestores := rfl, decisions := rfl, binds := rfl }

theorem Tracks.summary (tracks : telemetry.Tracks constructedAt history) (epoch : UInt64) :
    (telemetry.recorder.currentSummary epoch).Tracks epoch history.current :=
  { epoch := rfl
    samples := tracks.samples
    batches := tracks.batches
    bytes := tracks.bytes
    latencies := ⟨_, tracks.latencies, rfl⟩
    stalls := tracks.stalls
    gilRestores := tracks.gilRestores
    decisions := tracks.decisions
    binds := tracks.binds }

/-- Only the first duration counts. -/
theorem startup_concat (startups : List Nat) (duration : Nat) :
    (if firstStartup startups = 0 then max (durationNs duration) 1 else firstStartup startups) =
      firstStartup (startups ++ [duration]) := by
  cases startups with
  | nil => exact if_pos rfl
  | cons first rest =>
      refine if_neg fun zero => ?_
      have positive := toNat_firstStartup first rest
      rw [zero] at positive
      have least : 1 ≤ max (min first (2 ^ 64 - 1)) 1 := Nat.le_max_right _ _
      rw [← positive] at least
      cases least

theorem Tracks.recordStartup (tracks : telemetry.Tracks constructedAt history) (duration : Nat) :
    ({ telemetry with recorder := telemetry.recorder.recordStartup (durationNs duration) } :
      PyTelemetry Loss).Tracks constructedAt
      { history with startups := history.startups ++ [duration] } := by
  have next := startup_concat history.startups duration
  rw [← tracks.startup] at next
  unfold Telemetry.recordStartup
  by_cases unset : telemetry.recorder.startupNs = 0
  · rw [if_pos unset] at next ⊢
    exact { tracks with startup := next }
  · rw [if_neg unset] at next ⊢
    exact { tracks with startup := next }

theorem add_ofNat {counter : UInt64} {total : Nat} (held : counter = UInt64.ofNat total)
    (value : UInt64) : counter + value = UInt64.ofNat (total + value.toNat) := by
  rw [held, UInt64.ofNat_add, UInt64.ofNat_toNat]

theorem Tracks.counts (tracks : telemetry.Tracks constructedAt history) (now : Nat)
    (samples batches bytes : UInt64) :
    (telemetry.recordCounts now samples batches bytes).Tracks constructedAt
      (history.delivered (now - constructedAt) samples batches bytes []) := by
  have started := tracks.recordStartup (now - telemetry.constructedAt)
  rw [tracks.constructed] at started
  unfold PyTelemetry.recordCounts PyTelemetry.recordStartupNow
  rw [tracks.constructed]
  exact
    { constructed := started.constructed
      startup := started.startup
      last := started.last
      samples := add_ofNat started.samples samples
      batches := add_ofNat started.batches batches
      bytes := add_ofNat started.bytes bytes
      latencies := by
        unfold History.delivered
        dsimp only
        rw [List.append_nil]
        exact started.latencies
      stalls := started.stalls
      gilRestores := started.gilRestores
      decisions := started.decisions
      binds := started.binds }

theorem Tracks.deliveries (tracks : telemetry.Tracks constructedAt history) (now : Nat)
    (samples batches bytes latencyNs : UInt64) :
    (telemetry.recordDeliveries now samples batches bytes latencyNs).Tracks constructedAt
      (history.delivered (now - constructedAt) samples batches bytes [latencyNs]) := by
  have started := tracks.recordStartup (now - telemetry.constructedAt)
  rw [tracks.constructed] at started
  unfold PyTelemetry.recordDeliveries PyTelemetry.recordStartupNow
  rw [tracks.constructed]
  exact
    { constructed := started.constructed
      startup := started.startup
      last := started.last
      samples := add_ofNat started.samples samples
      batches := add_ofNat started.batches batches
      bytes := add_ofNat started.bytes bytes
      latencies := started.latencies.observe latencyNs
      stalls := started.stalls
      gilRestores := started.gilRestores
      decisions := started.decisions
      binds := started.binds }

theorem durationNs_toNat (nanoseconds : UInt64) : durationNs nanoseconds.toNat = nanoseconds := by
  rw [← UInt64.toNat_inj, toNat_durationNs]
  have narrow := nanoseconds.toNat_lt
  omega

theorem Tracks.record (tracks : telemetry.Tracks constructedAt history) (now : Nat)
    (call : Record Loss) :
    (telemetry.record now call).Tracks constructedAt (history.record constructedAt now call) := by
  cases call with
  | startup nanoseconds =>
      have started := tracks.recordStartup nanoseconds.toNat
      rw [durationNs_toNat] at started
      exact started
  | startupNow =>
      have started := tracks.recordStartup (now - telemetry.constructedAt)
      rw [tracks.constructed] at started
      unfold PyTelemetry.record PyTelemetry.recordStartupNow
      rw [tracks.constructed]
      exact started
  | delivery samples bytes latencyNs => exact tracks.deliveries now samples 1 bytes latencyNs
  | deliveries samples batches bytes latencyNs =>
      exact tracks.deliveries now samples batches bytes latencyNs
  | counts samples batches bytes => exact tracks.counts now samples batches bytes
  | stall => exact { tracks with stalls := add_ofNat tracks.stalls 1 }
  | gilRestore => exact { tracks with gilRestores := add_ofNat tracks.gilRestores 1 }
  | controller decision =>
      refine
        { tracks with
          decisions := congrArg (· ++ [decision]) tracks.decisions
          binds := ?_ }
      unfold PyTelemetry.record Telemetry.recordController History.record
      dsimp only
      rw [List.countP_append, List.countP_singleton]
      split
      · exact add_ofNat tracks.binds 1
      · exact tracks.binds
  | finishEpoch epoch =>
      exact
        { constructed := tracks.constructed
          startup := tracks.startup
          last := .some (tracks.summary epoch)
          samples := rfl
          batches := rfl
          bytes := rfl
          latencies := LatencyHistogram.tracks_new
          stalls := rfl
          gilRestores := rfl
          decisions := rfl
          binds := rfl }

end PyTelemetry

/-! ### Runs -/

/-- A recorder after some calls, each with the clock at it. -/
def recordAll {Recorder : Type} (record : Recorder → Nat → Record Loss → Recorder)
    (recorder : Recorder) (calls : List (Nat × Record Loss)) : Recorder :=
  calls.foldl (fun recorder call => record recorder call.1 call.2) recorder

def history (constructedAt : Nat) (calls : List (Nat × Record Loss)) : History Loss :=
  recordAll (History.record constructedAt) History.new calls

/-- The fallback recorder tracks every sequence of calls. -/
theorem fallback_tracks (constructedAt : Nat) (calls : List (Nat × Record Loss)) :
    (recordAll (fun recorder now => Fallback.Telemetry.record recorder now)
      (Fallback.Telemetry.new constructedAt) calls).Tracks constructedAt
      (history constructedAt calls) := by
  unfold history recordAll
  have start : (Fallback.Telemetry.new constructedAt : Fallback.Telemetry Loss).Tracks
      constructedAt History.new := Fallback.Telemetry.tracks_new constructedAt
  generalize (Fallback.Telemetry.new constructedAt : Fallback.Telemetry Loss) = telemetry at start ⊢
  generalize (History.new : History Loss) = before at start ⊢
  induction calls generalizing telemetry before with
  | nil => exact start
  | cons call calls ih =>
      rw [List.foldl_cons, List.foldl_cons]
      exact ih _ _ (start.record call.1 call.2)

/-- The engine's recorder tracks every sequence of calls. -/
theorem native_tracks (constructedAt : Nat) (calls : List (Nat × Record Loss)) :
    (recordAll PyTelemetry.record (PyTelemetry.new constructedAt) calls).Tracks constructedAt
      (history constructedAt calls) := by
  unfold history recordAll
  have start : (PyTelemetry.new constructedAt : PyTelemetry Loss).Tracks
      constructedAt History.new := PyTelemetry.tracks_new constructedAt
  generalize (PyTelemetry.new constructedAt : PyTelemetry Loss) = telemetry at start ⊢
  generalize (History.new : History Loss) = before at start ⊢
  induction calls generalizing telemetry before with
  | nil => exact start
  | cons call calls ih =>
      rw [List.foldl_cons, List.foldl_cons]
      exact ih _ _ (start.record call.1 call.2)

theorem toNat_counter {counter : UInt64} {total : Nat} (held : counter = UInt64.ofNat total)
    (bounded : total * 100 < 2 ^ 64) : counter.toNat = total := by
  have narrow : total < 2 ^ 64 := by omega
  rw [held]
  exact UInt64.toNat_ofNat_of_lt' narrow

/-- Where a percentile of the epoch falls between two ranks, both latencies have one bit length. -/
def Tally.Agrees (tally : Tally Loss) : Prop :=
  ∀ percent ∈ [50, 95, 99], RanksAgree tally.latencies percent

/-- Below the totals the two summaries of an epoch differ at most in the percentiles. -/
theorem summaries_agree_iff {summary : EpochSummary Loss} {epoch : UInt64} {tally : Tally Loss}
    (tracks : summary.Tracks epoch tally) (bounded : tally.Bounded) :
    summary.dict = tally.summary epoch.toNat ↔ tally.Agrees := by
  obtain ⟨histogram, held, percentiles⟩ := tracks.latencies
  have binds : (tally.decisions.countP fun decision => decision.binding.isSome) * 100 < 2 ^ 64 :=
    Nat.lt_of_le_of_lt (Nat.mul_le_mul_right 100 List.countP_le_length) bounded.decisions
  unfold Tally.Agrees
  rw [← percentiles_agree_iff held bounded.latencies, ← percentiles]
  unfold EpochSummary.dict Tally.summary
  rw [tracks.epoch, toNat_counter tracks.samples bounded.samples,
    toNat_counter tracks.batches bounded.batches, toNat_counter tracks.bytes bounded.bytes,
    toNat_counter tracks.stalls bounded.stalls,
    toNat_counter tracks.gilRestores bounded.gilRestores, tracks.decisions,
    toNat_counter tracks.binds binds]
  simp only [Summary.mk.injEq, true_and, and_true]
  exact Iff.rfl

/-- After any calls the snapshots are equal exactly when the first startup duration is the largest
and no percentile of either epoch falls between latencies of two bit lengths. -/
theorem telemetry_snapshots_agree_iff (constructedAt : Nat) (calls : List (Nat × Record Loss))
    (current : (history constructedAt calls).current.Bounded)
    (last : ∀ epoch tally, (history constructedAt calls).last = some (epoch, tally) →
      tally.Bounded) :
    (recordAll PyTelemetry.record (PyTelemetry.new constructedAt) calls).snapshot =
      (recordAll (fun recorder now => Fallback.Telemetry.record recorder now)
        (Fallback.Telemetry.new constructedAt) calls).snapshot ↔
      StartupsAgree (history constructedAt calls).startups ∧
        (history constructedAt calls).current.Agrees ∧
        ∀ epoch tally, (history constructedAt calls).last = some (epoch, tally) →
          tally.Agrees := by
  have engine := native_tracks constructedAt calls
  have fallback := fallback_tracks constructedAt calls
  generalize history constructedAt calls = history at current last engine fallback ⊢
  generalize recordAll PyTelemetry.record (PyTelemetry.new constructedAt) calls = native at engine ⊢
  generalize recordAll (fun recorder now => Fallback.Telemetry.record recorder now)
    (Fallback.Telemetry.new constructedAt) calls = python at fallback ⊢
  unfold PyTelemetry.snapshot Fallback.Telemetry.snapshot
  rw [Snapshot.mk.injEq, fallback.startup, engine.startup, fallback.summary, fallback.last]
  refine and_congr ?_ (and_congr ?_ ?_)
  · rw [← startups_agree_iff]
    exact Int.ofNat_inj
  · exact summaries_agree_iff (engine.summary 0) current
  · have rel := engine.last
    generalize native.recorder.lastEpoch = sealed at rel ⊢
    generalize history.last = tallied at rel last ⊢
    cases rel with
    | none => exact iff_of_true rfl nofun
    | @some summary entry tracks =>
        obtain ⟨epoch, tally⟩ := entry
        have agree := summaries_agree_iff tracks (last epoch tally rfl)
        rw [Option.map_some, Option.map_some, Option.some.injEq, agree]
        constructor
        · rintro agrees _ _ ⟨⟩
          exact agrees
        · exact fun all => all epoch tally rfl

/-- One delivery and the end of its epoch. -/
theorem telemetry_snapshots_agree_iff_one :
    (recordAll PyTelemetry.record (PyTelemetry.new 3 : PyTelemetry Nat)
        [(8, .delivery 4 100 7), (9, .finishEpoch 0)]).snapshot =
      (recordAll (fun recorder now => Fallback.Telemetry.record recorder now)
        (Fallback.Telemetry.new 3 : Fallback.Telemetry Nat)
        [(8, .delivery 4 100 7), (9, .finishEpoch 0)]).snapshot := by
  refine (telemetry_snapshots_agree_iff 3 _ ?_ ?_).mpr ⟨?_, ?_, ?_⟩
  · constructor <;> decide
  · rintro _ _ ⟨⟩
    constructor <;> decide
  · exact ⟨by decide, nofun, nofun⟩
  · intro percent _ rank positive same
    have none : percent * 0 = 100 * rank := same
    omega
  · rintro _ _ ⟨⟩ percent member rank positive same
    have one : percent * 1 = 100 * rank := same
    have below : percent ≤ 99 := by
      simp only [List.mem_cons, List.not_mem_nil, or_false] at member
      omega
    omega

set_option maxRecDepth 4000 in
/-- A second delivery, later than the first; and two latencies of two bit lengths. -/
theorem telemetry_snapshots_differ :
    (recordAll PyTelemetry.record (PyTelemetry.new 0 : PyTelemetry Nat)
        [(5, .delivery 1 1 1), (9, .delivery 1 1 1)]).snapshot ≠
      (recordAll (fun recorder now => Fallback.Telemetry.record recorder now)
        (Fallback.Telemetry.new 0 : Fallback.Telemetry Nat)
        [(5, .delivery 1 1 1), (9, .delivery 1 1 1)]).snapshot ∧
    (recordAll PyTelemetry.record (PyTelemetry.new 0 : PyTelemetry Nat)
        [(5, .delivery 1 1 1), (5, .delivery 1 1 8)]).snapshot ≠
      (recordAll (fun recorder now => Fallback.Telemetry.record recorder now)
        (Fallback.Telemetry.new 0 : Fallback.Telemetry Nat)
        [(5, .delivery 1 1 1), (5, .delivery 1 1 8)]).snapshot := by
  constructor
  · intro same
    exact absurd (congrArg Snapshot.startupNs same) (by decide)
  · intro same
    have ordered : [1, 15].mergeSort (· ≤ ·) = [1, 15] := List.mergeSort_of_pairwise (by decide)
    have median : 1 = Fallback.quantile [1, 15] 50 :=
      congrArg (fun shown => shown.current.deliveryLatencyNs.headD 0) same
    unfold Fallback.quantile at median
    rw [ordered] at median
    exact absurd median (by decide)

end

end Hyperloader.Instruments
