/-
Module: Hyperloader.Arena.Sweep
Purpose: The guarded sweep of the region registry: how an entry is classified by its process, which
  regions are unlinked, and the rewrite of the file under its lock.
Trusted boundary: `Host` is what the system answers to observations and unlinks of one sweep.
Main exports: Host, Host.owned, Host.keeps, retainWith, sweepWith, sweep_safe
-/
import Hyperloader.Arena.Region
import Mathlib.Data.Finset.Basic

namespace Hyperloader.Arena

open Foundations

/-! ### Observations -/

structure ProcessIdentity where
  bootId : String
  procStart : UInt64

inductive ProcessObservation where
  | missing
  | live (identity : ProcessIdentity)
  | ambiguous (detail : String)

inductive Platform where
  | posix
  | windows

/-- The answers of one sweep: the observation of the process of an entry when the sweep reaches
it, and the error of an unlink that fails for another reason than a missing name. -/
structure Host where
  platform : Platform
  observe : RegistryEntry → ProcessObservation
  refuses : Bytes → Option String

/-- `unlink_registered`: the answer and the names left. Windows removes a name with its last
handle. -/
def Host.unlinkRegistered (host : Host) (names : Finset Bytes) (name : Bytes) :
    Except RegionError Unit × Finset Bytes :=
  match host.platform with
  | .windows => (.ok (), names)
  | .posix =>
      match host.refuses name with
      | some operation => (.error (.os operation), names)
      | none =>
          if name ∈ names then (.ok (), names.erase name) else (.error (.notFound name), names)

/-! ### Reports -/

inductive SweepOutcome where
  | live
  | dead
  | reused
  | ambiguous

structure SweepAction where
  name : String
  outcome : SweepOutcome
  detail : String

structure SweepReport where
  live : Nat
  removed : Nat
  ambiguous : Nat
  actions : List SweepAction
  registryIssues : List RegistryIssue

def SweepReport.default : SweepReport := ⟨0, 0, 0, [], []⟩

def SweepReport.count (report : SweepReport) : SweepOutcome → SweepReport
  | .live => { report with live := report.live + 1 }
  | .dead => { report with removed := report.removed + 1 }
  | .reused => { report with removed := report.removed + 1 }
  | .ambiguous => { report with ambiguous := report.ambiguous + 1 }

/-- The text of an error of a region; the system's own part of it is left out. -/
def RegionError.display : RegionError → String
  | .sequenceOutOfRange sequence =>
      "region sequence " ++ toString sequence ++ " exceeds the name grammar"
  | .invalidSize size => "region payload size " ++ toString size ++ " is invalid"
  | .notFound name =>
      "region " ++ String.ofList (name.map fun byte => Char.ofNat byte.toNat) ++ " does not exist"
  | .headerMismatch field => "region header has an invalid " ++ field
  | .os operation => operation ++ " failed"

/-! ### One entry -/

/-- The loop over the entries: the names of the regions there are, the names the sweep asked to
unlink so far, and the report. -/
structure Sweeping where
  names : Finset Bytes
  unlinked : List Bytes
  report : SweepReport

def unlinkEntry (host : Host) (state : Sweeping) (entry : RegistryEntry) :
    Except String Unit × Sweeping :=
  match entry.validatedName with
  | none => (.error "registry identity is malformed", state)
  | some name =>
      let (answer, names) := host.unlinkRegistered state.names name
      let state := { state with names, unlinked := state.unlinked ++ [name] }
      match answer with
      | .ok () => (.ok (), state)
      | .error (.notFound _) => (.ok (), state)
      | .error error => (.error ("region unlink remained ambiguous: " ++ error.display), state)

/-- An entry whose process is gone: it goes when its region is unlinked. -/
def removeEntry (host : Host) (state : Sweeping) (entry : RegistryEntry)
    (outcome : SweepOutcome) (detail : String) : (Bool × SweepOutcome × String) × Sweeping :=
  match unlinkEntry host state entry with
  | (.ok (), state) => ((false, outcome, detail), state)
  | (.error reason, state) => ((true, .ambiguous, reason), state)

def classify (host : Host) (state : Sweeping) (entry : RegistryEntry) :
    (Bool × SweepOutcome × String) × Sweeping :=
  match host.observe entry with
  | .missing => removeEntry host state entry .dead "process is absent"
  | .live identity =>
      if identity.bootId = entry.bootId ∧ identity.procStart = entry.procStart then
        ((true, .live, "process identity matches"), state)
      else removeEntry host state entry .reused "process identity differs"
  | .ambiguous detail => ((true, .ambiguous, detail), state)

/-- The closure `sweep_with` hands to `retain`. -/
def sweepEntry (host : Host) (state : Sweeping) (entry : RegistryEntry) : Bool × Sweeping :=
  let ((keep, outcome, detail), state) := classify host state entry
  let report := state.report.count outcome
  let report := { report with actions := report.actions ++ [⟨entry.name, outcome, detail⟩] }
  (keep, { state with report })

/-! ### The file -/

/-- How the rewrite of the file ends: an error before the rename leaves the file, one after it
does not. -/
inductive Rewrite where
  | completed
  | unreplaced (operation : String)
  | unsynchronized (operation : String)

inductive SweepError where
  | registry (error : RegistryError)
  | io (operation : String)

def replaceLocked (json : SerdeJson) (rewrite : Rewrite) (entries : List RegistryEntry)
    (file : RegistryFile) : Except SweepError Unit × RegistryFile :=
  if ∀ entry ∈ entries, entry.Valid then
    match rewrite with
    | .completed => (.ok (), some (entries.flatMap (record json)))
    | .unreplaced operation => (.error (.io operation), file)
    | .unsynchronized operation =>
        (.error (.io operation), some (entries.flatMap (record json)))
  else (.error (.registry .invalidEntry), file)

/-- `entries.retain(keep)` with a closure that has effects. -/
def retained {State : Type} (keep : State → RegistryEntry → Bool × State) :
    State → List RegistryEntry → List RegistryEntry × State
  | state, [] => ([], state)
  | state, entry :: entries =>
      let (kept, state) := keep state entry
      let (rest, state) := retained keep state entries
      (if kept then entry :: rest else rest, state)

/-- `retain` with its effects: the snapshot or the error of the rewrite, the state of the closure,
and the file. -/
def retainWith {State : Type} (json : SerdeJson) (keep : State → RegistryEntry → Bool × State)
    (rewrite : Rewrite) (state : State) (file : RegistryFile) :
    Except SweepError RegistrySnapshot × State × RegistryFile :=
  let snapshot := file.read json
  if snapshot.issues = [] then
    let (entries, state) := retained keep state snapshot.entries
    match replaceLocked json rewrite entries file with
    | (.ok (), file) => (.ok ⟨entries, []⟩, state, file)
    | (.error error, file) => (.error error, state, file)
  else (.ok snapshot, state, file)

/-- The registry and the regions there are. -/
structure World where
  file : RegistryFile
  names : Finset Bytes

/-- What a sweep returns, the world it leaves, and the names it asked to unlink. -/
structure Swept where
  result : Except SweepError SweepReport
  world : World
  unlinked : List Bytes

def sweepWith (json : SerdeJson) (host : Host) (rewrite : Rewrite) (world : World) : Swept :=
  let (result, state, file) := retainWith json (sweepEntry host) rewrite
    ⟨world.names, [], .default⟩ world.file
  let result := result.map fun snapshot =>
    if snapshot.issues ≠ [] then
      { state.report with
        ambiguous := snapshot.entries.length
        registryIssues := snapshot.issues }
    else state.report
  ⟨result, ⟨file, state.names⟩, state.unlinked⟩

/-! ### Owners -/

/-- The process of an entry is observed alive under the recorded identity, or not for certain. -/
def Host.owned (host : Host) (entry : RegistryEntry) : Bool :=
  match host.observe entry with
  | .missing => false
  | .live identity =>
      decide (identity.bootId = entry.bootId ∧ identity.procStart = entry.procStart)
  | .ambiguous _ => true

/-- The unlink of a region fails for another reason than its absence. -/
def Host.withholds (host : Host) (entry : RegistryEntry) : Bool :=
  match host.platform with
  | .windows => false
  | .posix => (host.refuses (utf8 entry.name)).isSome

/-- The entries a sweep keeps. -/
def Host.keeps (host : Host) (entry : RegistryEntry) : Bool :=
  host.owned entry || host.withholds entry

variable {entry : RegistryEntry}

theorem validatedName_of_valid (valid : entry.Valid) :
    entry.validatedName = some (utf8 entry.name) := by
  unfold RegistryEntry.Valid validateEntry at valid
  split at valid
  · nomatch valid
  · rename_i accepted
    rw [not_or, not_or, not_or] at accepted
    have named := accepted.2.2.2
    unfold RegistryEntry.validatedName at named ⊢
    cases read : RegionToken.fromHex (utf8 entry.token) with
    | none =>
        rw [read] at named
        exact absurd rfl named
    | some token =>
        rw [read] at named
        show RegionName.fromRegistry (utf8 entry.name) token = _
        change ¬(RegionName.fromRegistry (utf8 entry.name) token).isNone = true at named
        unfold RegionName.fromRegistry at named ⊢
        split
        · rfl
        · rename_i mismatch
          rw [if_neg mismatch] at named
          exact absurd rfl named

/-- What a sweep does to one entry: an owned one is left alone, another goes unless its unlink
is refused. -/
structure Step (host : Host) (state : Sweeping) (entry : RegistryEntry)
    (keep : Bool) (after : Sweeping) : Prop where
  keep : keep = host.keeps entry
  unlinked : after.unlinked = state.unlinked ++
    if host.owned entry then [] else [utf8 entry.name]
  names : ∀ name, name ∈ after.names ↔ name ∈ state.names ∧
    (host.platform = .posix → host.keeps entry = false → name ≠ utf8 entry.name)
  removed : after.report.removed = state.report.removed + if host.keeps entry then 0 else 1
  counted : after.report.live + after.report.removed + after.report.ambiguous =
    state.report.live + state.report.removed + state.report.ambiguous + 1
  actions : after.report.actions.map SweepAction.name =
    state.report.actions.map SweepAction.name ++ [entry.name]

/-- The answer of an unlink and what it leaves of the names. -/
theorem unlinkEntry_cases (host : Host) (state : Sweeping) (valid : entry.Valid) :
    let (answer, after) := unlinkEntry host state entry
    after.report = state.report ∧ after.unlinked = state.unlinked ++ [utf8 entry.name] ∧
      ((host.withholds entry = true ∧ (∃ reason, answer = .error reason) ∧
          after.names = state.names) ∨
        host.withholds entry = false ∧ answer = .ok () ∧
          ∀ name, name ∈ after.names ↔ name ∈ state.names ∧
            (host.platform = .posix → name ≠ utf8 entry.name)) := by
  unfold unlinkEntry
  rw [validatedName_of_valid valid]
  dsimp only
  unfold Host.unlinkRegistered Host.withholds
  cases host.platform with
  | windows =>
      refine ⟨rfl, rfl, Or.inr ⟨rfl, rfl, fun name => ?_⟩⟩
      exact (and_iff_left nofun).symm
  | posix =>
      dsimp only
      cases host.refuses (utf8 entry.name) with
      | some operation => exact ⟨rfl, rfl, Or.inl ⟨rfl, ⟨_, rfl⟩, rfl⟩⟩
      | none =>
          dsimp only
          by_cases present : utf8 entry.name ∈ state.names
          · rw [if_pos present]
            refine ⟨rfl, rfl, Or.inr ⟨rfl, rfl, fun name => ?_⟩⟩
            rw [Finset.mem_erase, and_comm]
            exact and_congr_right fun _ => ⟨fun other _ => other, fun other => other rfl⟩
          · rw [if_neg present]
            refine ⟨rfl, rfl, Or.inr ⟨rfl, rfl, fun name => ?_⟩⟩
            exact ⟨fun member => ⟨member, fun _ same => present (same ▸ member)⟩, And.left⟩

variable {outcome : SweepOutcome} {detail : String}

theorem sweepEntry_eq {host : Host} {state after : Sweeping} {keep : Bool}
    (classified : classify host state entry = ((keep, outcome, detail), after)) :
    sweepEntry host state entry =
      (keep, { after with
        report := { after.report.count outcome with
          actions := (after.report.count outcome).actions ++ [⟨entry.name, outcome, detail⟩] } }) := by
  unfold sweepEntry
  rw [classified]

/-- An entry left alone. -/
theorem step_of_owned {host : Host} {state : Sweeping} (owned : host.owned entry = true)
    (spared : outcome = .live ∨ outcome = .ambiguous)
    (classified : classify host state entry = ((true, outcome, detail), state)) :
    Step host state entry (sweepEntry host state entry).1 (sweepEntry host state entry).2 := by
  have keeps : host.keeps entry = true := by
    unfold Host.keeps
    rw [owned, Bool.true_or]
  rw [sweepEntry_eq classified]
  rcases spared with rfl | rfl <;>
  exact {
    keep := keeps.symm
    unlinked := by rw [owned]; exact (List.append_nil _).symm
    names := fun name => by
      rw [keeps]
      exact (and_iff_left nofun).symm
    removed := by rw [keeps]; rfl
    counted := by dsimp only [SweepReport.count]; omega
    actions := List.map_append }

/-- An entry whose process is gone. -/
theorem step_of_gone {host : Host} {state : Sweeping} (valid : entry.Valid)
    (gone : host.owned entry = false) (dropped : outcome = .dead ∨ outcome = .reused)
    (classified : classify host state entry = removeEntry host state entry outcome detail) :
    Step host state entry (sweepEntry host state entry).1 (sweepEntry host state entry).2 := by
  have keeps : host.keeps entry = host.withholds entry := by
    unfold Host.keeps
    rw [gone, Bool.false_or]
  have unlinking := unlinkEntry_cases host state valid
  unfold removeEntry at classified
  revert classified unlinking
  rcases unlinkEntry host state entry with ⟨answer, after⟩
  rintro classified
    ⟨report, unlinked, ⟨withheld, ⟨reason, rfl⟩, same⟩ | ⟨withheld, rfl, names⟩⟩
  · rw [sweepEntry_eq classified]
    exact {
      keep := by rw [keeps, withheld]
      unlinked := by rw [gone]; exact unlinked
      names := fun name => by
        rw [keeps, withheld]
        show name ∈ after.names ↔ _
        rw [same]
        exact (and_iff_left nofun).symm
      removed := by
        rw [keeps, withheld, ← report]
        rfl
      counted := by
        dsimp only [SweepReport.count]
        rw [report]
        omega
      actions := by
        rw [← report]
        exact List.map_append }
  · rw [sweepEntry_eq classified]
    rcases dropped with rfl | rfl <;>
    exact {
      keep := by rw [keeps, withheld]
      unlinked := by rw [gone]; exact unlinked
      names := fun name => by
        rw [keeps, withheld]
        exact (names name).trans (and_congr_right fun _ =>
          ⟨fun other onPosix _ => other onPosix, fun other onPosix => other onPosix rfl⟩)
      removed := by
        rw [keeps, withheld, ← report]
        rfl
      counted := by
        dsimp only [SweepReport.count]
        rw [report]
        omega
      actions := by
        rw [← report]
        exact List.map_append }

theorem sweepEntry_step (host : Host) (state : Sweeping) (valid : entry.Valid) :
    Step host state entry (sweepEntry host state entry).1 (sweepEntry host state entry).2 := by
  cases observed : host.observe entry with
  | missing =>
      have gone : host.owned entry = false := by rw [Host.owned, observed]
      apply step_of_gone valid gone (Or.inl rfl)
      rw [classify, observed]
  | live identity =>
      by_cases matched : identity.bootId = entry.bootId ∧ identity.procStart = entry.procStart
      · have owned : host.owned entry = true := by
          rw [Host.owned, observed]
          exact decide_eq_true matched
        apply step_of_owned owned (Or.inl rfl)
        rw [classify, observed]
        exact if_pos matched
      · have gone : host.owned entry = false := by
          rw [Host.owned, observed]
          exact decide_eq_false matched
        apply step_of_gone valid gone (Or.inr rfl)
        rw [classify, observed]
        exact if_neg matched
  | ambiguous detail =>
      have owned : host.owned entry = true := by rw [Host.owned, observed]
      apply step_of_owned owned (Or.inr rfl)
      rw [classify, observed]

/-! ### A whole sweep -/

/-- What the loop does to a list of entries. -/
structure Steps (host : Host) (state : Sweeping) (entries kept : List RegistryEntry)
    (after : Sweeping) : Prop where
  filtered : kept = entries.filter host.keeps
  unlinked : ∀ name, name ∈ after.unlinked ↔ name ∈ state.unlinked ∨
    ∃ entry ∈ entries, host.owned entry = false ∧ name = utf8 entry.name
  names : ∀ name, name ∈ after.names ↔ name ∈ state.names ∧
    (host.platform = .posix → ∀ entry ∈ entries, host.keeps entry = false →
      name ≠ utf8 entry.name)
  removed : after.report.removed + kept.length = state.report.removed + entries.length
  counted : after.report.live + after.report.removed + after.report.ambiguous =
    state.report.live + state.report.removed + state.report.ambiguous + entries.length
  actions : after.report.actions.map SweepAction.name =
    state.report.actions.map SweepAction.name ++ entries.map RegistryEntry.name

variable {entries : List RegistryEntry}

theorem retained_steps (host : Host) (valid : ∀ entry ∈ entries, entry.Valid) (state : Sweeping) :
    Steps host state entries (retained (sweepEntry host) state entries).1
      (retained (sweepEntry host) state entries).2 := by
  induction entries generalizing state with
  | nil =>
      exact {
        filtered := rfl
        unlinked := fun name => by simp [retained]
        names := fun name => by simp [retained]
        removed := rfl
        counted := rfl
        actions := (List.append_nil _).symm }
  | cons entry entries ih =>
      have first := sweepEntry_step host state (valid entry List.mem_cons_self)
      have rest := ih
        (fun other member => valid other (List.mem_cons_of_mem _ member))
        (sweepEntry host state entry).2
      have whole : retained (sweepEntry host) state (entry :: entries) =
          (if (sweepEntry host state entry).1 then
            entry :: (retained (sweepEntry host) (sweepEntry host state entry).2 entries).1
          else (retained (sweepEntry host) (sweepEntry host state entry).2 entries).1,
            (retained (sweepEntry host) (sweepEntry host state entry).2 entries).2) := rfl
      rw [whole, first.keep]
      exact {
        filtered := by
          rw [List.filter_cons, rest.filtered]
        unlinked := fun name => by
          rw [rest.unlinked, first.unlinked, List.mem_append, or_assoc,
            List.exists_mem_cons_iff]
          cases host.owned entry with
          | true | false => simp
        names := fun name => by
          rw [rest.names, first.names, and_assoc]
          simp only [List.forall_mem_cons]
          exact and_congr_right fun _ => ⟨fun both onPosix => ⟨both.1 onPosix, both.2 onPosix⟩,
            fun both => ⟨fun onPosix => (both onPosix).1, fun onPosix => (both onPosix).2⟩⟩
        removed := by
          have later := rest.removed
          have now := first.removed
          rw [List.length_cons]
          cases keeps : host.keeps entry with
          | true =>
              rw [keeps, if_pos rfl] at now
              rw [if_pos rfl]
              dsimp only
              rw [List.length_cons]
              omega
          | false =>
              rw [keeps, if_neg Bool.false_ne_true] at now
              rw [if_neg Bool.false_ne_true]
              dsimp only
              omega
        counted := by
          rw [rest.counted, first.counted, List.length_cons]
          omega
        actions := by
          rw [rest.actions, first.actions, List.append_assoc]
          rfl }

/-! ### Snapshots -/

/-- Reported entries are valid and have names of their own, whatever the bytes. -/
structure Reader.Sound (reader : Reader) : Prop where
  valid : ∀ entry ∈ reader.snapshot.entries, entry.Valid
  unique : (reader.snapshot.entries.map RegistryEntry.name).Nodup
  names : ∀ entry ∈ reader.snapshot.entries, entry.name ∈ reader.names

variable {json : SerdeJson}

variable {reader : Reader}

theorem Reader.Sound.line (sound : reader.Sound) (line : Bytes) :
    (reader.line json line).Sound := by
  unfold Reader.line
  split
  · rename_i entry _
    split
    · rename_i accepted
      obtain ⟨valid, fresh⟩ := accepted
      refine ⟨fun other member => ?_, ?_, fun other member => ?_⟩
      · rcases List.mem_append.mp member with old | new
        · exact sound.valid other old
        · exact List.mem_singleton.mp new ▸ valid
      · rw [List.map_append]
        apply List.Nodup.append sound.unique (List.nodup_singleton _)
        intro name old new
        obtain ⟨other, member, rfl⟩ := List.mem_map.mp old
        exact fresh (List.mem_singleton.mp new ▸ sound.names other member)
      · rcases List.mem_append.mp member with old | new
        · exact List.mem_cons_of_mem _ (sound.names other old)
        · exact List.mem_singleton.mp new ▸ List.mem_cons_self
    · exact ⟨sound.valid, sound.unique, sound.names⟩
  · exact ⟨sound.valid, sound.unique, sound.names⟩

/-- What a snapshot of any file reports. -/
structure RegistrySnapshot.Sound (snapshot : RegistrySnapshot) : Prop where
  valid : ∀ entry ∈ snapshot.entries, entry.Valid
  unique : (snapshot.entries.map RegistryEntry.name).Nodup

theorem Reader.Sound.parse (sound : reader.Sound) (bytes : Bytes) :
    (reader.parse json bytes).Sound := by
  induction reader, bytes using Reader.parse.induct json with
  | case1 reader =>
      rw [parse_nil]
      exact ⟨sound.valid, sound.unique⟩
  | case2 reader bytes nonempty missing =>
      rw [Reader.parse, if_neg nonempty]
      split
      · exact ⟨sound.valid, sound.unique⟩
      · rename_i found
        rw [missing] at found
        cases found
  | case3 reader bytes nonempty relativeEnd position ih =>
      rw [Reader.parse, if_neg nonempty]
      split
      · rename_i found
        rw [position] at found
        cases found
      · rename_i found
        rw [position] at found
        cases Option.some.inj found
        exact ih (sound.line _)

theorem sound_read (json : SerdeJson) (file : RegistryFile) : (file.read json).Sound := by
  cases file with
  | none => exact ⟨nofun, List.nodup_nil⟩
  | some bytes =>
      have start : Reader.start.Sound := ⟨nofun, List.nodup_nil, nofun⟩
      exact start.parse bytes

/-- A reader that goes on through records of entries with names it has not seen reports them
all in their order. -/
theorem foldl_records (valid : ∀ entry ∈ entries, entry.Valid)
    (unique : (entries.map RegistryEntry.name).Nodup)
    (fresh : ∀ entry ∈ entries, entry.name ∉ reader.names) :
    (entries.foldl (fun reader entry => reader.line json (json.toVec entry)) reader).snapshot =
      { reader.snapshot with entries := reader.snapshot.entries ++ entries } := by
  induction entries generalizing reader with
  | nil =>
      rw [List.append_nil]
      rfl
  | cons entry entries ih =>
      rw [List.map_cons, List.nodup_cons] at unique
      have line : reader.line json (json.toVec entry) =
          { snapshot := { reader.snapshot with entries := reader.snapshot.entries ++ [entry] }
            names := entry.name :: reader.names
            lineNumber := reader.lineNumber + 1 } := by
        rw [Reader.line, json.reads entry]
        exact if_pos ⟨valid entry List.mem_cons_self, fresh entry List.mem_cons_self⟩
      rw [List.foldl_cons, line, ih]
      · simp only [List.append_assoc, List.singleton_append]
      · exact fun other member => valid other (List.mem_cons_of_mem _ member)
      · exact unique.2
      · intro other member known
        rcases List.mem_cons.mp known with same | old
        · exact unique.1 (same ▸ List.mem_map_of_mem member)
        · exact fresh other (List.mem_cons_of_mem _ member) old

/-- A rewritten file is read back as the entries it was written from. -/
theorem read_records (valid : ∀ entry ∈ entries, entry.Valid)
    (unique : (entries.map RegistryEntry.name).Nodup) :
    RegistryFile.read json (some (entries.flatMap (record json))) = ⟨entries, []⟩ := by
  have whole := @parse_records json Reader.start entries []
  rw [List.append_nil, parse_nil, foldl_records valid unique fun _ _ => List.not_mem_nil] at whole
  exact whole

variable {snapshot : RegistrySnapshot}

theorem RegistrySnapshot.Sound.filter (sound : snapshot.Sound) (keep : RegistryEntry → Bool) :
    (∀ entry ∈ snapshot.entries.filter keep, entry.Valid) ∧
      ((snapshot.entries.filter keep).map RegistryEntry.name).Nodup := by
  constructor
  · intro entry member
    exact sound.valid entry (List.mem_of_mem_filter member)
  · exact sound.unique.sublist (List.filter_sublist.map _)

/-- Entries of one snapshot with the same bytes for a name are the same. -/
theorem RegistrySnapshot.Sound.eq_of_name (sound : snapshot.Sound) {one two : RegistryEntry}
    (first : one ∈ snapshot.entries) (second : two ∈ snapshot.entries)
    (same : utf8 one.name = utf8 two.name) : one = two := by
  have names : one.name = two.name := by
    apply String.toByteArray_inj.mp
    apply ByteArray.ext
    apply Array.toList_inj.mp
    exact same
  exact List.inj_on_of_nodup_map sound.unique first second names

section Sweeps

variable (json : SerdeJson) (host : Host) (rewrite : Rewrite) (world : World)

/-- A file with an issue suppresses the sweep. -/
theorem sweepWith_of_issues (issues : (world.file.read json).issues ≠ []) :
    (sweepWith json host rewrite world).unlinked = [] ∧
      (sweepWith json host rewrite world).world = world := by
  unfold sweepWith retainWith
  dsimp only
  rw [if_neg issues]
  exact ⟨rfl, rfl⟩

/-- The file a rewrite leaves. -/
def Rewrite.leaves (json : SerdeJson) (rewrite : Rewrite) (entries : List RegistryEntry)
    (file : RegistryFile) : RegistryFile :=
  match rewrite with
  | .unreplaced _ => file
  | _ => some (entries.flatMap (record json))

/-- The sweep of a file without issues, by what its loop did to the entries. -/
theorem sweepWith_of_clean (clean : (world.file.read json).issues = []) :
    let entries := (world.file.read json).entries
    let kept := entries.filter host.keeps
    let swept := sweepWith json host rewrite world
    ∃ after, Steps host ⟨world.names, [], .default⟩ entries kept after ∧
      swept.unlinked = after.unlinked ∧ swept.world.names = after.names ∧
        swept.world.file = rewrite.leaves json kept world.file ∧
        (∀ report, swept.result = .ok report → report = after.report) ∧
        (rewrite = .completed → swept.result = .ok after.report) := by
  have sound := sound_read json world.file
  have steps := retained_steps host sound.valid ⟨world.names, [], .default⟩
  have filtered := steps.filtered
  have valid := (sound.filter host.keeps).1
  intro entries kept swept
  refine ⟨_, filtered ▸ steps, ?_⟩
  simp only [swept, sweepWith, retainWith, if_pos clean, filtered, replaceLocked, if_pos valid]
  cases rewrite with
  | completed => exact ⟨rfl, rfl, rfl, fun report same => (Except.ok.inj same).symm, fun _ => rfl⟩
  | unreplaced operation | unsynchronized operation => exact ⟨rfl, rfl, rfl, nofun, nofun⟩

variable {json host rewrite world}

theorem keeps_of_owned (owned : host.owned entry = true) : host.keeps entry = true := by
  unfold Host.keeps
  rw [owned, Bool.true_or]

/-- A sweep touches no region of an entry it keeps and asks to unlink none that is owned. -/
theorem sweepWith_spares {entry : RegistryEntry} (member : entry ∈ (world.file.read json).entries) :
    (host.owned entry = true →
        utf8 entry.name ∉ (sweepWith json host rewrite world).unlinked) ∧
      (host.keeps entry = true →
        (utf8 entry.name ∈ (sweepWith json host rewrite world).world.names ↔
            utf8 entry.name ∈ world.names) ∧
          entry ∈ ((sweepWith json host rewrite world).world.file.read json).entries) := by
  have sound := sound_read json world.file
  by_cases clean : (world.file.read json).issues = []
  · obtain ⟨after, steps, unlinked, names, file, -⟩ :=
      sweepWith_of_clean json host rewrite world clean
    rw [unlinked, names, file]
    constructor
    · intro owned asked
      rcases (steps.unlinked _).mp asked with old | ⟨other, among, gone, same⟩
      · exact List.not_mem_nil old
      · cases sound.eq_of_name member among same
        exact Bool.false_ne_true (gone.symm.trans owned)
    · intro keeps
      constructor
      · rw [steps.names]
        apply and_iff_left
        intro _ other among dropped same
        cases sound.eq_of_name member among same
        exact Bool.false_ne_true (dropped.symm.trans keeps)
      · obtain ⟨valid, unique⟩ := sound.filter host.keeps
        unfold Rewrite.leaves
        split
        · exact member
        · rw [read_records valid unique]
          exact List.mem_filter.mpr ⟨member, keeps⟩
  · obtain ⟨unlinked, same⟩ := sweepWith_of_issues json host rewrite world clean
    rw [unlinked, same]
    exact ⟨fun _ => List.not_mem_nil, fun _ => ⟨Iff.rfl, member⟩⟩

/-- A rewrite leaves the kept entries, or the file as it was. -/
theorem read_leaves (sound : snapshot.Sound) (keep : RegistryEntry → Bool) (file : RegistryFile)
    (replaced : ∀ operation, rewrite ≠ .unreplaced operation) :
    (rewrite.leaves json (snapshot.entries.filter keep) file).read json =
      ⟨snapshot.entries.filter keep, []⟩ := by
  obtain ⟨valid, unique⟩ := sound.filter keep
  unfold Rewrite.leaves
  split
  · rename_i operation
    exact absurd rfl (replaced operation)
  · exact read_records valid unique

/-- The file a sweep leaves, rewritten or not, has no issues and keeps the same entries under
the same answers. -/
theorem sweepWith_then (clean : (world.file.read json).issues = []) (rewrite : Rewrite)
    {later : Host}
    (agree : ∀ entry ∈ (world.file.read json).entries, later.keeps entry = host.keeps entry) :
    let kept := (world.file.read json).entries.filter host.keeps
    let middle := (sweepWith json host rewrite world).world.file.read json
    middle.issues = [] ∧ (∀ entry ∈ kept, entry ∈ middle.entries) ∧
      middle.entries.filter later.keeps = kept := by
  have sound := sound_read json world.file
  obtain ⟨after, -, -, -, file, -⟩ := sweepWith_of_clean json host rewrite world clean
  intro kept middle
  by_cases replaced : ∀ operation, rewrite ≠ .unreplaced operation
  · have rewritten : middle = ⟨kept, []⟩ := by
      dsimp only [middle]
      rw [file, read_leaves sound host.keeps world.file replaced]
    rw [rewritten]
    refine ⟨rfl, fun entry member => member, ?_⟩
    apply List.filter_eq_self.mpr
    intro entry member
    obtain ⟨reported, keeps⟩ := List.mem_filter.mp member
    exact (agree entry reported).trans keeps
  · rw [not_forall] at replaced
    obtain ⟨operation, same⟩ := replaced
    rw [not_not] at same
    have unchanged : middle = world.file.read json := by
      dsimp only [middle]
      rw [file, same]
      rfl
    rw [unchanged]
    refine ⟨clean, fun entry member => List.mem_of_mem_filter member, ?_⟩
    exact List.filter_congr agree

end Sweeps

/-- Every sweep leaves the entries whose owner is alive or in doubt and their regions alone; of
a file without issues it counts every entry once and leaves the kept ones, each read back as
itself; of a file with an issue it changes nothing; and a sweep that is run again under the same
answers, whether the first rewrote the file or not, ends at the same entries. -/
theorem sweep_safe (json : SerdeJson) (host : Host) (rewrite : Rewrite) (world : World) :
    let snapshot := world.file.read json
    let kept := snapshot.entries.filter host.keeps
    let swept := sweepWith json host rewrite world
    (∀ entry ∈ snapshot.entries, host.owned entry = true →
        utf8 entry.name ∉ swept.unlinked ∧
          (utf8 entry.name ∈ swept.world.names ↔ utf8 entry.name ∈ world.names) ∧
          entry ∈ (swept.world.file.read json).entries) ∧
      (snapshot.issues = [] →
        (∀ report, swept.result = .ok report →
            report.live + report.removed + report.ambiguous = snapshot.entries.length ∧
              report.removed + kept.length = snapshot.entries.length ∧
              report.actions.map SweepAction.name =
                snapshot.entries.map RegistryEntry.name) ∧
          (rewrite = .completed → ∃ report, swept.result = .ok report) ∧
          ((∀ operation, rewrite ≠ .unreplaced operation) →
            swept.world.file = some (kept.flatMap (record json)) ∧
              swept.world.file.read json = ⟨kept, []⟩)) ∧
      (snapshot.issues ≠ [] → swept.unlinked = [] ∧ swept.world = world) ∧
      ∀ later rewritten,
        let again := sweepWith json later rewritten swept.world
        (∀ entry ∈ (swept.world.file.read json).entries, later.owned entry = true →
            utf8 entry.name ∉ again.unlinked) ∧
          (snapshot.issues = [] →
            (∀ entry ∈ snapshot.entries, later.keeps entry = host.keeps entry) →
            (∀ entry ∈ kept,
                (utf8 entry.name ∈ again.world.names ↔ utf8 entry.name ∈ world.names)) ∧
              ((∀ operation, rewritten ≠ .unreplaced operation) →
                again.world.file.read json = ⟨kept, []⟩)) := by
  intro snapshot kept swept
  have sound := sound_read json world.file
  refine ⟨?_, ?_, ?_, ?_⟩
  · intro entry member owned
    obtain ⟨unasked, spared⟩ := @sweepWith_spares json host rewrite world entry member
    exact ⟨unasked owned, spared (keeps_of_owned owned)⟩
  · intro clean
    obtain ⟨after, steps, -, -, file, reported, done⟩ :=
      sweepWith_of_clean json host rewrite world clean
    refine ⟨fun report returned => ?_, fun completed => ⟨_, done completed⟩, fun replaced => ?_⟩
    · rw [reported report returned]
      have removed := steps.removed
      have counted := steps.counted
      simp only [SweepReport.default, Nat.zero_add, Nat.add_zero] at removed counted
      exact ⟨counted, removed, steps.actions⟩
    · constructor
      · rw [file]
        unfold Rewrite.leaves
        split
        · rename_i operation
          exact absurd rfl (replaced operation)
        · rfl
      · rw [file]
        exact read_leaves sound host.keeps world.file replaced
  · exact sweepWith_of_issues json host rewrite world
  · intro later rewritten again
    refine ⟨fun entry member => ?_, fun clean agree => ?_⟩
    · exact (@sweepWith_spares json later rewritten swept.world entry member).1
    obtain ⟨again_clean, within, filtered⟩ := sweepWith_then clean rewrite agree
    refine ⟨fun entry member => ?_, fun replaced => ?_⟩
    · obtain ⟨reported, keeps⟩ := List.mem_filter.mp member
      have first := (@sweepWith_spares json host rewrite world entry reported).2 keeps
      have second := (@sweepWith_spares json later rewritten swept.world entry
        (within entry member)).2 ((agree entry reported).trans keeps)
      exact second.1.trans first.1
    · obtain ⟨after, -, -, -, file, -⟩ :=
        sweepWith_of_clean json later rewritten swept.world again_clean
      rw [file, read_leaves (sound_read json swept.world.file) later.keeps _ replaced, filtered]

end Hyperloader.Arena
