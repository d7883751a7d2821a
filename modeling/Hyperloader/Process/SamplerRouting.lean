/-
Module: Hyperloader.Process.SamplerRouting
Purpose: The samples that iterators over user samplers and batch samplers execute on their
  pool, state/streaming_iterator.py and state/sampler_iterator.py, and when one of them is
  the sample of the construction probe.
Trusted boundary: as in `Sampler` and `Routing`.
Main exports:
  SamplerRouting.machine, Aligned, Homeward, executeAll_routing_iff, probe_routing_iff
-/
import Hyperloader.Process.Routing
import Hyperloader.State.SamplerIterator

namespace Hyperloader.Process

open Foundations State

/-- The sampler or batch sampler of a loader, as one call of `__iter__` finds it. -/
inductive Source (Index : Type) where
  | sampler (sampler : Sampler Index)
  | batches (sampler : BatchSampler Index)

/-- The iterator over a source. -/
inductive SourceIterator {Index : Type} (pickle : Index → List UInt8) where
  | streaming (sampler : Sampler Index) (iterator : StreamingSamplerIterator pickle)
  | batches (sampler : BatchSampler Index) (iterator : UserBatchSamplerIterator pickle)

namespace SourceIterator

variable {Index : Type} (pickle : Index → List UInt8)

/-- The iterator's construction over a new runtime. -/
def start (source : Source Index) (epoch cursor checksum : Nat) :
    Except SamplerError (SourceIterator pickle) :=
  match source with
  | .sampler sampler =>
      (StreamingSamplerIterator.start pickle sampler epoch cursor checksum).map (.streaming sampler)
  | .batches sampler =>
      (UserBatchSamplerIterator.start pickle sampler epoch cursor checksum).map (.batches sampler)

variable {pickle}

def epoch : SourceIterator pickle → Nat
  | .streaming _ iterator => iterator.epoch
  | .batches _ iterator => iterator.epoch

def complete : SourceIterator pickle → Bool
  | .streaming _ iterator => iterator.complete
  | .batches _ iterator => iterator.complete

/-- `_sampler_runtime.probe()` of a new iterator. -/
def probe : SourceIterator pickle → Option (Nat × Index)
  | .streaming sampler iterator =>
      match sampler.probe pickle iterator.position iterator.read with
      | .ok probe _ => probe
      | .error _ _ => none
  | .batches sampler iterator =>
      match sampler.probe pickle iterator.ordinal iterator.read with
      | .ok probe _ => probe
      | .error _ _ => none

/-- `__next__`, where the pool executes the batch or raises. -/
def next (executes : Bool) :
    SourceIterator pickle → SampledYield Index × SourceIterator pickle
  | .streaming sampler iterator =>
      let called := iterator.next pickle sampler executes
      (called.1, .streaming sampler called.2)
  | .batches sampler iterator =>
      let called := iterator.next pickle sampler executes
      (called.1, .batches sampler called.2)

end SourceIterator

/-- What a loader with a sampler routes with.  `planned` tells whether its dataset has samples
at all. -/
structure SamplerRouting where
  workers : Nat
  collates : Bool
  planned : Bool

/-- A loader with a sampler between two calls, with the iterator it still refers to. -/
structure SamplerLoader {Index : Type} (pickle : Index → List UInt8) where
  epochs : EpochState
  cursor : Nat
  checksum : Nat
  iterator : Option (SourceIterator pickle)
  pool : Option (RoutedPool Index)

/-- One sample after the other through `execute`, up to the one that raises. -/
def RoutedPool.executeAll {Index : Type} [DecidableEq Index] (epoch : Nat) :
    List (Nat × Index) → Option Nat → RoutedPool Index → Except Refusal Unit × RoutedPool Index
  | [], _, pool => (.ok (), pool)
  | (position, index) :: rest, fails, pool =>
      match pool.execute epoch position index (fails ≠ some 0) with
      | (.error refusal, after) => (.error refusal, after)
      | (.ok (), after) => executeAll epoch rest (fails.map Nat.pred) after

namespace SamplerLoader

variable {Index : Type} {pickle : Index → List UInt8}

def start (pickle : Index → List UInt8) : SamplerLoader pickle := ⟨.new, 0, 0, none, none⟩

/-- `DataLoader.close` -/
def close (loader : SamplerLoader pickle) : SamplerLoader pickle :=
  { loader with iterator := none, pool := none }

end SamplerLoader

namespace SamplerRouting

/-- What can happen to a loader with a sampler.  A new iterator finds commands of the last one
pending or not; in a call of `next` the sample that raises may be given, or the collation
raises behind the last. -/
inductive Label (Index : Type) where
  | setEpoch (epoch : Nat)
  | loadStateDict (epoch cursor checksum : Nat)
  | close
  | drop
  | iterate (source : Source Index) (pending : Bool)
  | next (fails : Option Nat)

/-- What a step shows. -/
inductive Event (Index : Type) where
  | quiet
  | delivered (batch : SampledBatch Index)
  | exhausted
  | raised
  | misrouted

def Event.isMisrouted {Index : Type} : Event Index → Bool
  | .misrouted => true
  | _ => false

variable {Index : Type} {pickle : Index → List UInt8} (routing : SamplerRouting)

/-- `prepare_process_pool` -/
def prepare (pool : Option (RoutedPool Index)) (epoch : Nat) (probe : Nat × Index)
    (pending : Bool) : Option (RoutedPool Index) :=
  match if pending then none else pool with
  | some pool => some pool
  | none =>
      if routing.planned then
        some (.launch routing.workers none epoch probe.1 probe.1 probe.2)
      else none

/-- `DataLoader.__iter__` over a sampler, with the iterator it constructs. -/
def iterate (loader : SamplerLoader pickle) (source : Source Index) (pending : Bool) :
    Event Index × SamplerLoader pickle :=
  let epochs := loader.epochs.beginIteration.2
  let begun := { loader with epochs := epochs }
  let settled :=
    match loader.iterator with
    | some iterator => if iterator.complete then begun else begun.close
    | none => begun
  match SourceIterator.start pickle source epochs.current settled.cursor settled.checksum with
  | .error _ => (.raised, settled)
  | .ok iterator =>
      let pool :=
        match iterator.probe with
        | some probe => routing.prepare settled.pool epochs.current probe pending
        | none => settled.pool
      (.quiet,
        { epochs := epochs
          cursor := 0
          checksum := 0
          iterator := some iterator
          pool := pool })

variable [DecidableEq Index]

/-- The executions of a batch. -/
def execute (pool : RoutedPool Index) (batch : SampledBatch Index) (fails : Option Nat) :
    Except Refusal Unit × RoutedPool Index :=
  if routing.collates then pool.executeCollated fails.isNone
  else pool.executeAll batch.epoch batch.entries fails

/-- `next` of the iterator, which closes the loader where the execution raises. -/
def next (loader : SamplerLoader pickle) (fails : Option Nat) :
    Option (Event Index × SamplerLoader pickle) :=
  match loader.iterator with
  | none => none
  | some iterator =>
      match iterator.next true with
      | (.delivered batch, after) =>
          match loader.pool with
          | none => some (.raised, loader.close)
          | some pool =>
              match routing.execute pool batch fails with
              | (.error .routing, _) => some (.misrouted, loader.close)
              | (.error .failed, _) => some (.raised, loader.close)
              | (.ok (), pool) =>
                  if fails.isSome then some (.raised, loader.close)
                  else
                    some (.delivered batch,
                      { loader with
                        epochs := loader.epochs.markDelivered iterator.epoch
                        iterator := some after
                        pool := some pool })
      | (.exhausted, after) =>
          some (.exhausted,
            { loader with
              epochs :=
                if iterator.complete then loader.epochs
                else loader.epochs.complete iterator.epoch
              iterator := some after })
      | (_, after) => some (.raised, { loader with iterator := some after })

def step (loader : SamplerLoader pickle) :
    Label Index → Option (Event Index × SamplerLoader pickle)
  | .setEpoch epoch =>
      some (.quiet,
        { loader with epochs := loader.epochs.setEpoch epoch, cursor := 0, checksum := 0 })
  | .loadStateDict epoch cursor checksum =>
      some (.quiet,
        { loader.close with
          epochs := loader.epochs.restore epoch, cursor := cursor, checksum := checksum })
  | .close => some (.quiet, loader.close)
  | .drop => some (.quiet, { loader with iterator := none })
  | .iterate source pending => some (routing.iterate loader source pending)
  | .next fails => routing.next loader fails

/-- A loader with a sampler, with one pool after another. -/
def machine (pickle : Index → List UInt8) :
    Machine (SamplerLoader pickle) (Label Index) (Event Index) where
  step loader label := routing.step loader label

end SamplerRouting

/-! ### When a sample finds the probe's worker -/

/-- Where a sample of the batch is that of the retained probe, the samples executed on the pool
before it are a multiple of the workers. -/
def Aligned {Index : Type} (pool : RoutedPool Index) (epoch : Nat)
    (entries : List (Nat × Index)) : Prop :=
  ∀ place position index, entries[place]? = some (position, index) →
    pool.probeRetained = true → (epoch, position, index) = pool.probeKey →
    pool.workers ∣ pool.executed + place

/-- The samples of a batch that are submitted, up to the one that raises. -/
def submitted {Index : Type} (entries : List (Nat × Index)) : Option Nat → List (Nat × Index)
  | none => entries
  | some last => entries.take (last + 1)

variable {fails : Option Nat}

theorem mem_of_submitted {Index : Type} {entries : List (Nat × Index)} {entry : Nat × Index}
    (member : entry ∈ submitted entries fails) : entry ∈ entries := by
  cases fails with
  | none => exact member
  | some last => exact List.mem_of_mem_take member

section Executions

variable {Index : Type} [DecidableEq Index] {pool : RoutedPool Index} {epoch : Nat}

/-- The pool routes in turn. -/
def InTurn (pool : RoutedPool Index) : Prop := pool.nextWorker = pool.executed % pool.workers

omit [DecidableEq Index] in
theorem InTurn.route (turn : InTurn pool) : InTurn pool.route.2 := by
  change (pool.nextWorker + 1) % pool.workers = (pool.executed + 1) % pool.workers
  rw [turn, Nat.mod_add_mod]

omit [DecidableEq Index] in
theorem InTurn.onward {after : RoutedPool Index} (turn : InTurn pool)
    (onward : pool.Onward after) : InTurn after := by
  rcases onward with rfl | rfl
  · exact turn
  · exact turn

theorem execute_snd (position : Nat) (index : Index) (answers : Bool) :
    (pool.execute epoch position index answers).2 =
      (pool.route.2.trySubmit epoch position index pool.route.1 0 none .accepts).2 := by
  unfold RoutedPool.execute
  dsimp only
  split <;> rename_i called <;> rw [called]

/-- An execution moves the pool's turn on, and keeps its probe or loses it. -/
theorem execute_onward (position : Nat) (index : Index) (answers : Bool) :
    pool.route.2.Onward (pool.execute epoch position index answers).2 := by
  rw [execute_snd]
  exact RoutedPool.trySubmit_frame

/-- An execution is refused exactly when its sample is that of the retained probe out of
turn. -/
theorem execute_routing_iff (turn : InTurn pool) {position : Nat} {index : Index} {answers : Bool} :
    (pool.execute epoch position index answers).1 = .error .routing ↔
      pool.probeRetained = true ∧ (epoch, position, index) = pool.probeKey ∧
        ¬ pool.workers ∣ pool.executed := by
  have check := @RoutedPool.trySubmit_routing_iff _ _ pool.route.2 epoch position pool.route.1 0
    index none .accepts
  have worker : pool.route.1 ≠ 0 ↔ ¬ pool.workers ∣ pool.executed := by
    rw [Nat.dvd_iff_mod_eq_zero, ← turn]
    rfl
  have same : (pool.execute epoch position index answers).1 = .error .routing ↔
      (pool.route.2.trySubmit epoch position index pool.route.1 0 none .accepts).1 =
        .error .routing := by
    unfold RoutedPool.execute
    dsimp only
    split
    · rename_i refusal after called
      rw [called]
      exact ⟨fun same => congrArg _ (Except.error.inj same),
        fun same => congrArg _ (Except.error.inj same)⟩
    · rename_i accepted after called
      rw [called]
      refine iff_of_false ?_ nofun
      split
      · exact nofun
      · exact nofun
  rw [same, check, worker]
  constructor
  · rintro ⟨retained, key, -, elsewhere⟩
    exact ⟨retained, key, elsewhere⟩
  · rintro ⟨retained, key, elsewhere⟩
    exact ⟨retained, key, rfl, elsewhere⟩

variable {rest : List (Nat × Index)} {position : Nat} {index : Index}

omit [DecidableEq Index] in
/-- The rest of a batch is aligned after its first sample exactly when it was before: the
first sample's coordinate is no other's. -/
theorem aligned_rest {after : RoutedPool Index} (fresh : position ∉ rest.map Prod.fst)
    (onward : pool.route.2.Onward after)
    (taken : (epoch, position, index) ≠ pool.probeKey → after = pool.route.2) :
    Aligned after epoch rest ↔ ∀ place other value, rest[place]? = some (other, value) →
      pool.probeRetained = true → (epoch, other, value) = pool.probeKey →
      pool.workers ∣ pool.executed + (place + 1) := by
  have shift : ∀ place, pool.executed + (place + 1) = pool.executed + 1 + place :=
    fun place => by omega
  constructor
  · intro aligned place other value found retained key
    have differs : (epoch, position, index) ≠ pool.probeKey := by
      intro same
      have coordinate : position = other :=
        congrArg (fun key => key.2.1) (same.trans key.symm)
      exact fresh (coordinate ▸ List.mem_map_of_mem (List.mem_of_getElem? found))
    have kept := taken differs
    subst kept
    rw [shift]
    exact aligned place other value found retained key
  · intro aligned place other value found retained key
    have kept := onward.retained retained
    subst kept
    have there := aligned place other value found retained key
    rw [shift] at there
    exact there

/-- An execution that is not refused answers or fails. -/
theorem execute_answer {answers : Bool}
    (fine : (pool.execute epoch position index answers).1 ≠ .error .routing) :
    (pool.execute epoch position index answers).1 = if answers then .ok () else .error .failed := by
  have check := @RoutedPool.trySubmit_routing_iff _ _ pool.route.2 epoch position pool.route.1 0
    index none .accepts
  unfold RoutedPool.execute at fine ⊢
  dsimp only at fine ⊢
  split
  · rename_i refusal after called
    rw [called] at fine check
    cases refusal with
    | routing => exact absurd rfl fine
    | failed =>
        have accepted : (pool.route.2.trySubmit epoch position index pool.route.1 0 none
            .accepts).1 ≠ .error .failed := by
          unfold RoutedPool.trySubmit
          dsimp only
          split
          · split <;> exact nofun
          · split <;> exact nofun
        exact absurd (congrArg Prod.fst called) accepted
  · rfl

omit [DecidableEq Index] in
theorem aligned_cons :
    Aligned pool epoch ((position, index) :: rest) ↔
      (pool.probeRetained = true → (epoch, position, index) = pool.probeKey →
        pool.workers ∣ pool.executed) ∧
      ∀ place other value, rest[place]? = some (other, value) →
        pool.probeRetained = true → (epoch, other, value) = pool.probeKey →
        pool.workers ∣ pool.executed + (place + 1) := by
  constructor
  · intro aligned
    exact ⟨aligned 0 position index rfl, fun place other value found =>
      aligned (place + 1) other value found⟩
  · rintro ⟨head, tail⟩ place other value found
    cases place with
    | zero =>
        cases found
        exact head
    | succ place => exact tail place other value found

theorem executeAll_error {refusal : Refusal}
    (refused : (pool.execute epoch position index (fails ≠ some 0)).1 = .error refusal) :
    (pool.executeAll epoch ((position, index) :: rest) fails).1 = .error refusal := by
  rw [RoutedPool.executeAll]
  split
  · rename_i called
    rw [called] at refused
    exact refused
  · rename_i called
    rw [called] at refused
    cases refused

theorem executeAll_ok (answered : (pool.execute epoch position index (fails ≠ some 0)).1 = .ok ()) :
    pool.executeAll epoch ((position, index) :: rest) fails =
      (pool.execute epoch position index (fails ≠ some 0)).2.executeAll epoch rest
        (fails.map Nat.pred) := by
  rw [RoutedPool.executeAll]
  split
  · rename_i called
    rw [called] at answered
    cases answered
  · rename_i called
    rw [called]

/-- A batch of different coordinates is refused exactly when it is not aligned. -/
theorem executeAll_routing_iff (turn : InTurn pool) {entries : List (Nat × Index)}
    (distinct : (entries.map Prod.fst).Nodup) (fails : Option Nat) :
    (pool.executeAll epoch entries fails).1 = .error .routing ↔
      ¬ Aligned pool epoch (submitted entries fails) := by
  induction entries generalizing pool fails with
  | nil =>
      have nothing : submitted ([] : List (Nat × Index)) fails = [] := by
        cases fails <;> rfl
      rw [nothing]
      exact iff_of_false nofun (not_not.mpr fun _ _ _ none => nomatch none)
  | cons entry rest ih =>
      obtain ⟨position, index⟩ := entry
      obtain ⟨fresh, later⟩ := List.nodup_cons.mp distinct
      have refused := @execute_routing_iff _ _ pool epoch turn position index (fails ≠ some 0)
      by_cases out : pool.probeRetained = true ∧ (epoch, position, index) = pool.probeKey ∧
          ¬ pool.workers ∣ pool.executed
      · have first : ∃ others, submitted ((position, index) :: rest) fails =
            (position, index) :: others := by
          cases fails with
          | none => exact ⟨rest, rfl⟩
          | some last => exact ⟨rest.take last, rfl⟩
        obtain ⟨others, same⟩ := first
        rw [same, aligned_cons]
        exact iff_of_true (executeAll_error (refused.mpr out)) fun aligned =>
          out.2.2 (aligned.1 out.1 out.2.1)
      · have answered := execute_answer (refused.not.mpr out)
        have head : pool.probeRetained = true → (epoch, position, index) = pool.probeKey →
            pool.workers ∣ pool.executed := by
          intro retained key
          by_contra elsewhere
          exact out ⟨retained, key, elsewhere⟩
        by_cases stops : fails = some 0
        · have failed : (pool.execute epoch position index (fails ≠ some 0)).1 =
              .error .failed := by
            rw [answered, if_neg]
            simpa using stops
          rw [executeAll_error failed, stops]
          refine iff_of_false nofun (not_not.mpr (aligned_cons.mpr ⟨head, ?_⟩))
          exact fun _ _ _ none => nomatch none
        · have passed : (pool.execute epoch position index (fails ≠ some 0)).1 = .ok () := by
            rw [answered, if_pos]
            simpa using stops
          have onward := @execute_onward _ _ pool epoch position index (fails ≠ some 0)
          have taken : (epoch, position, index) ≠ pool.probeKey →
              (pool.execute epoch position index (fails ≠ some 0)).2 = pool.route.2 := by
            intro differs
            rw [execute_snd]
            exact RoutedPool.trySubmit_other differs
          have rest' : submitted ((position, index) :: rest) fails =
              (position, index) :: submitted rest (fails.map Nat.pred) := by
            rcases fails with _ | _ | last
            · rfl
            · exact absurd rfl stops
            · rfl
          have absent : position ∉ (submitted rest (fails.map Nat.pred)).map Prod.fst := by
            intro member
            obtain ⟨other, inside, same⟩ := List.mem_map.mp member
            exact fresh (List.mem_map.mpr ⟨other, mem_of_submitted inside, same⟩)
          rw [executeAll_ok passed, ih (turn.route.onward onward) later,
            aligned_rest absent onward taken, rest', aligned_cons, not_iff_not]
          exact ⟨fun tail => ⟨head, tail⟩, fun both => both.2⟩

end Executions

/-! ### Batches -/

section Batches

variable {Index : Type} {pickle : Index → List UInt8}

/-- The samples of a batch have coordinates of their own. -/
theorem nodup_entriesFrom (position : Nat) (indices : List Index) :
    ((entriesFrom position indices).map Prod.fst).Nodup := by
  have coordinates : (entriesFrom position indices).map Prod.fst =
      List.range' position indices.length := by
    refine List.ext_getElem ?_ fun place one two => ?_
    · simp [entriesFrom]
    · simp [entriesFrom]
  rw [coordinates]
  exact List.nodup_range'

/-- What an iterator delivers are samples from a coordinate on. -/
theorem SourceIterator.entries_of_delivered {iterator after : SourceIterator pickle}
    {executes : Bool} {batch : SampledBatch Index}
    (called : iterator.next executes = (.delivered batch, after)) :
    ∃ position indices, batch.entries = entriesFrom position indices := by
  cases iterator with
  | streaming sampler iterator =>
      have yielded := congrArg Prod.fst called
      change (iterator.next pickle sampler executes).1 = .delivered batch at yielded
      unfold StreamingSamplerIterator.next at yielded
      split at yielded
      · cases yielded
      split at yielded
      · cases yielded
      split at yielded
      · cases yielded
      split at yielded
      · cases yielded
      cases yielded
      exact ⟨_, _, rfl⟩
  | batches sampler iterator =>
      have yielded := congrArg Prod.fst called
      change (iterator.next pickle sampler executes).1 = .delivered batch at yielded
      unfold UserBatchSamplerIterator.next at yielded
      split at yielded
      · cases yielded
      split at yielded
      · cases yielded
      · cases yielded
      split at yielded
      · cases yielded
      cases yielded
      exact ⟨_, _, rfl⟩

end Batches

/-! ### Runs of a loader with a sampler -/

namespace SamplerRouting

variable {Index : Type} [DecidableEq Index] {pickle : Index → List UInt8}

/-- The samples that a call of `next` submits are aligned on the pool. -/
def Homeward (routing : SamplerRouting) (loader : SamplerLoader pickle) : Label Index → Prop
  | .next fails => ∀ iterator batch after pool, loader.iterator = some iterator →
      iterator.next true = (.delivered batch, after) → loader.pool = some pool →
      routing.collates = false → Aligned pool batch.epoch (submitted batch.entries fails)
  | _ => True

variable {routing : SamplerRouting} {loader after : SamplerLoader pickle} {label : Label Index}
  {event : Event Index}

/-- The pool of a loader routes in turn. -/
def Turning (loader : SamplerLoader pickle) : Prop :=
  ∀ pool, loader.pool = some pool → InTurn pool

/-- The executions of a batch are refused exactly when its samples are not aligned. -/
theorem execute_refused_iff {pool : RoutedPool Index} (turn : InTurn pool)
    {batch : SampledBatch Index} (distinct : (batch.entries.map Prod.fst).Nodup)
    (fails : Option Nat) :
    (routing.execute pool batch fails).1 = .error .routing ↔
      ¬ (routing.collates = false → Aligned pool batch.epoch (submitted batch.entries fails)) := by
  unfold execute
  cases collates : routing.collates with
  | true =>
      refine iff_of_false ?_ (not_not.mpr nofun)
      unfold RoutedPool.executeCollated
      cases fails <;> exact nofun
  | false =>
      rw [if_neg Bool.false_ne_true, executeAll_routing_iff turn distinct fails]
      exact not_congr ⟨fun aligned _ => aligned, fun aligned => aligned rfl⟩

theorem executeAll_turn {epoch : Nat} {entries : List (Nat × Index)} {pool : RoutedPool Index}
    (turn : InTurn pool) : InTurn (pool.executeAll epoch entries fails).2 := by
  induction entries generalizing pool fails with
  | nil => exact turn
  | cons entry rest ih =>
      obtain ⟨position, index⟩ := entry
      have moved := turn.route.onward
        (@execute_onward _ _ pool epoch position index (fails ≠ some 0))
      rw [RoutedPool.executeAll]
      split
      · rename_i called
        rw [called] at moved
        exact moved
      · rename_i called
        rw [called] at moved
        exact ih moved

theorem execute_turn {pool : RoutedPool Index} (turn : InTurn pool) (batch : SampledBatch Index)
    (fails : Option Nat) : InTurn (routing.execute pool batch fails).2 := by
  unfold execute
  split
  · exact turn.route
  · exact executeAll_turn turn

/-- A call of `next` meets the pool's check exactly when its samples are not aligned. -/
theorem next_misrouted_iff (turning : Turning loader)
    (called : routing.next loader fails = some (event, after)) :
    (event ≠ .misrouted ↔ Homeward routing loader (.next fails)) ∧ Turning after := by
  have closed : Turning loader.close := fun _ none => nomatch none
  unfold next at called
  split at called
  · cases called
  rename_i iterator current
  have unmet : ∀ yielded later, iterator.next true = (yielded, later) →
      (∀ batch, yielded ≠ .delivered batch) → Homeward routing loader (.next fails) := by
    intro yielded later same other found batch last pool here delivered
    cases current.symm.trans here
    cases same.symm.trans delivered
    exact absurd rfl (other batch)
  split at called
  · rename_i batch later delivered
    have homeward : ∀ pool, loader.pool = some pool →
        (Homeward routing loader (.next fails) ↔ (routing.collates = false →
          Aligned pool batch.epoch (submitted batch.entries fails))) := by
      intro pool found
      constructor
      · intro all collates
        exact all iterator batch later pool current delivered found collates
      · intro aligned other value last place here yields there collates
        cases current.symm.trans here
        cases delivered.symm.trans yields
        cases found.symm.trans there
        exact aligned collates
    split at called
    · rename_i none
      cases called
      refine ⟨iff_of_true nofun ?_, closed⟩
      intro _ _ _ pool _ _ there
      exact nomatch none.symm.trans there
    · rename_i pool found
      obtain ⟨position, indices, entries⟩ := SourceIterator.entries_of_delivered delivered
      have refused := @execute_refused_iff _ _ routing pool (turning pool found) batch
        (entries ▸ nodup_entriesFrom position indices) fails
      have turned := @execute_turn _ _ routing pool (turning pool found) batch fails
      rw [homeward pool found]
      split at called
      · rename_i executed
        cases called
        rw [executed] at refused
        exact ⟨iff_of_false (not_not.mpr rfl) (refused.mp rfl), closed⟩
      · rename_i executed
        cases called
        rw [executed] at refused
        exact ⟨iff_of_true nofun (not_not.mp (refused.not.mp nofun)), closed⟩
      · rename_i _ executed
        rw [executed] at refused turned
        have aligned := not_not.mp (refused.not.mp nofun)
        split at called
        · cases called
          exact ⟨iff_of_true nofun aligned, closed⟩
        · cases called
          refine ⟨iff_of_true nofun aligned, fun other same => ?_⟩
          cases same
          exact turned
  · rename_i later exhausted
    cases called
    exact ⟨iff_of_true nofun (unmet _ _ exhausted nofun), turning⟩
  · rename_i yielded later other _ same
    cases called
    refine ⟨iff_of_true nofun (unmet _ _ same other), turning⟩

omit [DecidableEq Index] in
/-- The pool of a new iterator is the old one, or is new and starts at worker 0. -/
theorem turning_prepare {pool after : Option (RoutedPool Index)} {epoch : Nat}
    {probe : Nat × Index} {pending : Bool} (turning : ∀ found, pool = some found → InTurn found)
    (prepared : routing.prepare pool epoch probe pending = after) :
    ∀ found, after = some found → InTurn found := by
  subst prepared
  intro found same
  unfold prepare at same
  split at same
  · rename_i kept old
    cases same
    split at old
    · cases old
    · exact turning found old
  · split at same
    · cases same
      exact (Nat.zero_mod _).symm
    · cases same

omit [DecidableEq Index] in
theorem iterate_turning (turning : Turning loader) {source : Source Index} {pending : Bool}
    (called : routing.iterate loader source pending = (event, after)) :
    event ≠ .misrouted ∧ Turning after := by
  unfold iterate at called
  dsimp only at called
  generalize settling : (match loader.iterator with
    | some iterator =>
        if iterator.complete = true then
          { loader with epochs := loader.epochs.beginIteration.2 }
        else
          { loader with epochs := loader.epochs.beginIteration.2 }.close
    | none => { loader with epochs := loader.epochs.beginIteration.2 }) = settled at called
  have settled : Turning settled := by
    subst settling
    split
    · split
      · exact turning
      · exact fun _ none => nomatch none
    · exact turning
  split at called
  · cases called
    exact ⟨nofun, settled⟩
  · cases called
    refine ⟨nofun, fun pool found => ?_⟩
    dsimp only at found
    split at found
    · exact turning_prepare settled found pool rfl
    · exact settled pool found

/-- A step meets the pool's check exactly when its samples are not aligned. -/
theorem step_misrouted_iff (turning : Turning loader)
    (stepEq : (routing.machine pickle).step loader label = some (event, after)) :
    (event ≠ .misrouted ↔ Homeward routing loader label) ∧ Turning after := by
  change routing.step loader label = some (event, after) at stepEq
  cases label with
  | setEpoch epoch =>
      cases stepEq
      exact ⟨iff_of_true nofun trivial, turning⟩
  | loadStateDict epoch cursor checksum | close =>
      cases stepEq
      exact ⟨iff_of_true nofun trivial, fun _ none => nomatch none⟩
  | drop =>
      cases stepEq
      exact ⟨iff_of_true nofun trivial, turning⟩
  | iterate source pending =>
      obtain ⟨fine, turns⟩ := iterate_turning turning (Option.some.inj stepEq)
      exact ⟨iff_of_true fine trivial, turns⟩
  | next fails => exact next_misrouted_iff turning stepEq

/-- Over one pool after another: the dispatches of a map loader always pass the pool's check of
the probe's worker, and those of a loader with a sampler pass it in a run exactly when every
sample of a retained probe is executed after a multiple of the pool's workers. -/
theorem probe_routing_iff :
    (∀ (routing : MapRouting Index) (prepared layout : Bool) labels trace after,
      routing.machine.run (routing.start prepared layout) labels = some (trace, after) →
      ∀ entry ∈ trace, entry.2 ≠ .misrouted) ∧
    ∀ (routing : SamplerRouting) (pickle : Index → List UInt8) labels trace after,
      (routing.machine pickle).run (.start pickle) labels = some (trace, after) →
      ((∀ entry ∈ trace, entry.2 ≠ .misrouted) ↔
        (routing.machine pickle).Along (Homeward routing) (.start pickle) labels) := by
  refine ⟨fun routing prepared layout labels trace after reached =>
    MapRouting.never_misrouted reached, ?_⟩
  intro routing pickle labels trace after reached
  refine (routing.machine pickle).events_iff_along
    (fun _ _ _ _ turning stepEq => (step_misrouted_iff turning stepEq).2)
    (fun _ _ _ _ turning stepEq => (step_misrouted_iff turning stepEq).1) ?_ reached
  exact fun _ none => nomatch none

/-- Two workers and no collation. -/
def pair : SamplerRouting := ⟨2, false, true⟩

/-- A sampler of one sample. -/
def lone : Sampler Nat := ⟨none, fun place => if place < 1 then some place else none, none, false⟩

/-- A sample executed in the epoch of its probe is aligned. -/
theorem probe_routing_lone :
    ∃ trace after,
      (pair.machine (fun _ => [])).run (.start _)
          [.iterate (.sampler lone) false, .next none] = some (trace, after) ∧
      (pair.machine (fun _ => [])).Along (Homeward pair) (.start _)
        [.iterate (.sampler lone) false, .next none] := by
  have sound : (((pair.machine (fun _ => [])).run (.start _)
      [.iterate (.sampler lone) false, .next none]).any
      fun reached => reached.1.all fun entry => !entry.2.isMisrouted) = true := by
    decide +kernel
  obtain ⟨⟨trace, after⟩, reached, all⟩ := (Option.any_eq_true _ _).mp sound
  refine ⟨trace, after, reached, (probe_routing_iff.2 pair _ _ trace after reached).mp ?_⟩
  rintro ⟨label, event⟩ member rfl
  cases List.all_eq_true.mp all _ member

/-- A pool that is probed in epoch 0 and executes its first sample in epoch 1 does not get the
sample of its probe any more. -/
theorem probe_misrouted :
    ∃ trace after,
      (pair.machine (fun _ => [])).run (.start _)
          [.iterate (.sampler lone) false, .drop, .setEpoch 1, .iterate (.sampler lone) false,
            .next none, .drop, .setEpoch 0, .iterate (.sampler lone) false, .next none] =
        some (trace, after) ∧
      ∃ entry ∈ trace, entry.2 = .misrouted := by
  have refused : (((pair.machine (fun _ => [])).run (.start _)
      [.iterate (.sampler lone) false, .drop, .setEpoch 1, .iterate (.sampler lone) false,
        .next none, .drop, .setEpoch 0, .iterate (.sampler lone) false, .next none]).any
      fun reached => reached.1.any fun entry => entry.2.isMisrouted) = true := by
    decide +kernel
  obtain ⟨⟨trace, after⟩, reached, met⟩ := (Option.any_eq_true _ _).mp refused
  obtain ⟨⟨label, event⟩, member, same⟩ := List.any_eq_true.mp met
  refine ⟨trace, after, reached, (label, event), member, ?_⟩
  cases event with
  | misrouted => rfl
  | _ => cases same

end SamplerRouting

end Hyperloader.Process
