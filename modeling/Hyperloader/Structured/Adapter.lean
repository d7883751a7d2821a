/-
Module: Hyperloader.Structured.Adapter
Purpose: The batch-native adapter, structured/pipeline.py: the table of batch futures kept
  in front of the delivery, and what it holds from the start of an epoch to its end.
Trusted boundary: the batch executor runs what it is given, and a future answers with what
  was produced for its own range, or raises.
Main exports:
  Pipeline, Future, NativePipelineAdapter, Stocked, Frontier, Frontier.begun,
  Frontier.nativeBatch
-/
import Hyperloader.Foundations.Batching

namespace Hyperloader.Structured

open Foundations

/-- The items of a pipeline and the function of its collate stage. -/
structure Pipeline (Sample Batch : Type*) where
  item : Nat → Sample
  collate : List Sample → Batch

/-- `_produce_batch`: the batch of the positions from `start` up to `stop`. -/
def Pipeline.produceBatch {Sample Batch : Type*} (pipeline : Pipeline Sample Batch)
    (start stop : Nat) : Batch :=
  pipeline.collate ((List.range' start (stop - start)).map pipeline.item)

/-- A future of the batch executor: its place among all the ranges submitted, and the
range `_produce_batch` is called with. -/
structure Future where
  serial : Nat
  start : Nat
  stop : Nat

/-- A produced batch, and the future that answered with it, if any did. -/
structure Produced (Batch : Type*) where
  batch : Batch
  source : Option Nat

/-- The fields the frontier works with.  `submitted` lists every range handed to the batch
executor, oldest first, which the adapter itself forgets. -/
structure NativePipelineAdapter where
  futures : List (Nat × Future)
  epochLength : Nat
  nextBatchSubmit : Nat
  batchSize : Nat
  batchPrefetch : Nat
  submitted : List (Nat × Nat)

namespace NativePipelineAdapter

def initial : NativePipelineAdapter := ⟨[], 0, 0, 1, 1, []⟩

/-- `self._batch_pool().submit(self._produce_batch, start, stop)` -/
def submit (adapter : NativePipelineAdapter) (start stop : Nat) :
    Future × NativePipelineAdapter :=
  (⟨adapter.submitted.length, start, stop⟩,
    { adapter with submitted := adapter.submitted ++ [(start, stop)] })

/-- `self._futures.pop(start, None)` -/
def pop (adapter : NativePipelineAdapter) (start : Nat) :
    Option Future × NativePipelineAdapter :=
  (adapter.futures.lookup start,
    { adapter with futures := adapter.futures.filter fun entry => entry.1 != start })

/-- `self._futures[start] = future` -/
def put (adapter : NativePipelineAdapter) (start : Nat) (future : Future) :
    NativePipelineAdapter :=
  { adapter with
    futures := (adapter.futures.filter fun entry => entry.1 != start) ++ [(start, future)] }

/-- The body of the loop of `_fill_frontier`. -/
def extend (adapter : NativePipelineAdapter) : NativePipelineAdapter :=
  let start := adapter.nextBatchSubmit
  let stop := min (start + adapter.batchSize) adapter.epochLength
  let (future, submitted) := adapter.submit start stop
  { submitted.put start future with nextBatchSubmit := stop }

/-- The loop of `_fill_frontier`, with a bound on its rounds. -/
def fill : Nat → NativePipelineAdapter → NativePipelineAdapter
  | 0, adapter => adapter
  | rounds + 1, adapter =>
      if adapter.nextBatchSubmit < adapter.epochLength ∧
          adapter.futures.length < adapter.batchPrefetch then
        fill rounds adapter.extend
      else adapter

/-- `_fill_frontier`: every round submits at least one position. -/
def fillFrontier (adapter : NativePipelineAdapter) : NativePipelineAdapter :=
  fill (adapter.epochLength - adapter.nextBatchSubmit) adapter

/-- `native_batch`, which gives no batch where an item or the collation raises. -/
def nativeBatch {Sample Batch : Type*} (pipeline : Pipeline Sample Batch)
    (adapter : NativePipelineAdapter) (start stop : Nat) (raises : Bool) :
    Option (Produced Batch) × NativePipelineAdapter :=
  if adapter.epochLength = 0 then
    -- the sample executor computes the values of a probe
    (if raises then none else some ⟨pipeline.produceBatch start stop, none⟩, adapter)
  else
    let (found, popped) := adapter.pop start
    let (future, waiting) :=
      match found with
      | some future => (future, popped)
      | none => popped.submit start stop
    if raises then (none, waiting)
    else
      (some ⟨pipeline.produceBatch future.start future.stop, some future.serial⟩,
        waiting.fillFrontier)

/-- `begin_native_epoch` -/
def beginNativeEpoch (adapter : NativePipelineAdapter) (length depth start batchSize : Nat) :
    NativePipelineAdapter :=
  fillFrontier
    { adapter with
      futures := []
      epochLength := length
      nextBatchSubmit := start
      batchSize := batchSize
      batchPrefetch := max 1 ((depth + batchSize - 1) / batchSize) }

/-- `close` -/
def close (adapter : NativePipelineAdapter) : NativePipelineAdapter :=
  { adapter with futures := [], epochLength := 0, nextBatchSubmit := 0, batchPrefetch := 1 }

end NativePipelineAdapter

/-! ### The frontier of an epoch -/

/-- The range of a batch. -/
def span (batching : Batching) (ordinal : Nat) : Nat × Nat :=
  (ordinal * batching.width,
    min (ordinal * batching.width + batching.width) batching.length)

/-- The entry of a batch in the table of an epoch whose first submission was that of
`first`, after `base` submissions of earlier epochs. -/
def entry (batching : Batching) (first base ordinal : Nat) : Nat × Future :=
  ((span batching ordinal).1,
    ⟨base + (ordinal - first), (span batching ordinal).1, (span batching ordinal).2⟩)

/-- The batches from `front` on, `held` of them, are in the table, and the batches from
`first` up to them were submitted, each once and in order. -/
structure Stocked (batching : Batching) (prefetch first : Nat) (earlier : List (Nat × Nat))
    (front held : Nat) (adapter : NativePipelineAdapter) : Prop where
  length : adapter.epochLength = batching.length
  width : adapter.batchSize = batching.width
  prefetches : adapter.batchPrefetch = prefetch
  begun : first ≤ front
  inside : front + held ≤ batching.count
  bounded : held ≤ prefetch
  next : adapter.nextBatchSubmit = min batching.length ((front + held) * batching.width)
  futures : adapter.futures =
    (List.range' front held).map (entry batching first earlier.length)
  submitted : adapter.submitted =
    earlier ++ (List.range' first (front + held - first)).map (span batching)

/-- A filled table: no batch is left to submit, or there is no room for one. -/
structure Frontier (batching : Batching) (prefetch first : Nat) (earlier : List (Nat × Nat))
    (front : Nat) (adapter : NativePipelineAdapter) : Prop where
  stocked : ∃ held, Stocked batching prefetch first earlier front held adapter ∧
    (front + held = batching.count ∨ held = prefetch)

section Frontiers

variable {batching : Batching} {prefetch first front held : Nat} {earlier : List (Nat × Nat)}
  {adapter : NativePipelineAdapter}

theorem span_fst_injective {one two : Nat}
    (same : (span batching one).1 = (span batching two).1) : one = two :=
  Nat.eq_of_mul_eq_mul_right batching.positive same

/-- Entries of other batches stay when the entry of one is taken out. -/
theorem filter_entries {base ordinal : Nat} {ordinals : List Nat} (absent : ordinal ∉ ordinals) :
    ((ordinals.map (entry batching first base)).filter
      fun other => other.1 != (span batching ordinal).1) =
      ordinals.map (entry batching first base) := by
  rw [List.filter_eq_self]
  intro other member
  obtain ⟨another, inside, rfl⟩ := List.mem_map.mp member
  refine bne_iff_ne.mpr fun same => absent ?_
  exact span_fst_injective same ▸ inside

namespace Stocked

section

variable (stocked : Stocked batching prefetch first earlier front held adapter)

include stocked

theorem length_futures :
    adapter.futures.length = held := by
  rw [stocked.futures, List.length_map, List.length_range']

theorem more_iff :
    adapter.nextBatchSubmit < adapter.epochLength ↔ front + held < batching.count := by
  rw [stocked.next, stocked.length, Batching.lt_count_iff]
  omega

/-- A round of the loop adds the next batch. -/
theorem extend (more : front + held < batching.count) (room : held < prefetch) :
    Stocked batching prefetch first earlier front (held + 1) adapter.extend := by
  have low : (front + held) * batching.width < batching.length := Batching.lt_count_iff.mp more
  have start : adapter.nextBatchSubmit = (span batching (front + held)).1 := by
    rw [stocked.next, Nat.min_eq_right (Nat.le_of_lt low)]
    rfl
  have stop : min (adapter.nextBatchSubmit + adapter.batchSize) adapter.epochLength =
      (span batching (front + held)).2 := by
    rw [start, stocked.width, stocked.length]
    rfl
  have begun := stocked.begun
  have submissions : front + (held + 1) - first = (front + held - first) + 1 := by omega
  have last : first + (front + held - first) = front + held := by omega
  have serial : adapter.submitted.length = earlier.length + (front + held - first) := by
    rw [stocked.submitted, List.length_append, List.length_map, List.length_range']
  refine ⟨stocked.length, stocked.width, stocked.prefetches, begun, ?_, room, ?_, ?_, ?_⟩
  · rw [← Nat.add_assoc]
    exact more
  · calc adapter.extend.nextBatchSubmit
        = min (adapter.nextBatchSubmit + adapter.batchSize) adapter.epochLength := rfl
      _ = (span batching (front + held)).2 := stop
      _ = min batching.length ((front + (held + 1)) * batching.width) := by
          rw [span, Nat.min_comm, ← Nat.succ_mul]
          rfl
  · have table : adapter.extend.futures =
        (adapter.futures.filter fun other => other.1 != adapter.nextBatchSubmit) ++
          [(adapter.nextBatchSubmit, ⟨adapter.submitted.length, adapter.nextBatchSubmit,
            min (adapter.nextBatchSubmit + adapter.batchSize) adapter.epochLength⟩)] := rfl
    have fresh : front + held ∉ List.range' front held := by
      rw [List.mem_range'_1]
      omega
    rw [table, stop, start, serial, stocked.futures, filter_entries fresh, List.range'_concat,
      List.map_append, Nat.one_mul]
    rfl
  · have log : adapter.extend.submitted = adapter.submitted ++ [(adapter.nextBatchSubmit,
        min (adapter.nextBatchSubmit + adapter.batchSize) adapter.epochLength)] := rfl
    rw [log, stop, start, stocked.submitted, submissions, List.range'_concat, List.map_append,
      Nat.one_mul, last, List.append_assoc]
    rfl

/-- The loop ends with a filled table. -/
theorem fill {rounds : Nat} (enough : adapter.epochLength - adapter.nextBatchSubmit ≤ rounds) :
    Frontier batching prefetch first earlier front (adapter.fill rounds) := by
  induction rounds generalizing held adapter with
  | zero =>
      have none : ¬ adapter.nextBatchSubmit < adapter.epochLength := by omega
      rw [stocked.more_iff] at none
      exact ⟨held, stocked, .inl (Nat.le_antisymm stocked.inside (Nat.not_lt.mp none))⟩
  | succ rounds ih =>
      rw [NativePipelineAdapter.fill]
      by_cases more : front + held < batching.count
      · by_cases room : held < prefetch
        · have extended := stocked.extend more room
          have positive := batching.positive
          have low := Batching.lt_count_iff.mp more
          rw [if_pos ⟨stocked.more_iff.mpr more, by
            rw [stocked.length_futures, stocked.prefetches]; exact room⟩]
          refine ih extended ?_
          rw [extended.next, extended.length, ← Nat.add_assoc, Nat.succ_mul]
          rw [stocked.next, stocked.length] at enough
          omega
        · rw [if_neg fun both => room (by
            rw [stocked.length_futures, stocked.prefetches] at both
            exact both.2)]
          exact ⟨held, stocked, .inr (Nat.le_antisymm stocked.bounded (Nat.not_lt.mp room))⟩
      · rw [if_neg fun both => more (stocked.more_iff.mp both.1)]
        exact ⟨held, stocked, .inl (Nat.le_antisymm stocked.inside (Nat.not_lt.mp more))⟩

theorem fillFrontier :
    Frontier batching prefetch first earlier front adapter.fillFrontier :=
  stocked.fill (Nat.le_refl _)

end

end Stocked

namespace Frontier

/-- The epoch begins with a filled table of the ranges from the start on. -/
theorem begun (adapter : NativePipelineAdapter) (depth : Nat) {first : Nat}
    (inside : first ≤ batching.count) :
    Frontier batching (max 1 ((depth + batching.width - 1) / batching.width)) first
      adapter.submitted first
      (adapter.beginNativeEpoch batching.length depth
        (min batching.length (first * batching.width)) batching.width) := by
  have submitted : adapter.submitted = adapter.submitted ++
      (List.range' first (first + 0 - first)).map (span batching) := by
    rw [Nat.add_zero, Nat.sub_self, List.range'_zero, List.map_nil, List.append_nil]
  exact Stocked.fillFrontier
    ⟨rfl, rfl, rfl, Nat.le_refl _, inside, Nat.zero_le _, rfl, rfl, submitted⟩

section

variable (frontier : Frontier batching prefetch first earlier front adapter)

include frontier

theorem inside :
    front ≤ batching.count := by
  obtain ⟨held, stocked, -⟩ := frontier.stocked
  exact Nat.le_trans (Nat.le_add_right _ _) stocked.inside

theorem bounded :
    adapter.futures.length ≤ prefetch := by
  obtain ⟨held, stocked, -⟩ := frontier.stocked
  rw [stocked.length_futures]
  exact stocked.bounded

/-- Past the last batch the table is empty. -/
theorem empty (spent : front = batching.count) : adapter.futures = [] := by
  obtain ⟨held, stocked, -⟩ := frontier.stocked
  have inside := stocked.inside
  have none : held = 0 := by omega
  rw [stocked.futures, none]
  rfl

/-- No range is submitted twice. -/
theorem once :
    ∃ ranges, adapter.submitted = earlier ++ ranges ∧ ranges.Nodup := by
  obtain ⟨held, stocked, -⟩ := frontier.stocked
  refine ⟨_, stocked.submitted, List.Nodup.map ?_ List.nodup_range'⟩
  exact fun one two same => span_fst_injective (congrArg Prod.fst same)

end

/-- The future of the batch in front is in the table. -/
theorem found (frontier : Frontier batching prefetch first earlier front adapter)
    (room : 0 < prefetch) (early : front < batching.count) :
    adapter.futures.lookup (span batching front).1 =
      some (entry batching first earlier.length front).2 := by
  obtain ⟨held, stocked, full⟩ := frontier.stocked
  obtain ⟨rest, rfl⟩ : ∃ rest, held = rest + 1 := Nat.exists_eq_succ_of_ne_zero (by omega)
  rw [stocked.futures, List.range'_succ, List.map_cons, List.lookup_cons]
  simp [entry]

/-- Without its future the table is that of the batches after it. -/
theorem popped (frontier : Frontier batching prefetch first earlier front adapter)
    (room : 0 < prefetch) (early : front < batching.count) :
    ∃ held, Stocked batching prefetch first earlier (front + 1) held
      (adapter.pop (span batching front).1).2 := by
  obtain ⟨held, stocked, full⟩ := frontier.stocked
  obtain ⟨rest, rfl⟩ : ∃ rest, held = rest + 1 := Nat.exists_eq_succ_of_ne_zero (by omega)
  have moved : front + (rest + 1) = front + 1 + rest := by omega
  have absent : front ∉ List.range' (front + 1) rest := by
    rw [List.mem_range'_1]
    omega
  refine ⟨rest, stocked.length, stocked.width, stocked.prefetches,
    Nat.le_succ_of_le stocked.begun, moved ▸ stocked.inside, Nat.le_of_succ_le stocked.bounded,
    moved ▸ stocked.next, ?_, moved ▸ stocked.submitted⟩
  rw [NativePipelineAdapter.pop, stocked.futures, List.range'_succ, List.map_cons,
    List.filter_cons_of_neg (by simp [entry])]
  exact filter_entries absent

theorem running (frontier : Frontier batching prefetch first earlier front adapter)
    (early : front < batching.count) : adapter.epochLength ≠ 0 := by
  obtain ⟨held, stocked, -⟩ := frontier.stocked
  have low := Batching.lt_count_iff.mp early
  rw [stocked.length]
  omega

/-- The batch in front of the table is delivered from the future submitted for it, and the
table moves on. -/
theorem nativeBatch {Sample Batch : Type*} (pipeline : Pipeline Sample Batch)
    (frontier : Frontier batching prefetch first earlier front adapter) (room : 0 < prefetch)
    (early : front < batching.count) :
    ∃ next, NativePipelineAdapter.nativeBatch pipeline adapter (span batching front).1
        (span batching front).2 false =
        (some ⟨pipeline.produceBatch (span batching front).1 (span batching front).2,
          some (earlier.length + (front - first))⟩, next) ∧
      Frontier batching prefetch first earlier (front + 1) next := by
  obtain ⟨held, later⟩ := frontier.popped room early
  refine ⟨_, ?_, later.fillFrontier⟩
  rw [NativePipelineAdapter.nativeBatch, if_neg (frontier.running early)]
  simp only [NativePipelineAdapter.pop, frontier.found room early, Bool.false_eq_true, if_false]
  rfl

/-- A batch that raises submits nothing. -/
theorem raises {Sample Batch : Type*} (pipeline : Pipeline Sample Batch)
    (frontier : Frontier batching prefetch first earlier front adapter) (room : 0 < prefetch)
    (early : front < batching.count) :
    ∃ next, NativePipelineAdapter.nativeBatch pipeline adapter (span batching front).1
        (span batching front).2 true = (none, next) ∧ next.submitted = adapter.submitted := by
  refine ⟨(adapter.pop (span batching front).1).2, ?_, rfl⟩
  rw [NativePipelineAdapter.nativeBatch, if_neg (frontier.running early)]
  simp only [NativePipelineAdapter.pop, frontier.found room early, if_true]

end Frontier

end Frontiers

/-! ### Futures that are left behind -/

/-- Every future of the table is among the submissions from `mark` on. -/
structure Since (mark : Nat) (adapter : NativePipelineAdapter) : Prop where
  reached : mark ≤ adapter.submitted.length
  table : ∀ other ∈ adapter.futures, mark ≤ other.2.serial

namespace Since

variable {mark : Nat} {adapter : NativePipelineAdapter}

theorem extend (since : Since mark adapter) : Since mark adapter.extend := by
  refine ⟨?_, ?_⟩
  · have longer : adapter.submitted.length ≤ adapter.extend.submitted.length :=
      (List.prefix_append adapter.submitted _).length_le
    exact Nat.le_trans since.reached longer
  · intro other member
    rcases List.mem_append.mp member with old | new
    · exact since.table other (List.mem_of_mem_filter old)
    · rw [List.mem_singleton.mp new]
      exact since.reached

theorem fill {rounds : Nat} (since : Since mark adapter) : Since mark (adapter.fill rounds) := by
  induction rounds generalizing adapter with
  | zero => exact since
  | succ rounds ih =>
      rw [NativePipelineAdapter.fill]
      split
      · exact ih since.extend
      · exact since

theorem pop (since : Since mark adapter) (start : Nat) : Since mark (adapter.pop start).2 :=
  ⟨since.reached, fun other member => since.table other (List.mem_of_mem_filter member)⟩

/-- What answers for a batch is a future of the table, or one submitted now. -/
theorem nativeBatch {Sample Batch : Type*} {pipeline : Pipeline Sample Batch}
    {start stop : Nat} {raises : Bool} {produced : Option (Produced Batch)}
    {next : NativePipelineAdapter} (since : Since mark adapter)
    (called : NativePipelineAdapter.nativeBatch pipeline adapter start stop raises =
      (produced, next)) :
    Since mark next ∧ ∀ batch serial, produced = some ⟨batch, some serial⟩ → mark ≤ serial := by
  have popped := since.pop start
  have answered : ∀ (future : Future) (waiting : NativePipelineAdapter), mark ≤ future.serial →
      Since mark waiting →
      (if raises then (none, waiting)
        else (some ⟨pipeline.produceBatch future.start future.stop, some future.serial⟩,
          waiting.fillFrontier)) = (produced, next) →
      Since mark next ∧
        ∀ batch serial, produced = some ⟨batch, some serial⟩ → mark ≤ serial := by
    intro future waiting recent kept same
    split at same
    · cases same
      exact ⟨kept, fun _ _ none => nomatch none⟩
    · cases same
      refine ⟨kept.fill, fun _ _ same => ?_⟩
      cases same
      exact recent
  rw [NativePipelineAdapter.nativeBatch] at called
  split at called
  · cases called
    refine ⟨since, fun _ _ same => ?_⟩
    split at same <;> cases same
  · cases found : adapter.futures.lookup start with
    | some future =>
        obtain ⟨_, _, table, -⟩ := List.lookup_eq_some_iff.mp found
        have member : (start, future) ∈ adapter.futures := by
          rw [table]
          exact List.mem_append_right _ List.mem_cons_self
        simp only [NativePipelineAdapter.pop, found] at called
        exact answered future _ (since.table _ member) popped called
    | none =>
        simp only [NativePipelineAdapter.pop, found] at called
        refine answered ⟨adapter.submitted.length, start, stop⟩ _ since.reached ?_ called
        exact ⟨Nat.le_trans since.reached (List.prefix_append _ [(start, stop)]).length_le,
          popped.table⟩

theorem begun (adapter : NativePipelineAdapter) (length depth start batchSize : Nat) :
    Since adapter.submitted.length (adapter.beginNativeEpoch length depth start batchSize) :=
  fill ⟨Nat.le_refl _, fun _ member => nomatch member⟩

theorem closed (adapter : NativePipelineAdapter) : Since adapter.submitted.length adapter.close :=
  ⟨Nat.le_refl _, fun _ member => nomatch member⟩

end Since

end Hyperloader.Structured
