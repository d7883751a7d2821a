/-
Module: Hyperloader.Distributed.Products
Purpose: The sums and products of `rank_placements` as the run computes them, in words that
  wrap, and the requests for which each is the exact integer.
Trusted boundary: none
Main exports: results, tailResults_small_iff, rankPlacements_exact_iff
-/
import Hyperloader.Distributed.Placement

namespace Hyperloader.Distributed

/-! ### Results of a run -/

/-- What the loop over `batch_start` adds and multiplies, each result before it wraps. -/
def regularResults (request : PlacementRequest) (globalBatch regularEnd : Nat) :
    Nat → Nat → Option (List Nat)
  | 0, _ => none
  | passes + 1, batchStart =>
      if batchStart < regularEnd then
        let offset := request.rank.toNat * request.batchSize.toNat
        let rankStart := batchStart + wrap offset
        let rankEnd := wrap rankStart + request.batchSize.toNat
        let next := batchStart + globalBatch
        (regularResults request globalBatch regularEnd passes (wrap next)).map
          ([offset, rankStart, rankEnd, next] ++ ·)
      else some []

/-- What the uneven tail adds and multiplies. -/
def tailResults (request : PlacementRequest) (fullEnd : Nat) : List Nat :=
  if request.exactCount && !request.dropLast then
    let tailSize := request.datasetLen.toNat - fullEnd
    let first := request.rank.toNat * tailSize
    let rankStart := fullEnd + wrap first / request.worldSize.toNat
    let after := request.rank.toNat + 1
    let last := wrap after * tailSize
    let rankEnd := fullEnd + wrap last / request.worldSize.toNat
    [first, rankStart, after, last, rankEnd]
  else []

/-- The sums and products of `rank_placements` up to its end or its error. -/
def results (passes : Nat) (request : PlacementRequest) :
    Option (Except PlacementError (List Nat)) :=
  if request.batchSize = 0 then some (.error .zeroBatchSize)
  else if request.worldSize = 0 then some (.error .zeroWorldSize)
  else if request.worldSize ≤ request.rank then some (.error .rankOutOfRange)
  else if request.datasetLen = 0 then some (.ok [])
  else
    match checkedMul request.batchSize.toNat request.worldSize.toNat with
    | .error error => some (.error error)
    | .ok globalBatch =>
        let datasetLen := request.datasetLen.toNat
        let fullEnd := datasetLen / globalBatch * globalBatch
        match (if request.dropLast || request.exactCount then .ok fullEnd
          else paddedLen datasetLen globalBatch) with
        | .error error => some (.error error)
        | .ok regularEnd =>
            (regularResults request globalBatch regularEnd passes 0).map fun regular =>
              .ok (globalBatch :: fullEnd :: regularEnd ::
                (regular ++ tailResults request fullEnd))

/-- The placement of a request is refused, or every sum and product of it is exact. -/
def Exact (answer : Except PlacementError (List Nat)) : Prop :=
  answer = .error .coordinateOverflow ∨
    ∃ values, answer = .ok values ∧ ∀ value ∈ values, value < 2 ^ 64

instance (answer : Except PlacementError (List Nat)) : Decidable (Exact answer) :=
  match answer with
  | .error error => decidable_of_iff (error = .coordinateOverflow)
      ⟨fun same => Or.inl (congrArg _ same), fun exact => by
        rcases exact with same | ⟨_, impossible, _⟩
        · exact Except.error.inj same
        · cases impossible⟩
  | .ok values => decidable_of_iff (∀ value ∈ values, value < 2 ^ 64)
      ⟨fun small => Or.inr ⟨values, rfl, small⟩, fun exact => by
        rcases exact with impossible | ⟨_, same, small⟩
        · cases impossible
        · cases same
          exact small⟩

/-! ### The loop and the tail -/

section OneRank

variable {request : PlacementRequest}

/-- The loop over the blocks left ends, and nothing in it wraps. -/
theorem regularResults_small {globalBatch blocks : Nat}
    (whole : globalBatch = request.batchSize.toNat * request.worldSize.toNat)
    (rankLt : request.rank.toNat < request.worldSize.toNat)
    (globalPositive : 0 < globalBatch) (bound : blocks * globalBatch < 2 ^ 64) {passes : Nat}
    {ordinal : Nat} (le : ordinal ≤ blocks) (enough : blocks - ordinal < passes) :
    ∃ values, regularResults request globalBatch (blocks * globalBatch) passes
        (ordinal * globalBatch) = some values ∧ ∀ value ∈ values, value < 2 ^ 64 := by
  induction passes generalizing ordinal with
  | zero => exact absurd enough (Nat.not_lt_zero _)
  | succ passes ih =>
      rw [regularResults]
      by_cases within : ordinal < blocks
      · have before : ordinal * globalBatch < blocks * globalBatch :=
          (Nat.mul_lt_mul_right globalPositive).mpr within
        have next : (ordinal + 1) * globalBatch ≤ blocks * globalBatch :=
          Nat.mul_le_mul_right _ within
        have offset : (request.rank.toNat + 1) * request.batchSize.toNat ≤ globalBatch := by
          rw [whole, Nat.mul_comm]
          exact Nat.mul_le_mul_left _ rankLt
        have advance : ordinal * globalBatch + globalBatch = (ordinal + 1) * globalBatch :=
          (Nat.succ_mul _ _).symm
        rw [Nat.succ_mul] at next offset
        obtain ⟨values, rest, small⟩ := ih within (by omega)
        rw [if_pos before]
        dsimp only
        simp (disch := omega) only [wrap_eq]
        rw [advance, rest]
        refine ⟨_, rfl, ?_⟩
        intro value member
        rcases List.mem_append.mp member with here | later
        · simp only [List.mem_cons, List.not_mem_nil, or_false] at here
          rcases here with rfl | rfl | rfl | rfl <;> omega
        · exact small value later
      · rw [if_neg (Nat.not_lt.mpr (Nat.mul_le_mul_right _ (Nat.le_of_not_lt within)))]
        exact ⟨[], rfl, nofun⟩

/-- The uneven tail does not wrap exactly when the product of the next rank and the tail fits
a word. -/
theorem tailResults_small_iff {globalBatch : Nat}
    (rankLt : request.rank.toNat < request.worldSize.toNat) :
    (∀ value ∈ tailResults request (request.datasetLen.toNat / globalBatch * globalBatch),
        value < 2 ^ 64) ↔
      (request.exactCount = true → request.dropLast = false →
        (request.rank.toNat + 1) * (request.datasetLen.toNat % globalBatch) < 2 ^ 64) := by
  have lengthWord := request.datasetLen.toNat_lt
  have worldWord := request.worldSize.toNat_lt
  have divided := Nat.div_add_mod' request.datasetLen.toNat globalBatch
  have tailSize : request.datasetLen.toNat - request.datasetLen.toNat / globalBatch *
      globalBatch = request.datasetLen.toNat % globalBatch := by omega
  have after : wrap (request.rank.toNat + 1) = request.rank.toNat + 1 := wrap_eq (by omega)
  rw [tailResults]
  by_cases uneven : (request.exactCount && !request.dropLast) = true
  · obtain ⟨counted, kept⟩ : request.exactCount = true ∧ request.dropLast = false := by
      simpa only [Bool.and_eq_true, Bool.not_eq_true'] using uneven
    rw [if_pos uneven]
    dsimp only
    rw [tailSize, after]
    constructor
    · intro small _ _
      exact small _ (by simp)
    · intro product
      have product := product counted kept
      have first : request.rank.toNat * (request.datasetLen.toNat % globalBatch) ≤
          (request.rank.toNat + 1) * (request.datasetLen.toNat % globalBatch) :=
        Nat.mul_le_mul_right _ (Nat.le_succ _)
      have last : (request.rank.toNat + 1) * (request.datasetLen.toNat % globalBatch) /
          request.worldSize.toNat ≤ request.datasetLen.toNat % globalBatch := by
        apply Nat.div_le_of_le_mul
        exact Nat.mul_le_mul_right _ rankLt
      have start : request.rank.toNat * (request.datasetLen.toNat % globalBatch) /
          request.worldSize.toNat ≤ (request.rank.toNat + 1) *
            (request.datasetLen.toNat % globalBatch) / request.worldSize.toNat :=
        Nat.div_le_div_right first
      rw [wrap_eq (Nat.lt_of_le_of_lt first product), wrap_eq product]
      intro value member
      simp only [List.mem_cons, List.not_mem_nil, or_false] at member
      rcases member with rfl | rfl | rfl | rfl | rfl <;> omega
  · rw [if_neg uneven]
    refine iff_of_true nofun fun counted kept => absurd ?_ uneven
    rw [counted, kept]
    rfl

end OneRank

/-! ### Requests -/

/-- The end of the regular positions is a whole number of global batches. -/
theorem regularEnd_ok {request : PlacementRequest} {globalBatch regularEnd : Nat}
    (filled : request.datasetLen ≠ 0)
    (ends : (if (request.dropLast || request.exactCount) = true then
        Except.ok (request.datasetLen.toNat / globalBatch * globalBatch)
      else paddedLen request.datasetLen.toNat globalBatch) = .ok regularEnd) :
    regularEnd < 2 ^ 64 ∧ ∃ blocks, regularEnd = blocks * globalBatch := by
  split at ends
  · cases ends
    exact ⟨Nat.lt_of_le_of_lt (Nat.div_mul_le_self _ _) request.datasetLen.toNat_lt, _, rfl⟩
  · have some : ¬request.datasetLen.toNat = 0 := fun zero => filled (UInt64.toNat_inj.mp zero)
    rw [paddedLen, if_neg some, checkedMul] at ends
    split at ends
    · cases ends
      exact ⟨by assumption, _, rfl⟩
    · cases ends

/-- For every request of a rank in its world, the placement is refused for overflow or
computes every sum and product exactly, exactly when the tail of exact counts, times the
next rank, fits a word. -/
theorem rankPlacements_exact_iff {request : PlacementRequest}
    (batchPositive : 0 < request.batchSize.toNat) (worldPositive : 0 < request.worldSize.toNat)
    (rankLt : request.rank.toNat < request.worldSize.toNat) :
    ∃ enough, ∀ passes, enough ≤ passes → ∃ answer, results passes request = some answer ∧
      (Exact answer ↔
        (request.exactCount = true → request.dropLast = false →
          request.batchSize.toNat * request.worldSize.toNat < 2 ^ 64 →
          (request.rank.toNat + 1) * (request.datasetLen.toNat %
            (request.batchSize.toNat * request.worldSize.toNat)) < 2 ^ 64)) := by
  have batchSome : ¬request.batchSize = 0 := ne_zero_of_toNat_pos batchPositive
  have worldSome : ¬request.worldSize = 0 := ne_zero_of_toNat_pos worldPositive
  have member : ¬request.worldSize ≤ request.rank := UInt64.not_le.mpr rankLt
  have opened : ∀ passes, results passes request = if request.datasetLen = 0 then some (.ok [])
      else _ := fun passes => by
    rw [results, if_neg batchSome, if_neg worldSome, if_neg member]
  by_cases empty : request.datasetLen = 0
  · refine ⟨0, fun passes _ => ⟨.ok [], by rw [opened, if_pos empty], iff_of_true ?_ ?_⟩⟩
    · exact Or.inr ⟨[], rfl, nofun⟩
    · intro _ _ _
      rw [empty]
      exact Nat.lt_of_le_of_lt (Nat.le_of_eq (by simp)) (Nat.two_pow_pos 64)
  by_cases fits : request.batchSize.toNat * request.worldSize.toNat < 2 ^ 64
  · have product : checkedMul request.batchSize.toNat request.worldSize.toNat =
        .ok (request.batchSize.toNat * request.worldSize.toNat) := by rw [checkedMul, if_pos fits]
    have globalPositive := Nat.mul_pos batchPositive worldPositive
    cases ends : (if (request.dropLast || request.exactCount) = true then
        Except.ok (request.datasetLen.toNat / (request.batchSize.toNat * request.worldSize.toNat) *
          (request.batchSize.toNat * request.worldSize.toNat))
      else paddedLen request.datasetLen.toNat
        (request.batchSize.toNat * request.worldSize.toNat)) with
    | error stop =>
        have padded : stop = .coordinateOverflow ∧ request.exactCount = false := by
          split at ends
          · cases ends
          · rename_i both
            simp only [Bool.or_eq_true, not_or, Bool.not_eq_true] at both
            unfold paddedLen checkedMul at ends
            split at ends
            · cases ends
            · split at ends
              · cases ends
              · cases ends
                exact ⟨rfl, both.2⟩
        refine ⟨0, fun passes _ => ⟨.error stop, ?_, iff_of_true ?_ ?_⟩⟩
        · rw [opened, if_neg empty, product]
          dsimp only
          rw [ends]
        · exact Or.inl (congrArg _ padded.1)
        · intro counted
          rw [padded.2] at counted
          cases counted
    | ok regularEnd =>
        obtain ⟨word, blocks, rfl⟩ := regularEnd_ok empty ends
        refine ⟨blocks + 1, fun passes enough => ?_⟩
        obtain ⟨regular, loop, small⟩ := @regularResults_small request
          (request.batchSize.toNat * request.worldSize.toNat) blocks rfl rankLt globalPositive
          word passes 0 (Nat.zero_le _) enough
        rw [Nat.zero_mul] at loop
        have tail := @tailResults_small_iff request
          (request.batchSize.toNat * request.worldSize.toNat) rankLt
        have full : request.datasetLen.toNat / (request.batchSize.toNat *
            request.worldSize.toNat) * (request.batchSize.toNat * request.worldSize.toNat) <
            2 ^ 64 :=
          Nat.lt_of_le_of_lt (Nat.div_mul_le_self _ _) request.datasetLen.toNat_lt
        have answered : results passes request = some (.ok
            (request.batchSize.toNat * request.worldSize.toNat ::
              request.datasetLen.toNat / (request.batchSize.toNat * request.worldSize.toNat) *
                (request.batchSize.toNat * request.worldSize.toNat) ::
              blocks * (request.batchSize.toNat * request.worldSize.toNat) ::
              (regular ++ tailResults request (request.datasetLen.toNat /
                (request.batchSize.toNat * request.worldSize.toNat) *
                  (request.batchSize.toNat * request.worldSize.toNat))))) := by
          rw [opened, if_neg empty, product]
          dsimp only
          rw [ends]
          dsimp only
          rw [loop, Option.map_some]
        refine ⟨_, answered, ?_⟩
        · refine Iff.trans ?_ (tail.trans ⟨fun product counted kept _ => product counted kept,
            fun product counted kept => product counted kept fits⟩)
          constructor
          · rintro (impossible | ⟨values, same, exact⟩)
            · cases impossible
            · cases same
              intro value within
              exact exact value (.tail _ (.tail _ (.tail _ (List.mem_append_right _ within))))
          · intro exact
            refine Or.inr ⟨_, rfl, ?_⟩
            simp only [List.forall_mem_cons, List.forall_mem_append]
            exact ⟨fits, full, word, small, exact⟩
  · refine ⟨0, fun passes _ => ⟨.error .coordinateOverflow, ?_, iff_of_true (Or.inl rfl) ?_⟩⟩
    · rw [opened, if_neg empty, checkedMul, if_neg fits]
    · exact fun _ _ small => absurd small fits

/-- A rank of 2^33 that shares a tail of almost as many samples. -/
def wideTail (rank : UInt64) : PlacementRequest where
  rootSeed := 0
  epoch := 0
  datasetLen := 8589934591
  batchSize := 1
  worldSize := 8589934592
  rank := rank
  dropLast := false
  exactCount := true

theorem rankPlacements_exact_iff_first :
    ∃ enough, ∀ passes, enough ≤ passes → ∃ answer, results passes (wideTail 0) = some answer ∧
      (Exact answer ↔
        ((wideTail 0).exactCount = true → (wideTail 0).dropLast = false →
          (wideTail 0).batchSize.toNat * (wideTail 0).worldSize.toNat < 2 ^ 64 →
          ((wideTail 0).rank.toNat + 1) * ((wideTail 0).datasetLen.toNat %
            ((wideTail 0).batchSize.toNat * (wideTail 0).worldSize.toNat)) < 2 ^ 64)) :=
  rankPlacements_exact_iff (by decide) (by decide) (by decide)

/-- The last rank multiplies past a word and goes on. -/
theorem last_rank_wraps :
    ¬ ∀ request : PlacementRequest, 0 < request.batchSize.toNat → 0 < request.worldSize.toNat →
      request.rank.toNat < request.worldSize.toNat →
      ∀ passes answer, results passes request = some answer → Exact answer := by
  intro exact
  have last := exact (wideTail 8589934591) (by decide) (by decide) (by decide) 1 _ rfl
  exact absurd last (by decide)

end Hyperloader.Distributed
