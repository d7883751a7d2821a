/-
Module: Hyperloader.State.Delivery
Purpose: Delivered batches under completion order, `DeliveredBatchState` and
  `decode_delivered_bitmap` of state/delivery.py: a contiguous prefix with the batches
  beyond its first gap, and the bytes a checkpoint keeps of them.
Trusted boundary: none
Main exports:
  DeliveredBatchState, DeliveredBatchState.mark, DeliveredBatchState.bitmap,
  decodeDeliveredBitmap, delivered_of_mark, members_bitmap, decode_bitmap
-/
import Mathlib.Algebra.BigOperators.Group.Finset.Basic
import Mathlib.Data.Finset.Sort
import Mathlib.Data.List.Induction
import Mathlib.Order.Lattice.Nat
import Hyperloader.Foundations.Batching
import Hyperloader.Foundations.Bitmap
import Hyperloader.Foundations.PrefixSet

namespace Hyperloader.State

open Foundations

/-- What the loader's own code raises; an arithmetic trap of the engine is a panic. -/
inductive Raised where
  | typeError (text : String)
  | valueError (text : String)
  | runtimeError (text : String)
  | keyError (key : Nat)
  | panic
deriving DecidableEq

/-! ### The delivered prefix -/

/-- The set behind it never holds a member of the prefix, nor its first gap. -/
structure DeliveredBatchState where
  base : Nat
  ahead : Finset Nat
  beyond : ∀ ordinal ∈ ahead, base < ordinal
deriving DecidableEq

namespace DeliveredBatchState

def new : DeliveredBatchState := ⟨0, ∅, fun _ member => absurd member (Finset.notMem_empty _)⟩

/-- Absorbing after the gap leaves only members beyond the new gap. -/
theorem beyond_absorb (state : DeliveredBatchState) (ordinal : Nat)
    (member : ordinal ∈ (absorb (state.base + 1) state.ahead).2) :
    (absorb (state.base + 1) state.ahead).1 < ordinal := by
  have absorbed := absorb_spec (state.base + 1) state.ahead
  have kept := (absorbed.remaining ordinal).mp member
  have above := state.beyond ordinal kept.1
  have other : ordinal ≠ (absorb (state.base + 1) state.ahead).1 :=
    fun same => absorbed.gap (same ▸ member)
  by_contra notBeyond
  exact kept.2 ⟨above, by omega⟩

theorem beyond_insert (state : DeliveredBatchState) {ordinal : Nat} (above : state.base < ordinal) :
    ∀ other ∈ insert ordinal state.ahead, state.base < other := by
  intro other member
  rcases Finset.mem_insert.mp member with rfl | old
  · exact above
  · exact state.beyond other old

def REPEATED : String := "completion-order delivery repeated a batch"

/-- Record one newly delivered batch ordinal. -/
def mark (state : DeliveredBatchState) (ordinal : Nat) : Except Raised DeliveredBatchState :=
  if repeated : ordinal < state.base ∨ ordinal ∈ state.ahead then
    .error (.runtimeError REPEATED)
  else if gap : ordinal = state.base then
    let absorbed := absorb (state.base + 1) state.ahead
    .ok ⟨absorbed.1, absorbed.2, state.beyond_absorb⟩
  else
    .ok ⟨state.base, insert ordinal state.ahead, state.beyond_insert (by omega)⟩

/-- Encode delivered ordinals relative to the contiguous prefix.  The order in which
the set is walked makes no difference to the bytes. -/
def bitmap (state : DeliveredBatchState) : List UInt8 :=
  if state.ahead = ∅ then []
  else
    let highest := state.ahead.sup id - state.base
    (state.ahead.sort.map (· - state.base)).foldl Bitmap.setBit
      (List.replicate (highest / 8 + 1) 0)

/-- All batches delivered, before the first gap and beyond it. -/
def delivered (state : DeliveredBatchState) : Finset Nat :=
  Finset.range state.base ∪ state.ahead

end DeliveredBatchState

def CURSOR_EXCEEDS : String := "loader state cursor exceeds the delivery batch count"

def BIT_ZERO : String := "delivered_bitmap bit zero must name the first open gap"

def BITMAP_EXCEEDS : String := "delivered_bitmap exceeds the delivery batch count"

/-- `decode_delivered_bitmap` -/
def decodeDeliveredBitmap (base : Nat) (bitmap : List UInt8) (totalBatches : Nat) :
    Except Raised (Finset Nat) :=
  let delivered := Bitmap.members base bitmap
  if totalBatches < base then .error (.valueError CURSOR_EXCEEDS)
  else if base ∈ delivered then .error (.valueError BIT_ZERO)
  else if ∃ ordinal ∈ delivered, totalBatches ≤ ordinal then
    .error (.valueError BITMAP_EXCEEDS)
  else .ok delivered

/-! ### Marking -/

namespace DeliveredBatchState

variable {state : DeliveredBatchState}

theorem mem_delivered {ordinal : Nat} :
    ordinal ∈ state.delivered ↔ ordinal < state.base ∨ ordinal ∈ state.ahead := by
  rw [delivered, Finset.mem_union, Finset.mem_range]

theorem base_notMem : state.base ∉ state.delivered := by
  intro member
  rcases mem_delivered.mp member with before | beyond
  · exact Nat.lt_irrefl _ before
  · exact Nat.lt_irrefl _ (state.beyond _ beyond)

theorem mark_error_iff {ordinal : Nat} :
    state.mark ordinal = .error (.runtimeError REPEATED) ↔ ordinal ∈ state.delivered := by
  rw [mem_delivered, mark]
  split
  · rename_i repeated
    exact iff_of_true rfl repeated
  · rename_i fresh
    split <;> simp [fresh]

/-- Marking a batch adds it and keeps the others. -/
theorem delivered_of_mark {ordinal : Nat} {next : DeliveredBatchState}
    (marked : state.mark ordinal = .ok next) :
    ordinal ∉ state.delivered ∧ next.delivered = insert ordinal state.delivered := by
  rw [mark] at marked
  split at marked
  · exact absurd marked (by simp)
  · rename_i fresh
    refine ⟨fun member => fresh (mem_delivered.mp member), ?_⟩
    split at marked
    · rename_i gap
      obtain rfl := Except.ok.inj marked
      have absorbed := absorb_spec (state.base + 1) state.ahead
      ext other
      rw [mem_delivered, Finset.mem_insert, mem_delivered, absorbed.mem_or_passed other]
      have moved := absorbed.forward
      constructor
      · rintro (before | kept)
        · by_cases passed : state.base + 1 ≤ other
          · exact Or.inr (Or.inr (Or.inr ⟨passed, before⟩))
          · rcases Nat.lt_or_eq_of_le (Nat.le_of_lt_succ (Nat.lt_of_not_le passed)) with
              old | same
            · exact Or.inr (Or.inl old)
            · exact Or.inl (same.trans gap.symm)
        · exact Or.inr (Or.inr (Or.inl kept))
      · rintro (same | before | kept | passed)
        · exact Or.inl (same.trans gap ▸ moved)
        · exact Or.inl (Nat.lt_of_lt_of_le (Nat.lt_succ_of_lt before) moved)
        · exact Or.inr kept
        · exact Or.inl passed.2
    · obtain rfl := Except.ok.inj marked
      ext other
      rw [mem_delivered, Finset.mem_insert, Finset.mem_insert, mem_delivered]
      exact or_left_comm

theorem exists_mark {ordinal : Nat} (fresh : ordinal ∉ state.delivered) :
    ∃ next, state.mark ordinal = .ok next := by
  rw [mem_delivered] at fresh
  rw [mark, dif_neg fresh]
  split <;> exact ⟨_, rfl⟩

theorem base_le_of_mark {ordinal : Nat} {next : DeliveredBatchState}
    (marked : state.mark ordinal = .ok next) : state.base ≤ next.base := by
  by_contra behind
  have member : next.base ∈ state.delivered := mem_delivered.mpr (Or.inl (by omega))
  have kept : next.base ∈ next.delivered := by
    rw [(delivered_of_mark marked).2]
    exact Finset.mem_insert_of_mem member
  exact base_notMem kept

/-! ### The batches of an epoch -/

theorem base_le_count {batching : Batching}
    (inside : ∀ ordinal ∈ state.delivered, ordinal < batching.count) :
    state.base ≤ batching.count := by
  by_contra past
  have member : batching.count ∈ state.delivered := mem_delivered.mpr (Or.inl (by omega))
  exact Nat.lt_irrefl _ (inside batching.count member)

/-- The samples delivered are those before the cursor and those of the batches ahead. -/
theorem samples_delivered (batching : Batching) (state : DeliveredBatchState) :
    batching.samples state.delivered =
      min batching.length (state.base * batching.width) + batching.samples state.ahead := by
  have disjoint : Disjoint (Finset.range state.base) state.ahead := by
    rw [Finset.disjoint_left]
    intro ordinal below ahead
    exact Nat.lt_asymm (state.beyond ordinal ahead) (Finset.mem_range.mp below)
  rw [← Batching.samples_range]
  exact Finset.sum_union disjoint

/-! ### The bytes of a checkpoint -/

/-- The bitmap of a state marks the batches beyond its first gap. -/
theorem members_bitmap : Bitmap.members state.base state.bitmap = state.ahead := by
  by_cases none : state.ahead = ∅
  · rw [bitmap, if_pos none, Bitmap.members_nil, none]
  · have fits : ∀ offset ∈ state.ahead.sort.map (· - state.base),
        offset / 8 < (List.replicate ((state.ahead.sup id - state.base) / 8 + 1)
          (0 : UInt8)).length := by
      intro offset member
      obtain ⟨ordinal, inside, rfl⟩ := List.mem_map.mp member
      have highest : ordinal ≤ state.ahead.sup id :=
        Finset.le_sup (f := id) ((Finset.mem_sort _).mp inside)
      rw [List.length_replicate]
      have quotients := Nat.div_le_div_right (c := 8) (Nat.sub_le_sub_right highest state.base)
      omega
    ext number
    rw [Bitmap.mem_members, bitmap, if_neg none]
    simp only [Bitmap.bit_foldl_setBit _ _ fits, Bitmap.bit_replicate_zero, Bool.or_false,
      decide_eq_true_eq, List.mem_map, Finset.mem_sort]
    constructor
    · rintro ⟨offset, rfl, ordinal, member, rfl⟩
      have above := state.beyond ordinal member
      rwa [Nat.add_sub_cancel' (Nat.le_of_lt above)]
    · intro member
      have above := state.beyond number member
      exact ⟨number - state.base, by omega, number, member, rfl⟩

end DeliveredBatchState

/-! ### Decoding -/

theorem decodeDeliveredBitmap_ok {base totalBatches : Nat} {bitmap : List UInt8}
    {delivered : Finset Nat}
    (decoded : decodeDeliveredBitmap base bitmap totalBatches = .ok delivered) :
    delivered = Bitmap.members base bitmap ∧ base ≤ totalBatches ∧
      (∀ ordinal ∈ delivered, base < ordinal ∧ ordinal < totalBatches) := by
  rw [decodeDeliveredBitmap] at decoded
  split at decoded
  · exact absurd decoded (by simp)
  · rename_i reached
    split at decoded
    · exact absurd decoded (by simp)
    · rename_i gap
      split at decoded
      · exact absurd decoded (by simp)
      · rename_i inside
        obtain rfl := Except.ok.inj decoded
        refine ⟨rfl, Nat.le_of_not_lt reached, fun ordinal member => ⟨?_, ?_⟩⟩
        · have above := Bitmap.le_of_mem_members member
          have other : base ≠ ordinal := fun same => gap (same ▸ member)
          omega
        · by_contra past
          exact inside ⟨ordinal, member, Nat.le_of_not_lt past⟩

/-- What a capture writes, a restore over at least as many batches reads back. -/
theorem decode_bitmap (state : DeliveredBatchState) {totalBatches : Nat}
    (inside : ∀ ordinal ∈ state.delivered, ordinal < totalBatches) :
    decodeDeliveredBitmap state.base state.bitmap totalBatches = .ok state.ahead := by
  have prefixed : ¬ totalBatches < state.base := by
    intro past
    have member : totalBatches ∈ state.delivered :=
      DeliveredBatchState.mem_delivered.mpr (Or.inl past)
    exact Nat.lt_irrefl _ (inside totalBatches member)
  have gap : state.base ∉ state.ahead := fun member =>
    Nat.lt_irrefl _ (state.beyond state.base member)
  have bounded : ¬ ∃ ordinal ∈ state.ahead, totalBatches ≤ ordinal := by
    rintro ⟨ordinal, member, past⟩
    have below := inside ordinal (DeliveredBatchState.mem_delivered.mpr (Or.inr member))
    omega
  rw [decodeDeliveredBitmap, DeliveredBatchState.members_bitmap]
  simp only [if_neg prefixed, if_neg gap, if_neg bounded]

/-- The delivered state an iterator resumes from: the batches the bitmap marks, ahead of
the cursor. -/
def restoreDelivered (cursor : Nat) (bitmap : List UInt8) (totalBatches : Nat) :
    Except Raised DeliveredBatchState :=
  match decoded : decodeDeliveredBitmap cursor bitmap totalBatches with
  | .error failure => .error failure
  | .ok restored =>
      .ok ⟨cursor, restored,
        fun ordinal member => ((decodeDeliveredBitmap_ok decoded).2.2 ordinal member).1⟩

/-- A resume from what a state wrote is that state. -/
theorem restoreDelivered_bitmap (state : DeliveredBatchState) {totalBatches : Nat}
    (inside : ∀ ordinal ∈ state.delivered, ordinal < totalBatches) :
    restoreDelivered state.base state.bitmap totalBatches = .ok state := by
  have decoded := decode_bitmap state inside
  unfold restoreDelivered
  split
  · rename_i failure refused
    rw [decoded] at refused
    cases refused
  · rename_i restored accepted
    rw [decoded] at accepted
    cases accepted
    rfl

/-! ### Sequences of marks -/

/-- A tracker that starts at `base` and is marked batch after batch; a mark that raises
leaves it as it is. -/
def marked (base : Nat) (marks : List Nat) : DeliveredBatchState :=
  marks.foldl (fun state ordinal =>
    match state.mark ordinal with
    | .ok next => next
    | .error _ => state) ⟨base, ∅, fun _ member => absurd member (Finset.notMem_empty _)⟩

theorem marked_concat (base : Nat) (marks : List Nat) (ordinal : Nat) :
    marked base (marks ++ [ordinal]) =
      match (marked base marks).mark ordinal with
      | .ok next => next
      | .error _ => marked base marks := by
  rw [marked, List.foldl_append]
  rfl

/-- A mark adds its batch, whether it raises or not. -/
theorem delivered_marked (base : Nat) (marks : List Nat) (other : Nat) :
    other ∈ (marked base marks).delivered ↔ other < base ∨ other ∈ marks := by
  induction marks using List.reverseRecOn with
  | nil => simp [marked, DeliveredBatchState.mem_delivered]
  | append_singleton marks ordinal ih =>
      rw [marked_concat, List.mem_append, List.mem_singleton, ← or_assoc, ← ih]
      by_cases repeated : ordinal ∈ (marked base marks).delivered
      · rw [DeliveredBatchState.mark_error_iff.mpr repeated]
        exact (or_iff_left_of_imp fun same => same ▸ repeated).symm
      · obtain ⟨next, step⟩ := DeliveredBatchState.exists_mark repeated
        rw [step]
        dsimp only
        rw [(DeliveredBatchState.delivered_of_mark step).2, Finset.mem_insert, or_comm]

/-- For every start and every sequence of marks the base is the least batch not marked and
the set ahead holds the marks beyond it; a repeated mark raises and changes nothing; and a
restore over a total that exceeds every mark, from a start it reaches, reads the set back.
Accepted bitmaps denote batches between base and total, and the same ones exactly when they
are equal up to zeros at the end. -/
theorem tracker_exact (start total : Nat) (marks : List Nat) :
    (start ≤ (marked start marks).base ∧ (marked start marks).base ∉ marks ∧
      ∀ ordinal, start ≤ ordinal → ordinal ∉ marks → (marked start marks).base ≤ ordinal) ∧
    (∀ ordinal, ordinal ∈ (marked start marks).ahead ↔
      ordinal ∈ marks ∧ (marked start marks).base < ordinal) ∧
    (∀ ordinal, ordinal ∈ marks →
      (marked start marks).mark ordinal = .error (.runtimeError DeliveredBatchState.REPEATED) ∧
        marked start (marks ++ [ordinal]) = marked start marks) ∧
    (start ≤ total → (∀ ordinal ∈ marks, ordinal < total) →
      decodeDeliveredBitmap (marked start marks).base (marked start marks).bitmap total =
        .ok (marked start marks).ahead) ∧
    (∀ base bitmap delivered, decodeDeliveredBitmap base bitmap total = .ok delivered →
      ∀ ordinal ∈ delivered, base < ordinal ∧ ordinal < total) ∧
    (∀ base one two first second other, decodeDeliveredBitmap base one total = .ok first →
      decodeDeliveredBitmap base two other = .ok second →
      (first = second ↔ ∃ more less,
        one ++ List.replicate more 0 = two ++ List.replicate less 0)) := by
  have delivered := delivered_marked start marks
  have unmarked := @DeliveredBatchState.base_notMem (marked start marks)
  have split := @DeliveredBatchState.mem_delivered (marked start marks)
  rw [delivered, not_or, Nat.not_lt] at unmarked
  refine ⟨⟨unmarked.1, unmarked.2, ?_⟩, ?_, ?_, ?_, ?_, ?_⟩
  · intro ordinal past fresh
    by_contra below
    have member := split.mpr (Or.inl (Nat.lt_of_not_le below))
    rw [delivered] at member
    exact member.elim (Nat.not_lt.mpr past) fresh
  · intro ordinal
    constructor
    · intro ahead
      have beyond := (marked start marks).beyond ordinal ahead
      have member := split.mpr (Or.inr ahead)
      rw [delivered] at member
      exact ⟨member.resolve_left (by omega), beyond⟩
    · rintro ⟨member, beyond⟩
      exact (split.mp ((delivered ordinal).mpr (Or.inr member))).resolve_left (by omega)
  · intro ordinal member
    have repeated := DeliveredBatchState.mark_error_iff.mpr
      ((delivered ordinal).mpr (Or.inr member))
    refine ⟨repeated, ?_⟩
    rw [marked_concat, repeated]
  · intro reached inside
    apply decode_bitmap
    intro ordinal member
    rcases (delivered ordinal).mp member with before | among
    · exact Nat.lt_of_lt_of_le before reached
    · exact inside ordinal among
  · intro base bitmap members decoded
    exact (decodeDeliveredBitmap_ok decoded).2.2
  · intro base one two first second other decodedOne decodedTwo
    rw [(decodeDeliveredBitmap_ok decodedOne).1, (decodeDeliveredBitmap_ok decodedTwo).1]
    exact Bitmap.members_eq_iff base one two

/-- A tracker that starts past the total is not read back, though no mark is past it. -/
theorem start_past_total :
    ¬ ∀ (start total : Nat) (marks : List Nat), (∀ ordinal ∈ marks, ordinal < total) →
      decodeDeliveredBitmap (marked start marks).base (marked start marks).bitmap total =
        .ok (marked start marks).ahead := by
  intro reads
  have read := reads 1 0 [] nofun
  cases read

end Hyperloader.State
