/-
Module: Hyperloader.Foundations.Sharding
Purpose: A range dealt to the members of a world: full blocks, each split into equal
  batches, and a tail split into rounded shares.  The batches of one ordinal make up an
  interval, and what the members have left after a common ordinal is an interval too.
Trusted boundary: none
Main exports:
  Sharding, Sharding.localBatch, Sharding.positions, Sharding.flatMap_localBatch,
  Sharding.localBatch_eq, Sharding.remaining_perm
-/
import Mathlib.Data.List.Perm.Basic
import Mathlib.Data.Multiset.Bind
import Mathlib.Data.Nat.Basic

namespace Hyperloader.Foundations

/-! ### Consecutive intervals -/

/-- Intervals between consecutive points join to one. -/
theorem flatMap_intervals {point : Nat → Nat} (mono : ∀ index, point index ≤ point (index + 1))
    (first count : Nat) :
    (List.range' first count).flatMap
        (fun index => List.range' (point index) (point (index + 1) - point index)) =
      List.range' (point first) (point (first + count) - point first) := by
  induction count generalizing first with
  | zero =>
      rw [List.range'_zero, List.flatMap_nil, Nat.add_zero, Nat.sub_self, List.range'_zero]
  | succ count ih =>
      have rest : point (first + 1) ≤ point (first + 1 + count) :=
        monotone_nat_of_le_succ mono (Nat.le_add_right _ _)
      have here := mono first
      have joined : point first + (point (first + 1) - point first) = point (first + 1) :=
        Nat.add_sub_cancel' here
      have lengths : point (first + 1) - point first + (point (first + 1 + count) -
          point (first + 1)) = point (first + 1 + count) - point first := by omega
      have shifted : first + (count + 1) = first + 1 + count := by omega
      rw [List.range'_succ, List.flatMap_cons, ih, shifted, ← lengths,
        ← List.range'_append_1, joined]

/-- Two nested walks visit the same entries in either order. -/
theorem flatMap_comm_perm {One Two Value : Type*} (ones : List One) (twos : List Two)
    (entries : One → Two → List Value) :
    (ones.flatMap fun one => twos.flatMap (entries one)).Perm
      (twos.flatMap fun two => ones.flatMap fun one => entries one two) := by
  apply Multiset.coe_eq_coe.mp
  have swapped := Multiset.bind_bind (ones : Multiset One) (twos : Multiset Two)
    (f := fun one two => (entries one two : Multiset Value))
  simpa only [Multiset.coe_bind] using swapped

/-- A range of `blocks` blocks and a tail, dealt to `world` members in batches. -/
structure Sharding where
  batch : Nat
  world : Nat
  blocks : Nat
  tail : Nat
  batchPositive : 0 < batch
  worldPositive : 0 < world
  tailFits : tail < batch * world

namespace Sharding

variable (sharding : Sharding)

def globalBatch : Nat := sharding.batch * sharding.world

def total : Nat := sharding.blocks * sharding.globalBatch + sharding.tail

/-- Where the share of a member starts in the tail. -/
def cut (rank : Nat) : Nat := rank * sharding.tail / sharding.world

def share (rank : Nat) : Nat := sharding.cut (rank + 1) - sharding.cut rank

/-- The batch of a member with the ordinal given: a part of a full block, or the share
of the tail behind the last one. -/
def localBatch (rank ordinal : Nat) : List Nat :=
  if ordinal < sharding.blocks then
    List.range' (ordinal * sharding.globalBatch + rank * sharding.batch) sharding.batch
  else if ordinal = sharding.blocks then
    List.range' (sharding.blocks * sharding.globalBatch + sharding.cut rank)
      (sharding.share rank)
  else []

/-- The part of a member in the full blocks. -/
def regular (rank : Nat) : List Nat :=
  (List.range' 0 sharding.blocks).flatMap fun block =>
    List.range' (block * sharding.globalBatch + rank * sharding.batch) sharding.batch

/-- The part of a member in the tail. -/
def tailShare (rank : Nat) : List Nat :=
  List.range' (sharding.blocks * sharding.globalBatch + sharding.cut rank)
    (sharding.share rank)

/-- The positions of one member, in its order. -/
def positions (rank : Nat) : List Nat :=
  (List.range' 0 (sharding.blocks + 1)).flatMap (sharding.localBatch rank)

/-- How many batches a member has: one behind the blocks when its share is not empty. -/
def batches (rank : Nat) : Nat :=
  sharding.blocks + if sharding.share rank = 0 then 0 else 1

/-- Where the global batch of an ordinal starts; everything ends at the total. -/
def point (ordinal : Nat) : Nat :=
  if ordinal ≤ sharding.blocks then ordinal * sharding.globalBatch else sharding.total

variable {sharding}

/-! ### Shares -/

theorem cut_mono (rank : Nat) : sharding.cut rank ≤ sharding.cut (rank + 1) :=
  Nat.div_le_div_right (Nat.mul_le_mul_right _ (Nat.le_succ rank))

theorem cut_zero : sharding.cut 0 = 0 := by
  rw [cut, Nat.zero_mul, Nat.zero_div]

theorem cut_world : sharding.cut sharding.world = sharding.tail :=
  Nat.mul_div_cancel_left _ sharding.worldPositive

theorem cut_le {rank : Nat} (le : rank ≤ sharding.world) : sharding.cut rank ≤ sharding.tail :=
  Nat.div_le_of_le_mul (Nat.mul_le_mul_right _ le)

theorem cut_add_share (rank : Nat) :
    sharding.cut rank + sharding.share rank = sharding.cut (rank + 1) :=
  Nat.add_sub_cancel' (cut_mono rank)

/-- A share is at most a batch. -/
theorem share_le (rank : Nat) : sharding.share rank ≤ sharding.batch := by
  have bound : sharding.cut (rank + 1) ≤ sharding.cut rank + sharding.batch := by
    calc (rank + 1) * sharding.tail / sharding.world
        = (rank * sharding.tail + sharding.tail) / sharding.world := by rw [Nat.succ_mul]
      _ ≤ (rank * sharding.tail + sharding.batch * sharding.world) / sharding.world :=
          Nat.div_le_div_right (Nat.add_le_add_left (Nat.le_of_lt sharding.tailFits) _)
      _ = rank * sharding.tail / sharding.world + sharding.batch :=
          Nat.add_mul_div_right _ _ sharding.worldPositive
  exact Nat.sub_le_iff_le_add'.mpr bound

theorem point_mono (ordinal : Nat) : sharding.point ordinal ≤ sharding.point (ordinal + 1) := by
  unfold point total
  by_cases within : ordinal + 1 ≤ sharding.blocks
  · rw [if_pos (Nat.le_of_succ_le within), if_pos within]
    exact Nat.mul_le_mul_right _ (Nat.le_succ _)
  · rw [if_neg within]
    split
    · rename_i last
      exact Nat.le_trans (Nat.mul_le_mul_right _ last) (Nat.le_add_right _ _)
    · exact Nat.le_refl _

/-- The batches of one ordinal, member after member, are the global batch. -/
theorem flatMap_localBatch (ordinal : Nat) :
    (List.range' 0 sharding.world).flatMap (fun rank => sharding.localBatch rank ordinal) =
      List.range' (sharding.point ordinal)
        (sharding.point (ordinal + 1) - sharding.point ordinal) := by
  rcases Nat.lt_trichotomy ordinal sharding.blocks with within | last | past
  · have starts : sharding.point ordinal = ordinal * sharding.globalBatch :=
      if_pos (Nat.le_of_lt within)
    have stops : sharding.point (ordinal + 1) = (ordinal + 1) * sharding.globalBatch :=
      if_pos within
    have batches : ∀ rank, sharding.localBatch rank ordinal =
        List.range' (ordinal * sharding.globalBatch + rank * sharding.batch)
          (ordinal * sharding.globalBatch + (rank + 1) * sharding.batch -
            (ordinal * sharding.globalBatch + rank * sharding.batch)) := by
      intro rank
      rw [localBatch, if_pos within, Nat.succ_mul, ← Nat.add_assoc, Nat.add_sub_cancel_left]
    have joined := @flatMap_intervals
      (fun rank => ordinal * sharding.globalBatch + rank * sharding.batch)
      (fun rank => Nat.add_le_add_left (Nat.mul_le_mul_right _ (Nat.le_succ _)) _)
      0 sharding.world
    have whole : sharding.world * sharding.batch = sharding.globalBatch := Nat.mul_comm _ _
    simp only [batches]
    rw [joined, starts, stops, Nat.zero_mul, Nat.add_zero, Nat.zero_add, whole, Nat.succ_mul]
  · have starts : sharding.point ordinal = sharding.blocks * sharding.globalBatch := by
      rw [point, if_pos (Nat.le_of_eq last), last]
    have stops : sharding.point (ordinal + 1) =
        sharding.blocks * sharding.globalBatch + sharding.tail := by
      rw [point, if_neg (by omega)]
      rfl
    have batches : ∀ rank, sharding.localBatch rank ordinal =
        List.range' (sharding.blocks * sharding.globalBatch + sharding.cut rank)
          (sharding.blocks * sharding.globalBatch + sharding.cut (rank + 1) -
            (sharding.blocks * sharding.globalBatch + sharding.cut rank)) := by
      intro rank
      rw [localBatch, if_neg (by omega), if_pos last, Nat.add_sub_add_left]
      rfl
    have joined := @flatMap_intervals
      (fun rank => sharding.blocks * sharding.globalBatch + sharding.cut rank)
      (fun rank => Nat.add_le_add_left (cut_mono rank) _) 0 sharding.world
    simp only [batches]
    rw [joined, starts, stops, Nat.zero_add, cut_zero, cut_world, Nat.add_zero]
  · have batches : ∀ rank, sharding.localBatch rank ordinal = [] := by
      intro rank
      rw [localBatch, if_neg (by omega), if_neg (by omega)]
    have starts : sharding.point ordinal = sharding.total := if_neg (by omega)
    have stops : sharding.point (ordinal + 1) = sharding.total := if_neg (by omega)
    simp only [batches]
    rw [starts, stops, Nat.sub_self, List.range'_zero]
    exact List.flatMap_eq_nil_iff.mpr fun _ _ => rfl

/-- The batches of one ordinal cover the global batch between them. -/
theorem mem_localBatch_iff {ordinal position : Nat} :
    (∃ rank < sharding.world, position ∈ sharding.localBatch rank ordinal) ↔
      ordinal * sharding.globalBatch ≤ position ∧
        position < min ((ordinal + 1) * sharding.globalBatch) sharding.total := by
  have fits : sharding.tail < sharding.globalBatch := sharding.tailFits
  have joined := congrArg (position ∈ ·) (@flatMap_localBatch sharding ordinal)
  have mono := @point_mono sharding ordinal
  simp only [List.mem_flatMap, List.mem_range'_1, Nat.zero_le, true_and, Nat.zero_add,
    eq_iff_iff] at joined
  rw [joined, Nat.add_sub_cancel' mono, Nat.lt_min]
  have next : (ordinal + 1) * sharding.globalBatch =
      ordinal * sharding.globalBatch + sharding.globalBatch := Nat.succ_mul _ _
  unfold point total
  rcases Nat.lt_trichotomy ordinal sharding.blocks with within | last | past
  · have whole : ordinal + 1 ≤ sharding.blocks := within
    have below : (ordinal + 1) * sharding.globalBatch ≤
        sharding.blocks * sharding.globalBatch := Nat.mul_le_mul_right _ within
    rw [if_pos (Nat.le_of_lt within), if_pos whole]
    omega
  · subst last
    rw [if_pos (Nat.le_refl _), if_neg (by omega)]
    omega
  · have above : (sharding.blocks + 1) * sharding.globalBatch ≤
        ordinal * sharding.globalBatch := Nat.mul_le_mul_right _ past
    rw [Nat.succ_mul] at above
    rw [if_neg (by omega), if_neg (by omega)]
    omega

/-! ### Batches of one member -/

theorem length_localBatch_of_lt {rank ordinal : Nat} (within : ordinal < sharding.blocks) :
    (sharding.localBatch rank ordinal).length = sharding.batch := by
  rw [localBatch, if_pos within, List.length_range']

theorem length_localBatch_le (rank ordinal : Nat) :
    (sharding.localBatch rank ordinal).length ≤ sharding.batch := by
  unfold localBatch
  split
  · rw [List.length_range']
  · split
    · rw [List.length_range']
      exact share_le rank
    · exact Nat.zero_le _

/-- What a member has left behind its first batches. -/
theorem positions_drop (rank : Nat) {ordinal : Nat} (le : ordinal ≤ sharding.blocks + 1) :
    (sharding.positions rank).drop (ordinal * sharding.batch) =
      (List.range' ordinal (sharding.blocks + 1 - ordinal)).flatMap
        (sharding.localBatch rank) := by
  induction ordinal with
  | zero => rw [Nat.zero_mul, List.drop_zero, Nat.sub_zero, positions]
  | succ ordinal ih =>
      have count : sharding.blocks + 1 - ordinal = (sharding.blocks + 1 - (ordinal + 1)) + 1 := by
        omega
      rw [Nat.succ_mul, ← List.drop_drop, ih (Nat.le_of_succ_le le), count,
        List.range'_succ, List.flatMap_cons]
      by_cases within : ordinal < sharding.blocks
      · rw [← @length_localBatch_of_lt sharding rank ordinal within, List.drop_left]
      · have done : sharding.blocks + 1 - (ordinal + 1) = 0 := by omega
        rw [done, List.range'_zero, List.flatMap_nil, List.append_nil]
        exact List.drop_eq_nil_of_le (length_localBatch_le rank ordinal)

/-- The batches of a member are the consecutive pieces of its positions. -/
theorem localBatch_eq (rank ordinal : Nat) :
    ((sharding.positions rank).drop (ordinal * sharding.batch)).take sharding.batch =
      sharding.localBatch rank ordinal := by
  by_cases le : ordinal ≤ sharding.blocks
  · have count : sharding.blocks + 1 - ordinal = (sharding.blocks - ordinal) + 1 := by omega
    rw [positions_drop rank (Nat.le_succ_of_le le), count, List.range'_succ, List.flatMap_cons]
    by_cases within : ordinal < sharding.blocks
    · rw [← @length_localBatch_of_lt sharding rank ordinal within, List.take_left]
    · have done : sharding.blocks - ordinal = 0 := by omega
      rw [done, List.range'_zero, List.flatMap_nil, List.append_nil]
      exact List.take_of_length_le (length_localBatch_le rank ordinal)
  · have past : (sharding.positions rank).drop ((sharding.blocks + 1) * sharding.batch) = [] := by
      rw [positions_drop rank (Nat.le_refl _), Nat.sub_self, List.range'_zero, List.flatMap_nil]
    have beyond : (sharding.blocks + 1) * sharding.batch ≤ ordinal * sharding.batch :=
      Nat.mul_le_mul_right _ (Nat.lt_of_not_le le)
    have nothing : (sharding.positions rank).drop (ordinal * sharding.batch) = [] := by
      rw [List.drop_eq_nil_iff] at past ⊢
      exact Nat.le_trans past beyond
    rw [nothing, List.take_nil, localBatch, if_neg (by omega), if_neg (by omega)]

/-- The positions of a member: its part of every block, then its share. -/
theorem positions_eq_append (rank : Nat) :
    sharding.positions rank = sharding.regular rank ++ sharding.tailShare rank := by
  have blocks : ∀ block ∈ List.range' 0 sharding.blocks, sharding.localBatch rank block =
      List.range' (block * sharding.globalBatch + rank * sharding.batch) sharding.batch := by
    intro block member
    rw [List.mem_range'_1, Nat.zero_add] at member
    rw [localBatch, if_pos member.2]
  have last : sharding.localBatch rank sharding.blocks = sharding.tailShare rank := by
    rw [localBatch, if_neg (Nat.lt_irrefl _), if_pos rfl]
    rfl
  rw [positions, List.range'_1_concat, Nat.zero_add, List.flatMap_append,
    List.flatMap_singleton, last, List.flatMap_congr blocks]
  rfl

/-- A share ends with the range. -/
theorem lt_total_of_mem_tailShare {rank position : Nat} (rankLt : rank < sharding.world)
    (member : position ∈ sharding.tailShare rank) : position < sharding.total := by
  rw [tailShare, List.mem_range'_1] at member
  have next := @cut_add_share sharding rank
  have last := @cut_le sharding (rank + 1) rankLt
  unfold total
  omega

theorem tailShare_of_even (even : sharding.tail = 0) (rank : Nat) :
    sharding.tailShare rank = [] := by
  have nothing : sharding.share rank = 0 := by
    rw [share, cut, cut, even, Nat.mul_zero, Nat.mul_zero, Nat.sub_self]
  rw [tailShare, nothing, List.range'_zero]

/-- What the members have left after a common ordinal is the rest of the range. -/
theorem remaining_perm {ordinal : Nat} (le : ordinal ≤ sharding.blocks + 1) :
    ((List.range' 0 sharding.world).flatMap fun rank =>
        (sharding.positions rank).drop (ordinal * sharding.batch)).Perm
      (List.range' (sharding.point ordinal) (sharding.total - sharding.point ordinal)) := by
  have swapped := flatMap_comm_perm (List.range' 0 sharding.world)
    (List.range' ordinal (sharding.blocks + 1 - ordinal)) sharding.localBatch
  have stop : ordinal + (sharding.blocks + 1 - ordinal) = sharding.blocks + 1 := by omega
  have last : sharding.point (sharding.blocks + 1) = sharding.total := if_neg (by omega)
  have joined := flatMap_intervals (@point_mono sharding) ordinal
    (sharding.blocks + 1 - ordinal)
  rw [stop, last] at joined
  simp only [flatMap_localBatch, joined] at swapped
  simp only [positions_drop _ le]
  exact swapped

theorem positions_perm :
    ((List.range' 0 sharding.world).flatMap sharding.positions).Perm
      (List.range' 0 sharding.total) := by
  have start : sharding.point 0 = 0 := by
    rw [point, if_pos (Nat.zero_le _), Nat.zero_mul]
  have whole := @remaining_perm sharding 0 (Nat.zero_le _)
  rw [start, Nat.sub_zero] at whole
  simpa only [Nat.zero_mul, List.drop_zero] using whole

/-- The members never share a position. -/
theorem positions_disjoint {one two : Nat} (oneLt : one < sharding.world)
    (twoLt : two < sharding.world) (different : one ≠ two) :
    List.Disjoint (sharding.positions one) (sharding.positions two) := by
  have distinct := (@positions_perm sharding).nodup_iff.mpr List.nodup_range'
  have apart := (List.nodup_flatMap.mp distinct).2
  have symmetric : Std.Symm (Function.onFun List.Disjoint sharding.positions) :=
    ⟨fun _ _ => List.Disjoint.symm⟩
  apply apart.forall _ _ different
  · rw [List.mem_range'_1]
    omega
  · rw [List.mem_range'_1]
    omega

end Sharding

end Hyperloader.Foundations
