/-
Module: Hyperloader.Foundations.PrefixSet
Purpose: A set of natural numbers kept as a contiguous prefix and the members
  beyond its first gap, with the loop that absorbs members the prefix reaches.
Trusted boundary: none
Main exports: absorb, Absorbed, absorb_spec
-/
import Mathlib.Data.Finset.Card
import Mathlib.Order.Interval.Finset.Nat

namespace Hyperloader.Foundations

/-- The absorbing loop: while the next number is a member, remove it and move
on.  Each pass removes one member, so the cardinality bounds the passes. -/
def absorbWithin : Nat → Nat → Finset Nat → Nat × Finset Nat
  | 0, next, ahead => (next, ahead)
  | passes + 1, next, ahead =>
      if next ∈ ahead then absorbWithin passes (next + 1) (ahead.erase next)
      else (next, ahead)

/-- Absorb every member the prefix ending before `next` reaches. -/
def absorb (next : Nat) (ahead : Finset Nat) : Nat × Finset Nat :=
  absorbWithin ahead.card next ahead

/-- What absorbing does: it moves the end of the prefix over members only, stops
at a gap, and keeps exactly the members it did not pass. -/
structure Absorbed (next : Nat) (ahead : Finset Nat) (result : Nat × Finset Nat) :
    Prop where
  forward : next ≤ result.1
  passed : ∀ number, next ≤ number → number < result.1 → number ∈ ahead
  gap : result.1 ∉ result.2
  remaining : ∀ number,
    number ∈ result.2 ↔ number ∈ ahead ∧ ¬ (next ≤ number ∧ number < result.1)

private theorem absorbWithin_spec (passes next : Nat) (ahead : Finset Nat)
    (enough : ahead.card ≤ passes) : Absorbed next ahead (absorbWithin passes next ahead) := by
  induction passes generalizing next ahead with
  | zero =>
      have empty : ahead = ∅ := Finset.card_eq_zero.mp (Nat.le_zero.mp enough)
      subst empty
      exact
        { forward := Nat.le_refl _
          passed := fun number low high => absurd high (Nat.not_lt_of_ge low)
          gap := by simp [absorbWithin]
          remaining := by simp [absorbWithin] }
  | succ passes ih =>
      by_cases member : next ∈ ahead
      · have fewer : (ahead.erase next).card ≤ passes := by
          rw [Finset.card_erase_of_mem member]
          omega
        have rest := ih (next + 1) (ahead.erase next) fewer
        have unfolded : absorbWithin (passes + 1) next ahead =
            absorbWithin passes (next + 1) (ahead.erase next) := by
          simp [absorbWithin, member]
        rw [unfolded]
        refine ⟨Nat.le_of_succ_le rest.forward, ?_, rest.gap, ?_⟩
        · intro number low high
          rcases Nat.eq_or_lt_of_le low with same | beyond
          · exact same ▸ member
          · exact Finset.mem_of_mem_erase (rest.passed number beyond high)
        · intro number
          rw [rest.remaining, Finset.mem_erase]
          have moved := rest.forward
          constructor
          · rintro ⟨⟨different, kept⟩, outside⟩
            exact ⟨kept, fun inside => outside ⟨by omega, inside.2⟩⟩
          · rintro ⟨kept, outside⟩
            exact ⟨⟨fun same => outside (by omega), kept⟩,
              fun inside => outside (by omega)⟩
      · have unfolded : absorbWithin (passes + 1) next ahead = (next, ahead) := by
          simp [absorbWithin, member]
        rw [unfolded]
        exact
          { forward := Nat.le_refl _
            passed := fun number low high => absurd high (Nat.not_lt_of_ge low)
            gap := member
            remaining := fun number =>
              ⟨fun kept => ⟨kept, fun inside => by omega⟩, fun kept => kept.1⟩ }

theorem absorb_spec (next : Nat) (ahead : Finset Nat) : Absorbed next ahead (absorb next ahead) :=
  absorbWithin_spec ahead.card next ahead (Nat.le_refl _)

namespace Absorbed

variable {next : Nat} {ahead : Finset Nat} {result : Nat × Finset Nat}

/-- The numbers passed and the members kept make up the old members. -/
theorem mem_or_passed (absorbed : Absorbed next ahead result) (number : Nat) :
    number ∈ ahead ↔
      number ∈ result.2 ∨ (next ≤ number ∧ number < result.1) := by
  rw [absorbed.remaining]
  constructor
  · intro member
    by_cases inside : next ≤ number ∧ number < result.1
    · exact Or.inr inside
    · exact Or.inl ⟨member, inside⟩
  · rintro (kept | inside)
    · exact kept.1
    · exact absorbed.passed number inside.1 inside.2

/-- The prefix grows by exactly the members it takes. -/
theorem card (absorbed : Absorbed next ahead result) :
    (result.1 - next) + result.2.card = ahead.card := by
  have split : ahead = Finset.Ico next result.1 ∪ result.2 := by
    ext number
    rw [absorbed.mem_or_passed, Finset.mem_union, Finset.mem_Ico]
    exact Or.comm
  have disjoint : Disjoint (Finset.Ico next result.1) result.2 := by
    rw [Finset.disjoint_left]
    intro number inside kept
    exact ((absorbed.remaining number).mp kept).2 (Finset.mem_Ico.mp inside)
  rw [split, Finset.card_union_of_disjoint disjoint, Nat.card_Ico]

end Absorbed

end Hyperloader.Foundations
