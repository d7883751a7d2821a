/-
Module: Hyperloader.Foundations.Ledger
Purpose: A book of entries that open and close: where what is still open was opened.
Trusted boundary: none
Main exports: Outstanding, Balanced, outstanding_concat, Balanced.concat, balanced_nil
-/
import Mathlib.Data.List.Basic
import Mathlib.Logic.ExistsUnique

namespace Hyperloader.Foundations

variable {Entry : Type*} {opens closes : Entry → Prop} {book : List Entry} {entry : Entry}

/-- The entry at a place opened something that no later entry closed. -/
def Outstanding (opens closes : Entry → Prop) (book : List Entry) (place : Nat) : Prop :=
  (∃ entry, book[place]? = some entry ∧ opens entry) ∧
    ∀ later entry, place < later → book[later]? = some entry → ¬ closes entry

/-- What is pending was opened by one entry, and what is not by none. -/
def Balanced (opens closes : Entry → Prop) (book : List Entry) (pending : Prop) : Prop :=
  (pending → ∃! place, Outstanding opens closes book place) ∧
    (¬ pending → ∀ place, ¬ Outstanding opens closes book place)

theorem outstanding_concat {place : Nat} :
    Outstanding opens closes (book ++ [entry]) place ↔
      (Outstanding opens closes book place ∧ ¬ closes entry) ∨
        (place = book.length ∧ opens entry) := by
  have last : (book ++ [entry])[book.length]? = some entry := by simp
  have kept : ∀ place, place < book.length → (book ++ [entry])[place]? = book[place]? :=
    fun place inside => List.getElem?_append_left inside
  constructor
  · rintro ⟨⟨found, here, opened⟩, never⟩
    rcases Nat.lt_trichotomy place book.length with inside | rfl | past
    · refine .inl ⟨⟨⟨found, kept place inside ▸ here, opened⟩, fun later other above there => ?_⟩,
        never _ _ inside last⟩
      have bound := (List.getElem?_eq_some_iff.mp there).1
      exact never later other above ((kept later bound).trans there)
    · cases last.symm.trans here
      exact .inr ⟨rfl, opened⟩
    · rw [List.getElem?_eq_none (by simpa using Nat.succ_le_of_lt past)] at here
      cases here
  · rintro (⟨⟨⟨found, here, opened⟩, never⟩, open_⟩ | ⟨rfl, opened⟩)
    · have inside := (List.getElem?_eq_some_iff.mp here).1
      refine ⟨⟨found, (kept place inside).trans here, opened⟩, fun later other above there => ?_⟩
      rcases Nat.lt_trichotomy later book.length with bound | rfl | past
      · exact never later other above (kept later bound ▸ there)
      · cases last.symm.trans there
        exact open_
      · rw [List.getElem?_eq_none (by simpa using Nat.succ_le_of_lt past)] at there
        cases there
    · refine ⟨⟨entry, last, opened⟩, fun later other above there => ?_⟩
      rw [List.getElem?_eq_none (by simpa using Nat.succ_le_of_lt above)] at there
      cases there

/-- A book with one entry more stays balanced, where the entry opens only what was not pending. -/
theorem Balanced.concat {pending after : Prop} (balanced : Balanced opens closes book pending)
    (fresh : opens entry → ¬ pending) (moved : after ↔ (pending ∧ ¬ closes entry) ∨ opens entry) :
    Balanced opens closes (book ++ [entry]) after := by
  have none : opens entry → ∀ place, ¬ Outstanding opens closes book place :=
    fun opened => balanced.2 (fresh opened)
  constructor
  · intro holds
    rcases moved.mp holds with ⟨was, stays⟩ | opened
    · obtain ⟨place, here, only⟩ := balanced.1 was
      refine ⟨place, outstanding_concat.mpr (.inl ⟨here, stays⟩), fun other there => ?_⟩
      rcases outstanding_concat.mp there with ⟨old, -⟩ | ⟨-, opened⟩
      · exact only other old
      · exact absurd was (fresh opened)
    · refine ⟨book.length, outstanding_concat.mpr (.inr ⟨rfl, opened⟩), fun other there => ?_⟩
      rcases outstanding_concat.mp there with ⟨old, -⟩ | ⟨same, -⟩
      · exact absurd old (none opened other)
      · exact same
  · intro gone place there
    rcases outstanding_concat.mp there with ⟨old, stays⟩ | ⟨-, opened⟩
    · have was : pending :=
        Classical.not_not.mp fun none => balanced.2 none place old
      exact gone (moved.mpr (.inl ⟨was, stays⟩))
    · exact gone (moved.mpr (.inr opened))

theorem balanced_nil {pending : Prop} (none : ¬ pending) :
    Balanced opens closes ([] : List Entry) pending :=
  ⟨fun holds => absurd holds none, fun _ _ there => by
    obtain ⟨⟨_, here, _⟩, _⟩ := there
    cases here⟩

end Hyperloader.Foundations
