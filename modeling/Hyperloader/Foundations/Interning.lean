/-
Module: Hyperloader.Foundations.Interning
Purpose: Numbering keys by the order of their first use: the number a key has
  in a history, the table that assigns the next number to each new key, and
  the first item of a history that carries a key.
Trusted boundary: none
Main exports: firstUses, rank, firstWith, Numbered
-/
import Hyperloader.Foundations.FiniteMap
import Mathlib.Data.List.Basic

namespace Hyperloader.Foundations

variable {Key Item : Type*} [DecidableEq Key]

/-- One more use: a key seen before changes nothing. -/
def recordUse (uses : List Key) (key : Key) : List Key :=
  if key ∈ uses then uses else uses ++ [key]

/-- The keys of a history in the order of their first use. -/
def firstUses (history : List Key) : List Key := history.foldl recordUse []

/-- The number of a key: how many different keys were used before it. -/
def rank (history : List Key) (key : Key) : Nat := (firstUses history).idxOf key

@[simp] theorem firstUses_append (history : List Key) (key : Key) :
    firstUses (history ++ [key]) = recordUse (firstUses history) key := by
  simp [firstUses, List.foldl_append]

@[simp] theorem mem_recordUse {uses : List Key} {key other : Key} :
    other ∈ recordUse uses key ↔ other ∈ uses ∨ other = key := by
  unfold recordUse
  split
  · rename_i seen
    constructor
    · exact Or.inl
    · intro member
      rcases member with old | same
      · exact old
      · exact same ▸ seen
  · simp

variable {history : List Key} {key : Key}

@[simp] theorem mem_firstUses :
    key ∈ firstUses history ↔ key ∈ history := by
  induction history using List.reverseRecOn with
  | nil => simp [firstUses]
  | append_singleton history last ih =>
      simp [ih]

/-- A key that was used keeps its number in every longer history. -/
theorem rank_append_of_mem (used : key ∈ history) (next : Key) :
    rank (history ++ [next]) key = rank history key := by
  have listed : key ∈ firstUses history := mem_firstUses.mpr used
  unfold rank
  rw [firstUses_append, recordUse]
  split
  · rfl
  · exact List.idxOf_append_of_mem listed

theorem firstUses_append_of_notMem (fresh : key ∉ history) :
    firstUses (history ++ [key]) = firstUses history ++ [key] := by
  rw [firstUses_append, recordUse, if_neg (fun seen => fresh (mem_firstUses.mp seen))]

/-- A new key gets the next number. -/
theorem rank_append_self (fresh : key ∉ history) :
    rank (history ++ [key]) key = (firstUses history).length := by
  have unlisted : key ∉ firstUses history :=
    fun seen => fresh (mem_firstUses.mp seen)
  unfold rank
  rw [firstUses_append_of_notMem fresh, List.idxOf_append_of_notMem unlisted]
  simp

/-- Different keys have different numbers. -/
theorem rank_inj {one two : Key} (used : one ∈ history) :
    rank history one = rank history two ↔ one = two :=
  List.idxOf_inj (mem_firstUses.mpr used)

/-- The first item of a history that carries a key. -/
def firstWith (keyOf : Item → Key) (items : List Item) (key : Key) : Option Item :=
  items.find? fun item => keyOf item = key

variable {keyOf : Item → Key} {items : List Item}

theorem firstWith_eq_none :
    firstWith keyOf items key = none ↔ key ∉ items.map keyOf := by
  simp [firstWith]

theorem firstWith_isSome (used : key ∈ items.map keyOf) :
    ∃ item, firstWith keyOf items key = some item := by
  cases found : firstWith keyOf items key with
  | none => exact absurd used (firstWith_eq_none.mp found)
  | some item => exact ⟨item, rfl⟩

/-- The first item of a key stays the first in every longer history. -/
theorem firstWith_append (next : Item) :
    firstWith keyOf (items ++ [next]) key =
      (firstWith keyOf items key).or (if keyOf next = key then some next else none) := by
  by_cases same : keyOf next = key <;>
    simp [firstWith, List.find?_append, same]

/-- The table holds exactly the keys of a history, each under its number. -/
structure Numbered (history : List Key) (numbers : Finmap fun _ : Key => Nat) :
    Prop where
  lookup : ∀ key, numbers.lookup key =
    if key ∈ history then some (rank history key) else none
  card : numbers.keys.card = (firstUses history).length

namespace Numbered

variable {history : List Key} {numbers : Finmap fun _ : Key => Nat}

theorem empty : Numbered ([] : List Key) ∅ :=
  ⟨fun key => by simp, by simp [firstUses]⟩

section

variable (numbered : Numbered history numbers)

include numbered

theorem lookup_of_mem (used : key ∈ history) : numbers.lookup key = some (rank history key) := by
  rw [numbered.lookup, if_pos used]

theorem lookup_of_notMem (fresh : key ∉ history) : numbers.lookup key = none := by
  rw [numbered.lookup, if_neg fresh]

/-- Using a known key leaves the table as it is. -/
theorem known (used : key ∈ history) : Numbered (history ++ [key]) numbers := by
  refine ⟨fun other => ?_, ?_⟩
  · rw [numbered.lookup]
    by_cases seen : other ∈ history
    · rw [if_pos seen, if_pos (List.mem_append_left _ seen), rank_append_of_mem seen]
    · have unseen : other ∉ history ++ [key] := by
        rw [List.mem_append, List.mem_singleton]
        intro member
        rcases member with old | same
        · exact seen old
        · exact seen (same ▸ used)
      rw [if_neg seen, if_neg unseen]
  · rw [numbered.card, firstUses_append, recordUse, if_pos (mem_firstUses.mpr used)]

/-- A new key is stored under the size of the table. -/
theorem fresh (unused : key ∉ history) :
    Numbered (history ++ [key]) (numbers.insert key numbers.keys.card) := by
  have absent : key ∉ numbers := by
    rw [← Finmap.lookup_eq_none]
    exact numbered.lookup_of_notMem unused
  refine ⟨fun other => ?_, ?_⟩
  · rw [lookup_insert_if]
    by_cases same : other = key
    · subst same
      rw [if_pos rfl, if_pos (by simp), rank_append_self unused, numbered.card]
    · rw [if_neg same, numbered.lookup]
      by_cases seen : other ∈ history
      · rw [if_pos seen, if_pos (List.mem_append_left _ seen), rank_append_of_mem seen]
      · rw [if_neg seen, if_neg (by simp [seen, same])]
  · rw [keys_insert, Finset.card_insert_of_notMem (by simpa [Finmap.mem_keys] using absent),
      numbered.card, firstUses_append_of_notMem unused, List.length_append,
      List.length_singleton]

end

end Numbered

end Hyperloader.Foundations
