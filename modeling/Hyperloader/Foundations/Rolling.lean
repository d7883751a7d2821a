/-
Module: Hyperloader.Foundations.Rolling
Purpose: A source of items read on demand into a list, with a rolling value for every one of the
  list's beginnings, and what any amount of reading agrees on.
Trusted boundary: none
Main exports: drawn, drawn_add, Rolling, Rolling.draw, Rolling.Reads.draw, Rolling.Reads.value_eq
-/
import Mathlib.Data.List.Basic

namespace Hyperloader.Foundations

variable {Item Value : Type}

/-! ### Sources -/

/-- The items of some calls of a source from `start` on, until it ends. -/
def drawn (source : Nat → Option Item) (start : Nat) : Nat → List Item
  | 0 => []
  | count + 1 =>
      match source start with
      | none => []
      | some item => item :: drawn source (start + 1) count

section Drawn

variable {source : Nat → Option Item} {start count more : Nat} {item : Item}

theorem drawn_of_none (ended : source start = none) : drawn source start count = [] := by
  cases count with
  | zero => rfl
  | succ count => rw [drawn, ended]

theorem drawn_of_some (there : source start = some item) :
    drawn source start (count + 1) = item :: drawn source (start + 1) count := by
  rw [drawn, there]

theorem length_drawn_le (source : Nat → Option Item) (start count : Nat) :
    (drawn source start count).length ≤ count := by
  induction count generalizing start with
  | zero => exact Nat.le_refl 0
  | succ count ih =>
      cases there : source start with
      | none => rw [drawn_of_none there]; exact Nat.zero_le _
      | some item =>
          rw [drawn_of_some there]
          exact Nat.succ_le_succ (ih (start + 1))

/-- A source that hands out fewer items than calls has ended behind them. -/
theorem source_of_length_drawn_lt (short : (drawn source start count).length < count) :
    source (start + (drawn source start count).length) = none := by
  induction count generalizing start with
  | zero => exact absurd short (Nat.not_lt_zero _)
  | succ count ih =>
      cases there : source start with
      | none =>
          rw [drawn_of_none there]
          exact there
      | some item =>
          rw [drawn_of_some there, List.length_cons] at short ⊢
          have rest := ih (Nat.lt_of_succ_lt_succ short)
          rwa [Nat.add_right_comm, Nat.add_assoc] at rest

/-- More calls hand out the same items, and then those of the calls behind them. -/
theorem drawn_add (whole : (drawn source start count).length = count) :
    drawn source start (count + more) =
      drawn source start count ++ drawn source (start + count) more := by
  induction count generalizing start with
  | zero => rw [Nat.zero_add]; rfl
  | succ count ih =>
      cases there : source start with
      | none =>
          rw [drawn_of_none there] at whole
          nomatch whole
      | some item =>
          rw [drawn_of_some there, List.length_cons] at whole
          rw [Nat.add_right_comm, drawn_of_some there, drawn_of_some there, List.cons_append,
            ih (Nat.succ.inj whole), Nat.add_right_comm, Nat.add_assoc]

theorem drawn_of_short (short : (drawn source start count).length < count)
    (more : Nat) : drawn source start (count + more) = drawn source start count := by
  induction count generalizing start with
  | zero => exact absurd short (Nat.not_lt_zero _)
  | succ count ih =>
      cases there : source start with
      | none => rw [drawn_of_none there, drawn_of_none there]
      | some item =>
          rw [drawn_of_some there, List.length_cons] at short
          rw [Nat.add_right_comm, drawn_of_some there, drawn_of_some there,
            ih (Nat.lt_of_succ_lt_succ short)]

/-- Fewer calls hand out a beginning of the items. -/
theorem drawn_eq_take (fewer : count ≤ more) :
    drawn source start count = (drawn source start more).take count := by
  obtain ⟨rest, rfl⟩ := Nat.le.dest fewer
  rcases Nat.lt_or_eq_of_le (length_drawn_le source start count) with short | whole
  · rw [drawn_of_short short, List.take_of_length_le (Nat.le_of_lt short)]
  · rw [drawn_add whole, List.take_append_of_le_length (Nat.le_of_eq whole.symm),
      List.take_of_length_le (Nat.le_of_eq whole)]

theorem getElem?_drawn {index : Nat} (within : index < (drawn source start count).length) :
    (drawn source start count)[index]? = source (start + index) := by
  induction count generalizing start index with
  | zero => exact absurd within (Nat.not_lt_zero _)
  | succ count ih =>
      cases there : source start with
      | none =>
          rw [drawn_of_none there] at within
          exact absurd within (Nat.not_lt_zero _)
      | some item =>
          rw [drawn_of_some there] at within ⊢
          cases index with
          | zero => exact there.symm
          | succ index =>
              have rest := ih (Nat.lt_of_succ_lt_succ within)
              rwa [Nat.add_right_comm, Nat.add_assoc] at rest

end Drawn

/-! ### Reading on demand -/

/-- The items read so far, the values of all their beginnings, and whether the source has ended. -/
structure Rolling (roll : Value → Item → Value) (first : Value) where
  items : List Item
  values : List Value
  exhausted : Bool
  rolled : values = items.scanl roll first

namespace Rolling

variable {roll : Value → Item → Value} {first : Value}

def new : Rolling roll first := ⟨[], [first], false, rfl⟩

/-- Another item, with the value of all of them. -/
def push (read : Rolling roll first) (item : Item) : Rolling roll first where
  items := read.items ++ [item]
  values := read.values ++ [roll (read.values.getLast?.getD first) item]
  exhausted := read.exhausted
  rolled := by
    rw [read.rolled, List.getLast?_scanl, List.scanl_append]
    rfl

/-- Some more calls of the source, until it ends. -/
def draw (source : Nat → Option Item) : Nat → Rolling roll first → Rolling roll first
  | 0, read => read
  | count + 1, read =>
      if read.exhausted then read
      else
        match source read.items.length with
        | none => { read with exhausted := true }
        | some item => draw source count (read.push item)

/-- The items are those the source hands out first. -/
structure Reads (source : Nat → Option Item) (read : Rolling roll first) : Prop where
  items : read.items = drawn source 0 read.items.length
  ended : read.exhausted = true → source read.items.length = none

section Reads

variable {source : Nat → Option Item} {read : Rolling roll first} {count : Nat}

theorem reads_new : Reads source (new : Rolling roll first) := ⟨rfl, nofun⟩

section

variable (reads : Reads source read)

include reads

theorem Reads.whole :
    (drawn source 0 read.items.length).length = read.items.length :=
  (congrArg List.length reads.items).symm

theorem Reads.getElem? {position : Nat} (within : position < read.items.length) :
    read.items[position]? = source position := by
  rw [reads.items] at within ⊢
  rw [getElem?_drawn within, Nat.zero_add]

theorem Reads.push (lasts : read.exhausted = false) {item : Item}
    (there : source read.items.length = some item) : Reads source (read.push item) := by
  have length : (read.push item).items.length = read.items.length + 1 := List.length_append
  refine ⟨?_, fun exhausted => ?_⟩
  · rw [length, drawn_add reads.whole, Nat.zero_add, drawn_of_some there, ← reads.items]
    rfl
  · rw [show (read.push item).exhausted = read.exhausted from rfl, lasts] at exhausted
    nomatch exhausted

theorem Reads.draw (count : Nat) :
    Reads source (read.draw source count) ∧
      (read.draw source count).items =
        read.items ++ drawn source read.items.length count := by
  induction count generalizing read with
  | zero => exact ⟨reads, (List.append_nil _).symm⟩
  | succ count ih =>
      unfold Rolling.draw
      cases exhausted : read.exhausted with
      | true =>
          rw [if_pos rfl, drawn_of_none (reads.ended exhausted)]
          exact ⟨reads, (List.append_nil _).symm⟩
      | false =>
          rw [if_neg Bool.false_ne_true]
          cases there : source read.items.length with
          | none =>
              rw [drawn_of_none there]
              exact ⟨⟨reads.items, fun _ => there⟩, (List.append_nil _).symm⟩
          | some item =>
              obtain ⟨after, items⟩ := ih (reads.push exhausted there)
              refine ⟨after, items.trans ?_⟩
              have length : (read.push item).items.length = read.items.length + 1 :=
                List.length_append
              rw [length, drawn_of_some there]
              exact List.append_assoc _ _ _

end

/-- Reading notes the end of a source it could not read enough of. -/
theorem exhausted_draw_iff (lasts : read.exhausted = false) (count : Nat) :
    (read.draw source count).exhausted = true ↔
      (drawn source read.items.length count).length < count := by
  induction count generalizing read with
  | zero =>
      rw [show read.draw source 0 = read from rfl, lasts]
      exact iff_of_false Bool.false_ne_true (Nat.not_lt_zero _)
  | succ count ih =>
      unfold Rolling.draw
      rw [lasts, if_neg Bool.false_ne_true]
      cases there : source read.items.length with
      | none =>
          rw [drawn_of_none there]
          exact iff_of_true rfl (Nat.zero_lt_succ _)
      | some item =>
          have length : (read.push item).items.length = read.items.length + 1 :=
            List.length_append
          have rest := @ih (read.push item) lasts
          rw [length] at rest
          rw [drawn_of_some there, List.length_cons, Nat.succ_lt_succ_iff]
          exact rest

/-- The value of a beginning that has been read is the same however much else has been. -/
theorem Reads.value_eq (reads : Reads source read) (within : count ≤ read.items.length) :
    read.values[count]? = some ((drawn source 0 count).foldl roll first) := by
  rw [read.rolled, List.getElem?_scanl, if_pos within, drawn_eq_take within, ← reads.items]

end Reads

end Rolling

end Hyperloader.Foundations
