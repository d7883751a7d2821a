/-
Module: Hyperloader.Foundations.FiniteMap
Purpose: Lookup and key laws of Mathlib's finite maps in the form case
  analyses use them.
Trusted boundary: none
Main exports: lookup_insert_if, lookup_erase_if, keys_insert
-/
import Mathlib.Data.Finmap
import Mathlib.Data.Finset.Card

namespace Hyperloader.Foundations

variable {Key Value : Type*} [DecidableEq Key]

section

variable (map : Finmap fun _ : Key => Value)

include map

theorem lookup_insert_if (key other : Key) (value : Value) :
    (map.insert key value).lookup other =
      if other = key then some value else map.lookup other := by
  by_cases same : other = key
  · subst same
    simp
  · rw [Finmap.lookup_insert_of_ne map same, if_neg same]

theorem lookup_erase_if (key other : Key) :
    (map.erase key).lookup other =
      if other = key then none else map.lookup other := by
  by_cases same : other = key
  · subst same
    simp
  · rw [Finmap.lookup_erase_ne same, if_neg same]

theorem keys_insert (key : Key) (value : Value) :
    (map.insert key value).keys = insert key map.keys := by
  ext other
  simp [Finmap.mem_keys]

end

/-- Inserting at a key already present keeps the keys. -/
theorem keys_insert_of_mem {map : Finmap fun _ : Key => Value} {key : Key} (present : key ∈ map)
    (value : Value) : (map.insert key value).keys = map.keys := by
  rw [keys_insert, Finset.insert_eq_of_mem (Finmap.mem_keys.mpr present)]

theorem mem_of_lookup {map : Finmap fun _ : Key => Value} {key : Key}
    {value : Value} (found : map.lookup key = some value) : key ∈ map :=
  Finmap.mem_of_lookup_eq_some found

end Hyperloader.Foundations
