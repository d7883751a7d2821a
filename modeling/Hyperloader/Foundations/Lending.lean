/-
Module: Hyperloader.Foundations.Lending
Purpose: A pool of things that are either on a free list or lent to one holder each, and what
  lending one and giving one back does to it.
Trusted boundary: none
Main exports: Lending, Lending.take, Lending.give, Lending.new
-/
import Mathlib.Data.List.Basic

namespace Hyperloader.Foundations

variable {Thing Holder : Type*}

/-- Each thing of a pool is on the free list, once, or lent to one holder, who has no other. -/
structure Lending (pool : Thing → Prop) (free : List Thing) (lent : Holder → Option Thing) :
    Prop where
  nodup : free.Nodup
  inside : ∀ thing ∈ free, pool thing
  lentInside : ∀ holder thing, lent holder = some thing → pool thing
  apart : ∀ holder thing, lent holder = some thing → thing ∉ free
  single : ∀ one two thing, lent one = some thing → lent two = some thing → one = two
  covers : ∀ thing, pool thing → thing ∈ free ∨ ∃ holder, lent holder = some thing

variable {pool : Thing → Prop} {free : List Thing} {lent after : Holder → Option Thing}
  {holder : Holder} {thing : Thing}

/-- The first free thing goes to a holder who had none. -/
theorem Lending.take (lending : Lending pool (thing :: free) lent) (none : lent holder = none)
    (taken : after holder = some thing) (others : ∀ other, other ≠ holder → after other = lent other) :
    Lending pool free after := by
  obtain ⟨fresh, nodup⟩ := List.nodup_cons.mp lending.nodup
  have was : ∀ other found, after other = some found →
      (other = holder ∧ found = thing) ∨ other ≠ holder ∧ lent other = some found := by
    intro other found has
    by_cases same : other = holder
    · subst same
      exact .inl ⟨rfl, Option.some.inj (has.symm.trans taken)⟩
    · exact .inr ⟨same, others other same ▸ has⟩
  refine ⟨nodup, fun other member => lending.inside other (List.mem_cons_of_mem _ member),
    ?_, ?_, ?_, ?_⟩
  · intro other found has
    rcases was other found has with ⟨-, rfl⟩ | ⟨-, old⟩
    · exact lending.inside _ List.mem_cons_self
    · exact lending.lentInside other found old
  · intro other found has member
    rcases was other found has with ⟨-, rfl⟩ | ⟨-, old⟩
    · exact fresh member
    · exact lending.apart other found old (List.mem_cons_of_mem _ member)
  · intro one two found first second
    rcases was one found first with ⟨rfl, here⟩ | ⟨-, old⟩
    · rcases was two found second with ⟨rfl, -⟩ | ⟨-, other⟩
      · rfl
      · subst here
        exact absurd List.mem_cons_self (lending.apart two found other)
    · rcases was two found second with ⟨rfl, rfl⟩ | ⟨-, other⟩
      · exact absurd List.mem_cons_self (lending.apart one found old)
      · exact lending.single one two found old other
  · intro other member
    rcases lending.covers other member with listed | ⟨holding, has⟩
    · rcases List.mem_cons.mp listed with rfl | rest
      · exact .inr ⟨holder, taken⟩
      · exact .inl rest
    · have differs : holding ≠ holder := by
        rintro rfl
        exact nomatch none.symm.trans has
      exact .inr ⟨holding, (others holding differs).trans has⟩

/-- A lent thing goes back to the end of the free list. -/
theorem Lending.give (lending : Lending pool free lent) (has : lent holder = some thing)
    (given : after holder = none) (others : ∀ other, other ≠ holder → after other = lent other) :
    Lending pool (free ++ [thing]) after := by
  have was : ∀ other found, after other = some found →
      other ≠ holder ∧ lent other = some found := by
    intro other found still
    have differs : other ≠ holder := by
      rintro rfl
      exact nomatch given.symm.trans still
    exact ⟨differs, others other differs ▸ still⟩
  refine ⟨?_, ?_, fun other found still => lending.lentInside other found (was other found still).2,
    ?_, ?_, ?_⟩
  · rw [List.nodup_append]
    refine ⟨lending.nodup, List.pairwise_singleton _ _, fun one here two there => ?_⟩
    rw [List.mem_singleton.mp there]
    rintro rfl
    exact lending.apart holder _ has here
  · intro other member
    rcases List.mem_append.mp member with old | new
    · exact lending.inside other old
    · rw [List.mem_singleton.mp new]
      exact lending.lentInside holder thing has
  · intro other found still member
    obtain ⟨differs, old⟩ := was other found still
    rcases List.mem_append.mp member with listed | new
    · exact lending.apart other found old listed
    · rw [List.mem_singleton.mp new] at old
      exact differs (lending.single other holder thing old has)
  · intro one two found first second
    exact lending.single one two found (was one found first).2 (was two found second).2
  · intro other member
    rcases lending.covers other member with listed | ⟨holding, holds⟩
    · exact .inl (List.mem_append_left _ listed)
    · by_cases same : holding = holder
      · subst same
        cases holds.symm.trans has
        exact .inl (List.mem_append_right _ List.mem_cons_self)
      · exact .inr ⟨holding, (others holding same).trans holds⟩

/-- The free list of a pool that lends nothing. -/
theorem Lending.new (nodup : free.Nodup) (all : ∀ thing, thing ∈ free ↔ pool thing)
    (none : ∀ holder, lent holder = none) : Lending pool free lent :=
  ⟨nodup, fun thing member => (all thing).mp member,
    (fun holder _ has => nomatch (none holder).symm.trans has),
    (fun holder _ has => nomatch (none holder).symm.trans has),
    (fun one _ _ has => nomatch (none one).symm.trans has),
    fun thing member => .inl ((all thing).mpr member)⟩

end Hyperloader.Foundations
