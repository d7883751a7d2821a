/-
Module: Hyperloader.Foundations.MemoryLayout
Purpose: Where records and arrays lie in memory: the places of the fields of a C record and of
  the elements of an array, and lists of places that are aligned and reach into no other.
Trusted boundary: none
Main exports: Shape, Place, Place.Apart, Record, elements, Packed, Packed.refine
-/
import Mathlib.Data.List.Basic

namespace Hyperloader.Foundations

structure Shape where
  size : Nat
  align : Nat

structure Place where
  offset : Nat
  size : Nat
  align : Nat

namespace Place

def stop (place : Place) : Nat := place.offset + place.size

/-- No byte is in both. -/
def Apart (one two : Place) : Prop := one.stop ≤ two.offset ∨ two.stop ≤ one.offset

def shift (base : Nat) (place : Place) : Place := { place with offset := base + place.offset }

end Place

/-- The next multiple of an alignment. -/
def alignUp (align offset : Nat) : Nat := (offset + align - 1) / align * align

/-- A C record: fields in order, with the alignment of the whole. -/
structure Record where
  align : Nat
  fields : List Shape
  positive : 0 < align
  divides : ∀ field ∈ fields, field.align ∣ align

/-- Each field at the next offset its alignment allows. -/
def fieldPlaces : Nat → List Shape → List Place
  | _, [] => []
  | start, field :: fields =>
      ⟨alignUp field.align start, field.size, field.align⟩ ::
        fieldPlaces (alignUp field.align start + field.size) fields

def fieldsStop : Nat → List Shape → Nat
  | start, [] => start
  | start, field :: fields => fieldsStop (alignUp field.align start + field.size) fields

namespace Record

def places (record : Record) : List Place := fieldPlaces 0 record.fields

/-- The size of a record is a multiple of its alignment. -/
def size (record : Record) : Nat := alignUp record.align (fieldsStop 0 record.fields)

/-- The place of one value of a record. -/
def placed (record : Record) (offset : Nat) : Place := ⟨offset, record.size, record.align⟩

/-- The places of its fields. -/
def placedFields (record : Record) (offset : Nat) : List Place :=
  record.places.map (Place.shift offset)

/-- The offsets of the values of an array. -/
def elements (record : Record) (start count : Nat) : List Nat :=
  (List.range count).map fun index => start + record.size * index

end Record

/-- Places in order from `low` up to `high`: none reaches into the next, each is aligned. -/
def Packed : Nat → List Place → Nat → Prop
  | low, [], high => low ≤ high
  | low, place :: places, high =>
      low ≤ place.offset ∧ place.align ∣ place.offset ∧ Packed place.stop places high

/-! ### Alignment -/

theorem dvd_alignUp (align offset : Nat) : align ∣ alignUp align offset :=
  Nat.dvd_mul_left align _

theorem le_alignUp {align : Nat} (positive : 0 < align) (offset : Nat) :
    offset ≤ alignUp align offset := by
  have below := Nat.mod_lt (offset + align - 1) positive
  have whole := Nat.div_add_mod (offset + align - 1) align
  rw [Nat.mul_comm] at whole
  unfold alignUp
  omega

/-! ### Packed places -/

namespace Packed

variable {low high : Nat} {places : List Place}

theorem weaken {low' high' : Nat} (packed : Packed low places high) (least : low' ≤ low)
    (most : high ≤ high') : Packed low' places high' := by
  induction places generalizing low low' with
  | nil => exact Nat.le_trans least (Nat.le_trans packed most)
  | cons place places ih =>
      obtain ⟨first, aligned, rest⟩ := packed
      exact ⟨Nat.le_trans least first, aligned, ih rest (Nat.le_refl _)⟩

theorem append {middle : Nat} {others : List Place} (packed : Packed low places middle)
    (rest : Packed middle others high) : Packed low (places ++ others) high := by
  induction places generalizing low with
  | nil => exact rest.weaken packed (Nat.le_refl _)
  | cons place places ih =>
      obtain ⟨first, aligned, tail⟩ := packed
      exact ⟨first, aligned, ih tail⟩

section

variable (packed : Packed low places high)

include packed

theorem shift {base : Nat} (divides : ∀ place ∈ places, place.align ∣ base) :
    Packed (base + low) (places.map (Place.shift base)) (base + high) := by
  induction places generalizing low with
  | nil => exact Nat.add_le_add_left packed base
  | cons place places ih =>
      obtain ⟨first, aligned, rest⟩ := packed
      have head := divides place List.mem_cons_self
      have tail := ih rest fun other member =>
        divides other (List.mem_cons_of_mem _ member)
      have stop : (place.shift base).stop = base + place.stop := Nat.add_assoc _ _ _
      rw [List.map_cons]
      refine ⟨Nat.add_le_add_left first base, Nat.dvd_add head aligned, ?_⟩
      rwa [stop]

/-- Packed places lie between their bounds, at their alignment. -/
theorem inside :
    ∀ place ∈ places, low ≤ place.offset ∧ place.stop ≤ high ∧ place.align ∣ place.offset := by
  induction places generalizing low with
  | nil => nofun
  | cons head places ih =>
      obtain ⟨first, aligned, rest⟩ := packed
      have bounds := ih rest
      have within : head.stop ≤ high := by
        cases places with
        | nil => exact rest
        | cons next places =>
            have later := (bounds next List.mem_cons_self).2.1
            have order := rest.1
            unfold Place.stop at later order ⊢
            omega
      intro place member
      rcases List.mem_cons.mp member with rfl | member
      · exact ⟨first, within, aligned⟩
      · obtain ⟨after, before, fits⟩ := bounds place member
        refine ⟨?_, before, fits⟩
        unfold Place.stop at after
        omega

/-- Packed places are pairwise apart. -/
theorem pairwise : places.Pairwise Place.Apart := by
  induction places generalizing low with
  | nil => exact List.Pairwise.nil
  | cons place places ih =>
      obtain ⟨-, -, rest⟩ := packed
      apply List.Pairwise.cons
      · intro other member
        exact Or.inl (rest.inside other member).1
      · exact ih rest

end

/-- Parts packed within each of a list of packed places are packed. -/
theorem refine {whole : Nat → Place} {parts : Nat → List Place} {offsets : List Nat}
    (packed : Packed low (offsets.map whole) high)
    (within : ∀ offset, whole offset ∈ offsets.map whole →
      Packed (whole offset).offset (parts offset) (whole offset).stop) :
    Packed low (offsets.flatMap parts) high := by
  induction offsets generalizing low with
  | nil => exact packed
  | cons offset offsets ih =>
      rw [List.map_cons] at packed
      obtain ⟨first, -, rest⟩ := packed
      have head := within offset (List.mem_map_of_mem List.mem_cons_self)
      rw [List.flatMap_cons]
      apply (head.weaken first (Nat.le_refl _)).append
      apply ih rest
      intro other member
      exact within other (List.mem_cons_of_mem _ member)

end Packed

/-! ### Records -/

theorem packed_fieldPlaces {start : Nat} {fields : List Shape}
    (positive : ∀ field ∈ fields, 0 < field.align) :
    Packed start (fieldPlaces start fields) (fieldsStop start fields) := by
  induction fields generalizing start with
  | nil => exact Nat.le_refl start
  | cons field fields ih =>
      have some := positive field List.mem_cons_self
      exact ⟨le_alignUp some start, dvd_alignUp _ _,
        ih fun other member => positive other (List.mem_cons_of_mem _ member)⟩

theorem align_of_mem_fieldPlaces {start : Nat} {fields : List Shape} {place : Place}
    (member : place ∈ fieldPlaces start fields) : ∃ field ∈ fields, place.align = field.align := by
  induction fields generalizing start with
  | nil => nomatch member
  | cons field fields ih =>
      rcases List.mem_cons.mp member with rfl | member
      · exact ⟨field, List.mem_cons_self, rfl⟩
      · obtain ⟨other, among, same⟩ := ih member
        exact ⟨other, List.mem_cons_of_mem _ among, same⟩

namespace Record

variable (record : Record)

theorem dvd_size : record.align ∣ record.size := dvd_alignUp _ _

theorem packed_places : Packed 0 record.places record.size := by
  have fields : Packed 0 record.places (fieldsStop 0 record.fields) := by
    apply packed_fieldPlaces
    intro field member
    exact Nat.pos_of_dvd_of_pos (record.divides field member) record.positive
  exact fields.weaken (Nat.le_refl 0) (le_alignUp record.positive _)

/-- The fields of a value at an aligned offset lie within it. -/
theorem packed_placedFields {offset : Nat} (aligned : record.align ∣ offset) :
    Packed offset (record.placedFields offset) (record.placed offset).stop := by
  apply record.packed_places.shift
  intro place member
  obtain ⟨field, among, same⟩ := align_of_mem_fieldPlaces member
  rw [same]
  exact Nat.dvd_trans (record.divides field among) aligned

/-- The values of an array at an aligned start. -/
theorem packed_elements {start : Nat} (aligned : record.align ∣ start) (count : Nat) :
    Packed start ((record.elements start count).map record.placed)
      (start + record.size * count) := by
  induction count with
  | zero => exact Nat.le_refl start
  | succ count ih =>
      have last : record.align ∣ start + record.size * count :=
        Nat.dvd_add aligned (Nat.dvd_trans record.dvd_size (Nat.dvd_mul_right _ _))
      unfold elements
      rw [List.range_succ, List.map_append, List.map_append]
      apply ih.append
      refine ⟨Nat.le_refl _, last, ?_⟩
      exact Nat.le_of_eq (Nat.add_assoc _ _ _)

theorem packed_elementFields {start : Nat} (aligned : record.align ∣ start) (count : Nat) :
    Packed start ((record.elements start count).flatMap record.placedFields)
      (start + record.size * count) := by
  have whole := record.packed_elements aligned count
  apply whole.refine
  intro offset member
  exact record.packed_placedFields (whole.inside _ member).2.2

end Record

end Hyperloader.Foundations
