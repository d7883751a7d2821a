/-
Module: Hyperloader.Memory.PinnedPool
Purpose: The reusable buffers of pinned staging, memory/pinned/pool.py: what a staged value reads
  while it is held, whatever is staged after it, and how many buffers a leaf comes to have.
Trusted boundary: whoever reads a buffer holds its tensor object; a container is rebuilt with
  the items it is given; `Libraries` says what torch and `sys.getrefcount` are documented to do.
Main exports: PinnedTensorPool, World, machine, staged_reads_back, buffers_bounded
-/
import Hyperloader.Foundations.Containers
import Hyperloader.Foundations.Transition

namespace Hyperloader.Memory.PinnedPool

open Foundations

structure Tensor (Dtype Data : Type) where
  shape : List Nat
  stride : List Nat
  dtype : Dtype
  data : Data

/-- What is not a container. -/
inductive Leaf (Dtype Data Object : Type) where
  | tensor (onCpu isPinned : Bool) (source : Tensor Dtype Data)
  | object (value : Object)

/-- What staging puts in the place of a leaf: a buffer, or the tensor or object to deliver. -/
inductive Staged (Dtype Data Object : Type) where
  | buffer (target : Nat)
  | tensor (source : Tensor Dtype Data)
  | object (value : Object)

inductive Container where
  | dict
  | namedtuple
  | tuple
  | list

inductive Error where
  | refused
  | pinning

/-- `(*path, dtype, shape, stride)` -/
structure LayoutKey (Key Dtype : Type) where
  path : List Key
  dtype : Dtype
  shape : List Nat
  stride : List Nat
deriving DecidableEq

/-- `layouts` has no buffers where the dictionary has no entry. -/
structure PinnedTensorPool (Key Dtype : Type) where
  layouts : LayoutKey Key Dtype → List Nat
  copiedBytes : Nat
  allocationCount : Nat
  heldEvents : Nat
  capacityBytes : Nat

/-- The pool, the memory of the buffers, numbered as they are allocated, and the references to
buffers outside the pool, each with the tensor it was made for. -/
structure World (Key Dtype Data : Type) where
  pool : PinnedTensorPool Key Dtype
  heap : Nat → Option (Tensor Dtype Data)
  allocated : Nat
  attempts : Nat
  held : List (Nat × Tensor Dtype Data)

/-- Torch, the interpreter and the objects: what `sys.getrefcount` reads in `acquire` of a buffer
with so many references outside the pool, whether the n-th allocation succeeds, and `pin_memory`
of an object, if it is callable. -/
structure Libraries (Dtype Data Object : Type) where
  elementSize : Dtype → Nat
  emptyStrided : List Nat → List Nat → Dtype → Tensor Dtype Data
  copy : Tensor Dtype Data → Tensor Dtype Data → Tensor Dtype Data
  getrefcount : Nat → Nat
  allocates : Nat → Bool
  pinMemory : Object → Option (Except Error Object)
  /-- A new tensor has the layout asked for. -/
  strided : ∀ shape stride dtype, ∃ data,
    emptyStrided shape stride dtype = ⟨shape, stride, dtype, data⟩
  /-- A tensor copied into one of its own layout is there as it is. -/
  copied : ∀ target source : Tensor Dtype Data, target.shape = source.shape →
    target.stride = source.stride → target.dtype = source.dtype → copy target source = source
  /-- The list of the pool, the loop variable and the argument of the call refer to it as well. -/
  counted : ∀ references, getrefcount references = references + 3

variable {Key Dtype Data Object : Type} [DecidableEq Key] [DecidableEq Dtype]

def numel (shape : List Nat) : Nat := shape.foldl (· * ·) 1

namespace World

def new : World Key Dtype Data :=
  { pool :=
      { layouts := fun _ => []
        copiedBytes := 0
        allocationCount := 0
        heldEvents := 0
        capacityBytes := 0 }
    heap := fun _ => none
    allocated := 0
    attempts := 0
    held := [] }

/-- `sys.getrefcount(candidate) <= 3` -/
def spare (libraries : Libraries Dtype Data Object) (world : World Key Dtype Data)
    (candidate : Nat) : Bool :=
  libraries.getrefcount (world.held.countP fun reference => reference.1 == candidate) ≤ 3

/-- `if layout.tensors: self.held_events += 1` -/
def passed (world : World Key Dtype Data) (key : LayoutKey Key Dtype) : World Key Dtype Data :=
  if world.pool.layouts key = [] then world
  else { world with pool := { world.pool with heldEvents := world.pool.heldEvents + 1 } }

/-- `torch.empty_strided` and what follows it. -/
def allocate (libraries : Libraries Dtype Data Object) (key : LayoutKey Key Dtype)
    (world : World Key Dtype Data) : World Key Dtype Data :=
  let target := world.allocated
  { world with
    pool :=
      { world.pool with
        layouts := Function.update world.pool.layouts key (world.pool.layouts key ++ [target])
        allocationCount := world.pool.allocationCount + 1
        capacityBytes := max world.pool.capacityBytes
          (numel key.shape * libraries.elementSize key.dtype) }
    heap := Function.update world.heap target
      (some (libraries.emptyStrided key.shape key.stride key.dtype))
    allocated := target + 1
    attempts := world.attempts + 1 }

/-- `target.copy_(source)`, and the reference that is returned. -/
def fill (libraries : Libraries Dtype Data Object) (target : Nat) (source : Tensor Dtype Data)
    (world : World Key Dtype Data) : World Key Dtype Data :=
  { world with
    pool := { world.pool with
      copiedBytes :=
        world.pool.copiedBytes + numel source.shape * libraries.elementSize source.dtype }
    heap := Function.update world.heap target
      ((world.heap target).map fun buffer => libraries.copy buffer source)
    held := world.held ++ [(target, source)] }

end World

variable (libraries : Libraries Dtype Data Object)

def acquire (shape stride : List Nat) (dtype : Dtype) (path : List Key) :
    EStateM Error (World Key Dtype Data) Nat := do
  let world ← get
  let key : LayoutKey Key Dtype := { path, dtype, shape, stride }
  match (world.pool.layouts key).find? (world.spare libraries) with
  | some candidate => pure candidate
  | none =>
      modify fun world => world.passed key
      if libraries.allocates world.attempts then
        modify fun world => world.allocate libraries key
        pure world.allocated
      else
        modify fun world => { world with attempts := world.attempts + 1 }
        throw .refused

/-- `_stage_tensor` -/
def stageTensor (source : Tensor Dtype Data) (path : List Key) :
    EStateM Error (World Key Dtype Data) Nat := do
  let target ← acquire libraries source.shape source.stride source.dtype path
  modify fun world => world.fill libraries target source
  pure target

/-- `_stage` of what is not a container. -/
def stageLeaf (path : List Key) :
    Leaf Dtype Data Object → EStateM Error (World Key Dtype Data) (Staged Dtype Data Object)
  | .tensor onCpu isPinned source => do
      if !onCpu || isPinned then pure (.tensor source)
      else
        let target ← stageTensor libraries source path
        pure (.buffer target)
  | .object value =>
      match libraries.pinMemory value with
      | none => pure (.object value)
      | some (.ok pinned) => pure (.object pinned)
      | some (.error error) => throw error

/-- A value to stage: the keys of a mapping are distinct, and so are the indices of a sequence. -/
structure Value (Key Dtype Data Object : Type) where
  nest : Nest Container Key (Leaf Dtype Data Object)
  keyed : nest.WellKeyed

abbrev Delivered (Key Dtype Data Object : Type) := Nest Container Key (Staged Dtype Data Object)

def stage (value : Value Key Dtype Data Object) :
    EStateM Error (World Key Dtype Data) (Delivered Key Dtype Data Object) :=
  value.nest.traverse (stageLeaf libraries) []

/-- A call of the pool, or a holder that takes one more reference to a buffer or drops one. -/
inductive Label (Key Dtype Data Object : Type) where
  | stage (value : Value Key Dtype Data Object)
  | share (reference : Nat)
  | drop (reference : Nat)
  | close

inductive Event (Key Dtype Data Object : Type) where
  | silent
  | staged (value : Delivered Key Dtype Data Object)
  | failed (error : Error)

/-- Where staging fails, what it had built goes. -/
def machine : Machine (World Key Dtype Data) (Label Key Dtype Data Object)
    (Event Key Dtype Data Object) where
  step
    | world, .stage value =>
        match stage libraries value world with
        | .ok delivered after => some (.staged delivered, after)
        | .error error after => some (.failed error, { after with held := world.held })
    | world, .share reference =>
        world.held[reference]?.map fun found =>
          (.silent, { world with held := world.held ++ [found] })
    | world, .drop reference =>
        some (.silent, { world with held := world.held.eraseIdx reference })
    | world, .close =>
        some (.silent, { world with pool := { world.pool with layouts := fun _ => [] } })

/-! ### The buffers -/

/-- Each buffer of the pool stands under one key and has its layout, and each reference reads what
it was made for. -/
structure World.Sound (world : World Key Dtype Data) : Prop where
  laid : ∀ key, ∀ target ∈ world.pool.layouts key, ∃ data,
    world.heap target = some ⟨key.shape, key.stride, key.dtype, data⟩
  numbered : ∀ key, ∀ target ∈ world.pool.layouts key, target < world.allocated
  apart : ∀ one two target, target ∈ world.pool.layouts one → target ∈ world.pool.layouts two →
    one = two
  reads : ∀ reference ∈ world.held, world.heap reference.1 = some reference.2
  known : ∀ reference ∈ world.held, reference.1 < world.allocated

/-- A reference to the buffer is held. -/
def World.Held (world : World Key Dtype Data) (target : Nat) : Prop :=
  target ∈ world.held.map Prod.fst

/-- The buffers under a key stay as they are, or there is one more since all were held. -/
def World.Grown (world after : World Key Dtype Data) (key : LayoutKey Key Dtype) : Prop :=
  after.pool.layouts key = world.pool.layouts key ∨
    (after.pool.layouts key).length = (world.pool.layouts key).length + 1 ∧
      ∀ target ∈ world.pool.layouts key, world.Held target

omit [DecidableEq Key] [DecidableEq Dtype] in
theorem World.spare_iff {world : World Key Dtype Data} {candidate : Nat} :
    world.spare libraries candidate = true ↔ ¬world.Held candidate := by
  have few : ∀ references, references + 3 ≤ 3 ↔ references = 0 := fun _ => by omega
  rw [World.spare, decide_eq_true_eq, libraries.counted, few, List.countP_eq_zero]
  simp only [World.Held, beq_iff_eq, List.mem_map, not_exists, not_and]

section Acquire

variable {libraries} {world : World Key Dtype Data} {key : LayoutKey Key Dtype}

theorem World.Sound.allocate (sound : world.Sound) : (world.allocate libraries key).Sound := by
  have fresh (other : LayoutKey Key Dtype) (target : Nat)
      (listed : target ∈ world.pool.layouts other) : target ≠ world.allocated :=
    Nat.ne_of_lt (sound.numbered other target listed)
  have was : ∀ other target, target ∈ (world.allocate libraries key).pool.layouts other →
      target ∈ world.pool.layouts other ∨ other = key ∧ target = world.allocated := by
    intro other target listed
    simp only [World.allocate] at listed
    by_cases same : other = key
    · subst same
      rw [Function.update_self] at listed
      exact (List.mem_append.mp listed).imp_right fun last => ⟨rfl, List.mem_singleton.mp last⟩
    · rw [Function.update_of_ne same] at listed
      exact Or.inl listed
  refine ⟨?_, ?_, ?_, ?_, fun reference member => Nat.lt_succ_of_lt (sound.known reference member)⟩
  · intro other target listed
    rcases was other target listed with old | ⟨rfl, rfl⟩
    · obtain ⟨data, laid⟩ := sound.laid other target old
      exact ⟨data, by simp [World.allocate, fresh other target old, laid]⟩
    · obtain ⟨data, laid⟩ := libraries.strided other.shape other.stride other.dtype
      exact ⟨data, by simp [World.allocate, laid]⟩
  · intro other target listed
    rcases was other target listed with old | ⟨-, rfl⟩
    · exact Nat.lt_succ_of_lt (sound.numbered other target old)
    · exact Nat.lt_succ_self _
  · intro one two target first second
    rcases was one target first with old | ⟨rfl, rfl⟩
    · rcases was two target second with other | ⟨-, rfl⟩
      · exact sound.apart one two target old other
      · exact absurd rfl (fresh one _ old)
    · rcases was two world.allocated second with other | ⟨rfl, -⟩
      · exact absurd rfl (fresh two _ other)
      · rfl
  · intro reference member
    have old := Nat.ne_of_lt (sound.known reference member)
    simp [World.allocate, old, sound.reads reference member]

omit [DecidableEq Key] [DecidableEq Dtype] in
theorem World.Sound.fill {source : Tensor Dtype Data} {target : Nat} (sound : world.Sound)
    (listed : target ∈ world.pool.layouts key) (spare : ¬world.Held target)
    (layout : key.shape = source.shape ∧ key.stride = source.stride ∧ key.dtype = source.dtype) :
    (world.fill libraries target source).Sound := by
  obtain ⟨data, laid⟩ := sound.laid key target listed
  have whole : (world.fill libraries target source).heap target = some source := by
    have copied := libraries.copied ⟨key.shape, key.stride, key.dtype, data⟩ source
      layout.1 layout.2.1 layout.2.2
    simp [World.fill, laid, copied]
  have elsewhere (other : Nat) (differs : other ≠ target) :
      (world.fill libraries target source).heap other = world.heap other := by
    simp [World.fill, differs]
  refine ⟨?_, sound.numbered, sound.apart, ?_, ?_⟩
  · intro other candidate there
    by_cases same : candidate = target
    · subst same
      obtain rfl := sound.apart other key candidate there listed
      obtain ⟨shape, stride, dtype⟩ := layout
      exact ⟨source.data, by rw [whole, shape, stride, dtype]⟩
    · rw [elsewhere candidate same]
      exact sound.laid other candidate there
  · intro reference member
    rcases List.mem_append.mp member with old | new
    · rw [elsewhere]
      · exact sound.reads reference old
      · rintro same
        exact spare (same ▸ List.mem_map_of_mem old)
    · rw [List.mem_singleton.mp new]
      exact whole
  · intro reference member
    rcases List.mem_append.mp member with old | new
    · exact sound.known reference old
    · rw [List.mem_singleton.mp new]
      exact sound.numbered key target listed

/-- What `acquire` leaves. -/
structure Acquired (world : World Key Dtype Data) (key : LayoutKey Key Dtype) (target : Nat)
    (after : World Key Dtype Data) : Prop where
  sound : after.Sound
  held : after.held = world.held
  listed : target ∈ after.pool.layouts key
  spare : ¬world.Held target
  grown : world.Grown after key
  others : ∀ other, other ≠ key → after.pool.layouts other = world.pool.layouts other

/-- What a refusal leaves. -/
structure Kept (world after : World Key Dtype Data) : Prop where
  sound : after.Sound
  held : after.held = world.held
  layouts : after.pool.layouts = world.pool.layouts
  allocated : after.allocated = world.allocated

omit [DecidableEq Key] [DecidableEq Dtype] in
theorem World.Sound.passed (sound : world.Sound) : Kept world (world.passed key) := by
  unfold World.passed
  split
  · exact ⟨sound, rfl, rfl, rfl⟩
  · exact ⟨⟨sound.laid, sound.numbered, sound.apart, sound.reads, sound.known⟩, rfl, rfl, rfl⟩

theorem acquire_ensures (key : LayoutKey Key Dtype) (sound : world.Sound) :
    Ensures (acquire libraries key.shape key.stride key.dtype key.path) world
      (fun target after => Acquired world key target after) (fun _ after => Kept world after) := by
  unfold acquire
  refine ensures_get ?_
  dsimp only
  split
  · rename_i candidate found
    have spare := (World.spare_iff libraries).mp (List.find?_some found)
    exact ensures_pure
      ⟨sound, rfl, List.mem_of_find?_eq_some found, spare, Or.inl rfl, fun _ _ => rfl⟩
  · rename_i none
    have all : ∀ target ∈ world.pool.layouts key, world.Held target := by
      intro target listed
      apply Classical.byContradiction
      intro spare
      exact List.find?_eq_none.mp none target listed ((World.spare_iff libraries).mpr spare)
    have kept : Kept world (world.passed key) := sound.passed
    refine ensures_modify_bind ?_
    refine ensures_ite (fun _ => ?_) (fun _ => ?_)
    · refine ensures_modify_bind (ensures_pure ?_)
      have layouts : ((world.passed key).allocate libraries key).pool.layouts =
          Function.update world.pool.layouts key
            (world.pool.layouts key ++ [world.allocated]) := by
        simp only [World.allocate, kept.layouts, kept.allocated]
      refine ⟨kept.sound.allocate, kept.held, ?_, ?_, Or.inr ⟨?_, all⟩, fun other differs => ?_⟩
      · simp [layouts]
      · rintro held
        obtain ⟨reference, member, same⟩ := List.mem_map.mp held
        exact absurd same (Nat.ne_of_lt (sound.known reference member))
      · simp [layouts]
      · rw [layouts, Function.update_of_ne differs]
    · refine ensures_modify_bind (ensures_throw ?_)
      obtain ⟨⟨laid, numbered, apart, reads, known⟩, held, layouts, allocated⟩ := kept
      exact ⟨⟨laid, numbered, apart, reads, known⟩, held, layouts, allocated⟩

end Acquire

/-! ### Staging one value -/

/-- What a consumer reads of a leaf. -/
inductive Shown (Dtype Data Object : Type) where
  | tensor (value : Tensor Dtype Data)
  | object (value : Object)

def Staged.shown (heap : Nat → Option (Tensor Dtype Data)) :
    Staged Dtype Data Object → Option (Shown Dtype Data Object)
  | .buffer target => (heap target).map .tensor
  | .tensor source => some (.tensor source)
  | .object value => some (.object value)

/-- What a leaf is to read as: itself, an object that pins itself as what it gives. -/
def Leaf.meaning : Leaf Dtype Data Object → Option (Shown Dtype Data Object)
  | .tensor _ _ source => some (.tensor source)
  | .object value =>
      match libraries.pinMemory value with
      | some (.ok pinned) => some (.object pinned)
      | _ => some (.object value)

abbrev LeafVisit (Key Dtype Data Object : Type) :=
  Visit Key (Leaf Dtype Data Object) (Staged Dtype Data Object)

/-- The reference that a visit adds. -/
def reference (visit : LeafVisit Key Dtype Data Object) : Option (Nat × Tensor Dtype Data) :=
  match visit.made, visit.leaf with
  | .buffer target, .tensor _ _ source => some (target, source)
  | _, _ => none

def references (visits : List (LeafVisit Key Dtype Data Object)) :
    List (Nat × Tensor Dtype Data) := visits.filterMap reference

/-- A world into which the leaves `seen` have been staged. -/
structure Progress (world : World Key Dtype Data) (seen : List (LeafVisit Key Dtype Data Object))
    (after : World Key Dtype Data) : Prop where
  sound : after.Sound
  held : after.held = world.held ++ references seen
  distinct : ((references seen).map Prod.fst).Nodup
  fresh : ∀ entry ∈ references seen, ¬world.Held entry.1
  /-- wherever the references read what they were made for, so does what was staged -/
  faithful : ∀ heap : Nat → Option (Tensor Dtype Data), ∀ visit ∈ seen,
    (∀ entry ∈ references seen, heap entry.1 = some entry.2) →
    visit.made.shown heap = visit.leaf.meaning libraries
  placed : ∀ entry ∈ references seen, ∃ key, key.path ∈ seen.map Visit.path ∧
    entry.1 ∈ after.pool.layouts key
  grown : ∀ key, world.Grown after key
  others : ∀ key, key.path ∉ seen.map Visit.path →
    after.pool.layouts key = world.pool.layouts key

section Stage

variable {libraries} {world after : World Key Dtype Data} {path : List Key}
  {leaf : Leaf Dtype Data Object} {seen : List (LeafVisit Key Dtype Data Object)}

/-- What a failure leaves, once what was built is gone. -/
structure Abandoned (world after : World Key Dtype Data) : Prop where
  sound : { after with held := world.held }.Sound
  grown : ∀ key, world.Grown after key

omit [DecidableEq Key] [DecidableEq Dtype] in
theorem World.Sound.forget {entries : List (Nat × Tensor Dtype Data)} (sound : after.Sound)
    (held : after.held = world.held ++ entries) : { after with held := world.held }.Sound :=
  ⟨sound.laid, sound.numbered, sound.apart,
    fun entry member => sound.reads entry (held ▸ List.mem_append_left _ member),
    fun entry member => sound.known entry (held ▸ List.mem_append_left _ member)⟩

omit [DecidableEq Key] [DecidableEq Dtype] in
theorem references_snoc (visit : LeafVisit Key Dtype Data Object) :
    references (seen ++ [visit]) = references seen ++ (reference visit).toList := by
  simp [references, List.filterMap_append, List.filterMap_cons]
  cases reference visit <;> rfl

omit [DecidableEq Key] [DecidableEq Dtype] in
theorem mem_paths_snoc {visit : LeafVisit Key Dtype Data Object} {other : List Key} :
    other ∈ (seen ++ [visit]).map Visit.path ↔
      other ∈ seen.map Visit.path ∨ other = visit.path := by
  simp

section

variable (progress : Progress libraries world seen after)

include progress

omit [DecidableEq Key] [DecidableEq Dtype] in
/-- A leaf that takes no buffer. -/
theorem Progress.unbuffered {made : Staged Dtype Data Object}
    (none : reference (⟨path, leaf, made⟩ : LeafVisit Key Dtype Data Object) = none)
    (same : ∀ heap, made.shown heap = leaf.meaning libraries) :
    Progress libraries world (seen ++ [⟨path, leaf, made⟩]) after := by
  have kept : references (seen ++ [⟨path, leaf, made⟩]) = references seen := by
    rw [references_snoc, none, Option.toList_none, List.append_nil]
  refine ⟨progress.sound, by rw [kept]; exact progress.held, by rw [kept]; exact progress.distinct,
    by rw [kept]; exact progress.fresh, ?_, ?_, progress.grown, ?_⟩
  · intro heap visit member reads
    rw [kept] at reads
    rcases List.mem_append.mp member with old | new
    · exact progress.faithful heap visit old reads
    · rw [List.mem_singleton.mp new]
      exact same heap
  · rw [kept]
    intro entry member
    obtain ⟨key, there, listed⟩ := progress.placed entry member
    exact ⟨key, mem_paths_snoc.mpr (Or.inl there), listed⟩
  · intro key elsewhere
    exact progress.others key fun there => elsewhere (mem_paths_snoc.mpr (Or.inl there))

omit [DecidableEq Key] [DecidableEq Dtype] in
/-- A buffer of a key that no leaf seen so far has is held from before, if at all. -/
theorem Progress.held_before {key : LayoutKey Key Dtype} {target : Nat}
    (fresh : key.path ∉ seen.map Visit.path) (listed : target ∈ after.pool.layouts key)
    (held : after.Held target) : world.Held target := by
  unfold World.Held at held
  rw [progress.held, List.map_append] at held
  refine (List.mem_append.mp held).resolve_right fun new => ?_
  obtain ⟨entry, member, rfl⟩ := List.mem_map.mp new
  obtain ⟨other, there, otherListed⟩ := progress.placed entry member
  exact fresh (progress.sound.apart other key entry.1 otherListed listed ▸ there)

/-- A leaf that is copied into a buffer. -/
theorem Progress.buffered {source : Tensor Dtype Data} {target : Nat} {taken : World Key Dtype Data}
    (fresh : path ∉ seen.map Visit.path)
    (acquired : Acquired after ⟨path, source.dtype, source.shape, source.stride⟩ target taken) :
    Progress libraries world
      (seen ++ [⟨path, .tensor true false source, .buffer target⟩])
      (taken.fill libraries target source) := by
  have spare : ¬taken.Held target := by
    unfold World.Held
    rw [acquired.held]
    exact acquired.spare
  have more : references (seen ++ [⟨path, .tensor true false source, .buffer target⟩]) =
      references seen ++ [(target, source)] := references_snoc _
  have unheld : ¬world.Held target ∧ target ∉ (references seen).map Prod.fst := by
    have spare := acquired.spare
    unfold World.Held at spare
    rw [progress.held, List.map_append, List.mem_append, not_or] at spare
    exact spare
  refine ⟨acquired.sound.fill acquired.listed spare ⟨rfl, rfl, rfl⟩, ?_, ?_, ?_, ?_, ?_, ?_, ?_⟩
  · simp only [World.fill, acquired.held, progress.held, more, List.append_assoc]
  · rw [more, List.map_append, List.nodup_append]
    refine ⟨progress.distinct, List.nodup_singleton _, ?_⟩
    rintro one here two there rfl
    rw [List.mem_singleton.mp there] at here
    exact unheld.2 here
  · rw [more]
    intro entry member
    rcases List.mem_append.mp member with old | new
    · exact progress.fresh entry old
    · rw [List.mem_singleton.mp new]
      exact unheld.1
  · rw [more]
    intro heap visit member reads
    rcases List.mem_append.mp member with old | new
    · exact progress.faithful heap visit old fun entry there =>
        reads entry (List.mem_append_left _ there)
    · rw [List.mem_singleton.mp new]
      have here := reads (target, source) (List.mem_append_right _ List.mem_cons_self)
      simp only [Staged.shown, Leaf.meaning] at here ⊢
      rw [here]
      rfl
  · rw [more]
    intro entry member
    rcases List.mem_append.mp member with old | new
    · obtain ⟨key, there, listed⟩ := progress.placed entry old
      refine ⟨key, mem_paths_snoc.mpr (Or.inl there), ?_⟩
      have differs : key ≠ ⟨path, source.dtype, source.shape, source.stride⟩ := by
        rintro rfl
        exact fresh there
      exact (acquired.others key differs).symm ▸ listed
    · rw [List.mem_singleton.mp new]
      exact ⟨_, mem_paths_snoc.mpr (Or.inr rfl), acquired.listed⟩
  · intro key
    by_cases same : key = ⟨path, source.dtype, source.shape, source.stride⟩
    · subst same
      have was := progress.others ⟨path, source.dtype, source.shape, source.stride⟩ fresh
      refine acquired.grown.imp (fun stays => stays.trans was) fun grows => ?_
      rw [was] at grows
      refine ⟨grows.1, fun other listed => ?_⟩
      exact progress.held_before fresh (was.symm ▸ listed) (grows.2 other listed)
    · refine (progress.grown key).imp (fun stays => (acquired.others key same).trans stays)
        fun grows => ⟨?_, grows.2⟩
      rw [← grows.1]
      exact congrArg List.length (acquired.others key same)
  · intro key elsewhere
    have old : key.path ∉ seen.map Visit.path := fun there =>
      elsewhere (mem_paths_snoc.mpr (Or.inl there))
    have differs : key ≠ ⟨path, source.dtype, source.shape, source.stride⟩ := by
      rintro rfl
      exact elsewhere (mem_paths_snoc.mpr (Or.inr rfl))
    exact (acquired.others key differs).trans (progress.others key old)

/-- A leaf under a path of its own. -/
theorem stageLeaf_ensures (fresh : path ∉ seen.map Visit.path) :
    Ensures (stageLeaf libraries path leaf) after
      (fun made later => Progress libraries world (seen ++ [⟨path, leaf, made⟩]) later)
      (fun _ later => Abandoned world later) := by
  have abandoned : Abandoned world after :=
    ⟨progress.sound.forget progress.held, progress.grown⟩
  unfold stageLeaf
  cases leaf with
  | object value =>
      dsimp only
      cases pins : libraries.pinMemory value with
      | none =>
          exact ensures_pure
            (progress.unbuffered rfl fun _ => by simp [Leaf.meaning, pins, Staged.shown])
      | some outcome =>
          cases outcome with
          | ok pinned =>
              exact ensures_pure
                (progress.unbuffered rfl fun _ => by simp [Leaf.meaning, pins, Staged.shown])
          | error error => exact ensures_throw abandoned
  | tensor onCpu isPinned source =>
      dsimp only
      refine ensures_ite (fun _ => ?_) (fun stages => ?_)
      · exact ensures_pure (progress.unbuffered rfl fun _ => rfl)
      · obtain ⟨rfl, rfl⟩ : onCpu = true ∧ isPinned = false := by simpa using stages
        have taken : Ensures (stageTensor libraries source path) after
            (fun target later => Progress libraries world
              (seen ++ [⟨path, .tensor true false source, .buffer target⟩]) later)
            (fun _ later => Abandoned world later) := by
          have acquires : Ensures (acquire libraries source.shape source.stride source.dtype path)
              after (Acquired after ⟨path, source.dtype, source.shape, source.stride⟩)
              (fun _ later => Kept after later) :=
            acquire_ensures ⟨path, source.dtype, source.shape, source.stride⟩ progress.sound
          unfold stageTensor
          refine ensures_bind (acquires.weaken (fun _ _ acquired => acquired)
            fun _ later kept => ?_) ?_
          · refine ⟨kept.sound.forget (kept.held.trans progress.held), fun key => ?_⟩
            unfold World.Grown
            rw [kept.layouts]
            exact progress.grown key
          · intro target later acquired
            exact ensures_modify_bind (ensures_pure (progress.buffered fresh acquired))
        exact ensures_bind taken fun target later made => ensures_pure made

end

omit [DecidableEq Key] [DecidableEq Dtype] in
theorem Progress.start (sound : world.Sound) :
    Progress libraries world ([] : List (LeafVisit Key Dtype Data Object)) world where
  sound := sound
  held := (List.append_nil _).symm
  distinct := List.nodup_nil
  fresh _ member := absurd member List.not_mem_nil
  faithful _ _ member := absurd member List.not_mem_nil
  placed _ member := absurd member List.not_mem_nil
  grown _ := Or.inl rfl
  others _ _ := rfl

/-- Staging a value puts each of its leaves in place, under a path of its own. -/
theorem stage_ensures (value : Value Key Dtype Data Object) (sound : world.Sound) :
    Ensures (stage libraries value) world
      (fun delivered later => ∃ visits, Progress libraries world visits later ∧
        value.nest.Made [] delivered visits)
      (fun _ later => Abandoned world later) := by
  have distinct := value.nest.leaves_nodup [] value.keyed
  have visits : ∀ (seen : List (LeafVisit Key Dtype Data Object)) (state : World Key Dtype Data)
      path leaf, seen.map Visit.place ++ [(path, leaf)] <+: value.nest.leaves [] →
      Progress libraries world seen state →
      Ensures (stageLeaf libraries path leaf) state
        (fun made after => Progress libraries world (seen ++ [⟨path, leaf, made⟩]) after)
        (fun _ later => Abandoned world later) := by
    intro seen state path leaf inside progress
    refine stageLeaf_ensures progress ?_
    have apart := (inside.map Prod.fst).sublist.nodup distinct
    rw [List.map_append, List.map_map] at apart
    exact fun there => (List.nodup_append.mp apart).2.2 path there path List.mem_cons_self rfl
  exact Nest.traverse_ensures visits value.nest [] [] List.prefix_rfl world (Progress.start sound)

end Stage

/-! ### Runs -/

section Runs

variable {libraries} {world after : World Key Dtype Data} {label : Label Key Dtype Data Object}
  {event : Event Key Dtype Data Object}

omit [DecidableEq Key] [DecidableEq Dtype] in
theorem World.sound_new : (World.new : World Key Dtype Data).Sound where
  laid _ _ listed := absurd listed List.not_mem_nil
  numbered _ _ listed := absurd listed List.not_mem_nil
  apart _ _ _ listed := absurd listed List.not_mem_nil
  reads _ member := absurd member List.not_mem_nil
  known _ member := absurd member List.not_mem_nil

/-- A step keeps the buffers in order, and adds one under a key only where all were held. -/
theorem World.Sound.step (sound : world.Sound)
    (stepEq : (machine libraries).step world label = some (event, after)) :
    after.Sound ∧ ∀ key, after.pool.layouts key = [] ∨ world.Grown after key := by
  cases label with
  | stage value =>
      have ensured : Ensures (stage libraries value) world _ _ := stage_ensures value sound
      unfold Ensures at ensured
      simp only [machine] at stepEq
      split at stepEq
      · rename_i delivered later done
        rw [done] at ensured
        cases stepEq
        obtain ⟨visits, progress, -⟩ := ensured
        exact ⟨progress.sound, fun key => Or.inr (progress.grown key)⟩
      · rename_i error later failed
        rw [failed] at ensured
        cases stepEq
        exact ⟨ensured.sound, fun key => Or.inr (ensured.grown key)⟩
  | share reference =>
      simp only [machine] at stepEq
      obtain ⟨found, there, same⟩ := Option.map_eq_some_iff.mp stepEq
      cases same
      have member := List.mem_of_getElem? there
      refine ⟨⟨sound.laid, sound.numbered, sound.apart, ?_, ?_⟩, fun _ => Or.inr (Or.inl rfl)⟩
      · intro entry listed
        rcases List.mem_append.mp listed with old | new
        · exact sound.reads entry old
        · exact List.mem_singleton.mp new ▸ sound.reads found member
      · intro entry listed
        rcases List.mem_append.mp listed with old | new
        · exact sound.known entry old
        · exact List.mem_singleton.mp new ▸ sound.known found member
  | drop reference =>
      cases stepEq
      exact ⟨⟨sound.laid, sound.numbered, sound.apart,
        fun entry listed => sound.reads entry (List.mem_of_mem_eraseIdx listed),
        fun entry listed => sound.known entry (List.mem_of_mem_eraseIdx listed)⟩,
        fun _ => Or.inr (Or.inl rfl)⟩
  | close =>
      cases stepEq
      exact ⟨⟨fun _ _ listed => absurd listed List.not_mem_nil,
        fun _ _ listed => absurd listed List.not_mem_nil,
        fun _ _ _ listed => absurd listed List.not_mem_nil, sound.reads, sound.known⟩,
        fun _ => Or.inl rfl⟩

/-- Every run keeps the pool sound. -/
theorem World.Sound.run {labels : List (Label Key Dtype Data Object)}
    {trace : List (Label Key Dtype Data Object × Event Key Dtype Data Object)} (sound : world.Sound)
    (reached : (machine libraries).run world labels = some (trace, after)) : after.Sound := by
  have keeps : ∀ (state : World Key Dtype Data) label event next, state.Sound → True →
      (machine libraries).step state label = some (event, next) → next.Sound :=
    fun _ _ _ _ sound _ stepEq => (sound.step stepEq).1
  exact (machine libraries).run_invariant keeps sound
    ((machine libraries).along_true world labels) reached

/-- However long it has run, the pool has at most one buffer more for a leaf than were held of it at
once: it allocates only where every buffer of the leaf is held. -/
theorem buffers_bounded {labels : List (Label Key Dtype Data Object)}
    {trace : List (Label Key Dtype Data Object × Event Key Dtype Data Object)}
    (reached : (machine libraries).run World.new labels = some (trace, world))
    (key : LayoutKey Key Dtype) :
    world.pool.layouts key = [] ∨ ∃ front part middle, front <+: labels ∧
      (machine libraries).run World.new front = some (part, middle) ∧
      (world.pool.layouts key).length = (middle.pool.layouts key).length + 1 ∧
      ∀ target ∈ middle.pool.layouts key, middle.Held target := by
  have carried := (machine libraries).run_induction
    (motive := fun trace state => state.Sound ∧
      (machine libraries).run World.new (trace.map Prod.fst) = some (trace, state) ∧
      (state.pool.layouts key = [] ∨ ∃ before middle, before <+: trace ∧
        (machine libraries).run World.new (before.map Prod.fst) = some (before, middle) ∧
        (state.pool.layouts key).length = (middle.pool.layouts key).length + 1 ∧
        ∀ target ∈ middle.pool.layouts key, middle.Held target))
    (fun trace state label event next held _ stepEq => by
      obtain ⟨sound, reached, bounded⟩ := held
      obtain ⟨nextSound, grown⟩ := sound.step stepEq
      have one : (machine libraries).run state [label] = some ([(label, event)], next) :=
        (machine libraries).run_cons_eq_some.mpr ⟨event, next, [], stepEq, rfl, rfl⟩
      refine ⟨nextSound, ?_, ?_⟩
      · rw [List.map_append]
        exact (machine libraries).run_append reached one
      · rcases grown key with empty | same | ⟨more, all⟩
        · exact Or.inl empty
        · rw [same]
          refine bounded.imp_right ?_
          rintro ⟨before, middle, inside, there, length, all⟩
          exact ⟨before, middle, inside.trans (List.prefix_append _ _), there, length, all⟩
        · exact Or.inr ⟨trace, state, List.prefix_append _ _, reached, more, all⟩)
    [] ⟨World.sound_new, rfl, Or.inl rfl⟩ ((machine libraries).along_true World.new labels) reached
  refine carried.2.2.imp_right ?_
  rintro ⟨before, middle, inside, there, length, all⟩
  refine ⟨before.map Prod.fst, before, middle, ?_, there, length, all⟩
  have listed := inside.map Prod.fst
  rwa [List.nil_append, (machine libraries).labels_run reached] at listed

end Runs

/-! ### A batch that is held while another is staged -/

/-- Elements of one byte, and no object that pins itself. -/
def plain : Libraries Unit Nat Unit :=
  { elementSize := fun _ => 1
    emptyStrided := fun shape stride dtype => ⟨shape, stride, dtype, 0⟩
    copy := fun target source => { target with data := source.data }
    getrefcount := fun references => references + 3
    allocates := fun _ => true
    pinMemory := fun _ => none
    strided := fun _ _ _ => ⟨0, rfl⟩
    copied := by
      rintro ⟨_, _, _, _⟩ ⟨_, _, _, _⟩ rfl rfl rfl
      rfl
    counted := fun _ => rfl }

/-- `{0: tensor, 1: object}` -/
def batch (data : Nat) : Value Nat Unit Nat Unit where
  nest := .node .dict
    (.cons 0 (.leaf (.tensor true false ⟨[2], [1], (), data⟩)) (.cons 1 (.leaf (.object ())) .nil))
  keyed := ⟨by simp [Items.keys], trivial, trivial, trivial⟩

/-- Two batches are held at once, and the leaf has two buffers. -/
theorem buffers_bounded_two :
    ∃ trace world, (machine plain).run World.new [.stage (batch 7), .stage (batch 8)] =
        some (trace, world) ∧ world.pool.layouts ⟨[0], (), [2], [1]⟩ = [0, 1] ∧
      ∃ front part middle, front <+: [.stage (batch 7), .stage (batch 8)] ∧
        (machine plain).run World.new front = some (part, middle) ∧
        (world.pool.layouts ⟨[0], (), [2], [1]⟩).length =
          (middle.pool.layouts ⟨[0], (), [2], [1]⟩).length + 1 ∧
        ∀ target ∈ middle.pool.layouts ⟨[0], (), [2], [1]⟩, middle.Held target := by
  refine ⟨_, _, rfl, rfl, ?_⟩
  exact (buffers_bounded
    (rfl : (machine plain).run World.new [.stage (batch 7), .stage (batch 8)] = some (_, _))
    ⟨[0], (), [2], [1]⟩).resolve_left (by decide)

end Hyperloader.Memory.PinnedPool
