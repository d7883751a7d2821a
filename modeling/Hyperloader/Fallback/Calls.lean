/-
Module: Hyperloader.Fallback.Calls
Purpose: What each call of the pure Python owner does to its slots, its pending commands and its
  pipes, whichever of its branches it takes.
Trusted boundary: as in `Resources`
Main exports: Submitted, submit_ensures, Taken, tryReceive_ensures, Reclaimed, reclaim_ensures
-/
import Hyperloader.Fallback.Resources
import Hyperloader.Foundations.Lending

namespace Hyperloader.Fallback

open Foundations

variable {sizes : Sizes} {base : ProcessResources sizes} {worker : Int}

theorem validateWorker_ensures :
    Ensures (ProcessResources.validateWorker worker) base
      (fun _ after => after = base ∧ sizes.HasWorker worker)
      (fun _ after => after = base ∧ ¬ sizes.HasWorker worker) := by
  unfold ProcessResources.validateWorker
  apply ensures_ite
  · exact fun valid => ensures_pure ⟨rfl, valid⟩
  · exact fun invalid => ensures_throw ⟨rfl, invalid⟩

/-! ### Submission -/

/-- A command was accepted with the first free slot of its worker. -/
structure Submitted (base : ProcessResources sizes) (worker position : Int)
    (after : ProcessResources sizes) : Prop where
  valid : sizes.HasWorker worker
  fresh : (worker, position) ∉ base.pending
  isOpen : (base.channel worker).isOpen = true
  sent : ∃ arena slot rest command, base.free worker = slot :: rest ∧
    command.position = position ∧ command.slot = slot ∧
    after = { base with
      arena := arena
      free := Function.update base.free worker rest
      pending := base.pending.insert (worker, position) slot
      pipes := Function.update base.pipes (base.channels worker)
        { base.channel worker with
          dispatch := (base.channel worker).dispatch ++ [command] } }

/-- A payload that fits is written to the arena alone. -/
theorem write_ensures {slot : Nat} {payload : List UInt8} {exception : Bool}
    (fits : payload.length ≤ sizes.capacity exception) :
    Ensures (ProcessResources.write worker slot payload exception) base
      (fun _ after => ∃ arena, after = { base with arena := arena }) (fun _ _ => False) := by
  unfold ProcessResources.write
  rw [if_neg (Nat.not_lt.mpr fits)]
  exact ensures_modify ⟨_, rfl⟩

theorem writePayload_ensures {slot : Nat} {payload : Option (List UInt8)}
    (fits : ∀ bytes, payload = some bytes → bytes.length ≤ sizes.payloadCapacity) :
    Ensures (ProcessResources.writePayload worker slot payload) base
      (fun _ after => ∃ arena, after = { base with arena := arena }) (fun _ _ => False) := by
  cases payload with
  | none => exact ensures_pure ⟨base.arena, rfl⟩
  | some bytes => exact @write_ensures _ base worker slot bytes false (fits bytes rfl)

theorem popleft_ensures :
    Ensures (ProcessResources.popleft worker) base
      (fun popped after => (popped = none ∧ after = base) ∨
        ∃ slot rest, popped = some slot ∧ base.free worker = slot :: rest ∧
          after = { base with free := Function.update base.free worker rest })
      (fun _ _ => False) := by
  unfold ProcessResources.popleft
  apply ensures_get
  split
  · exact ensures_pure (.inl ⟨rfl, rfl⟩)
  · rename_i slot rest free
    exact .inr ⟨slot, rest, rfl, free, rfl⟩

theorem send_ensures {command : WorkerCommand} {sends : Bool} :
    Ensures (ProcessResources.send worker command sends) base
      (fun sent after =>
        if sent then (base.channel worker).isOpen = true ∧
          after = { base with
            pipes := Function.update base.pipes (base.channels worker)
              { base.channel worker with
                dispatch := (base.channel worker).dispatch ++ [command] } }
        else after = base)
      (fun _ _ => False) := by
  unfold ProcessResources.send
  apply ensures_get
  dsimp only
  split
  · rename_i open_
    exact ⟨open_.1, rfl⟩
  · exact ensures_pure rfl

/-- A submission that does not accept its command changes nothing but the arena. -/
theorem submit_ensures {position epoch index stagePlan batchLen : Int}
    {payload : Option (List UInt8)} {sends : Bool}
    (fits : ∀ bytes, payload = some bytes → bytes.length ≤ sizes.payloadCapacity) :
    Ensures
      (ProcessResources.submit position epoch index stagePlan worker batchLen payload sends) base
      (fun accepted after =>
        if accepted then Submitted base worker position after
        else ∃ arena, after = { base with arena := arena })
      (fun _ after => after = base) := by
  unfold ProcessResources.submit
  apply ensures_get
  apply ensures_ite
  · exact fun _ => ensures_throw rfl
  intro _
  apply ensures_bind (validateWorker_ensures.weaken (fun _ _ valid => valid)
    fun _ _ invalid => invalid.1)
  rintro _ base ⟨rfl, valid⟩
  apply ensures_ite
  · exact fun _ => ensures_throw rfl
  intro fresh
  apply ensures_bind (popleft_ensures.weaken (fun _ _ popped => popped)
    fun _ _ impossible => impossible.elim)
  rintro popped _ (⟨rfl, rfl⟩ | ⟨slot, rest, rfl, free, rfl⟩)
  · exact ensures_pure ⟨_, rfl⟩
  apply ensures_bind ((writePayload_ensures fits).weaken (fun _ _ written => written)
    fun _ _ impossible => impossible.elim)
  rintro _ _ ⟨arena, rfl⟩
  apply ensures_bind (send_ensures.weaken (fun _ _ sent => sent)
    fun _ _ impossible => impossible.elim)
  intro sent after answered
  cases sent with
  | true =>
      obtain ⟨isOpen, rfl⟩ := answered
      refine ensures_modify_bind (ensures_pure ⟨valid, fresh, isOpen, ?_⟩)
      exact ⟨arena, slot, rest, _, free, rfl, rfl, rfl⟩
  | false =>
      cases answered
      refine ensures_modify_bind (ensures_pure ⟨arena, ?_⟩)
      -- the slot is again the first
      simp [free]

/-! ### Delivery -/

/-- A completion names a pending command with its slot, and a length that its slot has. -/
structure Expected (base : ProcessResources sizes) (worker : Int) (completion : Completion) :
    Prop where
  pending : base.pending.lookup (worker, completion.position) = some completion.slot
  fits : 0 ≤ completion.produced ∧
    completion.produced ≤ sizes.capacity (completion.status = 1)

/-- The first completion of a worker was received, and its slot is free. -/
structure Taken (base : ProcessResources sizes) (worker position : Int)
    (after : ProcessResources sizes) : Prop where
  valid : sizes.HasWorker worker
  isOpen : (base.channel worker).isOpen = true
  taken : ∃ completion rest, (base.channel worker).completion = completion :: rest ∧
    completion.position = position ∧
    base.pending.lookup (worker, position) = some completion.slot ∧
    after = { base with
      free := Function.update base.free worker (base.free worker ++ [completion.slot])
      pending := base.pending.erase (worker, position)
      pipes := Function.update base.pipes (base.channels worker)
        { base.channel worker with completion := rest } }

theorem receive_ensures :
    Ensures (ProcessResources.receive worker) base
      (fun received after => (received = none ∧ after = base) ∨
        ∃ completion rest, received = some completion ∧ (base.channel worker).isOpen = true ∧
          (base.channel worker).completion = completion :: rest ∧
          after = { base with
            pipes := Function.update base.pipes (base.channels worker)
              { base.channel worker with completion := rest } })
      (fun _ after => after = base) := by
  unfold ProcessResources.receive
  apply ensures_get
  dsimp only
  apply ensures_ite
  · intro isOpen
    split
    · exact ensures_pure (.inl ⟨rfl, rfl⟩)
    · rename_i completion rest arrived
      exact .inr ⟨completion, rest, rfl, isOpen, arrived, rfl⟩
  · exact fun _ => ensures_throw rfl

theorem read_ensures {slot : Nat} {exception : Bool} {length : Int}
    (fits : 0 ≤ length ∧ length ≤ sizes.capacity exception) :
    Ensures (ProcessResources.read worker slot exception length) base
      (fun _ after => after = base) (fun _ _ => False) := by
  unfold ProcessResources.read
  apply ensures_get
  rw [if_pos fits]
  exact ensures_pure rfl

/-- Where the completions of a worker are as expected, receiving one never fails once it has
begun. -/
theorem tryReceive_ensures
    (expected : sizes.HasWorker worker → (base.channel worker).isOpen = true →
      ∀ completion ∈ (base.channel worker).completion, Expected base worker completion) :
    Ensures (ProcessResources.tryReceive worker) base
      (fun received after =>
        match received with
        | none => after = base
        | some received => Taken base worker received.position after)
      (fun _ after => after = base) := by
  unfold ProcessResources.tryReceive
  apply ensures_bind (validateWorker_ensures.weaken (fun _ _ valid => valid)
    fun _ _ invalid => invalid.1)
  rintro _ base ⟨rfl, valid⟩
  apply ensures_bind receive_ensures
  rintro received _ (⟨rfl, rfl⟩ | ⟨completion, rest, rfl, isOpen, arrived, rfl⟩)
  · exact ensures_pure rfl
  obtain ⟨pending, fits⟩ := expected valid isOpen completion (arrived ▸ List.mem_cons_self)
  apply ensures_step rfl
  dsimp only
  rw [pending, if_neg (not_not.mpr rfl)]
  apply ensures_bind (ensures_tryCatch (read_ensures fits) fun _ _ impossible => impossible.elim)
  rintro payload _ rfl
  refine ensures_modify_bind (ensures_pure ⟨valid, isOpen, completion, rest, arrived, rfl, ?_, rfl⟩)
  exact pending

/-! ### Recovery -/

/-- Some pending commands of a worker gave their slots back. -/
structure Reclaimed (base : ProcessResources sizes) (worker : Int) (positions : List Int)
    (after : ProcessResources sizes) : Prop where
  lending : Lending (· < sizes.queueCapacity) (after.free worker)
    fun position => after.pending.lookup (worker, position)
  others : ∀ other, other ≠ worker → after.free other = base.free other
  pending : ∀ key, after.pending.lookup key =
    if key.1 = worker ∧ key.2 ∈ positions then none else base.pending.lookup key
  pipes : after.pipes = base.pipes
  channels : after.channels = base.channels
  made : after.made = base.made

theorem release_ensures {slot : Nat} (busy : slot ∉ base.free worker) :
    Ensures (ProcessResources.release worker slot) base
      (fun _ after => after =
        { base with free := Function.update base.free worker (base.free worker ++ [slot]) })
      (fun _ _ => False) := by
  unfold ProcessResources.release
  apply ensures_get
  rw [if_neg busy]
  exact ensures_modify rfl

theorem reclaim_ensures {positions : List Int}
    (lending : Lending (· < sizes.queueCapacity) (base.free worker)
      fun position => base.pending.lookup (worker, position)) (distinct : positions.Nodup)
    (listed : ∀ position ∈ positions, (worker, position) ∈ base.pending) :
    Ensures (ProcessResources.reclaim worker positions) base
      (fun _ after => Reclaimed base worker positions after) (fun _ _ => False) := by
  induction positions generalizing base with
  | nil => exact ensures_pure ⟨lending, fun _ _ => rfl, by simp, rfl, rfl, rfl⟩
  | cons position positions ih =>
      obtain ⟨absent, distinct⟩ := List.nodup_cons.mp distinct
      obtain ⟨slot, has⟩ := Finmap.mem_iff.mp (listed position List.mem_cons_self)
      have busy : slot ∉ base.free worker := lending.apart position slot has
      have given : Lending (· < sizes.queueCapacity) (base.free worker ++ [slot])
          fun other => (base.pending.erase (worker, position)).lookup (worker, other) := by
        refine lending.give has ?_ fun other differs => ?_
        · rw [lookup_erase_if, if_pos rfl]
        · rw [lookup_erase_if, if_neg fun same => differs (Prod.mk.inj same).2]
      unfold ProcessResources.reclaim
      apply ensures_step rfl
      rw [has]
      dsimp only
      have released := @release_ensures _
        { base with pending := base.pending.erase (worker, position) } worker slot busy
      apply ensures_bind (released.weaken (fun _ _ released => released)
        fun _ _ impossible => impossible.elim)
      rintro _ _ rfl
      refine (ih ?_ distinct ?_).weaken ?_ fun _ _ impossible => impossible
      · dsimp only
        rw [Function.update_self]
        exact given
      · intro other member
        have differs : (worker, other) ≠ (worker, position) := fun same =>
          absent ((Prod.mk.inj same).2 ▸ member)
        exact Finmap.mem_erase.mpr ⟨differs, listed other (List.mem_cons_of_mem _ member)⟩
      · intro _ after reclaimed
        refine ⟨reclaimed.lending, fun other differs => ?_, fun key => ?_, reclaimed.pipes,
          reclaimed.channels, reclaimed.made⟩
        · rw [reclaimed.others other differs]
          exact Function.update_of_ne differs _ _
        · rw [reclaimed.pending]
          dsimp only
          rw [lookup_erase_if]
          by_cases first : key = (worker, position)
          · subst first
            simp
          · have second : key.1 = worker → key.2 ≠ position := fun one two =>
              first (Prod.ext one two)
            by_cases here : key.1 = worker
            · simp [first, here, second here]
            · simp [first, here]

/-- The positions to reclaim are those a worker has pending. -/
theorem mem_positionsOf {position : Int} :
    position ∈ base.positionsOf worker ↔ (worker, position) ∈ base.pending := by
  unfold ProcessResources.positionsOf
  simp [Finmap.mem_keys]

theorem nodup_positionsOf : (base.positionsOf worker).Nodup := Finset.sort_nodup _ _

/-- After all of a worker's commands are reclaimed none of them is pending. -/
theorem Reclaimed.lookup {after : ProcessResources sizes}
    (reclaimed : Reclaimed base worker (base.positionsOf worker) after) (key : CommandKey) :
    after.pending.lookup key = if key.1 = worker then none else base.pending.lookup key := by
  rw [reclaimed.pending]
  by_cases here : key.1 = worker
  · rw [if_pos here]
    split
    · rfl
    · rename_i unlisted
      have absent : key ∉ base.pending := fun member =>
        unlisted ⟨here, mem_positionsOf.mpr (here ▸ member)⟩
      exact Finmap.lookup_eq_none.mpr absent
  · rw [if_neg here, if_neg fun both => here both.1]

end Hyperloader.Fallback
