/-
Module: Hyperloader.Fallback.Runs
Purpose: Whole runs of the pure Python transport's owner with its workers: that no slot is lost or
  used twice, and that each completion returned is that of one accepted command.
Trusted boundary: as in `Resources` and `Endpoint`
Main exports: act_ensures, step_keeps, bytes_subset, bytes_disjoint, Conserved, slots_conserved
-/
import Hyperloader.Fallback.Conservation
import Mathlib.Order.Interval.Finset.Nat

namespace Hyperloader.Fallback

open Foundations

variable {sizes : Sizes}

/-! ### What workers do -/

section Workers

variable {processes : List WorkerEndpoint} {base : ProcessResources sizes} {process : Nat}
  {endpoint next : WorkerEndpoint}

theorem split_set (found : processes[process]? = some endpoint) :
    ∃ front back, processes = front ++ endpoint :: back ∧
      ∀ other, processes.set process other = front ++ other :: back := by
  induction processes generalizing process with
  | nil => cases found
  | cons first rest ih =>
      cases process with
      | zero =>
          cases found
          exact ⟨[], rest, rfl, fun _ => rfl⟩
      | succ process =>
          obtain ⟨front, back, rfl, set⟩ := ih found
          refine ⟨first :: front, back, rfl, fun other => ?_⟩
          rw [List.set_cons_succ, set, List.cons_append]

section

variable (sound : Sound processes base)

include sound

/-- A worker moves commands along its own pipes, as what they are. -/
theorem Sound.exchange (found : processes[process]? = some endpoint)
    (same : next.channels = endpoint.channels) {channels : Channels}
    (isOpen : channels.isOpen = (base.pipes endpoint.channels).isOpen)
    (moved : (channels.dispatch.map WorkerCommand.pair ++ next.held.map WorkerCommand.pair ++
        channels.completion.map Completion.pair).Perm
      ((base.pipes endpoint.channels).dispatch.map WorkerCommand.pair ++
        endpoint.held.map WorkerCommand.pair ++
        (base.pipes endpoint.channels).completion.map Completion.pair))
    (lengths : ∀ completion ∈ channels.completion, Fits sizes completion) :
    Sound (processes.set process next)
      { base with pipes := Function.update base.pipes endpoint.channels channels } := by
  obtain ⟨front, back, split, set⟩ := split_set found
  refine ⟨sound.lending, sound.valid, sound.named, sound.separate, fun other member => ?_,
    fun worker here opened => ?_, fun pipe completion member => ?_⟩
  · rcases List.mem_or_eq_of_mem_set member with old | rfl
    · exact sound.attached other old
    · rw [same]
      exact sound.attached endpoint (List.mem_of_getElem? found)
  · unfold ProcessResources.channel at opened ⊢
    dsimp only at opened ⊢
    by_cases own : base.channels worker = endpoint.channels
    · rw [own, Function.update_self] at opened ⊢
      have before := sound.followed worker here
      unfold ProcessResources.channel at before
      rw [own] at before
      refine (before (isOpen ▸ opened)).subperm (List.Perm.subperm ?_)
      rw [set, split]
      unfold flight WorkerEndpoint.heldFrom
      simp only [List.flatMap_append, List.flatMap_cons, if_pos same, if_true]
      rw [List.perm_iff_count] at moved ⊢
      intro pair
      have counts := moved pair
      simp only [List.count_append] at counts ⊢
      omega
    · rw [Function.update_of_ne own] at opened ⊢
      have before := sound.followed worker here opened
      rw [split] at before
      rw [set]
      unfold flight at before ⊢
      have elsewhere : ∀ other : WorkerEndpoint, other.channels = endpoint.channels →
          other.heldFrom (base.channels worker) = [] :=
        fun other there => if_neg fun equal => own (equal.symm.trans there)
      rw [List.flatMap_append, List.flatMap_cons, elsewhere endpoint rfl] at before
      rw [List.flatMap_append, List.flatMap_cons, elsewhere next same]
      exact before
  · dsimp only at member
    by_cases own : pipe = endpoint.channels
    · rw [own, Function.update_self] at member
      exact lengths completion member
    · rw [Function.update_of_ne own] at member
      exact sound.lengths pipe completion member

/-- Processes that hold no more than others do. -/
theorem Sound.fewer {others : List WorkerEndpoint}
    (attached : ∀ other ∈ others, other.channels < base.made)
    (held : ∀ pipe, (others.flatMap (WorkerEndpoint.heldFrom pipe)).Sublist
      (processes.flatMap (WorkerEndpoint.heldFrom pipe))) : Sound others base := by
  refine ⟨sound.lending, sound.valid, sound.named, sound.separate, attached,
    fun worker here isOpen => (sound.followed worker here isOpen).subperm ?_, sound.lengths⟩
  unfold flight
  exact (((List.Sublist.refl _).append (held _)).append (List.Sublist.refl _)).subperm

theorem Sound.attach {worker : Int} (here : sizes.HasWorker worker) :
    Sound (processes ++ [⟨worker, base.channels worker, []⟩]) base := by
  refine sound.fewer (fun other member => ?_) fun pipe => ?_
  · rcases List.mem_append.mp member with old | new
    · exact sound.attached other old
    · rw [List.mem_singleton.mp new]
      exact sound.named worker here
  · have nothing : WorkerEndpoint.heldFrom pipe ⟨worker, base.channels worker, []⟩ = [] := by
      unfold WorkerEndpoint.heldFrom
      split <;> rfl
    rw [List.flatMap_append, List.flatMap_cons, nothing, List.flatMap_nil, List.append_nil,
      List.append_nil]

/-- What a dead process held is lost. -/
theorem Sound.die (process : Nat) : Sound (processes.eraseIdx process) base := by
  have sublist := List.eraseIdx_sublist processes process
  exact sound.fewer (fun other member => sound.attached other (sublist.subset member))
    fun pipe => sublist.flatMap _

/-- An endpoint that changes nothing. -/
theorem Sound.unmoved (found : processes[process]? = some endpoint) :
    Sound (processes.set process endpoint) base := by
  obtain ⟨front, back, split, set⟩ := split_set found
  rw [set, ← split]
  exact sound

end

theorem tryRecv_ensures :
    Ensures endpoint.tryRecv base
      (fun received after => (received = none ∧ after = base) ∨
        ∃ command rest, received = some command ∧
          (base.pipes endpoint.channels).dispatch = command :: rest ∧
          after = { base with
            pipes := Function.update base.pipes endpoint.channels
              { base.pipes endpoint.channels with dispatch := rest } })
      (fun _ after => after = base) := by
  unfold WorkerEndpoint.tryRecv
  apply ensures_get
  dsimp only
  split
  · apply ensures_ite
    · exact fun _ => ensures_pure (.inl ⟨rfl, rfl⟩)
    · exact fun _ => ensures_throw rfl
  · rename_i command rest sent
    exact .inr ⟨command, rest, rfl, sent, rfl⟩

variable {command : WorkerCommand}

theorem readCommand_ensures :
    Ensures (endpoint.readCommand command) base (fun _ after => after = base)
      (fun _ after => after = base) := by
  unfold WorkerEndpoint.readCommand
  apply ensures_get
  apply ensures_ite
  · exact fun _ => ensures_pure rfl
  · exact fun _ => ensures_throw rfl

section

variable (sound : Sound processes base)

include sound

/-- A received command is held. -/
theorem Sound.received (found : processes[process]? = some endpoint) {rest : List WorkerCommand}
    (sent : (base.pipes endpoint.channels).dispatch = command :: rest) :
    Sound (processes.set process { endpoint with held := endpoint.held ++ [command] })
      { base with
        pipes := Function.update base.pipes endpoint.channels
          { base.pipes endpoint.channels with dispatch := rest } } := by
  refine sound.exchange found ?_ ?_ ?_ (sound.lengths endpoint.channels)
  · rfl
  · rfl
  · rw [sent, List.perm_iff_count]
    intro pair
    simp only [List.map_append, List.map_cons, List.map_nil, List.count_append, List.count_cons,
      List.count_nil]
    omega

/-- A completed command is held no longer, and its completion is on its way. -/
theorem publish_ensures (found : processes[process]? = some endpoint) {place : Nat}
    (holds : endpoint.held[place]? = some command) {status produced costNs : Int} {sends : Bool}
    (fits : 0 ≤ produced ∧ produced ≤ sizes.capacity (status = 1)) :
    Ensures (endpoint.publish command status produced costNs sends) base
      (fun sent after => after.pending = base.pending ∧
        Sound (processes.set process
          (if sent then { endpoint with held := endpoint.held.eraseIdx place } else endpoint))
          after)
      (fun _ _ => False) := by
  unfold WorkerEndpoint.publish
  apply ensures_get
  dsimp only
  apply ensures_ite
  · intro _
    refine ⟨rfl, sound.exchange found ?_ ?_ ?_ fun completion member => ?_⟩
    · rfl
    · rfl
    · obtain ⟨inside, rfl⟩ := List.getElem?_eq_some_iff.mp holds
      have erased := (List.getElem_cons_eraseIdx_perm inside).map WorkerCommand.pair
      have same : Completion.pair ⟨endpoint.held[place].position, status, produced, costNs,
          endpoint.held[place].slot⟩ = endpoint.held[place].pair := rfl
      rw [List.perm_iff_count] at erased ⊢
      intro pair
      have counts := erased pair
      rw [List.map_cons, List.count_cons] at counts
      simp only [if_true, List.map_append, List.map_cons, List.map_nil, List.count_append,
        List.count_cons, List.count_nil, same]
      omega
    · rcases List.mem_append.mp member with old | new
      · exact sound.lengths _ completion old
      · rw [List.mem_singleton.mp new]
        exact fits
  · exact fun _ => ⟨rfl, sound.unmoved found⟩

/-- A completion that is written first, if it has bytes, and then sent. -/
theorem tryComplete_ensures (found : processes[process]? = some endpoint) {place : Nat}
    (holds : endpoint.held[place]? = some command) {outcome : Outcome} {costNs : Int} {sends : Bool} :
    Ensures (endpoint.tryComplete command outcome costNs sends) base
      (fun sent after => after.pending = base.pending ∧
        Sound (processes.set process
          (if sent then { endpoint with held := endpoint.held.eraseIdx place } else endpoint))
          after)
      (fun _ after => after = base) := by
  have written : ∀ (payload : List UInt8) (exception : Bool) (status : Int),
      (status = 1 ↔ exception = true) →
      Ensures (do
        endpoint.write command payload exception
        endpoint.publish command status payload.length costNs sends : Effect sizes Bool) base
        (fun sent after => after.pending = base.pending ∧
          Sound (processes.set process
            (if sent then { endpoint with held := endpoint.held.eraseIdx place } else endpoint))
            after)
        (fun _ after => after = base) := by
    intro payload exception status side
    unfold WorkerEndpoint.write ProcessResources.write
    split
    · exact ensures_throw rfl
    · rename_i small
      have fits : 0 ≤ (payload.length : Int) ∧
          (payload.length : Int) ≤ sizes.capacity (status = 1) := by
        have same : decide (status = 1) = exception := by
          cases exception with
          | true => exact decide_eq_true (side.mpr rfl)
          | false => exact decide_eq_false fun one => Bool.false_ne_true (side.mp one)
        rw [same]
        omega
      apply ensures_modify_bind
      exact (publish_ensures (sound.arena _) found holds fits).weaken (fun _ _ sent => sent)
        fun _ _ impossible => impossible.elim
  cases outcome with
  | ready payload => exact written payload false 0 (by decide)
  | batch produced =>
      unfold WorkerEndpoint.tryComplete
      apply ensures_ite
      · intro fits
        exact (publish_ensures sound found holds fits).weaken (fun _ _ sent => sent)
          fun _ _ impossible => impossible.elim
      · exact fun _ => ensures_throw rfl
  | exception payload => exact written payload true 1 (by decide)

/-- Whatever a worker does keeps the slots and the pipes sound. -/
theorem act_ensures (found : processes[process]? = some endpoint) (action : Action) :
    Ensures (endpoint.act action) base
      (fun acted after => after.pending = base.pending ∧
        Sound (processes.set process acted.2) after)
      (fun _ after => after.pending = base.pending ∧ Sound processes after) := by
  have unmoved := sound.unmoved found
  cases action with
  | tryRecv =>
      unfold WorkerEndpoint.act
      apply ensures_bind (tryRecv_ensures.weaken (fun _ _ received => received) ?_)
      · rintro received _ (⟨rfl, rfl⟩ | ⟨command, rest, rfl, sent, rfl⟩)
        · exact ensures_pure ⟨rfl, unmoved⟩
        · exact ensures_pure ⟨rfl, sound.received found sent⟩
      · rintro _ _ rfl
        exact ⟨rfl, sound⟩
  | readCommand place =>
      unfold WorkerEndpoint.act
      dsimp only
      split
      · exact ensures_pure ⟨rfl, unmoved⟩
      · rename_i command _
        apply ensures_bind (readCommand_ensures.weaken (fun _ _ read => read) ?_)
        · rintro _ _ rfl
          exact ensures_pure ⟨rfl, unmoved⟩
        · rintro _ _ rfl
          exact ⟨rfl, sound⟩
  | writeBatchRow place rowOffset payload =>
      unfold WorkerEndpoint.act
      dsimp only
      split
      · exact ensures_pure ⟨rfl, unmoved⟩
      · unfold WorkerEndpoint.writeBatchRow
        split
        · exact ensures_throw ⟨rfl, sound⟩
        · exact ensures_modify_bind (ensures_pure ⟨rfl, unmoved.arena _⟩)
  | complete place outcome costNs sends =>
      unfold WorkerEndpoint.act
      dsimp only
      split
      · exact ensures_pure ⟨rfl, unmoved⟩
      · rename_i command holds
        apply ensures_bind ((tryComplete_ensures sound found holds).weaken
          (fun _ _ completed => completed) ?_)
        · rintro sent after ⟨same, kept⟩
          cases sent with
          | true | false => exact ensures_pure ⟨same, kept⟩
        · rintro _ _ rfl
          exact ⟨rfl, sound⟩

end

end Workers

/-! ### Runs -/

section Runs

variable {system after : System sizes} {label : Label} {event : Except ResourcesError Answer}

/-- Every step keeps the slots and the pipes sound. -/
theorem step_keeps (sound : Sound system.processes system.resources)
    (stepEq : (System.machine sizes).step system label = some (event, after)) :
    Sound after.processes after.resources ∧
      Lawful (label, event) system.resources after.resources := by
  change system.step label = some (event, after) at stepEq
  cases label with
  | call called =>
      have ensured := call_ensures sound called
      unfold Ensures at ensured
      unfold System.step at stepEq
      dsimp only at stepEq
      split at stepEq
      · rename_i answer next done
        cases stepEq
        rw [done] at ensured
        exact ensured
      · rename_i error next failed
        cases stepEq
        rw [failed] at ensured
        exact ensured
  | attach worker =>
      obtain ⟨attached, made, same⟩ := Option.map_eq_some_iff.mp stepEq
      cases same
      unfold System.attach at made
      split at made
      · rename_i allowed
        cases made
        exact ⟨sound.attach allowed.1, lawful_still rfl (fun _ opened => opened)
          (fun _ settled => settled.elim) fun _ _ same => nomatch same⟩
      · cases made
  | act process action =>
      unfold System.step at stepEq
      dsimp only at stepEq
      split at stepEq
      · cases stepEq
      · rename_i endpoint found
        have ensured := act_ensures sound found action
        unfold Ensures at ensured
        split at stepEq
        · rename_i answer next resources done
          cases stepEq
          rw [done] at ensured
          exact ⟨ensured.2, lawful_still ensured.1 (fun _ opened => opened)
            (fun _ settled => settled.elim) fun _ _ same => nomatch same⟩
        · rename_i error resources failed
          cases stepEq
          rw [failed] at ensured
          exact ⟨ensured.2, lawful_still ensured.1 (fun _ opened => opened)
            (fun _ settled => settled.elim) fun _ _ same => nomatch same⟩
  | die process =>
      unfold System.step at stepEq
      dsimp only at stepEq
      split at stepEq
      · cases stepEq
        exact ⟨sound.die process, lawful_still rfl (fun _ opened => opened)
          (fun _ settled => settled.elim) fun _ _ same => nomatch same⟩
      · cases stepEq

/-! ### Ranges of bytes -/

/-- The bytes of a slot in the arena. -/
def Sizes.bytes (sizes : Sizes) (worker : Int) (slot : Nat) : Finset Nat :=
  Finset.Ico (sizes.offset worker slot false) (sizes.offset worker slot false + sizes.slotStride)

/-- The place of a slot among all slots. -/
def Sizes.place (sizes : Sizes) (worker : Int) (slot : Nat) : Nat :=
  worker.toNat * sizes.queueCapacity + slot

theorem place_lt {worker : Int} {slot : Nat} (here : sizes.HasWorker worker)
    (inside : slot < sizes.queueCapacity) :
    sizes.place worker slot < sizes.workerCount * sizes.queueCapacity := by
  obtain ⟨low, high⟩ := here
  have few : worker.toNat + 1 ≤ sizes.workerCount := by omega
  calc sizes.place worker slot
      < worker.toNat * sizes.queueCapacity + sizes.queueCapacity := Nat.add_lt_add_left inside _
    _ = (worker.toNat + 1) * sizes.queueCapacity := (Nat.succ_mul _ _).symm
    _ ≤ sizes.workerCount * sizes.queueCapacity := Nat.mul_le_mul_right _ few

theorem place_injective {one two : Int} {slot slot' : Nat} (here : sizes.HasWorker one)
    (there : sizes.HasWorker two) (inside : slot < sizes.queueCapacity)
    (inside' : slot' < sizes.queueCapacity)
    (same : sizes.place one slot = sizes.place two slot') : one = two ∧ slot = slot' := by
  have quotient : ∀ (worker : Int) (slot : Nat), slot < sizes.queueCapacity →
      sizes.place worker slot / sizes.queueCapacity = worker.toNat ∧
        sizes.place worker slot % sizes.queueCapacity = slot := by
    intro worker slot inside
    unfold Sizes.place
    rw [Nat.mul_comm]
    exact ⟨by rw [Nat.mul_add_div sizes.queue, Nat.div_eq_of_lt inside, Nat.add_zero],
      by rw [Nat.mul_add_mod, Nat.mod_eq_of_lt inside]⟩
  have first := quotient one slot inside
  have second := quotient two slot' inside'
  rw [same] at first
  have workers : one.toNat = two.toNat := first.1.symm.trans second.1
  exact ⟨by have := here.1; have := there.1; omega, first.2.symm.trans second.2⟩

theorem bytes_subset {worker : Int} {slot : Nat} (here : sizes.HasWorker worker)
    (inside : slot < sizes.queueCapacity) :
    sizes.bytes worker slot ⊆ Finset.range sizes.arenaSize := by
  intro index member
  obtain ⟨-, high⟩ := Finset.mem_Ico.mp member
  rw [Finset.mem_range]
  calc index < sizes.place worker slot * sizes.slotStride + sizes.slotStride := high
    _ = (sizes.place worker slot + 1) * sizes.slotStride := (Nat.succ_mul _ _).symm
    _ ≤ sizes.arenaSize := Nat.mul_le_mul_right _ (place_lt here inside)

/-- Different slots have different bytes. -/
theorem bytes_disjoint {one two : Int} {slot slot' : Nat}
    (differs : sizes.place one slot ≠ sizes.place two slot') :
    Disjoint (sizes.bytes one slot) (sizes.bytes two slot') := by
  have apart : ∀ (one two : Int) (slot slot' : Nat),
      sizes.place one slot < sizes.place two slot' →
      sizes.offset one slot false + sizes.slotStride ≤ sizes.offset two slot' false := by
    intro one two slot slot' less
    calc sizes.offset one slot false + sizes.slotStride
        = (sizes.place one slot + 1) * sizes.slotStride := (Nat.succ_mul _ _).symm
      _ ≤ sizes.place two slot' * sizes.slotStride := Nat.mul_le_mul_right _ less
      _ = sizes.offset two slot' false := rfl
  rw [Finset.disjoint_left]
  intro index first second
  obtain ⟨low, high⟩ := Finset.mem_Ico.mp first
  obtain ⟨low', high'⟩ := Finset.mem_Ico.mp second
  rcases Nat.lt_or_gt_of_ne differs with less | less
  · have before := apart one two slot slot' less
    omega
  · have before := apart two one slot' slot less
    omega

/-- Each worker's slots are free or those of its pending commands, and pending commands have
bytes of the arena to themselves. -/
structure Conserved (resources : ProcessResources sizes) : Prop where
  slots : ∀ worker, sizes.HasWorker worker →
    Lending (· < sizes.queueCapacity) (resources.free worker)
      fun position => resources.pending.lookup (worker, position)
  apart : ∀ one two slot slot', one ≠ two → resources.pending.lookup one = some slot →
    resources.pending.lookup two = some slot' →
      Disjoint (sizes.bytes one.1 slot) (sizes.bytes two.1 slot')
  inside : ∀ key slot, resources.pending.lookup key = some slot →
    sizes.bytes key.1 slot ⊆ Finset.range sizes.arenaSize

theorem Sound.conserved {processes : List WorkerEndpoint} {resources : ProcessResources sizes}
    (sound : Sound processes resources) : Conserved resources := by
  have placed : ∀ key slot, resources.pending.lookup key = some slot →
      sizes.HasWorker key.1 ∧ slot < sizes.queueCapacity := by
    intro key slot has
    have here := sound.valid key (Finmap.mem_iff.mpr ⟨slot, has⟩)
    exact ⟨here, (sound.lending key.1 here).lentInside key.2 slot has⟩
  refine ⟨sound.lending, fun one two slot slot' differs has has' => ?_, fun key slot has => ?_⟩
  · obtain ⟨here, inside⟩ := placed one slot has
    obtain ⟨there, inside'⟩ := placed two slot' has'
    refine bytes_disjoint fun same => ?_
    obtain ⟨workers, rfl⟩ := place_injective here there inside inside' same
    have lending := sound.lending one.1 here
    exact differs (Prod.ext workers
      (lending.single one.2 two.2 slot has (workers ▸ has')))
  · obtain ⟨here, inside⟩ := placed key slot has
    exact bytes_subset here inside

/-- The run so far accounts for the pending commands. -/
structure Booked (trace : List Entry) (system : System sizes) : Prop where
  sound : Sound system.processes system.resources
  balanced : ∀ key,
    Balanced (Accepts key) (Settles key) trace (key ∈ system.resources.pending)

/-- A completion that is returned is that of one command accepted before. -/
def Belongs (before : List Entry) (label : Label) (event : Except ResourcesError Answer) : Prop :=
  ∀ worker received,
    (label, event) = ((.call (.tryReceive worker), .ok (.received (some received))) : Entry) →
      ∃! place, Outstanding (Accepts (worker, received.position))
        (Settles (worker, received.position)) before place

theorem Booked.step {before : List Entry} (booked : Booked before system)
    (stepEq : (System.machine sizes).step system label = some (event, after)) :
    Belongs before label event ∧ Booked (before ++ [(label, event)]) after := by
  obtain ⟨kept, lawful⟩ := step_keeps booked.sound stepEq
  refine ⟨fun worker received same => ?_, kept, fun key => ?_⟩
  · exact (booked.balanced _).1 (lawful.returned worker received same)
  · exact (booked.balanced key).concat (lawful.fresh key) (lawful.moved key)

/-- In every run of an owner with workers that may die at any point: after every call each
worker's slots are free or with one pending command each, the bytes of pending commands do not
overlap and lie in the arena, and each completion returned is that of one accepted command, which
was neither completed nor reclaimed before. -/
theorem slots_conserved {labels : List Label} {trace : List Entry} {final : System sizes}
    (reached : (System.machine sizes).run (.start sizes) labels = some (trace, final)) :
    Conserved final.resources ∧
      ∀ before worker received rest,
        trace = before ++ (.call (.tryReceive worker), .ok (.received (some received))) :: rest →
        ∃! place, Outstanding (Accepts (worker, received.position))
          (Settles (worker, received.position)) before place := by
  have start : Booked [] (System.start sizes) :=
    ⟨sound_start sizes, fun key => balanced_nil Finmap.notMem_empty⟩
  obtain ⟨booked, belongs⟩ := (System.machine sizes).run_history
    (fun _ _ _ _ _ booked _ stepEq => Booked.step booked stepEq) start
    ((System.machine sizes).along_true _ labels) reached
  exact ⟨booked.sound.conserved, fun before worker received rest split =>
    belongs before _ _ rest split worker received rfl⟩

/-- A command submitted, evaluated by a worker and received. -/
def roundTrip : List Label :=
  [.attach 0, .call (.trySubmit 0 7 7 0 0 0 true), .act 0 .tryRecv,
    .act 0 (.complete 0 (.ready [1, 2]) 1 true), .call (.tryReceive 0)]

/-- One worker with one slot. -/
def oneSlot : Sizes := ⟨1, 1, 2, 2, by decide, Nat.one_pos, by decide⟩

theorem slots_conserved_roundTrip :
    ∃ trace final, (System.machine oneSlot).run (.start oneSlot) roundTrip =
        some (trace, final) ∧ Conserved final.resources := by
  have runs : ((System.machine oneSlot).run (.start oneSlot) roundTrip).isSome = true := by
    decide +kernel
  obtain ⟨⟨trace, final⟩, reached⟩ := Option.isSome_iff_exists.mp runs
  exact ⟨trace, final, reached, (slots_conserved reached).1⟩

end Runs

end Hyperloader.Fallback
