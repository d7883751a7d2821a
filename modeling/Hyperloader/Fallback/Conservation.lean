/-
Module: Hyperloader.Fallback.Conservation
Purpose: The slots and the commands of the pure Python transport over whole runs of an owner and
  its workers: which slots are free, where each pending command is, and what is returned for it.
Trusted boundary: as in `Resources` and `Endpoint`
Main exports: Followed, Sound, submission_ensures, receipt_ensures, call_ensures
-/
import Hyperloader.Fallback.Calls
import Hyperloader.Fallback.Endpoint
import Hyperloader.Foundations.Ledger
import Mathlib.Order.Interval.Finset.Nat

namespace Hyperloader.Fallback

open Foundations

variable {sizes : Sizes}

/-! ### Commands on their way -/

def WorkerCommand.pair (command : WorkerCommand) : Int × Nat := (command.position, command.slot)

def Completion.pair (completion : Completion) : Int × Nat := (completion.position, completion.slot)

/-- The commands that a process holds from some pipes. -/
def WorkerEndpoint.heldFrom (pipe : Nat) (endpoint : WorkerEndpoint) : List (Int × Nat) :=
  if endpoint.channels = pipe then endpoint.held.map WorkerCommand.pair else []

/-- The commands on their way through some pipes: sent, held by a process or completed. -/
def flight (channels : Channels) (pipe : Nat) (processes : List WorkerEndpoint) :
    List (Int × Nat) :=
  channels.dispatch.map WorkerCommand.pair ++ processes.flatMap (WorkerEndpoint.heldFrom pipe) ++
    channels.completion.map Completion.pair

/-- Commands, each listed once, that are pending with their slots. -/
structure Followed (pairs : List (Int × Nat)) (pending : Int → Option Nat) : Prop where
  distinct : (pairs.map Prod.fst).Nodup
  pending : ∀ pair ∈ pairs, pending pair.1 = some pair.2

section Pairs

variable {pairs others : List (Int × Nat)} {pending after : Int → Option Nat} {position : Int}
  {slot : Nat}

theorem Followed.subperm (followed : Followed pairs pending) (fewer : others.Subperm pairs) :
    Followed others pending := by
  obtain ⟨ordered, same, sublist⟩ := fewer
  have distinct := (sublist.map Prod.fst).nodup followed.distinct
  exact ⟨(same.map Prod.fst).nodup_iff.mp distinct,
    fun pair member => followed.pending pair (sublist.subset (same.mem_iff.mpr member))⟩

theorem Followed.cons (followed : Followed pairs pending) (none : pending position = none)
    (taken : after position = some slot)
    (others : ∀ other, other ≠ position → after other = pending other) :
    Followed ((position, slot) :: pairs) after := by
  have differs : ∀ pair ∈ pairs, pair.1 ≠ position := by
    rintro pair member rfl
    exact nomatch none.symm.trans (followed.pending pair member)
  refine ⟨List.nodup_cons.mpr ⟨fun listed => ?_, followed.distinct⟩, fun pair member => ?_⟩
  · obtain ⟨pair, member, same⟩ := List.mem_map.mp listed
    exact differs pair member same
  · rcases List.mem_cons.mp member with rfl | old
    · exact taken
    · exact (others _ (differs pair old)).trans (followed.pending pair old)

theorem Followed.tail (followed : Followed ((position, slot) :: pairs) pending)
    (others : ∀ other, other ≠ position → after other = pending other) : Followed pairs after := by
  obtain ⟨absent, distinct⟩ := List.nodup_cons.mp followed.distinct
  refine ⟨distinct, fun pair member => ?_⟩
  have differs : pair.1 ≠ position := by
    rintro rfl
    exact absent (List.mem_map.mpr ⟨pair, member, rfl⟩)
  exact (others _ differs).trans (followed.pending pair (List.mem_cons_of_mem _ member))

theorem flight_send (channels : Channels) (pipe : Nat) (processes : List WorkerEndpoint)
    (command : WorkerCommand) :
    (flight { channels with dispatch := channels.dispatch ++ [command] } pipe processes).Perm
      (command.pair :: flight channels pipe processes) := by
  unfold flight
  simp

theorem flight_receive {channels : Channels} {completion : Completion} {rest : List Completion}
    (arrived : channels.completion = completion :: rest) (pipe : Nat)
    (processes : List WorkerEndpoint) :
    (flight channels pipe processes).Perm
      (completion.pair :: flight { channels with completion := rest } pipe processes) := by
  unfold flight
  rw [arrived, List.map_cons]
  exact List.perm_middle

theorem followed_nil : Followed [] pending := ⟨List.nodup_nil, fun _ none => nomatch none⟩

end Pairs

/-! ### The invariant -/

/-- A completion has a length that its slot has. -/
def Fits (sizes : Sizes) (completion : Completion) : Prop :=
  0 ≤ completion.produced ∧ completion.produced ≤ sizes.capacity (completion.status = 1)

/-- Each worker's slots are free or with one of its pending commands, and whatever is on its way
through open pipes is a pending command with its slot, once. -/
structure Sound (processes : List WorkerEndpoint) (resources : ProcessResources sizes) : Prop where
  lending : ∀ worker, sizes.HasWorker worker →
    Lending (· < sizes.queueCapacity) (resources.free worker)
      fun position => resources.pending.lookup (worker, position)
  valid : ∀ key ∈ resources.pending, sizes.HasWorker key.1
  named : ∀ worker, sizes.HasWorker worker → resources.channels worker < resources.made
  separate : ∀ one two, sizes.HasWorker one → sizes.HasWorker two →
    resources.channels one = resources.channels two → one = two
  attached : ∀ endpoint ∈ processes, endpoint.channels < resources.made
  followed : ∀ worker, sizes.HasWorker worker → (resources.channel worker).isOpen = true →
    Followed (flight (resources.channel worker) (resources.channels worker) processes)
      fun position => resources.pending.lookup (worker, position)
  lengths : ∀ pipe, ∀ completion ∈ (resources.pipes pipe).completion, Fits sizes completion

section Owner

variable {processes : List WorkerEndpoint} {base after : ProcessResources sizes}
  {worker other position : Int}

theorem sound_start (sizes : Sizes) : Sound [] (ProcessResources.start sizes) := by
  refine ⟨fun worker _ => ?_, fun key member => ?_, ?_, ?_, (fun _ none => nomatch none), ?_, ?_⟩
  · exact .new List.nodup_range (fun _ => List.mem_range) fun _ => Finmap.lookup_empty _
  · exact absurd member (Finmap.notMem_empty)
  · rintro worker ⟨low, high⟩
    change worker.toNat < sizes.workerCount
    omega
  · rintro one two ⟨low, -⟩ ⟨low', -⟩ same
    change one.toNat = two.toNat at same
    omega
  · exact fun worker _ _ => followed_nil
  · exact fun pipe completion none => nomatch none

theorem Sound.arena (sound : Sound processes base) (arena : Frame sizes.arenaSize) :
    Sound processes { base with arena := arena } :=
  ⟨sound.lending, sound.valid, sound.named, sound.separate, sound.attached, sound.followed,
    sound.lengths⟩

/-- A call on one worker changes its free slots, its pending commands and its pipes. -/
structure OnWorker (base : ProcessResources sizes) (worker : Int) (own : Channels)
    (after : ProcessResources sizes) : Prop where
  channels : after.channels = base.channels
  made : after.made = base.made
  pipes : after.pipes = Function.update base.pipes (base.channels worker) own
  free : ∀ other, other ≠ worker → after.free other = base.free other
  pending : ∀ other place, other ≠ worker →
    after.pending.lookup (other, place) = base.pending.lookup (other, place)

theorem Sound.onWorker (sound : Sound processes base) (here : sizes.HasWorker worker)
    {channels : Channels} (onWorker : OnWorker base worker channels after)
    (lending : Lending (· < sizes.queueCapacity) (after.free worker)
      fun position => after.pending.lookup (worker, position)) (followed : channels.isOpen = true →
      Followed (flight channels (base.channels worker) processes)
        fun position => after.pending.lookup (worker, position))
    (lengths : ∀ completion ∈ channels.completion, Fits sizes completion) :
    Sound processes after := by
  have own : after.channel worker = channels := by
    unfold ProcessResources.channel
    rw [onWorker.pipes, onWorker.channels, Function.update_self]
  have kept : ∀ other, sizes.HasWorker other → other ≠ worker →
      after.channel other = base.channel other := by
    intro other there differs
    unfold ProcessResources.channel
    rw [onWorker.pipes, onWorker.channels, Function.update_of_ne]
    exact fun same => differs (sound.separate other worker there here same)
  refine ⟨fun other there => ?_, fun key member => ?_, ?_, ?_, ?_, fun other there isOpen => ?_,
    fun pipe completion member => ?_⟩
  · by_cases same : other = worker
    · subst same
      exact lending
    · rw [onWorker.free other same]
      simp only [fun place => onWorker.pending other place same]
      exact sound.lending other there
  · by_cases same : key.1 = worker
    · exact same ▸ here
    · obtain ⟨slot, has⟩ := Finmap.mem_iff.mp member
      have was := (onWorker.pending key.1 key.2 same).symm.trans has
      exact sound.valid key (Finmap.mem_iff.mpr ⟨slot, was⟩)
  · rw [onWorker.channels, onWorker.made]
    exact sound.named
  · rw [onWorker.channels]
    exact sound.separate
  · rw [onWorker.made]
    exact sound.attached
  · rw [onWorker.channels]
    by_cases same : other = worker
    · subst same
      rw [own] at isOpen ⊢
      exact followed isOpen
    · rw [kept other there same] at isOpen ⊢
      simp only [fun place => onWorker.pending other place same]
      exact sound.followed other there isOpen
  · rw [onWorker.pipes] at member
    by_cases same : pipe = base.channels worker
    · rw [same, Function.update_self] at member
      exact lengths completion member
    · rw [Function.update_of_ne same] at member
      exact sound.lengths pipe completion member

theorem Sound.submitted (sound : Sound processes base)
    (submitted : Submitted base worker position after) : Sound processes after := by
  obtain ⟨arena, slot, rest, command, free, rfl, rfl, rfl⟩ := submitted.sent
  have here := submitted.valid
  have none : base.pending.lookup (worker, command.position) = none :=
    Finmap.lookup_eq_none.mpr submitted.fresh
  have taken : (base.pending.insert (worker, command.position) command.slot).lookup
      (worker, command.position) = some command.slot := by
    rw [lookup_insert_if, if_pos rfl]
  have others : ∀ place, place ≠ command.position →
      (base.pending.insert (worker, command.position) command.slot).lookup (worker, place) =
        base.pending.lookup (worker, place) := by
    intro place differs
    rw [lookup_insert_if, if_neg fun same => differs (Prod.mk.inj same).2]
  refine sound.onWorker here ⟨rfl, rfl, rfl, fun other differs => ?_,
    fun other place differs => ?_⟩ ?_ (fun _ => ?_) (sound.lengths (base.channels worker))
  · exact Function.update_of_ne differs _ _
  · dsimp only
    rw [lookup_insert_if, if_neg fun same => differs (Prod.mk.inj same).1]
  · have lending := sound.lending worker here
    rw [free] at lending
    dsimp only
    rw [Function.update_self]
    exact lending.take none taken others
  · have before := (sound.followed worker here submitted.isOpen).cons none taken others
    exact before.subperm (flight_send _ _ _ command).subperm

theorem Sound.taken (sound : Sound processes base) (taken : Taken base worker position after) :
    Sound processes after := by
  obtain ⟨completion, rest, arrived, rfl, has, rfl⟩ := taken.taken
  have here := taken.valid
  have gone : (base.pending.erase (worker, completion.position)).lookup
      (worker, completion.position) = none := by
    rw [lookup_erase_if, if_pos rfl]
  have others : ∀ place, place ≠ completion.position →
      (base.pending.erase (worker, completion.position)).lookup (worker, place) =
        base.pending.lookup (worker, place) := by
    intro place differs
    rw [lookup_erase_if, if_neg fun same => differs (Prod.mk.inj same).2]
  refine sound.onWorker here ⟨rfl, rfl, rfl, fun other differs => ?_,
    fun other place differs => ?_⟩ ?_ (fun _ => ?_) fun found member => ?_
  · exact Function.update_of_ne differs _ _
  · dsimp only
    rw [lookup_erase_if, if_neg fun same => differs (Prod.mk.inj same).1]
  · dsimp only
    rw [Function.update_self]
    exact (sound.lending worker here).give has gone others
  · have before := sound.followed worker here taken.isOpen
    exact (before.subperm (flight_receive arrived _ _).symm.subperm).tail others
  · exact sound.lengths (base.channels worker) found
      (arrived ▸ List.mem_cons_of_mem completion member)

/-- New pipes for a worker, with nothing in them. -/
theorem Sound.renew (sound : Sound processes base) (here : sizes.HasWorker worker) :
    Sound processes
      { base with
        channels := Function.update base.channels worker base.made
        pipes := Function.update base.pipes base.made ⟨[], [], true⟩
        made := base.made + 1 } := by
  have older : ∀ other, sizes.HasWorker other → base.channels other ≠ base.made :=
    fun other there => (sound.named other there).ne
  refine ⟨sound.lending, sound.valid, fun other there => ?_, fun one two there there' same => ?_,
    fun endpoint member => Nat.lt_succ_of_lt (sound.attached endpoint member),
    fun other there isOpen => ?_, fun pipe completion member => ?_⟩
  · by_cases same : other = worker
    · subst same
      dsimp only
      rw [Function.update_self]
      exact Nat.lt_succ_self _
    · dsimp only
      rw [Function.update_of_ne same]
      exact Nat.lt_succ_of_lt (sound.named other there)
  · dsimp only at same
    by_cases first : one = worker
    · by_cases second : two = worker
      · exact first.trans second.symm
      · rw [first, Function.update_self, Function.update_of_ne second] at same
        exact absurd same.symm (older two there')
    · by_cases second : two = worker
      · rw [second, Function.update_self, Function.update_of_ne first] at same
        exact absurd same (older one there)
      · rw [Function.update_of_ne first, Function.update_of_ne second] at same
        exact sound.separate one two there there' same
  · unfold ProcessResources.channel at isOpen ⊢
    dsimp only at isOpen ⊢
    by_cases same : other = worker
    · subst same
      rw [Function.update_self, Function.update_self]
      have empty : processes.flatMap (WorkerEndpoint.heldFrom base.made) = [] := by
        rw [List.flatMap_eq_nil_iff]
        intro endpoint member
        exact if_neg (sound.attached endpoint member).ne
      unfold flight
      rw [empty]
      exact followed_nil
    · rw [Function.update_of_ne same, Function.update_of_ne (older other there)] at isOpen ⊢
      exact sound.followed other there isOpen
  · dsimp only at member
    by_cases same : pipe = base.made
    · rw [same, Function.update_self] at member
      cases member
    · rw [Function.update_of_ne same] at member
      exact sound.lengths pipe completion member

/-- What a reclaim leaves, whether it gets its new pipes or raises. -/
theorem replaceChannels_ensures {pipes : Bool} {reclaimed : ProcessResources sizes}
    (sound : Sound processes base) (here : sizes.HasWorker worker)
    (done : Reclaimed base worker (base.positionsOf worker) reclaimed) :
    Ensures (ProcessResources.replaceChannels worker pipes) reclaimed
      (fun _ after => Sound processes after ∧ after.pending = reclaimed.pending)
      (fun _ after => Sound processes after ∧ after.pending = reclaimed.pending) := by
  have own : reclaimed.channel worker = base.channel worker := by
    unfold ProcessResources.channel
    rw [done.pipes, done.channels]
  have onWorker : OnWorker base worker { base.channel worker with isOpen := false }
      { reclaimed with
        pipes := Function.update reclaimed.pipes (reclaimed.channels worker)
          { reclaimed.channel worker with isOpen := false } } := by
    refine ⟨done.channels, done.made, ?_, done.others, fun other place differs => ?_⟩
    · dsimp only
      rw [own, done.pipes, done.channels]
    · dsimp only
      rw [done.lookup, if_neg differs]
  have closing := sound.onWorker here onWorker done.lending
    (fun isOpen => absurd isOpen Bool.false_ne_true) (sound.lengths (base.channels worker))
  unfold ProcessResources.replaceChannels
  apply ensures_modify_bind
  apply ensures_ite
  · exact fun _ => ensures_modify ⟨closing.renew here, rfl⟩
  · exact fun _ => ensures_throw ⟨closing, rfl⟩

/-- A closed owner has no open pipes. -/
theorem Sound.close (sound : Sound processes base) :
    Ensures ProcessResources.close base
      (fun _ after => Sound processes after ∧ after.pending = base.pending) (fun _ _ => False) := by
  apply ensures_modify
  split
  · exact ⟨sound, rfl⟩
  · exact ⟨⟨sound.lending, sound.valid, sound.named, sound.separate, sound.attached,
      fun _ _ isOpen => absurd isOpen Bool.false_ne_true, sound.lengths⟩, rfl⟩

end Owner

/-! ### The book of a run -/

/-- An entry of a run. -/
abbrev Entry := Label × Except ResourcesError Answer

/-- The entry accepts a command. -/
def Accepts (key : CommandKey) : Entry → Prop
  | (.call (.trySubmit _ position _ _ worker _ _), .ok (.submitted true)) =>
      (worker, position) = key
  | (.call (.trySubmitCommand position _ worker _ _), .ok (.submitted true)) =>
      (worker, position) = key
  | _ => False

/-- The entry returns the completion of a command, or reclaims its worker. -/
def Settles (key : CommandKey) : Entry → Prop
  | (.call (.tryReceive worker), .ok (.received (some received))) =>
      (worker, received.position) = key
  | (.call (.reclaimDeadWorker worker _), _) => worker = key.1
  | (.call (.restartWorker worker _), _) => worker = key.1
  | _ => False

/-- What an entry does to the pending commands. -/
structure Lawful (entry : Entry) (base after : ProcessResources sizes) : Prop where
  moved : ∀ key, key ∈ after.pending ↔ (key ∈ base.pending ∧ ¬ Settles key entry) ∨ Accepts key entry
  fresh : ∀ key, Accepts key entry → key ∉ base.pending
  returned : ∀ worker received,
    entry = (.call (.tryReceive worker), .ok (.received (some received))) →
      (worker, received.position) ∈ base.pending

section Book

variable {processes : List WorkerEndpoint} {base after : ProcessResources sizes} {entry : Entry}

/-- An entry that touches no pending command. -/
theorem lawful_still (same : after.pending = base.pending) (accepts : ∀ key, ¬ Accepts key entry)
    (settles : ∀ key, Settles key entry → key ∉ base.pending) (returned : ∀ worker received,
      entry ≠ (.call (.tryReceive worker), .ok (.received (some received)))) :
    Lawful entry base after := by
  refine ⟨fun key => ?_, fun key opened => absurd opened (accepts key),
    fun worker received here => absurd here (returned worker received)⟩
  rw [same]
  constructor
  · exact fun member => .inl ⟨member, fun settled => settles key settled member⟩
  · rintro (⟨member, -⟩ | opened)
    · exact member
    · exact absurd opened (accepts key)

variable {worker position : Int}

theorem Submitted.lawful (submitted : Submitted base worker position after)
    (accepts : ∀ key, Accepts key entry ↔ (worker, position) = key)
    (settles : ∀ key, ¬ Settles key entry) (returned : ∀ worker received,
      entry ≠ (.call (.tryReceive worker), .ok (.received (some received)))) :
    Lawful entry base after := by
  obtain ⟨arena, slot, rest, command, -, -, -, rfl⟩ := submitted.sent
  refine ⟨fun key => ?_, fun key opened => (accepts key).mp opened ▸ submitted.fresh,
    fun worker received here => absurd here (returned worker received)⟩
  rw [accepts]
  dsimp only
  rw [Finmap.mem_insert]
  constructor
  · rintro (rfl | old)
    · exact .inr rfl
    · exact .inl ⟨old, settles key⟩
  · rintro (⟨old, -⟩ | rfl)
    · exact .inr old
    · exact .inl rfl

variable {worker : Int}

theorem Taken.lawful {received : Received} (taken : Taken base worker received.position after) :
    Lawful (.call (.tryReceive worker), .ok (.received (some received))) base after := by
  obtain ⟨completion, rest, -, -, has, rfl⟩ := taken.taken
  refine ⟨fun key => ?_, fun key opened => opened.elim, fun other found same => ?_⟩
  · dsimp only
    rw [Finmap.mem_erase]
    constructor
    · exact fun both => .inl ⟨both.2, fun settled => both.1 settled.symm⟩
    · rintro (⟨member, unsettled⟩ | opened)
      · exact ⟨fun same => unsettled same.symm, member⟩
      · exact opened.elim
  · cases same
    exact Finmap.mem_iff.mpr ⟨_, has⟩

/-- A reclaim takes the commands of its worker. -/
theorem lawful_reclaimed (accepts : ∀ key, ¬ Accepts key entry)
    (settles : ∀ key, Settles key entry ↔ worker = key.1) (returned : ∀ worker received,
      entry ≠ (.call (.tryReceive worker), .ok (.received (some received))))
    (pending : ∀ key, after.pending.lookup key =
      if key.1 = worker then none else base.pending.lookup key) : Lawful entry base after := by
  refine ⟨fun key => ?_, fun key opened => absurd opened (accepts key),
    fun worker received here => absurd here (returned worker received)⟩
  rw [settles, Finmap.mem_iff, Finmap.mem_iff, pending]
  constructor
  · rintro ⟨slot, has⟩
    split at has
    · cases has
    · rename_i other
      exact .inl ⟨⟨slot, has⟩, fun same => other same.symm⟩
  · rintro (⟨⟨slot, has⟩, other⟩ | opened)
    · exact ⟨slot, (if_neg fun same => other same.symm).trans has⟩
    · exact absurd opened (accepts key)

/-- What a call ensures: the slots and the pipes stay sound, and the pending commands move as the
entry says. -/
def Keeps (processes : List WorkerEndpoint) (base : ProcessResources sizes) (label : Label)
    (event : Except ResourcesError Answer) (after : ProcessResources sizes) : Prop :=
  Sound processes after ∧ Lawful (label, event) base after

/-- Only `try_receive` returns an answer of a worker. -/
theorem received_ne {call : Call} (other : ∀ worker, call ≠ .tryReceive worker)
    (event : Except ResourcesError Answer) (worker received) :
    ((.call call, event) : Entry) ≠
      (.call (.tryReceive worker), .ok (.received (some received))) := by
  intro same
  cases same
  exact other worker rfl

section

variable (sound : Sound processes base)

include sound

theorem submission_ensures {call : Call} {effect : Effect sizes Bool} (submits : Ensures effect base
      (fun accepted after =>
        if accepted then Submitted base worker position after
        else ∃ arena, after = { base with arena := arena })
      (fun _ after => after = base)) (accepts : ∀ key event, Accepts key (.call call, event) ↔
      event = .ok (.submitted true) ∧ (worker, position) = key)
    (settles : ∀ key event, ¬ Settles key (.call call, event))
    (other : ∀ worker, call ≠ .tryReceive worker) :
    Ensures (.submitted <$> effect : Effect sizes Answer) base
      (fun answer after => Keeps processes base (.call call) (.ok answer) after)
      (fun error after => Keeps processes base (.call call) (.error error) after) := by
  have returned := received_ne other
  have still : ∀ event, event ≠ .ok (.submitted true) → ∀ arena,
      Keeps processes base (.call call) event { base with arena := arena } := by
    intro event refused arena
    refine ⟨sound.arena arena, lawful_still rfl ?_ ?_ (returned event)⟩
    · exact fun key opened => refused ((accepts key event).mp opened).1
    · exact fun key settled => absurd settled (settles key event)
  apply ensures_map
  apply submits.weaken
  · intro accepted after answered
    cases accepted with
    | true =>
        refine ⟨sound.submitted answered, answered.lawful (fun key => ?_)
          (fun key => settles key _) (returned _)⟩
        rw [accepts]
        exact and_iff_right rfl
    | false =>
        obtain ⟨arena, rfl⟩ := answered
        exact still (.ok (.submitted false)) (fun same => nomatch same) arena
  · rintro error after rfl
    exact still (.error error) (fun same => nomatch same) after.arena

theorem Sound.expected (here : sizes.HasWorker worker)
    (isOpen : (base.channel worker).isOpen = true) {completion : Completion}
    (arrived : completion ∈ (base.channel worker).completion) :
    Expected base worker completion := by
  refine ⟨(sound.followed worker here isOpen).pending completion.pair ?_,
    sound.lengths _ completion arrived⟩
  exact List.mem_append_right _ (List.mem_map_of_mem arrived)

theorem receipt_ensures (worker : Int) :
    Ensures (System.call (.tryReceive worker)) base
      (fun answer after => Keeps processes base (.call (.tryReceive worker)) (.ok answer) after)
      (fun error after => Keeps processes base (.call (.tryReceive worker)) (.error error) after) := by
  apply ensures_map
  apply (tryReceive_ensures fun here isOpen completion arrived =>
    sound.expected here isOpen arrived).weaken
  · intro received after answered
    cases received with
    | none =>
        cases answered
        exact ⟨sound, lawful_still rfl (fun _ opened => opened) (fun _ settled => settled.elim)
          fun _ _ same => nomatch same⟩
    | some received => exact ⟨sound.taken answered, answered.lawful⟩
  · rintro error after rfl
    exact ⟨sound, lawful_still rfl (fun _ opened => opened) (fun _ settled => settled.elim)
      fun _ _ same => nomatch same⟩

theorem reclaimDeadWorker_ensures {call : Call} {pipes : Bool}
    (accepts : ∀ key event, ¬ Accepts key (.call call, event))
    (settles : ∀ key event, Settles key (.call call, event) ↔ worker = key.1)
    (other : ∀ worker, call ≠ .tryReceive worker) :
    Ensures (.reclaimed <$> ProcessResources.reclaimDeadWorker worker pipes : Effect sizes Answer)
      base
      (fun answer after => Keeps processes base (.call call) (.ok answer) after)
      (fun error after => Keeps processes base (.call call) (.error error) after) := by
  have returned := received_ne other
  apply ensures_map
  unfold ProcessResources.reclaimDeadWorker
  apply ensures_bind (validateWorker_ensures.weaken (fun _ _ valid => valid) ?_)
  · rintro _ base ⟨rfl, here⟩
    apply ensures_get
    have listed : ∀ position ∈ base.positionsOf worker, (worker, position) ∈ base.pending :=
      fun position member => mem_positionsOf.mp member
    apply ensures_bind ((reclaim_ensures (sound.lending worker here) nodup_positionsOf
      listed).weaken (fun _ _ done => done) fun _ _ impossible => impossible.elim)
    intro _ reclaimed done
    have taken : ∀ event after, after.pending = reclaimed.pending →
        Lawful (.call call, event) base after := by
      intro event after same
      refine lawful_reclaimed (fun key => accepts key event) (fun key => settles key event)
        (returned event) fun key => ?_
      rw [same]
      exact done.lookup key
    apply ensures_bind ((replaceChannels_ensures sound here done).weaken
      (fun _ _ replaced => replaced) fun _ after failed => ⟨failed.1, taken _ after failed.2⟩)
    rintro _ after ⟨kept, same⟩
    exact ensures_pure ⟨kept, taken _ after same⟩
  · rintro error after ⟨rfl, absent⟩
    refine ⟨sound, lawful_still rfl (fun key => accepts key _) (fun key settled member => ?_)
      (returned _)⟩
    exact absent ((settles key _).mp settled ▸ sound.valid key member)

end

theorem accepts_iff {call : Call} (submits : (∃ epoch index stagePlan batchLen sends,
        call = .trySubmit epoch position index stagePlan worker batchLen sends) ∨
      ∃ stagePlan payload sends,
        call = .trySubmitCommand position stagePlan worker payload sends) (key : CommandKey)
    (event : Except ResourcesError Answer) :
    Accepts key (.call call, event) ↔
      event = .ok (.submitted true) ∧ (worker, position) = key := by
  have opened : Accepts key (.call call, .ok (.submitted true)) ↔ (worker, position) = key := by
    rcases submits with ⟨_, _, _, _, _, rfl⟩ | ⟨_, _, _, rfl⟩ <;> exact Iff.rfl
  have refused : event ≠ .ok (.submitted true) → ¬ Accepts key (.call call, event) := by
    intro other accepted
    unfold Accepts at accepted
    split at accepted
    · rename_i same
      exact other (Prod.mk.inj same).2
    · rename_i same
      exact other (Prod.mk.inj same).2
    · exact accepted
  by_cases same : event = .ok (.submitted true)
  · subst same
    rw [opened]
    exact (and_iff_right rfl).symm
  · exact iff_of_false (refused same) fun both => same both.1

/-- Every call of the owner keeps the slots and the pipes sound, also where it raises. -/
theorem call_ensures (sound : Sound processes base) (call : Call) :
    Ensures (System.call call) base
      (fun answer after => Keeps processes base (.call call) (.ok answer) after)
      (fun error after => Keeps processes base (.call call) (.error error) after) := by
  cases call with
  | trySubmit epoch position index stagePlan worker batchLen sends =>
      refine submission_ensures sound (submit_ensures fun bytes none => nomatch none) ?_
        (fun _ _ settled => settled) fun _ same => nomatch same
      exact accepts_iff (.inl ⟨_, _, _, _, _, rfl⟩)
  | trySubmitCommand position stagePlan worker payload sends =>
      refine submission_ensures sound ?_ (accepts_iff (.inr ⟨_, _, _, rfl⟩))
        (fun _ _ settled => settled) fun _ same => nomatch same
      unfold ProcessResources.trySubmitCommand
      apply ensures_ite
      · exact fun _ => ensures_throw rfl
      intro _
      apply ensures_ite
      · exact fun _ => ensures_throw rfl
      intro fits
      refine submit_ensures fun bytes same => ?_
      cases same
      exact Nat.not_lt.mp fits
  | tryReceive worker => exact receipt_ensures sound worker
  | reclaimDeadWorker worker pipes | restartWorker worker pipes =>
      exact reclaimDeadWorker_ensures sound (fun _ _ opened => opened) (fun _ _ => Iff.rfl)
        fun _ same => nomatch same
  | close =>
      apply ensures_bind (sound.close.weaken (fun _ _ closed => closed)
        fun _ _ impossible => impossible.elim)
      rintro _ after ⟨kept, same⟩
      exact ensures_pure ⟨kept, lawful_still same (fun _ opened => opened)
        (fun _ settled => settled.elim) fun _ _ same => nomatch same⟩

end Book

end Hyperloader.Fallback
