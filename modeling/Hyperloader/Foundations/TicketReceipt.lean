/-
Module: Hyperloader.Foundations.TicketReceipt
Purpose: Which party of a queue is given which frames: what holds of every frame pushed holds of
  every frame given, each party is given frames in the order of their tickets, a party that alone
  pops is given the frames in the order they were claimed, and the frames a party claimed are those
  of its pushes that returned.
Trusted boundary: none
Main exports: Ledger.claimed_of_pushed, Ledger.receipts, Ledger.given_prefix, Ledger.settled
-/
import Mathlib.Data.List.Induction
import Mathlib.Data.List.Sort
import Hyperloader.Foundations.TicketQueue

namespace Hyperloader.Foundations

namespace Ledger

variable {Party Frame : Type*} [DecidableEq Party] [DecidableEq Frame] {capacity : Nat}

/-- What a party was given in a trace. -/
def givenTo (party : Party) (trace : List ((Party × TicketAction Frame) × TicketEvent Frame)) :
    List Frame :=
  (trace.filter fun entry => entry.1.1 = party).filterMap (·.2.given)

variable {trace : List ((Party × TicketAction Frame) × TicketEvent Frame)} {party : Party}

/-- A trace entered whole was entered up to its last step. -/
theorem run_snoc {ledger final : Ledger Party Frame} {action : TicketAction Frame}
    {event : TicketEvent Frame}
    (reached : ledger.run capacity (trace ++ [((party, action), event)]) = some final) :
    ∃ middle, ledger.run capacity trace = some middle ∧
      middle.enter capacity party action event = some final := by
  rw [run_append] at reached
  obtain ⟨middle, sofar, rest⟩ := Option.bind_eq_some_iff.mp reached
  refine ⟨middle, sofar, ?_⟩
  rw [run] at rest
  split at rest
  · cases rest
  · rename_i next entered
    cases rest
    exact entered

/-! ### One step of a party -/

/-- What a step does to the frames, the tickets and its party's standing. -/
inductive Enters (ledger : Ledger Party Frame) (party : Party) :
    TicketAction Frame → TicketEvent Frame → Ledger Party Frame → Prop where
  | waits (action : TicketAction Frame) (other : ∀ frame, action ≠ .push frame) :
      Enters ledger party action .quiet ledger
  | offers (frame : Frame) (here : ledger.standing party = .idle) :
      Enters ledger party (.push frame) .quiet (ledger.turn party (.offering frame))
  | asks (here : ledger.standing party = .idle) :
      Enters ledger party .pop .quiet (ledger.turn party .asking)
  | claims (frame : Frame) (here : ledger.standing party = .offering frame) :
      Enters ledger party .step (.claimed frame)
        ({ ledger with claimed := ledger.claimed ++ [frame] }.turn party .placed)
  | settles (here : ledger.standing party = .placed) :
      Enters ledger party .step .pushed (ledger.turn party .idle)
  | refuses (frame : Frame) (here : ledger.standing party = .offering frame) :
      Enters ledger party .step .full (ledger.turn party .idle)
  | takes (here : ledger.standing party = .asking) (more : ledger.taken < ledger.claimed.length) :
      Enters ledger party .step .taken
        ({ ledger with taken := ledger.taken + 1 }.turn party (.holding ledger.taken))
  | gives (ticket : Nat) (frame : Frame) (here : ledger.standing party = .holding ticket)
      (found : ledger.claimed[ticket]? = some frame) :
      Enters ledger party .step (.popped frame)
        ({ ledger with popped := ledger.popped ++ [ticket] }.turn party .idle)
  | misses (here : ledger.standing party = .asking) :
      Enters ledger party .step .empty (ledger.turn party .idle)

theorem enters {ledger next : Ledger Party Frame} {action : TicketAction Frame}
    {event : TicketEvent Frame} (entered : ledger.enter capacity party action event = some next) :
    Enters ledger party action event next := by
  unfold enter at entered
  split at entered
  · split at entered
    · rename_i here
      cases entered
      exact .offers _ here
    · cases entered
  · split at entered
    · rename_i here
      cases entered
      exact .asks here
    · cases entered
  · split at entered
    · rename_i here
      cases entered
      exact .claims _ here.1
    · cases entered
  · split at entered
    · rename_i here
      cases entered
      exact .settles here
    · cases entered
  · split at entered
    · rename_i here
      split at entered
      · cases entered
        exact .refuses _ here
      · cases entered
    · cases entered
  · split at entered
    · rename_i here
      cases entered
      exact .takes here.1 here.2
    · cases entered
  · split at entered
    · rename_i here
      split at entered
      · rename_i found
        cases entered
        exact .gives _ _ here found
      · cases entered
    · cases entered
  · split at entered
    · rename_i here
      cases entered
      exact .misses here.1
    · cases entered
  · cases entered
    exact .waits _ nofun
  · cases entered
    exact .waits _ nofun
  · cases entered

/-! ### What was pushed -/

variable {final : Ledger Party Frame}

/-- What holds of every frame pushed holds of every frame claimed. -/
theorem claimed_of_pushed {good : Frame → Prop}
    (reached : (empty : Ledger Party Frame).run capacity trace = some final)
    (pushed : ∀ entry ∈ trace, ∀ frame, entry.1.2 = .push frame → good frame) :
    (∀ frame ∈ final.claimed, good frame) ∧
      ∀ party frame, final.standing party = .offering frame → good frame := by
  induction trace using List.reverseRecOn generalizing final with
  | nil =>
      cases reached
      exact ⟨fun _ absent => (by cases absent), fun _ _ impossible => (by cases impossible)⟩
  | append_singleton trace entry ih =>
      obtain ⟨⟨party, action⟩, event⟩ := entry
      obtain ⟨middle, sofar, entered⟩ := run_snoc reached
      obtain ⟨claimed, offering⟩ := ih sofar fun entry member =>
        pushed entry (List.mem_append_left _ member)
      have here := pushed _ (List.mem_append_right _ List.mem_cons_self)
      have turned : ∀ {standing : Standing Frame},
          (∀ frame, standing = .offering frame → good frame) → ∀ other frame,
            Function.update middle.standing party standing other = .offering frame →
              good frame := by
        intro standing fresh other frame same
        rw [Function.update_apply] at same
        split at same
        · exact fresh frame same
        · exact offering other frame same
      cases enters entered with
      | waits => exact ⟨claimed, offering⟩
      | offers frame =>
          exact ⟨claimed, turned fun other same => (by cases same; exact here frame rfl)⟩
      | claims frame stood =>
          refine ⟨fun other member => ?_, turned nofun⟩
          rcases List.mem_append.mp member with earlier | last
          · exact claimed other earlier
          · cases List.mem_singleton.mp last
            exact offering party frame stood
      | asks | settles | refuses | takes | gives | misses => exact ⟨claimed, turned nofun⟩

/-! ### Who is given what -/

/-- The tickets each party was handed: in increasing order and before the one it holds, with the
frames it was given. -/
structure Receipts (ledger : Ledger Party Frame)
    (trace : List ((Party × TicketAction Frame) × TicketEvent Frame))
    (handed : Party → List Nat) : Prop where
  increasing : ∀ party, (handed party).Pairwise (· < ·)
  frames : ∀ party,
    (handed party).map (ledger.claimed[·]?) = (givenTo party trace).map some
  below : ∀ party, ∀ ticket ∈ handed party, ticket < ledger.taken
  before : ∀ party held, ledger.standing party = .holding held →
    held < ledger.taken ∧ ∀ ticket ∈ handed party, ticket < held
  within : ledger.taken ≤ ledger.claimed.length
  alone : ∀ receiver, (∀ entry ∈ trace, entry.2.given.isSome → entry.1.1 = receiver) →
    ledger.popped = handed receiver

variable {ledger next : Ledger Party Frame} {party : Party} {action : TicketAction Frame}
  {event : TicketEvent Frame} {handed : Party → List Nat}
  {trace : List ((Party × TicketAction Frame) × TicketEvent Frame)}

omit [DecidableEq Frame] in
theorem givenTo_snoc (other : Party) :
    givenTo other (trace ++ [((party, action), event)]) =
      givenTo other trace ++ if party = other then event.given.toList else [] := by
  rw [givenTo, List.filter_append, List.filterMap_append]
  by_cases same : party = other
  · have kept : [((party, action), event)].filter (fun entry => decide (entry.1.1 = other)) =
        [((party, action), event)] := List.filter_eq_self.mpr fun entry member => by
      cases List.mem_singleton.mp member
      exact decide_eq_true same
    rw [kept, if_pos same, filterMap_cons_toList, List.filterMap_nil, List.append_nil]
    rfl
  · have dropped : [((party, action), event)].filter (fun entry => decide (entry.1.1 = other)) =
        [] := List.filter_eq_nil_iff.mpr fun entry member => by
      cases List.mem_singleton.mp member
      exact fun claimed => same (of_decide_eq_true claimed)
    rw [dropped, if_neg same]
    rfl

section

variable (receipts : Receipts ledger trace handed)

include receipts

omit [DecidableEq Frame] in
/-- Frames claimed later leave the frames of earlier tickets. -/
theorem Receipts.frames_append (more : List Frame) (party : Party) :
    (handed party).map ((ledger.claimed ++ more)[·]?) = (givenTo party trace).map some := by
  rw [← receipts.frames party]
  refine List.map_congr_left fun ticket member => ?_
  have inside := Nat.lt_of_lt_of_le (receipts.below party ticket member) receipts.within
  exact List.getElem?_append_left inside

omit [DecidableEq Frame] in
/-- A step that gives nothing; what is held after it was held before, or is taken by it. -/
theorem Receipts.keep (quiet : event.given = none) (more : List Frame)
    (claimed : next.claimed = ledger.claimed ++ more) (popped : next.popped = ledger.popped)
    (taken : ledger.taken ≤ next.taken) (within : next.taken ≤ next.claimed.length)
    (holds : ∀ other held, next.standing other = .holding held →
      ledger.standing other = .holding held ∨ (ledger.taken ≤ held ∧ held < next.taken)) :
    Receipts next (trace ++ [((party, action), event)]) handed where
  increasing := receipts.increasing
  frames other := by
    have same : givenTo other (trace ++ [((party, action), event)]) = givenTo other trace := by
      rw [givenTo_snoc, quiet, Option.toList_none, ite_self, List.append_nil]
    rw [same, claimed]
    exact receipts.frames_append more other
  below other ticket member := Nat.lt_of_lt_of_le (receipts.below other ticket member) taken
  before other held holding := by
    rcases holds other held holding with earlier | ⟨fresh, inside⟩
    · obtain ⟨low, later⟩ := receipts.before other held earlier
      exact ⟨Nat.lt_of_lt_of_le low taken, later⟩
    · exact ⟨inside, fun ticket member =>
        Nat.lt_of_lt_of_le (receipts.below other ticket member) fresh⟩
  within := within
  alone receiver only := popped.trans (receipts.alone receiver fun entry member =>
    only entry (List.mem_append_left _ member))

omit [DecidableEq Frame] in
/-- A party is given the frame of the ticket it holds. -/
theorem Receipts.give {ticket : Nat} {frame : Frame}
    (here : ledger.standing party = .holding ticket) (found : ledger.claimed[ticket]? = some frame) :
    Receipts ({ ledger with popped := ledger.popped ++ [ticket] }.turn party .idle)
      (trace ++ [((party, action), .popped frame)])
      (Function.update handed party (handed party ++ [ticket])) where
  increasing other := by
    rw [Function.update_apply]
    split
    · refine List.pairwise_append.mpr ⟨receipts.increasing party, List.pairwise_singleton _ _,
        fun earlier member last single => ?_⟩
      rw [List.mem_singleton.mp single]
      exact (receipts.before party ticket here).2 earlier member
    · exact receipts.increasing other
  frames other := by
    rw [givenTo_snoc, Function.update_apply]
    by_cases same : other = party
    · rw [if_pos same, if_pos same.symm, List.map_append, List.map_append, same,
        ← receipts.frames party]
      exact congrArg (_ ++ [·]) found
    · rw [if_neg same, if_neg (Ne.symm same), List.append_nil]
      exact receipts.frames other
  below other earlier member := by
    rw [Function.update_apply] at member
    split at member
    · rcases List.mem_append.mp member with old | last
      · exact receipts.below party earlier old
      · rw [List.mem_singleton.mp last]
        exact (receipts.before party ticket here).1
    · exact receipts.below other earlier member
  before other held holding := by
    have standing : Function.update ledger.standing party .idle other = .holding held := holding
    rw [Function.update_apply] at standing
    split at standing
    · cases standing
    · rename_i apart
      rw [Function.update_of_ne apart]
      exact receipts.before other held standing
  within := receipts.within
  alone receiver only := by
    have mine : party = receiver := only _ (List.mem_append_right _ List.mem_cons_self) rfl
    have earlier := receipts.alone receiver fun entry member =>
      only entry (List.mem_append_left _ member)
    cases mine
    rw [Function.update_self, ← earlier]
    rfl

end

section

variable (reached : (empty : Ledger Party Frame).run capacity trace = some final)

include reached

/-- Every party is handed tickets in increasing order. -/
theorem receipts :
    ∃ handed, Receipts final trace handed := by
  induction trace using List.reverseRecOn generalizing final with
  | nil =>
      cases reached
      refine ⟨fun _ => [], fun _ => List.Pairwise.nil, fun _ => rfl, fun _ _ absent => ?_,
        fun _ _ impossible => ?_, Nat.le_refl _, fun _ _ => rfl⟩
      · cases absent
      · cases impossible
  | append_singleton trace entry ih =>
      obtain ⟨⟨party, action⟩, event⟩ := entry
      obtain ⟨middle, sofar, entered⟩ := run_snoc reached
      obtain ⟨handed, receipts⟩ := ih sofar
      have turned : ∀ {standing : Standing Frame}, (∀ held, standing ≠ .holding held) →
          ∀ other held, Function.update middle.standing party standing other = .holding held →
            middle.standing other = .holding held ∨
              (middle.taken ≤ held ∧ held < middle.taken) := by
        intro standing free other held same
        rw [Function.update_apply] at same
        split at same
        · exact absurd same (free held)
        · exact .inl same
      have still := List.append_nil middle.claimed
      cases enters entered with
      | waits =>
          exact ⟨handed, receipts.keep rfl [] still.symm rfl (Nat.le_refl _) receipts.within
            fun _ _ => .inl⟩
      | offers | asks =>
          exact ⟨handed, receipts.keep rfl [] still.symm rfl (Nat.le_refl _) receipts.within
            (turned nofun)⟩
      | claims frame =>
          have within : middle.taken ≤ (middle.claimed ++ [frame]).length := by
            rw [List.length_append]
            exact Nat.le_add_right_of_le receipts.within
          exact ⟨handed, receipts.keep rfl [frame] rfl rfl (Nat.le_refl _) within (turned nofun)⟩
      | settles | refuses =>
          exact ⟨handed, receipts.keep rfl [] still.symm rfl (Nat.le_refl _) receipts.within
            (turned nofun)⟩
      | takes here more =>
          refine ⟨handed, receipts.keep rfl [] still.symm rfl (Nat.le_succ _) more
            fun other held same => ?_⟩
          have same : Function.update middle.standing party (.holding middle.taken) other =
            .holding held := same
          rw [Function.update_apply] at same
          split at same
          · cases same
            exact .inr ⟨Nat.le_refl _, Nat.lt_succ_self _⟩
          · exact .inl same
      | gives ticket frame here found => exact ⟨_, receipts.give here found⟩
      | misses =>
          exact ⟨handed, receipts.keep rfl [] still.symm rfl (Nat.le_refl _) receipts.within
            (turned nofun)⟩

/-! ### One receiver -/

/-- A party that never pops asks for nothing and holds nothing. -/
theorem idle_of_never_pops (never : ∀ entry ∈ trace, entry.1.2 = .pop → entry.1.1 ≠ party) :
    final.standing party ≠ .asking ∧ ∀ held, final.standing party ≠ .holding held := by
  induction trace using List.reverseRecOn generalizing final with
  | nil =>
      cases reached
      exact ⟨nofun, nofun⟩
  | append_singleton trace entry ih =>
      obtain ⟨⟨other, action⟩, event⟩ := entry
      obtain ⟨middle, sofar, entered⟩ := run_snoc reached
      obtain ⟨asking, holding⟩ := ih sofar fun entry member =>
        never entry (List.mem_append_left _ member)
      have turned : ∀ {standing : Standing Frame},
          (party = other → standing ≠ .asking ∧ ∀ held, standing ≠ .holding held) →
            Function.update middle.standing other standing party ≠ .asking ∧
              ∀ held, Function.update middle.standing other standing party ≠ .holding held := by
        intro standing free
        rw [Function.update_apply]
        split
        · rename_i same
          exact free same
        · exact ⟨asking, holding⟩
      cases enters entered with
      | waits => exact ⟨asking, holding⟩
      | offers => exact turned fun _ => ⟨nofun, nofun⟩
      | asks =>
          exact turned fun same =>
            absurd same.symm (never _ (List.mem_append_right _ List.mem_cons_self) rfl)
      | claims | settles | refuses => exact turned fun _ => ⟨nofun, nofun⟩
      | takes here => exact turned fun same => absurd (same ▸ here) asking
      | gives | misses => exact turned fun _ => ⟨nofun, nofun⟩

/-- Frames are given to parties that pop. -/
theorem given_to_popper {receiver : Party}
    (only : ∀ entry ∈ trace, entry.1.2 = .pop → entry.1.1 = receiver) :
    ∀ entry ∈ trace, entry.2.given.isSome → entry.1.1 = receiver := by
  induction trace using List.reverseRecOn generalizing final with
  | nil => exact fun _ absent => (by cases absent)
  | append_singleton trace entry ih =>
      obtain ⟨⟨party, action⟩, event⟩ := entry
      obtain ⟨middle, sofar, entered⟩ := run_snoc reached
      have earlier := fun entry member => only entry (List.mem_append_left _ member)
      intro entry member gives
      rcases List.mem_append.mp member with before | last
      · exact ih sofar earlier entry before gives
      · cases List.mem_singleton.mp last
        cases enters entered with
        | gives ticket frame here =>
            by_contra apart
            refine (idle_of_never_pops sofar fun entry member pops => ?_).2 ticket here
            rw [earlier entry member pops]
            exact Ne.symm apart
        | _ => cases gives

/-- The frames given are those of the tickets handed back, in the order they were. -/
theorem given_of_popped :
    final.popped.map (final.claimed[·]?) = (trace.filterMap (·.2.given)).map some := by
  obtain ⟨-, tickets, popped, given⟩ := run_frames reached
  rw [popped]
  exact given

/-- A party that alone pops is given the frames in the order they were claimed. -/
theorem given_prefix {receiver : Party}
    (only : ∀ entry ∈ trace, entry.1.2 = .pop → entry.1.1 = receiver) :
    trace.filterMap (·.2.given) <+: final.claimed := by
  obtain ⟨handed, receipts⟩ := receipts reached
  have accounted := Ledger.accounted accounted_empty reached
  have mine := receipts.alone receiver (given_to_popper reached only)
  have others : ∀ party held, final.standing party = .holding held → party = receiver := by
    intro party held holding
    by_contra apart
    refine (idle_of_never_pops reached fun entry member pops => ?_).2 held holding
    rw [only entry member pops]
    exact Ne.symm apart
  obtain ⟨count, whole⟩ : ∃ count, ∀ ticket, ticket ∈ final.popped ↔ ticket < count := by
    by_cases held : ∃ ticket, final.standing receiver = .holding ticket
    · obtain ⟨held, holding⟩ := held
      refine ⟨held, fun ticket => ⟨fun member => ?_, fun less => ?_⟩⟩
      · exact (receipts.before receiver held holding).2 ticket (mine ▸ member)
      · have inside := Nat.lt_trans less (receipts.before receiver held holding).1
        refine ((accounted.whole ticket).mp inside).resolve_right ?_
        rintro ⟨party, same⟩
        cases others party ticket same
        cases holding.symm.trans same
        exact Nat.lt_irrefl _ less
    · refine ⟨final.taken, fun ticket => ⟨fun member => ?_, fun less => ?_⟩⟩
      · exact (accounted.whole ticket).mpr (.inl member)
      · refine ((accounted.whole ticket).mp less).resolve_right ?_
        rintro ⟨party, same⟩
        exact held ⟨ticket, others party ticket same ▸ same⟩
  have range : final.popped = List.range count :=
    (mine ▸ receipts.increasing receiver : final.popped.Pairwise (· < ·)).eq_of_mem_iff
      List.pairwise_lt_range fun ticket => (whole ticket).trans List.mem_range.symm
  have given := given_of_popped reached
  have taken : trace.filterMap (·.2.given) = final.claimed.take count := by
    refine List.map_injective_iff.mpr (Option.some_injective _) (given.symm.trans ?_)
    have within : count ≤ final.claimed.length := by
      cases count with
      | zero => exact Nat.zero_le _
      | succ last =>
          have popped := (whole last).mpr (Nat.lt_succ_self last)
          exact Nat.lt_of_lt_of_le ((accounted.whole last).mpr (.inl popped)) accounted.within
    rw [range]
    refine List.ext_getElem? fun index => ?_
    rw [List.getElem?_map, List.getElem?_map, List.getElem?_take]
    by_cases inside : index < count
    · rw [List.getElem?_range inside, if_pos inside, Option.map_some,
        List.getElem?_eq_getElem (Nat.lt_of_lt_of_le inside within)]
      rfl
    · rw [List.getElem?_eq_none (by rw [List.length_range]; exact Nat.not_lt.mp inside),
        if_neg inside]
      rfl
  rw [taken]
  exact List.take_prefix _ _

/-- Once every claimed frame is taken and nobody holds one, all were given. -/
theorem given_perm (free : ∀ party held, final.standing party ≠ .holding held)
    (drained : final.taken = final.claimed.length) :
    (trace.filterMap (·.2.given)).Perm final.claimed := by
  have accounted := Ledger.accounted accounted_empty reached
  have range : final.popped.Perm (List.range final.claimed.length) := by
    refine (List.perm_ext_iff_of_nodup accounted.once List.nodup_range).mpr fun ticket => ?_
    rw [List.mem_range, ← drained, accounted.whole]
    exact (or_iff_left fun ⟨party, holding⟩ => free party ticket holding).symm
  have whole : (List.range final.claimed.length).map (final.claimed[·]?) =
      final.claimed.map some := by
    refine List.ext_getElem? fun index => ?_
    rw [List.getElem?_map, List.getElem?_map]
    by_cases inside : index < final.claimed.length
    · rw [List.getElem?_range inside, Option.map_some, List.getElem?_eq_getElem inside]
      rfl
    · rw [List.getElem?_eq_none (by rw [List.length_range]; exact Nat.not_lt.mp inside),
        List.getElem?_eq_none (Nat.not_lt.mp inside)]
      rfl
  have frames := range.map (final.claimed[·]?)
  rw [given_of_popped reached, whole] at frames
  have back := frames.filterMap id
  rwa [List.filterMap_map, List.filterMap_map, Function.id_comp, List.filterMap_some,
    List.filterMap_some] at back

end

/-! ### Who claimed -/

/-- What a party has sent: the frames of its pushes that returned, in order, and the frame of the
push it is in. -/
structure Sending (Frame : Type*) where
  sent : List Frame
  held : Option Frame

def Sending.after (sending : Sending Frame) : TicketAction Frame → TicketEvent Frame → Sending Frame
  | .push frame, _ => ⟨sending.sent, some frame⟩
  | _, .pushed => ⟨sending.sent ++ sending.held.toList, none⟩
  | _, .full => ⟨sending.sent, none⟩
  | _, _ => sending

def sending (party : Party) (trace : List ((Party × TicketAction Frame) × TicketEvent Frame)) :
    Sending Frame :=
  (trace.filter fun entry => entry.1.1 = party).foldl
    (fun sending entry => sending.after entry.1.2 entry.2) ⟨[], none⟩

/-- The frames of a party's pushes that returned, in the order they were made. -/
def sentBy (party : Party) (trace : List ((Party × TicketAction Frame) × TicketEvent Frame)) :
    List Frame := (sending party trace).sent

/-- The frames a party claimed positions for. -/
def claimedBy (party : Party) (trace : List ((Party × TicketAction Frame) × TicketEvent Frame)) :
    List Frame := (trace.filter fun entry => entry.1.1 = party).filterMap (·.2.offered)

omit [DecidableEq Frame] in
theorem sending_snoc :
    sending party (trace ++ [((party, action), event)]) =
      (sending party trace).after action event := by
  simp [sending, List.filter_append]

omit [DecidableEq Frame] in
theorem claimedBy_snoc :
    claimedBy party (trace ++ [((party, action), event)]) =
      claimedBy party trace ++ event.offered.toList := by
  cases event <;> simp [claimedBy, List.filter_append, TicketEvent.offered]

omit [DecidableEq Frame] in
/-- The steps of others change neither. -/
theorem snoc_of_ne {other : Party} (apart : other ≠ party) :
    sending party (trace ++ [((other, action), event)]) = sending party trace ∧
      claimedBy party (trace ++ [((other, action), event)]) = claimedBy party trace := by
  simp [sending, claimedBy, List.filter_append, apart]

/-- Where a party stands, what it has claimed and what it has sent: its claim comes before the
return of its push. -/
def Sends (sending : Sending Frame) (claimed : List Frame) : Standing Frame → Prop
  | .offering frame => claimed = sending.sent ∧ sending.held = some frame
  | .placed => claimed = sending.sent ++ sending.held.toList
  | .idle | .asking | .holding _ => claimed = sending.sent

/-- The frames a party claimed are those of its pushes that returned, and that of one which is
still under way. -/
theorem sends (reached : (empty : Ledger Party Frame).run capacity trace = some final)
    (party : Party) :
    Sends (sending party trace) (claimedBy party trace) (final.standing party) := by
  induction trace using List.reverseRecOn generalizing final with
  | nil =>
      cases reached
      rfl
  | append_singleton trace entry ih =>
      obtain ⟨⟨other, action⟩, event⟩ := entry
      obtain ⟨middle, sofar, entered⟩ := run_snoc reached
      have earlier := ih sofar
      by_cases mine : other = party
      · subst mine
        rw [sending_snoc, claimedBy_snoc]
        cases enters entered with
        | waits action quiet =>
            cases action with
            | push frame => exact absurd rfl (quiet frame)
            | pop | step | spurious => simpa [Sending.after, TicketEvent.offered] using earlier
        | claims frame here | refuses frame here =>
            rw [here] at earlier
            simp [turn, Sends, Sending.after, TicketEvent.offered, earlier.1, earlier.2]
        | offers frame here | asks here | settles here | takes here | gives _ _ here | misses here =>
            rw [here] at earlier
            simpa [turn, Sends, Sending.after, TicketEvent.offered] using earlier
      · obtain ⟨same, sameClaims⟩ := @snoc_of_ne _ _ _ party action event trace other mine
        have away : ∀ standing, Function.update middle.standing other standing party =
            middle.standing party := fun standing => Function.update_of_ne (Ne.symm mine) _ _
        rw [same, sameClaims]
        cases enters entered <;> simpa [turn, away] using earlier

/-- A party outside of its pushes has claimed just the frames of those that returned. -/
theorem settled (reached : (empty : Ledger Party Frame).run capacity trace = some final)
    (idle : final.standing party = .idle) : claimedBy party trace = sentBy party trace := by
  have sends := sends reached party
  rwa [idle] at sends

end Ledger

end Hyperloader.Foundations
