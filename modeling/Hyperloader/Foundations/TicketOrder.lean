/-
Module: Hyperloader.Foundations.TicketOrder
Purpose: The shared queue counted in natural numbers: the relation between its counters, its
  slots and its parties that every step keeps, and the ledger every run can be entered in.
Trusted boundary: none
Main exports: Counting.tickets, TicketQueue.Sound, TicketQueue.Sound.step,
  TicketQueue.vacantQueue
-/
import Hyperloader.Foundations.TicketQueue

namespace Hyperloader.Foundations

/-- Counting in natural numbers, with any order between a sequence and another ticket. -/
def Counting.tickets (capacity : Nat) (behind : Nat → Nat → Bool) : Counting Nat where
  next ticket := ticket + 1
  lap ticket := ticket + capacity
  place ticket := ticket % capacity
  difference sequence ticket :=
    if sequence = ticket then .eq else if behind sequence ticket then .lt else .gt

namespace TicketPhase

variable {Counter Frame : Type*}

/-- What a party in this phase is owed. -/
def standing : TicketPhase Nat Frame → Standing Frame
  | .idle => .idle
  | .pushLoad frame => .offering frame
  | .pushSequence frame _ => .offering frame
  | .pushExchange frame _ => .offering frame
  | .pushFull frame _ => .offering frame
  | .pushWrite _ _ => .placed
  | .pushPublish _ => .placed
  | .popLoad => .asking
  | .popSequence _ => .asking
  | .popExchange _ => .asking
  | .popEmpty _ => .asking
  | .popRead ticket => .holding ticket
  | .popRelease ticket _ => .holding ticket

/-- The position claimed by a push that has not published it. -/
def claim : TicketPhase Counter Frame → Option Counter
  | .pushWrite _ position => some position
  | .pushPublish position => some position
  | _ => none

/-- The position taken by a pop that has not released it. -/
def take : TicketPhase Counter Frame → Option Counter
  | .popRead position => some position
  | .popRelease position _ => some position
  | _ => none

/-- The position whose slot a party owns, until it stores the next sequence there. -/
def owned (phase : TicketPhase Counter Frame) : Option Counter := phase.claim <|> phase.take

theorem owned_eq_some {phase : TicketPhase Counter Frame} {position : Counter} :
    phase.owned = some position ↔ phase.claim = some position ∨ phase.take = some position := by
  cases phase <;> simp [owned, claim, take]

end TicketPhase

/-- Two tickets less than a lap apart with one place are the same. -/
theorem ticket_eq_of_place {capacity one two : Nat} (near : one < two + capacity)
    (close : two < one + capacity) (same : one % capacity = two % capacity) : one = two := by
  rcases Nat.le_total one two with le | le
  · have multiple := Nat.dvd_of_mod_eq_zero (Nat.sub_mod_eq_zero_of_mod_eq same.symm)
    have none := Nat.eq_zero_of_dvd_of_lt multiple (by omega)
    omega
  · have multiple := Nat.dvd_of_mod_eq_zero (Nat.sub_mod_eq_zero_of_mod_eq same)
    have none := Nat.eq_zero_of_dvd_of_lt multiple (by omega)
    omega

/-- Every place has a ticket in the lap from `base` on. -/
theorem exists_ticket {capacity : Nat} (positive : 0 < capacity) (base place : Nat)
    (inside : place < capacity) :
    ∃ ticket, base ≤ ticket ∧ ticket < base + capacity ∧ ticket % capacity = place := by
  have split := Nat.div_add_mod base capacity
  have small := Nat.mod_lt base positive
  by_cases early : base % capacity ≤ place
  · refine ⟨capacity * (base / capacity) + place, by omega, by omega, ?_⟩
    rw [Nat.mul_add_mod, Nat.mod_eq_of_lt inside]
  · refine ⟨capacity * (base / capacity) + capacity + place, by omega, by omega, ?_⟩
    rw [Nat.add_assoc, Nat.mul_add_mod, Nat.add_mod_left, Nat.mod_eq_of_lt inside]

namespace TicketQueue

variable {Party Frame : Type*}

/-- What a party remembers of the queue: a position it read is not past the counter, and one
whose slot it saw ready still is, if the counter has not moved. -/
def Remembers (capacity : Nat) (claimed : List Frame) (queue : TicketQueue Party Nat Frame) :
    TicketPhase Nat Frame → Prop
  | .pushSequence _ ticket => ticket ≤ queue.enqueue
  | .pushFull _ ticket => ticket ≤ queue.enqueue
  | .pushExchange _ ticket => ticket ≤ queue.enqueue ∧
      (queue.enqueue ≤ ticket → (queue.slots (ticket % capacity)).sequence = ticket)
  | .pushWrite frame ticket => claimed[ticket]? = some frame
  | .pushPublish ticket => claimed[ticket]? = some (queue.slots (ticket % capacity)).frame
  | .popSequence ticket => ticket ≤ queue.dequeue
  | .popEmpty ticket => ticket ≤ queue.dequeue
  | .popExchange ticket => ticket ≤ queue.dequeue ∧
      (queue.dequeue ≤ ticket → (queue.slots (ticket % capacity)).sequence = ticket + 1)
  | .popRead ticket => claimed[ticket]? = some (queue.slots (ticket % capacity)).frame
  | .popRelease ticket frame => claimed[ticket]? = some frame
  | _ => True

/-- The queue and its ledger.  Of the lap that starts at the next ticket to take, the slots
of the tickets claimed are being written or published, and those of the others are vacant
or still being read. -/
structure Sound (capacity : Nat) (ledger : Ledger Party Frame)
    (queue : TicketQueue Party Nat Frame) : Prop where
  enqueued : queue.enqueue = ledger.claimed.length
  dequeued : queue.dequeue = ledger.taken
  ordered : queue.dequeue ≤ queue.enqueue
  bounded : queue.enqueue ≤ queue.dequeue + capacity
  waiting : ∀ ticket, queue.dequeue ≤ ticket → ticket < queue.enqueue →
    ((∃ party, (queue.phase party).claim = some ticket) ∧
      (queue.slots (ticket % capacity)).sequence = ticket) ∨
    ((queue.slots (ticket % capacity)).sequence = ticket + 1 ∧
      ledger.claimed[ticket]? = some (queue.slots (ticket % capacity)).frame)
  vacant : ∀ ticket, queue.enqueue ≤ ticket → ticket < queue.dequeue + capacity →
    (queue.slots (ticket % capacity)).sequence = ticket ∨
    ∃ party old, (queue.phase party).take = some old ∧ old + capacity = ticket ∧
      (queue.slots (ticket % capacity)).sequence = old + 1
  claims : ∀ party ticket, (queue.phase party).claim = some ticket →
    queue.dequeue ≤ ticket ∧ ticket < queue.enqueue ∧
      (queue.slots (ticket % capacity)).sequence = ticket
  takes : ∀ party ticket, (queue.phase party).take = some ticket →
    ticket < queue.dequeue ∧ queue.enqueue ≤ ticket + capacity ∧
      (queue.slots (ticket % capacity)).sequence = ticket + 1
  soleClaim : ∀ one two ticket, (queue.phase one).claim = some ticket →
    (queue.phase two).claim = some ticket → one = two
  soleTake : ∀ one two ticket, (queue.phase one).take = some ticket →
    (queue.phase two).take = some ticket → one = two
  remembers : ∀ party, queue.Remembers capacity ledger.claimed (queue.phase party)
  stands : ∀ party, ledger.standing party = (queue.phase party).standing

/-! ### Phases -/

section Phases

variable [DecidableEq Party] {queue : TicketQueue Party Nat Frame} {party : Party}

theorem phase_turn (phase : TicketPhase Nat Frame) (other : Party) :
    (queue.turn party phase).phase other =
      if other = party then phase else queue.phase other :=
  Function.update_apply ..

variable {phase : TicketPhase Nat Frame}

theorem claim_turn {other : Party} {ticket : Nat} :
    ((queue.turn party phase).phase other).claim = some ticket ↔
      (other = party ∧ phase.claim = some ticket) ∨
        (other ≠ party ∧ (queue.phase other).claim = some ticket) := by
  rw [phase_turn]
  by_cases same : other = party <;> simp [same]

theorem take_turn {other : Party} {ticket : Nat} :
    ((queue.turn party phase).phase other).take = some ticket ↔
      (other = party ∧ phase.take = some ticket) ∨
        (other ≠ party ∧ (queue.phase other).take = some ticket) := by
  rw [phase_turn]
  by_cases same : other = party <;> simp [same]

/-- Claims stay apart where a turn claims what no other party has. -/
theorem soleClaim_turn (sole : ∀ one two ticket, (queue.phase one).claim = some ticket →
      (queue.phase two).claim = some ticket → one = two)
    (fresh : ∀ ticket, phase.claim = some ticket → ∀ other, other ≠ party →
      (queue.phase other).claim ≠ some ticket) :
    ∀ one two ticket, ((queue.turn party phase).phase one).claim = some ticket →
      ((queue.turn party phase).phase two).claim = some ticket → one = two := by
  intro one two ticket first second
  rcases claim_turn.mp first with ⟨rfl, same⟩ | ⟨differs, old⟩
  · rcases claim_turn.mp second with ⟨rfl, -⟩ | ⟨other, old⟩
    · rfl
    · exact absurd old (fresh ticket same two other)
  · rcases claim_turn.mp second with ⟨rfl, same⟩ | ⟨-, other⟩
    · exact absurd old (fresh ticket same one differs)
    · exact sole one two ticket old other

theorem soleTake_turn (sole : ∀ one two ticket, (queue.phase one).take = some ticket →
      (queue.phase two).take = some ticket → one = two)
    (fresh : ∀ ticket, phase.take = some ticket → ∀ other, other ≠ party →
      (queue.phase other).take ≠ some ticket) :
    ∀ one two ticket, ((queue.turn party phase).phase one).take = some ticket →
      ((queue.turn party phase).phase two).take = some ticket → one = two := by
  intro one two ticket first second
  rcases take_turn.mp first with ⟨rfl, same⟩ | ⟨differs, old⟩
  · rcases take_turn.mp second with ⟨rfl, -⟩ | ⟨other, old⟩
    · rfl
    · exact absurd old (fresh ticket same two other)
  · rcases take_turn.mp second with ⟨rfl, same⟩ | ⟨-, other⟩
    · exact absurd old (fresh ticket same one differs)
    · exact sole one two ticket old other

end Phases

/-! ### Slots -/

section Slots

variable {queue : TicketQueue Party Nat Frame} {place other : Nat}

theorem turn_slots [DecidableEq Party] (party : Party) (phase : TicketPhase Nat Frame) :
    (queue.turn party phase).slots = queue.slots := rfl

theorem write_sequence (frame : Frame) :
    ((queue.write place frame).slots other).sequence = (queue.slots other).sequence := by
  show (Function.update queue.slots place _ other).sequence = _
  rw [Function.update_apply]
  split
  · rename_i same
    rw [same]
  · rfl

theorem write_self (frame : Frame) : ((queue.write place frame).slots place).frame = frame := by
  show (Function.update queue.slots place _ place).frame = _
  rw [Function.update_self]

theorem write_of_ne (differs : other ≠ place) (frame : Frame) :
    (queue.write place frame).slots other = queue.slots other :=
  Function.update_of_ne differs ..

theorem store_frame (sequence : Nat) :
    ((queue.store place sequence).slots other).frame = (queue.slots other).frame := by
  show (Function.update queue.slots place _ other).frame = _
  rw [Function.update_apply]
  split
  · rename_i same
    rw [same]
  · rfl

theorem store_self (sequence : Nat) :
    ((queue.store place sequence).slots place).sequence = sequence := by
  show (Function.update queue.slots place _ place).sequence = _
  rw [Function.update_self]

theorem store_of_ne (differs : other ≠ place) (sequence : Nat) :
    (queue.store place sequence).slots other = queue.slots other :=
  Function.update_of_ne differs ..

end Slots

/-! ### Slots apart -/

section Apart

variable {capacity : Nat} {ledger : Ledger Party Frame} {queue : TicketQueue Party Nat Frame}

/-- Successive tickets have different places. -/
theorem place_succ_ne (wide : 2 ≤ capacity) (ticket : Nat) :
    (ticket + 1) % capacity ≠ ticket % capacity := by
  intro same
  have equal := @ticket_eq_of_place capacity (ticket + 1) ticket (by omega) (by omega) same
  omega

variable {one two : Party} {first second : Nat}

section

variable (sound : Sound capacity ledger queue)

include sound

/-- Two pushes that have claimed positions have claimed different slots. -/
theorem Sound.claims_apart (claimOne : (queue.phase one).claim = some first)
    (claimTwo : (queue.phase two).claim = some second)
    (place : first % capacity = second % capacity) : one = two := by
  obtain ⟨lowOne, highOne, -⟩ := sound.claims one first claimOne
  obtain ⟨lowTwo, highTwo, -⟩ := sound.claims two second claimTwo
  have bounded := sound.bounded
  have equal := ticket_eq_of_place (by omega) (by omega) place
  exact sound.soleClaim one two first claimOne (equal ▸ claimTwo)

/-- Two pops that have taken positions have taken different slots. -/
theorem Sound.takes_apart (takeOne : (queue.phase one).take = some first)
    (takeTwo : (queue.phase two).take = some second) (place : first % capacity = second % capacity) :
    one = two := by
  obtain ⟨lowOne, highOne, -⟩ := sound.takes one first takeOne
  obtain ⟨lowTwo, highTwo, -⟩ := sound.takes two second takeTwo
  have ordered := sound.ordered
  have equal := ticket_eq_of_place (by omega) (by omega) place
  exact sound.soleTake one two first takeOne (equal ▸ takeTwo)

/-- A slot claimed for a push is not taken by a pop. -/
theorem Sound.claim_take_apart (wide : 2 ≤ capacity)
    (claimed : (queue.phase one).claim = some first) (taken : (queue.phase two).take = some second) :
    first % capacity ≠ second % capacity := by
  intro place
  have writing := (sound.claims one first claimed).2.2
  have reading := (sound.takes two second taken).2.2
  rw [place, reading] at writing
  exact place_succ_ne wide second (writing ▸ place)

/-- Two parties own different slots. -/
theorem Sound.owned_apart (wide : 2 ≤ capacity) (ownOne : (queue.phase one).owned = some first)
    (ownTwo : (queue.phase two).owned = some second) (place : first % capacity = second % capacity) :
    one = two := by
  rcases TicketPhase.owned_eq_some.mp ownOne with claimOne | takeOne
  · rcases TicketPhase.owned_eq_some.mp ownTwo with claimTwo | takeTwo
    · exact sound.claims_apart claimOne claimTwo place
    · exact absurd place (sound.claim_take_apart wide claimOne takeTwo)
  · rcases TicketPhase.owned_eq_some.mp ownTwo with claimTwo | takeTwo
    · exact absurd place.symm (sound.claim_take_apart wide claimTwo takeOne)
    · exact sound.takes_apart takeOne takeTwo place

end

end Apart

/-! ### Turns -/

section Turns

variable [DecidableEq Party] {capacity : Nat} {ledger : Ledger Party Frame}
  {queue : TicketQueue Party Nat Frame} {party : Party} {phase before : TicketPhase Nat Frame}

/-- A party that claims and takes as before may stand differently. -/
theorem Sound.turn (sound : Sound capacity ledger queue) (phase : TicketPhase Nat Frame)
    (here : queue.phase party = before) (claim : phase.claim = before.claim)
    (take : phase.take = before.take)
    (remembers : queue.Remembers capacity ledger.claimed phase) :
    Sound capacity (ledger.turn party phase.standing) (queue.turn party phase) := by
  subst here
  have claims : ∀ other, ((queue.turn party phase).phase other).claim =
      (queue.phase other).claim := by
    intro other
    rw [phase_turn]
    split
    · rename_i same
      rw [claim, same]
    · rfl
  have takes : ∀ other, ((queue.turn party phase).phase other).take =
      (queue.phase other).take := by
    intro other
    rw [phase_turn]
    split
    · rename_i same
      rw [take, same]
    · rfl
  constructor
  case enqueued => exact sound.enqueued
  case dequeued => exact sound.dequeued
  case ordered => exact sound.ordered
  case bounded => exact sound.bounded
  case waiting => simp only [claims]; exact sound.waiting
  case vacant => simp only [takes]; exact sound.vacant
  case claims => simp only [claims]; exact sound.claims
  case takes => simp only [takes]; exact sound.takes
  case soleClaim => simp only [claims]; exact sound.soleClaim
  case soleTake => simp only [takes]; exact sound.soleTake
  case remembers =>
    intro other
    rw [phase_turn]
    split
    · exact remembers
    · exact sound.remembers other
  case stands =>
    intro other
    rw [phase_turn, Ledger.standing_turn]
    split
    · rfl
    · exact sound.stands other

/-- A party that stands as before changes nothing in the ledger. -/
theorem Sound.stay (sound : Sound capacity ledger queue) (here : queue.phase party = before)
    (claim : phase.claim = before.claim) (take : phase.take = before.take)
    (standing : phase.standing = before.standing)
    (remembers : queue.Remembers capacity ledger.claimed phase) :
    Sound capacity ledger (queue.turn party phase) := by
  subst here
  have turned := sound.turn phase rfl claim take remembers
  have same : ledger.turn party phase.standing = ledger := by
    have here := (sound.stands party).trans standing.symm
    rw [Ledger.turn, ← here, Function.update_eq_self]
  rw [same] at turned
  exact turned

end Turns

/-! ### Steps that change the queue -/

section Moves

variable [DecidableEq Party] {capacity : Nat} {ledger : Ledger Party Frame}
  {queue : TicketQueue Party Nat Frame} {party : Party}

variable {frame : Frame}

section

variable (sound : Sound capacity ledger queue)

include sound

/-- A push that finds the counter where it saw its slot ready claims the position. -/
theorem Sound.claim (wide : 2 ≤ capacity)
    (here : queue.phase party = .pushExchange frame queue.enqueue) :
    queue.enqueue < queue.dequeue + capacity ∧
    Sound capacity ({ ledger with claimed := ledger.claimed ++ [frame] }.turn party .placed)
      ({ queue with enqueue := queue.enqueue + 1 }.turn party
        (.pushWrite frame queue.enqueue)) := by
  have remembered := sound.remembers party
  rw [here] at remembered
  have ready : (queue.slots (queue.enqueue % capacity)).sequence = queue.enqueue :=
    remembered.2 (Nat.le_refl _)
  have ordered := sound.ordered
  have bounded := sound.bounded
  have room : queue.enqueue < queue.dequeue + capacity := by
    apply Nat.lt_of_le_of_ne bounded
    intro full
    have first := sound.waiting queue.dequeue (Nat.le_refl _) (by omega)
    have place : queue.dequeue % capacity = queue.enqueue % capacity := by
      rw [full, Nat.add_mod_right]
    rw [place, ready] at first
    rcases first with ⟨-, same⟩ | ⟨same, -⟩ <;> omega
  have unclaimed : (queue.phase party).claim = none := by rw [here]; rfl
  have untaken : (queue.phase party).take = none := by rw [here]; rfl
  have old : ∀ ticket < ledger.claimed.length,
      (ledger.claimed ++ [frame])[ticket]? = ledger.claimed[ticket]? :=
    fun ticket less => List.getElem?_append_left less
  have length := sound.enqueued
  refine ⟨room, ?_⟩
  constructor
  case enqueued =>
    show queue.enqueue + 1 = (ledger.claimed ++ [frame]).length
    rw [length, List.length_append, List.length_singleton]
  case dequeued => exact sound.dequeued
  case ordered => exact Nat.le_succ_of_le ordered
  case bounded => exact room
  case waiting =>
    intro ticket low high
    show _ ∨ _ ∧ (ledger.claimed ++ [frame])[ticket]? = _
    rcases Nat.lt_succ_iff_lt_or_eq.mp high with less | rfl
    · rw [old ticket (length ▸ less)]
      refine (sound.waiting ticket low less).imp_left fun ⟨⟨other, claimed⟩, sequence⟩ => ?_
      refine ⟨⟨other, claim_turn.mpr (Or.inr ⟨?_, claimed⟩)⟩, sequence⟩
      rintro rfl
      rw [unclaimed] at claimed
      cases claimed
    · exact Or.inl ⟨⟨party, claim_turn.mpr (Or.inl ⟨rfl, rfl⟩)⟩, ready⟩
  case vacant =>
    intro ticket low high
    refine (sound.vacant ticket (Nat.le_of_succ_le low) high).imp_right ?_
    rintro ⟨other, before, taken, same, sequence⟩
    refine ⟨other, before, take_turn.mpr (Or.inr ⟨?_, taken⟩), same, sequence⟩
    rintro rfl
    rw [untaken] at taken
    cases taken
  case claims =>
    intro other ticket claimed
    rcases claim_turn.mp claimed with ⟨-, same⟩ | ⟨-, claimed⟩
    · obtain rfl := Option.some.inj same
      exact ⟨ordered, Nat.lt_succ_self _, ready⟩
    · obtain ⟨low, high, sequence⟩ := sound.claims other ticket claimed
      exact ⟨low, Nat.lt_succ_of_lt high, sequence⟩
  case takes =>
    intro other ticket taken
    rcases take_turn.mp taken with ⟨-, none⟩ | ⟨-, taken⟩
    · cases none
    · obtain ⟨low, high, sequence⟩ := sound.takes other ticket taken
      refine ⟨low, Nat.lt_of_le_of_ne high fun same => ?_, sequence⟩
      rw [same, Nat.add_mod_right, sequence] at ready
      omega
  case soleClaim =>
    refine soleClaim_turn sound.soleClaim fun ticket same other _ claimed => ?_
    obtain rfl := Option.some.inj same
    exact Nat.lt_irrefl _ (sound.claims other _ claimed).2.1
  case soleTake => exact soleTake_turn sound.soleTake nofun
  case remembers =>
    intro other
    rw [phase_turn]
    split
    · show (ledger.claimed ++ [frame])[queue.enqueue]? = some frame
      rw [length, List.getElem?_concat_length]
    · have before := sound.remembers other
      have kept : ∀ {ticket : Nat} {value : Frame}, ledger.claimed[ticket]? = some value →
          (ledger.claimed ++ [frame])[ticket]? = some value := by
        intro ticket value found
        rw [old ticket (List.getElem?_eq_some_iff.mp found).1, found]
      cases phase : queue.phase other with
      | pushSequence _ _ | pushFull _ _ => rw [phase] at before; exact Nat.le_succ_of_le before
      | pushExchange _ ticket =>
          rw [phase] at before
          refine ⟨Nat.le_succ_of_le before.1, fun passed => ?_⟩
          exact absurd (Nat.lt_of_succ_le passed) (Nat.not_lt.mpr before.1)
      | pushWrite _ _ | pushPublish _ | popRead _ | popRelease _ _ =>
          rw [phase] at before; exact kept before
      | popSequence _ | popExchange _ | popEmpty _ => rw [phase] at before; exact before
      | idle | pushLoad _ | popLoad => trivial
  case stands =>
    intro other
    rw [phase_turn, Ledger.standing_turn]
    split
    · rfl
    · exact sound.stands other

/-- A pop that finds the counter where it saw its slot published takes the position. -/
theorem Sound.take (wide : 2 ≤ capacity) (here : queue.phase party = .popExchange queue.dequeue) :
    queue.dequeue < queue.enqueue ∧
    Sound capacity ({ ledger with taken := ledger.taken + 1 }.turn party (.holding ledger.taken))
      ({ queue with dequeue := queue.dequeue + 1 }.turn party (.popRead queue.dequeue)) := by
  have remembered := sound.remembers party
  rw [here] at remembered
  have ready : (queue.slots (queue.dequeue % capacity)).sequence = queue.dequeue + 1 :=
    remembered.2 (Nat.le_refl _)
  have ordered := sound.ordered
  have bounded := sound.bounded
  have some_ : queue.dequeue < queue.enqueue := by
    apply Nat.lt_of_le_of_ne ordered
    intro none
    rcases sound.vacant queue.dequeue (Nat.le_of_eq none.symm) (by omega) with
      same | ⟨_, old, _, lap, same⟩ <;> omega
  have published : ledger.claimed[queue.dequeue]? =
      some (queue.slots (queue.dequeue % capacity)).frame := by
    rcases sound.waiting queue.dequeue (Nat.le_refl _) some_ with ⟨-, same⟩ | ⟨-, found⟩
    · omega
    · exact found
  have unclaimed : (queue.phase party).claim = none := by rw [here]; rfl
  have untaken : (queue.phase party).take = none := by rw [here]; rfl
  refine ⟨some_, ?_⟩
  constructor
  case enqueued => exact sound.enqueued
  case dequeued => exact congrArg (· + 1) sound.dequeued
  case ordered => exact some_
  case bounded =>
    show queue.enqueue ≤ queue.dequeue + 1 + capacity
    omega
  case waiting =>
    intro ticket low high
    refine (sound.waiting ticket (Nat.le_of_succ_le low) high).imp_left ?_
    rintro ⟨⟨other, claimed⟩, sequence⟩
    refine ⟨⟨other, claim_turn.mpr (Or.inr ⟨?_, claimed⟩)⟩, sequence⟩
    rintro rfl
    rw [unclaimed] at claimed
    cases claimed
  case vacant =>
    intro ticket low high
    have limit : ticket < queue.dequeue + 1 + capacity := high
    by_cases last : ticket = queue.dequeue + capacity
    · refine Or.inr ⟨party, queue.dequeue, take_turn.mpr (Or.inl ⟨rfl, rfl⟩), last.symm, ?_⟩
      rw [last, Nat.add_mod_right]
      exact ready
    · refine (sound.vacant ticket low (by omega)).imp_right ?_
      rintro ⟨other, before, taken, same, sequence⟩
      refine ⟨other, before, take_turn.mpr (Or.inr ⟨?_, taken⟩), same, sequence⟩
      rintro rfl
      rw [untaken] at taken
      cases taken
  case claims =>
    intro other ticket claimed
    rcases claim_turn.mp claimed with ⟨-, none⟩ | ⟨-, claimed⟩
    · cases none
    · obtain ⟨low, high, sequence⟩ := sound.claims other ticket claimed
      refine ⟨Nat.lt_of_le_of_ne low fun same => ?_, high, sequence⟩
      rw [← same, ready] at sequence
      omega
  case takes =>
    intro other ticket taken
    rcases take_turn.mp taken with ⟨-, same⟩ | ⟨-, taken⟩
    · obtain rfl := Option.some.inj same
      exact ⟨Nat.lt_succ_self _, bounded, ready⟩
    · obtain ⟨low, high, sequence⟩ := sound.takes other ticket taken
      exact ⟨Nat.lt_succ_of_lt low, high, sequence⟩
  case soleClaim => exact soleClaim_turn sound.soleClaim nofun
  case soleTake =>
    refine soleTake_turn sound.soleTake fun ticket same other _ taken => ?_
    obtain rfl := Option.some.inj same
    exact Nat.lt_irrefl _ (sound.takes other _ taken).1
  case remembers =>
    intro other
    rw [phase_turn]
    split
    · exact published
    · have before := sound.remembers other
      cases phase : queue.phase other with
      | popSequence _ | popEmpty _ => rw [phase] at before; exact Nat.le_succ_of_le before
      | popExchange ticket =>
          rw [phase] at before
          refine ⟨Nat.le_succ_of_le before.1, fun passed => ?_⟩
          exact absurd (Nat.lt_of_succ_le passed) (Nat.not_lt.mpr before.1)
      | pushSequence _ _ | pushFull _ _ | pushExchange _ _ | pushWrite _ _ | pushPublish _
      | popRead _ | popRelease _ _ => rw [phase] at before; exact before
      | idle | pushLoad _ | popLoad => trivial
  case stands =>
    intro other
    rw [phase_turn, Ledger.standing_turn]
    split
    · exact congrArg Standing.holding sound.dequeued.symm
    · exact sound.stands other

variable {position : Nat}

/-- The claimed slot is written. -/
theorem Sound.write (wide : 2 ≤ capacity) (here : queue.phase party = .pushWrite frame position) :
    Sound capacity ledger
      ((queue.write (position % capacity) frame).turn party (.pushPublish position)) := by
  have mine : (queue.phase party).claim = some position := by rw [here]; rfl
  have untaken : (queue.phase party).take = none := by rw [here]; rfl
  have written : ledger.claimed[position]? = some frame := by
    have remembered := sound.remembers party
    rw [here] at remembered
    exact remembered
  obtain ⟨low, high, waits⟩ := sound.claims party position mine
  have bounded := sound.bounded
  constructor
  case enqueued => exact sound.enqueued
  case dequeued => exact sound.dequeued
  case ordered => exact sound.ordered
  case bounded => exact bounded
  case waiting =>
    intro ticket first last
    rw [turn_slots, write_sequence]
    rcases sound.waiting ticket first last with ⟨⟨other, claimed⟩, sequence⟩ | ⟨sequence, found⟩
    · refine Or.inl ⟨⟨other, claim_turn.mpr ?_⟩, sequence⟩
      by_cases same : other = party
      · rw [same, mine] at claimed
        exact Or.inl ⟨same, claimed⟩
      · exact Or.inr ⟨same, claimed⟩
    · have elsewhere : ticket % capacity ≠ position % capacity := by
        intro place
        rw [place, waits] at sequence
        have equal := ticket_eq_of_place (by omega) (by omega) place
        omega
      rw [write_of_ne elsewhere]
      exact Or.inr ⟨sequence, found⟩
  case vacant =>
    intro ticket first last
    rw [turn_slots, write_sequence]
    refine (sound.vacant ticket first last).imp_right ?_
    rintro ⟨other, before, taken, same, sequence⟩
    refine ⟨other, before, take_turn.mpr (Or.inr ⟨?_, taken⟩), same, sequence⟩
    rintro rfl
    rw [untaken] at taken
    cases taken
  case claims =>
    intro other ticket claimed
    rw [turn_slots, write_sequence]
    rcases claim_turn.mp claimed with ⟨-, same⟩ | ⟨-, claimed⟩
    · obtain rfl := Option.some.inj same
      exact ⟨low, high, waits⟩
    · exact sound.claims other ticket claimed
  case takes =>
    intro other ticket taken
    rw [turn_slots, write_sequence]
    rcases take_turn.mp taken with ⟨-, none⟩ | ⟨-, taken⟩
    · cases none
    · exact sound.takes other ticket taken
  case soleClaim =>
    refine soleClaim_turn sound.soleClaim fun ticket same other differs claimed => ?_
    obtain rfl := Option.some.inj same
    exact differs (sound.soleClaim other party _ claimed mine)
  case soleTake => exact soleTake_turn sound.soleTake nofun
  case remembers =>
    intro other
    rw [phase_turn]
    split
    · show ledger.claimed[position]? =
        some ((queue.write (position % capacity) frame).slots (position % capacity)).frame
      rw [write_self]
      exact written
    · rename_i differs
      show ((queue.write (position % capacity) frame).turn party
        (.pushPublish position)).Remembers capacity ledger.claimed (queue.phase other)
      have before := sound.remembers other
      cases phase : queue.phase other with
      | pushPublish ticket =>
          rw [phase] at before
          have elsewhere : ticket % capacity ≠ position % capacity := fun place =>
            differs (sound.claims_apart (by rw [phase]; rfl) mine place)
          show _ = some ((queue.write (position % capacity) frame).slots (ticket % capacity)).frame
          rw [write_of_ne elsewhere]
          exact before
      | popRead ticket =>
          rw [phase] at before
          have elsewhere : ticket % capacity ≠ position % capacity := fun place =>
            sound.claim_take_apart wide mine (by rw [phase]; rfl) place.symm
          show _ = some ((queue.write (position % capacity) frame).slots (ticket % capacity)).frame
          rw [write_of_ne elsewhere]
          exact before
      | pushExchange _ ticket | popExchange ticket =>
          rw [phase] at before
          refine ⟨before.1, fun passed => ?_⟩
          rw [turn_slots, write_sequence]
          exact before.2 passed
      | pushSequence _ _ | pushFull _ _ | pushWrite _ _ | popSequence _ | popEmpty _
      | popRelease _ _ => rw [phase] at before; exact before
      | idle | pushLoad _ | popLoad => trivial
  case stands =>
    intro other
    rw [phase_turn]
    split
    · rename_i same
      rw [same, sound.stands party, here]
      rfl
    · exact sound.stands other

/-- A sequence is stored in a slot that its party owns; the others see it only if they
remember the slot as it is not. -/
theorem Sound.remembers_store {position sequence : Nat}
    (ready : ∀ ticket, ticket ≤ queue.enqueue → queue.enqueue ≤ ticket →
      (queue.slots (ticket % capacity)).sequence = ticket →
      ticket % capacity ≠ position % capacity)
    (published : ∀ ticket, ticket ≤ queue.dequeue → queue.dequeue ≤ ticket →
      (queue.slots (ticket % capacity)).sequence = ticket + 1 →
      ticket % capacity ≠ position % capacity) (other : Party) :
    ((queue.store (position % capacity) sequence).turn party .idle).Remembers capacity
      ledger.claimed (queue.phase other) := by
  have before := sound.remembers other
  cases phase : queue.phase other with
  | pushExchange _ ticket =>
      rw [phase] at before
      refine ⟨before.1, fun passed => ?_⟩
      have here := before.2 passed
      rw [turn_slots, store_of_ne (ready ticket before.1 passed here)]
      exact here
  | popExchange ticket =>
      rw [phase] at before
      refine ⟨before.1, fun passed => ?_⟩
      have here := before.2 passed
      rw [turn_slots, store_of_ne (published ticket before.1 passed here)]
      exact here
  | pushPublish ticket =>
      rw [phase] at before
      show _ = some ((queue.store (position % capacity) sequence).slots (ticket % capacity)).frame
      rw [store_frame]
      exact before
  | popRead ticket =>
      rw [phase] at before
      show _ = some ((queue.store (position % capacity) sequence).slots (ticket % capacity)).frame
      rw [store_frame]
      exact before
  | pushSequence _ _ | pushFull _ _ | pushWrite _ _ | popSequence _ | popEmpty _ | popRelease _ _ =>
      rw [phase] at before; exact before
  | idle | pushLoad _ | popLoad => trivial

/-- The slot written is published. -/
theorem Sound.publish (wide : 2 ≤ capacity) (here : queue.phase party = .pushPublish position) :
    Sound capacity (ledger.turn party .idle)
      ((queue.store (position % capacity) (position + 1)).turn party .idle) := by
  have mine : (queue.phase party).claim = some position := by rw [here]; rfl
  have untaken : (queue.phase party).take = none := by rw [here]; rfl
  have written : ledger.claimed[position]? =
      some (queue.slots (position % capacity)).frame := by
    have remembered := sound.remembers party
    rw [here] at remembered
    exact remembered
  obtain ⟨low, high, waits⟩ := sound.claims party position mine
  have bounded := sound.bounded
  constructor
  case enqueued => exact sound.enqueued
  case dequeued => exact sound.dequeued
  case ordered => exact sound.ordered
  case bounded => exact bounded
  case waiting =>
    intro ticket first last
    have past : queue.dequeue ≤ ticket := first
    have within : ticket < queue.enqueue := last
    rw [turn_slots, store_frame]
    by_cases same : ticket = position
    · rw [same, store_self]
      exact Or.inr ⟨rfl, written⟩
    · have elsewhere : ticket % capacity ≠ position % capacity := fun place =>
        same (ticket_eq_of_place (by omega) (by omega) place)
      rw [store_of_ne elsewhere]
      refine (sound.waiting ticket first last).imp_left fun ⟨⟨other, claimed⟩, sequence⟩ => ?_
      refine ⟨⟨other, claim_turn.mpr (Or.inr ⟨?_, claimed⟩)⟩, sequence⟩
      rintro rfl
      rw [mine] at claimed
      exact same (Option.some.inj claimed).symm
  case vacant =>
    intro ticket first last
    have elsewhere : ticket % capacity ≠ position % capacity := by
      intro place
      have past : queue.enqueue ≤ ticket := first
      have within : ticket < queue.dequeue + capacity := last
      have equal := ticket_eq_of_place (by omega) (by omega) place
      omega
    rw [turn_slots, store_of_ne elsewhere]
    refine (sound.vacant ticket first last).imp_right ?_
    rintro ⟨other, before, taken, same, sequence⟩
    refine ⟨other, before, take_turn.mpr (Or.inr ⟨?_, taken⟩), same, sequence⟩
    rintro rfl
    rw [untaken] at taken
    cases taken
  case claims =>
    intro other ticket claimed
    rcases claim_turn.mp claimed with ⟨-, none⟩ | ⟨differs, claimed⟩
    · cases none
    · have elsewhere : ticket % capacity ≠ position % capacity := fun place =>
        differs (sound.claims_apart claimed mine place)
      rw [turn_slots, store_of_ne elsewhere]
      exact sound.claims other ticket claimed
  case takes =>
    intro other ticket taken
    rcases take_turn.mp taken with ⟨-, none⟩ | ⟨-, taken⟩
    · cases none
    · have elsewhere : ticket % capacity ≠ position % capacity := fun place =>
        sound.claim_take_apart wide mine taken place.symm
      rw [turn_slots, store_of_ne elsewhere]
      exact sound.takes other ticket taken
  case soleClaim => exact soleClaim_turn sound.soleClaim nofun
  case soleTake => exact soleTake_turn sound.soleTake nofun
  case remembers =>
    intro other
    rw [phase_turn]
    split
    · trivial
    · refine sound.remembers_store (fun ticket _ past sequence place => ?_)
        (fun ticket _ past sequence place => ?_) other
      · rw [place, waits] at sequence
        omega
      · rw [place, waits] at sequence
        exact place_succ_ne wide ticket (sequence ▸ place.symm)
  case stands =>
    intro other
    rw [phase_turn, Ledger.standing_turn]
    split
    · rfl
    · exact sound.stands other

/-- The slot read is released for the next lap. -/
theorem Sound.release (wide : 2 ≤ capacity) (here : queue.phase party = .popRelease position frame) :
    Sound capacity ({ ledger with popped := ledger.popped ++ [position] }.turn party .idle)
      ((queue.store (position % capacity) (position + capacity)).turn party .idle) := by
  have mine : (queue.phase party).take = some position := by rw [here]; rfl
  have unclaimed : (queue.phase party).claim = none := by rw [here]; rfl
  obtain ⟨low, high, read⟩ := sound.takes party position mine
  have ordered := sound.ordered
  constructor
  case enqueued => exact sound.enqueued
  case dequeued => exact sound.dequeued
  case ordered => exact ordered
  case bounded => exact sound.bounded
  case waiting =>
    intro ticket first last
    have elsewhere : ticket % capacity ≠ position % capacity := by
      intro place
      have past : queue.dequeue ≤ ticket := first
      have within : ticket < queue.enqueue := last
      have equal := ticket_eq_of_place (by omega) (by omega) place
      omega
    rw [turn_slots, store_of_ne elsewhere]
    refine (sound.waiting ticket first last).imp_left fun ⟨⟨other, claimed⟩, sequence⟩ => ?_
    refine ⟨⟨other, claim_turn.mpr (Or.inr ⟨?_, claimed⟩)⟩, sequence⟩
    rintro rfl
    rw [unclaimed] at claimed
    cases claimed
  case vacant =>
    intro ticket first last
    rw [turn_slots]
    by_cases same : ticket = position + capacity
    · rw [same, Nat.add_mod_right, store_self]
      exact Or.inl rfl
    · have elsewhere : ticket % capacity ≠ position % capacity := by
        intro place
        have past : queue.enqueue ≤ ticket := first
        have within : ticket < queue.dequeue + capacity := last
        rw [← Nat.add_mod_right position] at place
        exact same (ticket_eq_of_place (by omega) (by omega) place)
      rw [store_of_ne elsewhere]
      refine (sound.vacant ticket first last).imp_right ?_
      rintro ⟨other, before, taken, lap, sequence⟩
      refine ⟨other, before, take_turn.mpr (Or.inr ⟨?_, taken⟩), lap, sequence⟩
      rintro rfl
      rw [mine] at taken
      exact same (lap.symm.trans (congrArg (· + capacity) (Option.some.inj taken).symm))
  case claims =>
    intro other ticket claimed
    rcases claim_turn.mp claimed with ⟨-, none⟩ | ⟨-, claimed⟩
    · cases none
    · have elsewhere := sound.claim_take_apart wide claimed mine
      rw [turn_slots, store_of_ne elsewhere]
      exact sound.claims other ticket claimed
  case takes =>
    intro other ticket taken
    rcases take_turn.mp taken with ⟨-, none⟩ | ⟨differs, taken⟩
    · cases none
    · have elsewhere : ticket % capacity ≠ position % capacity := fun place =>
        differs (sound.takes_apart taken mine place)
      rw [turn_slots, store_of_ne elsewhere]
      exact sound.takes other ticket taken
  case soleClaim => exact soleClaim_turn sound.soleClaim nofun
  case soleTake => exact soleTake_turn sound.soleTake nofun
  case remembers =>
    intro other
    rw [phase_turn]
    split
    · trivial
    · refine sound.remembers_store (fun ticket _ past sequence place => ?_)
        (fun ticket _ past sequence place => ?_) other
      · rw [place, read] at sequence
        exact place_succ_ne wide position (sequence ▸ place)
      · rw [place, read] at sequence
        omega
  case stands =>
    intro other
    rw [phase_turn, Ledger.standing_turn]
    split
    · rfl
    · exact sound.stands other

end

end Moves

/-! ### Changes to slots -/

section Changes

variable {Counter : Type*} [DecidableEq Party] [DecidableEq Counter]
  {counting : Counting Counter} {queue next : TicketQueue Party Counter Frame} {party : Party}
  {event : TicketEvent Frame} {place : Nat}

theorem access_slots {phase : TicketPhase Counter Frame}
    (accessed : TicketQueue.access counting queue party phase = some (event, next))
    (changed : next.slots place ≠ queue.slots place) :
    ∃ position, phase.owned = some position ∧ counting.place position = place := by
  have elsewhere : ∀ {position : Counter} {slot : TicketSlot Counter Frame},
      Function.update queue.slots (counting.place position) slot place ≠ queue.slots place →
        counting.place position = place := by
    intro position slot differs
    by_contra apart
    exact differs (Function.update_of_ne (Ne.symm apart) ..)
  cases phase with
  | pushWrite _ position =>
      cases accessed
      exact ⟨position, rfl, elsewhere changed⟩
  | pushPublish position =>
      cases accessed
      exact ⟨position, rfl, elsewhere changed⟩
  | popRelease position _ =>
      cases accessed
      exact ⟨position, rfl, elsewhere changed⟩
  | idle => cases accessed
  | pushLoad _ | popLoad | popRead _ => cases accessed; exact absurd rfl changed
  | pushSequence _ _ | pushExchange _ _ | pushFull _ _ | popSequence _ | popExchange _
  | popEmpty _ =>
      simp only [TicketQueue.access] at accessed
      split at accessed <;> cases accessed <;> exact absurd rfl changed

/-- A step changes no slot but the one its party owns. -/
theorem step_slots {action : TicketAction Frame}
    (stepEq : TicketQueue.step counting queue (party, action) = some (event, next))
    (changed : next.slots place ≠ queue.slots place) :
    ∃ position, (queue.phase party).owned = some position ∧ counting.place position = place := by
  unfold TicketQueue.step at stepEq
  dsimp only at stepEq
  split at stepEq
  · cases stepEq
    exact absurd rfl changed
  · cases stepEq
    exact absurd rfl changed
  · cases stepEq
    exact absurd rfl changed
  · cases stepEq
    exact absurd rfl changed
  · exact access_slots stepEq changed
  · cases stepEq

end Changes

/-! ### Runs -/

section Runs

variable [DecidableEq Party] [DecidableEq Frame] {capacity : Nat}
  {behind : Nat → Nat → Bool} {ledger : Ledger Party Frame} {queue next : TicketQueue Party Nat Frame}
  {party : Party} {event : TicketEvent Frame}

/-- A step within a call is entered in the ledger. -/
theorem Sound.access (sound : Sound capacity ledger queue) (wide : 2 ≤ capacity)
    (accessed : access (Counting.tickets capacity behind) queue party (queue.phase party) =
      some (event, next)) :
    ∃ after, ledger.enter capacity party .step event = some after ∧
      Sound capacity after next := by
  have remembered := sound.remembers party
  have stands := sound.stands party
  have ordered := sound.ordered
  have bounded := sound.bounded
  have length := sound.enqueued
  have taken := sound.dequeued
  cases here : queue.phase party with
  | idle => rw [here] at accessed; cases accessed
  | pushLoad frame =>
      rw [here] at accessed
      cases accessed
      exact ⟨ledger, rfl, sound.stay here rfl rfl rfl (Nat.le_refl _)⟩
  | pushSequence frame position =>
      rw [here] at accessed remembered
      simp only [TicketQueue.access, Counting.tickets] at accessed
      by_cases ready : (queue.slots (position % capacity)).sequence = position
      · simp only [if_pos ready] at accessed
        cases accessed
        exact ⟨ledger, rfl, sound.stay here rfl rfl rfl ⟨remembered, fun _ => ready⟩⟩
      · simp only [if_neg ready] at accessed
        cases late : behind (queue.slots (position % capacity)).sequence position with
        | true =>
            simp only [late, if_true] at accessed
            cases accessed
            exact ⟨ledger, rfl, sound.stay here rfl rfl rfl remembered⟩
        | false =>
            simp only [late, Bool.false_eq_true, if_false] at accessed
            cases accessed
            exact ⟨ledger, rfl, sound.stay here rfl rfl rfl trivial⟩
  | pushExchange frame position =>
      rw [here] at accessed stands
      by_cases current : queue.enqueue = position
      · obtain ⟨rfl, rfl⟩ := Prod.mk.inj (Option.some.inj ((if_pos current).symm.trans accessed))
        subst current
        obtain ⟨room, claimed⟩ := sound.claim wide here
        refine ⟨_, if_pos ⟨stands, ?_⟩, claimed⟩
        rw [← length, ← taken]
        exact room
      · obtain ⟨rfl, rfl⟩ := Prod.mk.inj (Option.some.inj ((if_neg current).symm.trans accessed))
        exact ⟨ledger, rfl, sound.stay here rfl rfl rfl (Nat.le_refl _)⟩
  | pushWrite frame position =>
      rw [here] at accessed
      cases accessed
      exact ⟨ledger, rfl, sound.write wide here⟩
  | pushPublish position =>
      rw [here] at accessed stands
      cases accessed
      exact ⟨_, if_pos stands, sound.publish wide here⟩
  | pushFull frame position =>
      rw [here] at accessed stands remembered
      have seen : position ≤ queue.enqueue := remembered
      by_cases full : queue.dequeue + capacity = position
      · obtain ⟨rfl, rfl⟩ := Prod.mk.inj (Option.some.inj ((if_pos full).symm.trans accessed))
        have lap : ledger.claimed.length = ledger.taken + capacity := by omega
        refine ⟨ledger.turn party .idle, ?_, sound.turn .idle here rfl rfl trivial⟩
        simp only [Ledger.enter, stands, TicketPhase.standing, if_pos lap]
      · obtain ⟨rfl, rfl⟩ := Prod.mk.inj (Option.some.inj ((if_neg full).symm.trans accessed))
        exact ⟨ledger, rfl, sound.stay here rfl rfl rfl trivial⟩
  | popLoad =>
      rw [here] at accessed
      cases accessed
      exact ⟨ledger, rfl, sound.stay here rfl rfl rfl (Nat.le_refl _)⟩
  | popSequence position =>
      rw [here] at accessed remembered
      simp only [TicketQueue.access, Counting.tickets] at accessed
      by_cases ready : (queue.slots (position % capacity)).sequence = position + 1
      · simp only [if_pos ready] at accessed
        cases accessed
        exact ⟨ledger, rfl, sound.stay here rfl rfl rfl ⟨remembered, fun _ => ready⟩⟩
      · simp only [if_neg ready] at accessed
        cases late : behind (queue.slots (position % capacity)).sequence (position + 1) with
        | true =>
            simp only [late, if_true] at accessed
            cases accessed
            exact ⟨ledger, rfl, sound.stay here rfl rfl rfl remembered⟩
        | false =>
            simp only [late, Bool.false_eq_true, if_false] at accessed
            cases accessed
            exact ⟨ledger, rfl, sound.stay here rfl rfl rfl trivial⟩
  | popExchange position =>
      rw [here] at accessed stands
      by_cases current : queue.dequeue = position
      · obtain ⟨rfl, rfl⟩ := Prod.mk.inj (Option.some.inj ((if_pos current).symm.trans accessed))
        subst current
        obtain ⟨some_, took⟩ := sound.take wide here
        refine ⟨_, if_pos ⟨stands, ?_⟩, took⟩
        rw [← length, ← taken]
        exact some_
      · obtain ⟨rfl, rfl⟩ := Prod.mk.inj (Option.some.inj ((if_neg current).symm.trans accessed))
        exact ⟨ledger, rfl, sound.stay here rfl rfl rfl (Nat.le_refl _)⟩
  | popRead position =>
      rw [here] at accessed remembered
      cases accessed
      exact ⟨ledger, rfl, sound.stay here rfl rfl rfl remembered⟩
  | popRelease position frame =>
      rw [here] at accessed stands remembered
      cases accessed
      refine ⟨_, ?_, sound.release wide here⟩
      have found : ledger.claimed[position]? = some frame := remembered
      simp only [Ledger.enter, stands, TicketPhase.standing, if_pos found]
  | popEmpty position =>
      rw [here] at accessed stands remembered
      have seen : position ≤ queue.dequeue := remembered
      by_cases none : queue.enqueue = position
      · obtain ⟨rfl, rfl⟩ := Prod.mk.inj (Option.some.inj ((if_pos none).symm.trans accessed))
        have drained : ledger.claimed.length = ledger.taken := by omega
        refine ⟨ledger.turn party .idle, if_pos ⟨stands, drained⟩,
          sound.turn .idle here rfl rfl trivial⟩
      · obtain ⟨rfl, rfl⟩ := Prod.mk.inj (Option.some.inj ((if_neg none).symm.trans accessed))
        exact ⟨ledger, rfl, sound.stay here rfl rfl rfl trivial⟩

/-- The queue before any call: each slot awaits its first ticket. -/
def vacantQueue (frame : Frame) : TicketQueue Party Nat Frame where
  enqueue := 0
  dequeue := 0
  slots place := ⟨place, frame⟩
  phase _ := .idle

omit [DecidableEq Party] [DecidableEq Frame] in
theorem sound_vacant (frame : Frame) :
    Sound capacity (Ledger.empty : Ledger Party Frame) (vacantQueue frame) where
  enqueued := rfl
  dequeued := rfl
  ordered := Nat.le_refl _
  bounded := Nat.zero_le _
  waiting _ _ none := absurd none (Nat.not_lt_zero _)
  vacant ticket _ inside := by
    have less : ticket < 0 + capacity := inside
    rw [Nat.zero_add] at less
    exact Or.inl (Nat.mod_eq_of_lt less)
  claims := nofun
  takes := nofun
  soleClaim := nofun
  soleTake := nofun
  remembers _ := trivial
  stands _ := rfl

omit [DecidableEq Party] [DecidableEq Frame] in
/-- The sequence of a slot is less than a lap away from the counters. -/
theorem Sound.sequence_near (sound : Sound capacity ledger queue) (ticket : Nat)
    (positive : 0 < capacity) :
    queue.enqueue ≤ (queue.slots (ticket % capacity)).sequence + capacity ∧
      (queue.slots (ticket % capacity)).sequence ≤ queue.dequeue + capacity := by
  obtain ⟨near, low, high, place⟩ :=
    exists_ticket positive queue.dequeue (ticket % capacity) (Nat.mod_lt _ positive)
  have ordered := sound.ordered
  have bounded := sound.bounded
  rw [← place]
  rcases Nat.lt_or_ge near queue.enqueue with claimed | free
  · rcases sound.waiting near low claimed with ⟨-, same⟩ | ⟨same, -⟩ <;> omega
  · rcases sound.vacant near free high with same | ⟨_, old, _, lap, same⟩ <;> omega

/-- Every step of the queue is entered in the ledger. -/
theorem Sound.step (sound : Sound capacity ledger queue) (wide : 2 ≤ capacity)
    {action : TicketAction Frame}
    (stepEq : step (Counting.tickets capacity behind) queue (party, action) =
      some (event, next)) :
    ∃ after, ledger.enter capacity party action event = some after ∧
      Sound capacity after next := by
  have stands := sound.stands party
  unfold TicketQueue.step at stepEq
  dsimp only at stepEq
  split at stepEq
  · rename_i frame here
    rw [here] at stands
    cases stepEq
    exact ⟨_, if_pos stands, sound.turn (.pushLoad frame) here rfl rfl trivial⟩
  · rename_i here
    rw [here] at stands
    cases stepEq
    exact ⟨_, if_pos stands, sound.turn .popLoad here rfl rfl trivial⟩
  · rename_i here
    cases stepEq
    exact ⟨ledger, rfl, sound.stay here rfl rfl rfl (Nat.le_refl _)⟩
  · rename_i here
    cases stepEq
    exact ⟨ledger, rfl, sound.stay here rfl rfl rfl (Nat.le_refl _)⟩
  · exact sound.access wide stepEq
  · cases stepEq

end Runs

end TicketQueue

end Hyperloader.Foundations
