/-
Module: Hyperloader.Foundations.TicketAlone
Purpose: A call to the shared queue that runs alone, the other parties stopped wherever they
  stand: the states of the queue in which it returns, and those in which it waits for ever.
Trusted boundary: none
Main exports: TicketQueue.Returns, TicketQueue.Ready, TicketQueue.returns_iff_ready,
  TicketQueue.Stuck
-/
import Hyperloader.Foundations.TicketWrap

namespace Hyperloader.Foundations

namespace TicketQueue

variable {Party Counter Frame : Type*} (counting : Counting Counter)

section

variable [DecidableEq Party] [DecidableEq Counter] (queue : TicketQueue Party Counter Frame)

/-- A party that takes every step from here on, no exchange failing spuriously, ends its
call. -/
def Returns (party : Party) : Prop :=
  ∃ count trace final,
    (machine counting).run queue (List.replicate count (party, .step)) = some (trace, final) ∧
      final.phase party = .idle

/-- The slot of the next position to claim is vacant, or the queue full. -/
def ReadyPush : Prop :=
  match counting.difference (queue.slots (counting.place queue.enqueue)).sequence
      queue.enqueue with
  | .eq => True
  | .lt => counting.lap queue.dequeue = queue.enqueue
  | .gt => False

/-- The slot of the next position to take is published, or the queue empty. -/
def ReadyPop : Prop :=
  match counting.difference (queue.slots (counting.place queue.dequeue)).sequence
      (counting.next queue.dequeue) with
  | .eq => True
  | .lt => queue.enqueue = queue.dequeue
  | .gt => False

/-- What the memory holds where a party in this phase returns. -/
def Ready : TicketPhase Counter Frame → Prop
  | .pushLoad _ => queue.ReadyPush counting
  | .pushSequence _ position => queue.ReadyPush counting ∨
      (counting.difference (queue.slots (counting.place position)).sequence position = .lt ∧
        counting.lap queue.dequeue = position)
  | .pushExchange _ position => queue.ReadyPush counting ∨ queue.enqueue = position
  | .pushFull _ position => queue.ReadyPush counting ∨ counting.lap queue.dequeue = position
  | .popLoad => queue.ReadyPop counting
  | .popSequence position => queue.ReadyPop counting ∨
      (counting.difference (queue.slots (counting.place position)).sequence
          (counting.next position) = .lt ∧ queue.enqueue = position)
  | .popExchange position => queue.ReadyPop counting ∨ queue.dequeue = position
  | .popEmpty position => queue.ReadyPop counting ∨ queue.enqueue = position
  | _ => True

end

variable {counting} {queue next : TicketQueue Party Counter Frame} {party : Party}
  {event : TicketEvent Frame}

variable {position : Counter}

theorem readyPush_of_vacant (current : queue.enqueue = position)
    (order : counting.difference (queue.slots (counting.place position)).sequence position =
      .eq) : queue.ReadyPush counting := by
  rw [ReadyPush, current, order]
  trivial

theorem readyPush_of_full
    (late : counting.difference (queue.slots (counting.place queue.enqueue)).sequence
      queue.enqueue = .lt) (full : counting.lap queue.dequeue = queue.enqueue) :
    queue.ReadyPush counting := by
  rw [ReadyPush, late]
  exact full

theorem readyPop_of_published (current : queue.dequeue = position)
    (order : counting.difference (queue.slots (counting.place position)).sequence
      (counting.next position) = .eq) : queue.ReadyPop counting := by
  rw [ReadyPop, current, order]
  trivial

theorem readyPop_of_empty
    (late : counting.difference (queue.slots (counting.place queue.dequeue)).sequence
      (counting.next queue.dequeue) = .lt) (empty : queue.enqueue = queue.dequeue) :
    queue.ReadyPop counting := by
  rw [ReadyPop, late]
  exact empty

/-! ### Calls that return -/

section

variable [DecidableEq Party] [DecidableEq Counter]

theorem returns_of_idle (idle : queue.phase party = .idle) : queue.Returns counting party :=
  ⟨0, [], queue, rfl, idle⟩

theorem Returns.of_access
    (accessed : access counting queue party (queue.phase party) = some (event, next))
    (returns : next.Returns counting party) : queue.Returns counting party := by
  obtain ⟨count, trace, final, reached, idle⟩ := returns
  refine ⟨count + 1, ((party, .step), event) :: trace, final, ?_, idle⟩
  rw [List.replicate_succ]
  exact (machine counting).run_cons_eq_some.mpr ⟨event, next, trace, accessed, reached, rfl⟩

omit [DecidableEq Counter] in
theorem turn_phase (queue : TicketQueue Party Counter Frame) (party : Party)
    (phase : TicketPhase Counter Frame) : (queue.turn party phase).phase party = phase :=
  Function.update_self ..

theorem returns_publish (here : queue.phase party = .pushPublish position) :
    queue.Returns counting party := by
  refine .of_access (by rw [here]; rfl) (returns_of_idle (turn_phase ..))

variable {frame : Frame}

theorem returns_write (here : queue.phase party = .pushWrite frame position) :
    queue.Returns counting party :=
  .of_access (by rw [here]; rfl) (returns_publish (turn_phase ..))

theorem returns_release (here : queue.phase party = .popRelease position frame) :
    queue.Returns counting party :=
  .of_access (by rw [here]; rfl) (returns_of_idle (turn_phase ..))

theorem returns_read (here : queue.phase party = .popRead position) :
    queue.Returns counting party :=
  .of_access (by rw [here]; rfl) (returns_release (turn_phase ..))

theorem returns_exchange (here : queue.phase party = .pushExchange frame queue.enqueue) :
    queue.Returns counting party :=
  .of_access (by rw [here]; exact if_pos rfl) (returns_write (turn_phase ..))

theorem returns_take (here : queue.phase party = .popExchange queue.dequeue) :
    queue.Returns counting party :=
  .of_access (by rw [here]; exact if_pos rfl) (returns_read (turn_phase ..))

theorem returns_full (here : queue.phase party = .pushFull frame position)
    (full : counting.lap queue.dequeue = position) : queue.Returns counting party :=
  .of_access (by rw [here]; exact if_pos full) (returns_of_idle (turn_phase ..))

theorem returns_empty (here : queue.phase party = .popEmpty position)
    (empty : queue.enqueue = position) : queue.Returns counting party :=
  .of_access (by rw [here]; exact if_pos empty) (returns_of_idle (turn_phase ..))

theorem returns_sequence (here : queue.phase party = .pushSequence frame queue.enqueue)
    (ready : queue.ReadyPush counting) : queue.Returns counting party := by
  unfold ReadyPush at ready
  cases order : counting.difference (queue.slots (counting.place queue.enqueue)).sequence
      queue.enqueue with
  | eq => exact .of_access (by rw [here, access, order]) (returns_exchange (turn_phase ..))
  | lt =>
      rw [order] at ready
      exact .of_access (by rw [here, access, order]) (returns_full (turn_phase ..) ready)
  | gt =>
      rw [order] at ready
      exact ready.elim

theorem returns_load (here : queue.phase party = .pushLoad frame) (ready : queue.ReadyPush counting) :
    queue.Returns counting party := by
  have loaded : access counting queue party (queue.phase party) =
      some (.quiet, queue.turn party (.pushSequence frame queue.enqueue)) := by rw [here]; rfl
  exact .of_access loaded (returns_sequence (turn_phase ..) ready)

theorem returns_popSequence (here : queue.phase party = .popSequence queue.dequeue)
    (ready : queue.ReadyPop counting) : queue.Returns counting party := by
  unfold ReadyPop at ready
  cases order : counting.difference (queue.slots (counting.place queue.dequeue)).sequence
      (counting.next queue.dequeue) with
  | eq => exact .of_access (by rw [here, access, order]) (returns_take (turn_phase ..))
  | lt =>
      rw [order] at ready
      exact .of_access (by rw [here, access, order]) (returns_empty (turn_phase ..) ready)
  | gt =>
      rw [order] at ready
      exact ready.elim

theorem returns_popLoad (here : queue.phase party = .popLoad)
    (ready : queue.ReadyPop counting) : queue.Returns counting party := by
  have loaded : access counting queue party (queue.phase party) =
      some (.quiet, queue.turn party (.popSequence queue.dequeue)) := by rw [here]; rfl
  exact .of_access loaded (returns_popSequence (turn_phase ..) ready)

/-- A push that saw its slot behind the position asks whether the queue is full. -/
theorem returns_pushFull (here : queue.phase party = .pushFull frame position)
    (ready : queue.ReadyPush counting ∨ counting.lap queue.dequeue = position) :
    queue.Returns counting party := by
  by_cases full : counting.lap queue.dequeue = position
  · exact returns_full here full
  · exact .of_access (by rw [here]; exact if_neg full)
      (returns_load (turn_phase ..) (ready.resolve_right full))

theorem returns_popEmpty (here : queue.phase party = .popEmpty position)
    (ready : queue.ReadyPop counting ∨ queue.enqueue = position) :
    queue.Returns counting party := by
  by_cases empty : queue.enqueue = position
  · exact returns_empty here empty
  · exact .of_access (by rw [here]; exact if_neg empty)
      (returns_popLoad (turn_phase ..) (ready.resolve_right empty))

theorem returns_pushExchange (here : queue.phase party = .pushExchange frame position)
    (ready : queue.ReadyPush counting ∨ queue.enqueue = position) :
    queue.Returns counting party := by
  by_cases current : queue.enqueue = position
  · exact returns_exchange (current ▸ here)
  · have observed : access counting queue party (queue.phase party) =
        some (.quiet, queue.turn party (.pushSequence frame queue.enqueue)) := by
      rw [here]
      exact if_neg current
    exact .of_access observed (returns_sequence (turn_phase ..) (ready.resolve_right current))

theorem returns_popExchange (here : queue.phase party = .popExchange position)
    (ready : queue.ReadyPop counting ∨ queue.dequeue = position) :
    queue.Returns counting party := by
  by_cases current : queue.dequeue = position
  · exact returns_take (current ▸ here)
  · have observed : access counting queue party (queue.phase party) =
        some (.quiet, queue.turn party (.popSequence queue.dequeue)) := by
      rw [here]
      exact if_neg current
    exact .of_access observed (returns_popSequence (turn_phase ..) (ready.resolve_right current))

/-- Where the memory is ready for it, a call running alone returns. -/
theorem returns_of_ready (ready : queue.Ready counting (queue.phase party)) :
    queue.Returns counting party := by
  cases here : queue.phase party with
  | idle => exact returns_of_idle here
  | pushLoad _ => rw [here] at ready; exact returns_load here ready
  | pushSequence _ position =>
      rw [here] at ready
      cases order : counting.difference (queue.slots (counting.place position)).sequence
          position with
      | eq =>
          refine .of_access (by rw [here, access, order]) (returns_pushExchange (turn_phase ..) ?_)
          exact ready.imp_right fun late => absurd late.1 (by rw [order]; decide)
      | lt =>
          refine .of_access (by rw [here, access, order]) (returns_pushFull (turn_phase ..) ?_)
          exact ready.imp_right And.right
      | gt =>
          refine .of_access (by rw [here, access, order]) (returns_load (turn_phase ..) ?_)
          exact ready.resolve_right fun late => absurd late.1 (by rw [order]; decide)
  | pushExchange _ _ => rw [here] at ready; exact returns_pushExchange here ready
  | pushWrite _ _ => exact returns_write here
  | pushPublish _ => exact returns_publish here
  | pushFull _ _ => rw [here] at ready; exact returns_pushFull here ready
  | popLoad => rw [here] at ready; exact returns_popLoad here ready
  | popSequence position =>
      rw [here] at ready
      cases order : counting.difference (queue.slots (counting.place position)).sequence
          (counting.next position) with
      | eq =>
          refine .of_access (by rw [here, access, order]) (returns_popExchange (turn_phase ..) ?_)
          exact ready.imp_right fun late => absurd late.1 (by rw [order]; decide)
      | lt =>
          refine .of_access (by rw [here, access, order]) (returns_popEmpty (turn_phase ..) ?_)
          exact ready.imp_right And.right
      | gt =>
          refine .of_access (by rw [here, access, order]) (returns_popLoad (turn_phase ..) ?_)
          exact ready.resolve_right fun late => absurd late.1 (by rw [order]; decide)
  | popExchange _ => rw [here] at ready; exact returns_popExchange here ready
  | popRead _ => exact returns_read here
  | popRelease _ _ => exact returns_release here
  | popEmpty _ => rw [here] at ready; exact returns_popEmpty here ready

/-! ### Calls that wait for ever -/

/-- A call that finds nothing ready changes no memory, and finds nothing ready next. -/
theorem unready_access (unready : ¬ queue.Ready counting (queue.phase party))
    (accessed : access counting queue party (queue.phase party) = some (event, next)) :
    ¬ next.Ready counting (next.phase party) := by
  cases here : queue.phase party with
  | idle | pushWrite _ _ | pushPublish _ | popRead _ | popRelease _ _ =>
      rw [here] at unready; exact absurd trivial unready
  | pushLoad frame =>
      rw [here] at unready accessed
      cases accessed
      rw [turn_phase]
      rintro (ready | ⟨late, full⟩)
      · exact unready ready
      · exact unready (readyPush_of_full late full)
  | pushSequence frame position =>
      rw [here] at unready accessed
      simp only [access] at accessed
      split at accessed
      · rename_i order
        cases accessed
        rw [turn_phase]
        rintro (ready | current)
        · exact unready (Or.inl ready)
        · exact unready (Or.inl (readyPush_of_vacant current order))
      · rename_i order
        cases accessed
        rw [turn_phase]
        rintro (ready | full)
        · exact unready (Or.inl ready)
        · exact unready (Or.inr ⟨order, full⟩)
      · cases accessed
        rw [turn_phase]
        exact fun ready => unready (Or.inl ready)
  | pushExchange frame position =>
      rw [here] at unready accessed
      simp only [access] at accessed
      split at accessed
      · rename_i current
        exact absurd (Or.inr current) unready
      · cases accessed
        rw [turn_phase]
        rintro (ready | ⟨late, full⟩)
        · exact unready (Or.inl ready)
        · exact unready (Or.inl (readyPush_of_full late full))
  | pushFull frame position =>
      rw [here] at unready accessed
      simp only [access] at accessed
      split at accessed
      · rename_i full
        exact absurd (Or.inr full) unready
      · cases accessed
        rw [turn_phase]
        exact fun ready => unready (Or.inl ready)
  | popLoad =>
      rw [here] at unready accessed
      cases accessed
      rw [turn_phase]
      rintro (ready | ⟨late, empty⟩)
      · exact unready ready
      · exact unready (readyPop_of_empty late empty)
  | popSequence position =>
      rw [here] at unready accessed
      simp only [access] at accessed
      split at accessed
      · rename_i order
        cases accessed
        rw [turn_phase]
        rintro (ready | current)
        · exact unready (Or.inl ready)
        · exact unready (Or.inl (readyPop_of_published current order))
      · rename_i order
        cases accessed
        rw [turn_phase]
        rintro (ready | empty)
        · exact unready (Or.inl ready)
        · exact unready (Or.inr ⟨order, empty⟩)
      · cases accessed
        rw [turn_phase]
        exact fun ready => unready (Or.inl ready)
  | popExchange position =>
      rw [here] at unready accessed
      simp only [access] at accessed
      split at accessed
      · rename_i current
        exact absurd (Or.inr current) unready
      · cases accessed
        rw [turn_phase]
        rintro (ready | ⟨late, empty⟩)
        · exact unready (Or.inl ready)
        · exact unready (Or.inl (readyPop_of_empty late empty))
  | popEmpty position =>
      rw [here] at unready accessed
      simp only [access] at accessed
      split at accessed
      · rename_i empty
        exact absurd (Or.inr empty) unready
      · cases accessed
        rw [turn_phase]
        exact fun ready => unready (Or.inl ready)

/-- In every state, a call that runs alone returns where the memory is ready for it, and
nowhere else. -/
theorem returns_iff_ready :
    queue.Returns counting party ↔ queue.Ready counting (queue.phase party) := by
  constructor
  · rintro ⟨count, trace, final, reached, idle⟩
    by_contra unready
    induction count generalizing queue trace with
    | zero =>
        cases reached
        rw [idle] at unready
        exact unready trivial
    | succ count ih =>
        rw [List.replicate_succ] at reached
        obtain ⟨event, next, rest, stepEq, runEq, -⟩ :=
          (machine counting).run_cons_eq_some.mp reached
        exact ih rest runEq (unready_access unready stepEq)
  · exact returns_of_ready

end

/-! ### Parties in the way -/

/-- A pop has taken the last ticket of the slot that the next push needs, and not released
it. -/
def StuckPush (counting : Counting Counter) (queue : TicketQueue Party Counter Frame) : Prop :=
  ∃ other position, (queue.phase other).take = some position ∧
    counting.lap position = queue.enqueue

/-- A push has claimed the position the next pop needs, and not published it. -/
def StuckPop (queue : TicketQueue Party Counter Frame) : Prop :=
  ∃ other, (queue.phase other).claim = some queue.dequeue

/-- Another party stands in the way of a call in this phase. -/
def Stuck (counting : Counting Counter) (queue : TicketQueue Party Counter Frame) :
    TicketPhase Counter Frame → Prop
  | .pushLoad _ => queue.StuckPush counting
  | .pushSequence _ _ => queue.StuckPush counting
  | .pushExchange _ _ => queue.StuckPush counting
  | .pushFull _ _ => queue.StuckPush counting
  | .popLoad => queue.StuckPop
  | .popSequence _ => queue.StuckPop
  | .popExchange _ => queue.StuckPop
  | .popEmpty _ => queue.StuckPop
  | _ => False

section Numbers

variable {capacity : Nat} {behind : Nat → Nat → Bool} {ledger : Ledger Party Frame}
  {queue : TicketQueue Party Nat Frame}

section

variable (sound : Sound capacity ledger queue)

include sound

/-- The slot of the next position is vacant, or the queue full, unless a pop still reads
it. -/
theorem Sound.readyPush_iff (wide : 2 ≤ capacity)
    (near : ∀ one two, one < two → two ≤ one + capacity → behind one two = true) :
    queue.ReadyPush (Counting.tickets capacity behind) ↔
      ¬ queue.StuckPush (Counting.tickets capacity behind) := by
  have ordered := sound.ordered
  have bounded := sound.bounded
  by_cases full : queue.enqueue = queue.dequeue + capacity
  · refine iff_of_true ?_ ?_
    · refine readyPush_of_full ?_ full.symm
      have place : queue.enqueue % capacity = queue.dequeue % capacity := by
        rw [full, Nat.add_mod_right]
      have sequence : (queue.slots (queue.enqueue % capacity)).sequence = queue.dequeue ∨
          (queue.slots (queue.enqueue % capacity)).sequence = queue.dequeue + 1 := by
        rw [place]
        exact (sound.waiting queue.dequeue (Nat.le_refl _) (by omega)).imp And.right And.left
      show (if (queue.slots (queue.enqueue % capacity)).sequence = queue.enqueue then Ordering.eq
        else if behind (queue.slots (queue.enqueue % capacity)).sequence queue.enqueue then .lt
        else .gt) = .lt
      rw [if_neg (by omega), near _ _ (by omega) (by omega)]
      rfl
    · rintro ⟨other, old, taken, lap⟩
      have past := (sound.takes other old taken).1
      have lap : old + capacity = queue.enqueue := lap
      omega
  · rcases sound.vacant queue.enqueue (Nat.le_refl _) (by omega) with
      same | ⟨other, old, taken, lap, same⟩
    · refine iff_of_true ?_ ?_
      · exact readyPush_of_vacant rfl (if_pos same)
      · rintro ⟨other, old, taken, lap⟩
        have read := (sound.takes other old taken).2.2
        have lap : old + capacity = queue.enqueue := lap
        rw [← lap, Nat.add_mod_right] at same
        omega
    · refine iff_of_false (fun ready => ?_) (fun free => free ⟨other, old, taken, lap⟩)
      have differs : (queue.slots (queue.enqueue % capacity)).sequence ≠ queue.enqueue := by
        omega
      have notFull : queue.dequeue + capacity ≠ queue.enqueue := fun same => full same.symm
      simp only [ReadyPush, Counting.tickets, if_neg differs] at ready
      split at ready
      · rename_i order
        split at order <;> cases order
      · exact notFull ready
      · exact ready

/-- The slot of the next ticket is published, or the queue empty, unless a push still writes
it. -/
theorem Sound.readyPop_iff (wide : 2 ≤ capacity)
    (near : ∀ one two, one < two → two ≤ one + capacity → behind one two = true) :
    queue.ReadyPop (Counting.tickets capacity behind) ↔ ¬ queue.StuckPop := by
  have ordered := sound.ordered
  have bounded := sound.bounded
  by_cases empty : queue.enqueue = queue.dequeue
  · refine iff_of_true ?_ ?_
    · refine readyPop_of_empty ?_ empty
      have sequence : (queue.slots (queue.dequeue % capacity)).sequence = queue.dequeue ∨
          ∃ old, old + capacity = queue.dequeue ∧
            (queue.slots (queue.dequeue % capacity)).sequence = old + 1 := by
        refine (sound.vacant queue.dequeue (Nat.le_of_eq empty) (by omega)).imp_right ?_
        rintro ⟨_, old, _, lap, same⟩
        exact ⟨old, lap, same⟩
      have low : (queue.slots (queue.dequeue % capacity)).sequence < queue.dequeue + 1 ∧
          queue.dequeue + 1 ≤ (queue.slots (queue.dequeue % capacity)).sequence + capacity := by
        rcases sequence with same | ⟨old, lap, same⟩ <;> omega
      show (if (queue.slots (queue.dequeue % capacity)).sequence = queue.dequeue + 1
        then Ordering.eq
        else if behind (queue.slots (queue.dequeue % capacity)).sequence (queue.dequeue + 1)
        then .lt else .gt) = .lt
      rw [if_neg (by omega), near _ _ low.1 low.2]
      rfl
    · rintro ⟨other, claimed⟩
      have high := (sound.claims other _ claimed).2.1
      omega
  · rcases sound.waiting queue.dequeue (Nat.le_refl _) (by omega) with
      ⟨⟨other, claimed⟩, same⟩ | ⟨same, -⟩
    · refine iff_of_false (fun ready => ?_) (fun free => free ⟨other, claimed⟩)
      have differs : (queue.slots (queue.dequeue % capacity)).sequence ≠ queue.dequeue + 1 := by
        omega
      simp only [ReadyPop, Counting.tickets, if_neg differs] at ready
      split at ready
      · rename_i order
        split at order <;> cases order
      · exact empty ready
      · exact ready
    · refine iff_of_true (readyPop_of_published rfl (if_pos same)) ?_
      rintro ⟨other, claimed⟩
      have waits := (sound.claims other _ claimed).2.2
      omega

/-- A party that works with an older position is as ready as one that begins. -/
theorem Sound.ready_iff (wide : 2 ≤ capacity)
    (near : ∀ one two, one < two → two ≤ one + capacity → behind one two = true) (party : Party) :
    queue.Ready (Counting.tickets capacity behind) (queue.phase party) ↔
      ¬ queue.Stuck (Counting.tickets capacity behind) (queue.phase party) := by
  have ordered := sound.ordered
  have bounded := sound.bounded
  have push := sound.readyPush_iff wide near
  have pop := sound.readyPop_iff wide near
  have remembered := sound.remembers party
  -- a full queue keeps no released slot from a push, nor an empty one from a pop
  have full : ∀ {position}, position ≤ queue.enqueue → queue.dequeue + capacity = position →
      queue.ReadyPush (Counting.tickets capacity behind) := by
    rintro position seen rfl
    refine push.mpr ?_
    rintro ⟨other, old, taken, lap⟩
    have past := (sound.takes other old taken).1
    have lap : old + capacity = queue.enqueue := lap
    omega
  have empty : ∀ {position}, position ≤ queue.dequeue → queue.enqueue = position →
      queue.ReadyPop (Counting.tickets capacity behind) := by
    rintro position seen rfl
    refine pop.mpr ?_
    rintro ⟨other, claimed⟩
    have high := (sound.claims other _ claimed).2.1
    omega
  cases here : queue.phase party with
  | idle | pushWrite _ _ | pushPublish _ | popRead _ | popRelease _ _ =>
      exact iff_of_true trivial id
  | pushLoad _ => exact push
  | popLoad => exact pop
  | pushSequence _ position =>
      rw [here] at remembered
      exact (or_iff_left_of_imp fun late => full remembered late.2).trans push
  | pushFull _ position =>
      rw [here] at remembered
      exact (or_iff_left_of_imp fun late => full remembered late).trans push
  | pushExchange _ position =>
      rw [here] at remembered
      refine (or_iff_left_of_imp fun current => ?_).trans push
      have current : queue.enqueue = position := current
      exact readyPush_of_vacant current (if_pos (remembered.2 (Nat.le_of_eq current)))
  | popSequence position =>
      rw [here] at remembered
      exact (or_iff_left_of_imp fun late => empty remembered late.2).trans pop
  | popEmpty position =>
      rw [here] at remembered
      exact (or_iff_left_of_imp fun late => empty remembered late).trans pop
  | popExchange position =>
      rw [here] at remembered
      refine (or_iff_left_of_imp fun current => ?_).trans pop
      have current : queue.dequeue = position := current
      exact readyPop_of_published current (if_pos (remembered.2 (Nat.le_of_eq current)))

end

end Numbers

/-! ### Wrapped counters -/

section Words

variable {capacity limit : Nat} {counting : Counting Counter}
  (wrapping : Wrapping capacity limit counting) {ledger : Ledger Party Frame}
  {queue : TicketQueue Party Nat Frame}

section

variable (sound : Sound capacity ledger queue)

include sound

theorem Sound.readyPush_map (positive : 0 < capacity) :
    (queue.map wrapping.wrap).ReadyPush counting ↔
      queue.ReadyPush (Counting.tickets capacity wrapping.behind) := by
  have ordered := sound.ordered
  have bounded := sound.bounded
  have order := sound.difference_push wrapping positive (Nat.le_refl _) (Nat.le_add_right _ _)
  have lap : counting.lap (queue.map wrapping.wrap).dequeue =
      (queue.map wrapping.wrap).enqueue ↔ queue.dequeue + capacity = queue.enqueue := by
    show counting.lap (wrapping.wrap queue.dequeue) = wrapping.wrap queue.enqueue ↔ _
    rw [wrapping.lap]
    exact wrapping.wrap_eq_iff (by omega) (by omega)
  have order : counting.difference ((queue.map wrapping.wrap).slots
      (counting.place (queue.map wrapping.wrap).enqueue)).sequence
      (queue.map wrapping.wrap).enqueue = _ := order
  rw [ReadyPush, ReadyPush, order]
  cases (Counting.tickets capacity wrapping.behind).difference
    (queue.slots ((Counting.tickets capacity wrapping.behind).place queue.enqueue)).sequence
    queue.enqueue with
  | eq => rfl
  | lt => exact lap
  | gt => rfl

theorem Sound.readyPop_map (positive : 0 < capacity) :
    (queue.map wrapping.wrap).ReadyPop counting ↔
      queue.ReadyPop (Counting.tickets capacity wrapping.behind) := by
  have ordered := sound.ordered
  have bounded := sound.bounded
  have order := sound.difference_pop wrapping positive (Nat.le_refl queue.dequeue)
    (Nat.le_add_right_of_le bounded)
  have same : (queue.map wrapping.wrap).enqueue = (queue.map wrapping.wrap).dequeue ↔
      queue.enqueue = queue.dequeue := wrapping.wrap_eq_iff (by omega) (by omega)
  have order : counting.difference ((queue.map wrapping.wrap).slots
      (counting.place (queue.map wrapping.wrap).dequeue)).sequence
      (counting.next (queue.map wrapping.wrap).dequeue) = _ := order
  rw [ReadyPop, ReadyPop, order]
  cases (Counting.tickets capacity wrapping.behind).difference
    (queue.slots ((Counting.tickets capacity wrapping.behind).place queue.dequeue)).sequence
    ((Counting.tickets capacity wrapping.behind).next queue.dequeue) with
  | eq => rfl
  | lt => exact same
  | gt => rfl

theorem Sound.stuckPush_map :
    (queue.map wrapping.wrap).StuckPush counting ↔
      queue.StuckPush (Counting.tickets capacity wrapping.behind) := by
  have ordered := sound.ordered
  constructor
  · rintro ⟨other, position, taken, lap⟩
    obtain ⟨old, own, rfl⟩ := Option.map_eq_some_iff.mp
      ((take_map wrapping.wrap (queue.phase other)).symm.trans taken)
    obtain ⟨low, high, -⟩ := sound.takes other old own
    rw [wrapping.lap] at lap
    have same : old + capacity = queue.enqueue :=
      (wrapping.wrap_eq_iff (by omega) (by omega)).mp lap
    exact ⟨other, old, own, same⟩
  · rintro ⟨other, old, taken, lap⟩
    refine ⟨other, wrapping.wrap old, ?_, ?_⟩
    · show ((queue.phase other).map wrapping.wrap).take = _
      rw [take_map, taken]
      rfl
    · rw [wrapping.lap]
      exact congrArg wrapping.wrap lap

theorem Sound.stuckPop_map :
    (queue.map wrapping.wrap).StuckPop ↔ queue.StuckPop := by
  have bounded := sound.bounded
  constructor
  · rintro ⟨other, claimed⟩
    obtain ⟨ticket, own, same⟩ := Option.map_eq_some_iff.mp
      ((claim_map wrapping.wrap (queue.phase other)).symm.trans claimed)
    obtain ⟨low, high, -⟩ := sound.claims other ticket own
    have same : ticket = queue.dequeue :=
      (wrapping.wrap_eq_iff (by omega) (by omega)).mp same
    exact ⟨other, same ▸ own⟩
  · rintro ⟨other, claimed⟩
    refine ⟨other, ?_⟩
    show ((queue.phase other).map wrapping.wrap).claim = _
    rw [claim_map, claimed]
    rfl

/-- While its position is recent, a party is ready in words where it is in numbers. -/
theorem Sound.ready_map (positive : 0 < capacity) (party : Party)
    (within : queue.Within capacity limit (queue.phase party)) :
    (queue.map wrapping.wrap).Ready counting ((queue.phase party).map wrapping.wrap) ↔
      queue.Ready (Counting.tickets capacity wrapping.behind) (queue.phase party) := by
  have ordered := sound.ordered
  have bounded := sound.bounded
  have push := sound.readyPush_map wrapping positive
  have pop := sound.readyPop_map wrapping positive
  have remembered := sound.remembers party
  cases here : queue.phase party with
  | idle | pushWrite _ _ | pushPublish _ | popRead _ | popRelease _ _ => exact Iff.rfl
  | pushLoad _ => exact push
  | popLoad => exact pop
  | pushSequence _ position =>
      rw [here] at within remembered
      have read : queue.enqueue ≤ position + limit := within
      have seen : position ≤ queue.enqueue := remembered
      refine or_congr push (and_congr ?_ ?_)
      · rw [sound.difference_push wrapping positive seen read]
      · show counting.lap (wrapping.wrap queue.dequeue) = wrapping.wrap position ↔ _
        rw [wrapping.lap]
        exact wrapping.wrap_eq_iff (by omega) (by omega)
  | pushExchange _ position =>
      rw [here] at within remembered
      have read : queue.enqueue ≤ position + limit := within
      have seen : position ≤ queue.enqueue := remembered.1
      exact or_congr push (wrapping.wrap_eq_iff (by omega) (by omega))
  | pushFull _ position =>
      rw [here] at within remembered
      have read : queue.enqueue ≤ position + limit := within
      have seen : position ≤ queue.enqueue := remembered
      refine or_congr push ?_
      show counting.lap (wrapping.wrap queue.dequeue) = wrapping.wrap position ↔ _
      rw [wrapping.lap]
      exact wrapping.wrap_eq_iff (by omega) (by omega)
  | popSequence position =>
      rw [here] at within remembered
      have read : queue.enqueue ≤ position + capacity + limit := within
      have seen : position ≤ queue.dequeue := remembered
      refine or_congr pop (and_congr ?_ (wrapping.wrap_eq_iff (by omega) (by omega)))
      rw [sound.difference_pop wrapping positive seen read]
  | popExchange position =>
      rw [here] at within remembered
      have read : queue.enqueue ≤ position + capacity + limit := within
      have seen : position ≤ queue.dequeue := remembered.1
      exact or_congr pop (wrapping.wrap_eq_iff (by omega) (by omega))
  | popEmpty position =>
      rw [here] at within remembered
      have read : queue.enqueue ≤ position + capacity + limit := within
      have seen : position ≤ queue.dequeue := remembered
      exact or_congr pop (wrapping.wrap_eq_iff (by omega) (by omega))

theorem Sound.stuck_map (phase : TicketPhase Nat Frame) :
    (queue.map wrapping.wrap).Stuck counting (phase.map wrapping.wrap) ↔
      queue.Stuck (Counting.tickets capacity wrapping.behind) phase := by
  cases phase with
  | pushLoad _ | pushSequence _ _ | pushExchange _ _ | pushFull _ _ =>
      exact sound.stuckPush_map wrapping
  | popLoad | popSequence _ | popExchange _ | popEmpty _ => exact sound.stuckPop_map wrapping
  | _ => exact Iff.rfl

end

/-- In a paced run the memory is ready for a call unless a party stands in its way. -/
theorem Mirrored.ready_iff [DecidableEq Party] [DecidableEq Frame]
    {wrapping : Wrapping capacity limit counting}
    {trace : List ((Party × TicketAction Frame) × TicketEvent Frame)}
    {state : TicketQueue Party Counter Frame} (wide : 2 ≤ capacity)
    (mirrored : Mirrored wrapping trace state) (paced : Paced limit trace) (party : Party) :
    state.Ready counting (state.phase party) ↔ ¬ state.Stuck counting (state.phase party) := by
  obtain ⟨ledger, queue, entered, sound, recent, rfl⟩ := mirrored
  have positive : 0 < capacity := Nat.lt_of_lt_of_le Nat.zero_lt_two wide
  have ready := sound.ready_map wrapping positive party (recent.within paced party)
  have stuck := sound.stuck_map wrapping (queue.phase party)
  have near : ∀ one two, one < two → two ≤ one + capacity → wrapping.behind one two = true := by
    intro one two less lap
    rw [Wrapping.behind, wrapping.late one two less lap]
    rfl
  exact ready.trans ((sound.ready_iff wide near party).trans (not_congr stuck.symm))

end Words

end TicketQueue

end Hyperloader.Foundations
