/-
Module: Hyperloader.Random.WordStream
Purpose: Draws from the Philox core of the module-level `random`, process/random_surface.py: which
  words of a coordinate's stream they read, how a saved state goes on, and what a new sample cuts
  off.
Trusted boundary: floating-point arithmetic, with the Box-Muller pair of `random.Random.gauss`;
  the words by which `random.Random.seed` chooses a key.
Main exports:
  PhiloxRandom, Session, Session.machine, Reader, philox_random_stream
-/
import Hyperloader.Foundations.Effects
import Hyperloader.Foundations.Transition
import Hyperloader.Random.Surfaces

namespace Hyperloader.Random.WordStream

open Foundations Process

/-- Arithmetic in floating point: the uniform value of 53 bits, the cosine and sine values that
`random.Random.gauss` makes of two uniform ones (Box-Muller), and a value moved to a mean and a
deviation. -/
structure Arithmetic (Real : Type) where
  uniform : Nat → Real
  boxMuller : Real → Real → Real × Real
  scaled : Real → Real → Real → Real

inductive Failure where
  | exhausted
  | negativeBits
  | invalidState

/-! ### Draws -/

section Draws

variable {Real State : Type} (nextWord : EStateM Failure State UInt32)

/-- One 53-bit uniform value from two words. -/
def random (floats : Arithmetic Real) : EStateM Failure State Real := do
  let upper ← nextWord
  let lower ← nextWord
  return floats.uniform ((upper.toNat >>> 5) * 67108864 + (lower.toNat >>> 6))

/-- The loop of `getrandbits`. -/
def gather (k result produced : Nat) : EStateM Failure State Nat :=
  if produced < k then do
    let width := min 32 (k - produced)
    let word ← nextWord
    let word := if width < 32 then word.toNat >>> (32 - width) else word.toNat
    gather k (result ||| (word <<< produced)) (produced + width)
  else
    pure result
termination_by k - produced
decreasing_by omega

def getrandbits (k : Int) : EStateM Failure State Nat :=
  if k < 0 then throw .negativeBits
  else if k = 0 then pure 0
  else gather nextWord k.toNat 0 0

/-- `random.Random.gauss`: a cached value is used up, or two values are drawn and one is cached. -/
def gauss (floats : Arithmetic Real) (takeCache : EStateM Failure State (Option Real))
    (putCache : Real → EStateM Failure State PUnit) (mu sigma : Real) :
    EStateM Failure State Real := do
  match ← takeCache with
  | some z => return floats.scaled mu z sigma
  | none =>
      let one ← random nextWord floats
      let two ← random nextWord floats
      putCache (floats.boxMuller one two).2
      return floats.scaled mu (floats.boxMuller one two).1 sigma

inductive Draw (Real : Type) where
  | random
  | getrandbits (k : Int)
  | gauss (mu sigma : Real)

inductive Drawn (Real : Type) where
  | value (value : Real)
  | bits (bits : Nat)

def perform (floats : Arithmetic Real) (takeCache : EStateM Failure State (Option Real))
    (putCache : Real → EStateM Failure State PUnit) : Draw Real → EStateM Failure State (Drawn Real)
  | .random => do return .value (← random nextWord floats)
  | .getrandbits k => do return .bits (← getrandbits nextWord k)
  | .gauss mu sigma => do return .value (← gauss nextWord floats takeCache putCache mu sigma)

end Draws

/-! ### The surface -/

/-- What `getstate` returns. -/
structure SavedState (Real : Type) where
  key : UInt64
  coord : UInt64
  nextBlock : Nat
  words : List UInt32
  wordOffset : Nat
  gaussNext : Option Real

structure PhiloxRandom (Real : Type) where
  streamId : UInt32
  armed : Option Nat
  key : UInt64
  coord : UInt64
  nextBlock : Nat
  words : List UInt32
  wordOffset : Nat
  gaussNext : Option Real

namespace PhiloxRandom

variable {Real : Type}

def new (streamId : UInt32) : PhiloxRandom Real :=
  { streamId, armed := none, key := 0, coord := 0, nextBlock := 0, words := [], wordOffset := 0,
    gaussNext := none }

def rekey (surface : PhiloxRandom Real) (key coord : UInt64) : PhiloxRandom Real :=
  { surface with
    key := key, coord := coord, nextBlock := 0, words := [], wordOffset := 0, gaussNext := none }

/-- `_ensure_armed`; a surface with no `CurrentSample` is one where no sample is ever installed. -/
def ensureArmed (surface : PhiloxRandom Real) : Option Install → PhiloxRandom Real
  | none => surface
  | some sample =>
      if surface.armed = some sample.token then surface
      else
        { surface.rekey sample.stream.key sample.stream.coordinate with
          armed := some sample.token }

/-- The part of `_next_word` after arming. -/
def takeWord : EStateM Failure (PhiloxRandom Real) UInt32 := fun surface =>
  if surface.wordOffset = surface.words.length then
    if surface.nextBlock = DRAW_LIMIT then .error .exhausted surface
    else
      let words := Random.PhiloxRandom.blockWords (blockFromKey surface.key surface.coord
        (UInt32.ofNat surface.nextBlock) surface.streamId)
      .ok words[0]!
        { surface with words := words, nextBlock := surface.nextBlock + 1, wordOffset := 1 }
  else
    .ok surface.words[surface.wordOffset]! { surface with wordOffset := surface.wordOffset + 1 }

/-- `_next_word` -/
def nextWord (current : Option Install) : EStateM Failure (PhiloxRandom Real) UInt32 :=
  fun surface => takeWord (surface.ensureArmed current)

/-- `gauss` arms before it reads the cache, and empties it. -/
def takeCache (current : Option Install) : EStateM Failure (PhiloxRandom Real) (Option Real) :=
  fun surface =>
    let surface := surface.ensureArmed current
    .ok surface.gaussNext { surface with gaussNext := none }

def putCache (value : Real) : EStateM Failure (PhiloxRandom Real) PUnit :=
  fun surface => .ok ⟨⟩ { surface with gaussNext := some value }

def saved (surface : PhiloxRandom Real) : SavedState Real :=
  { key := surface.key
    coord := surface.coord
    nextBlock := surface.nextBlock
    words := surface.words
    wordOffset := surface.wordOffset
    gaussNext := surface.gaussNext }

/-- The checks of `setstate`. -/
def Accepts (saved : SavedState Real) : Prop :=
  saved.nextBlock ≤ DRAW_LIMIT ∧ saved.wordOffset ≤ saved.words.length ∧ saved.words.length ≤ 4

instance (saved : SavedState Real) : Decidable (Accepts saved) := by
  unfold Accepts
  infer_instance

/-- `setstate` after its checks; a word has 32 bits already. -/
def restored (surface : PhiloxRandom Real) (current : Option Install) (saved : SavedState Real) :
    PhiloxRandom Real :=
  { surface with
    armed := current.map Install.token
    key := saved.key
    coord := saved.coord
    nextBlock := saved.nextBlock
    words := saved.words
    wordOffset := saved.wordOffset
    gaussNext := saved.gaussNext }

end PhiloxRandom

/-! ### Sessions -/

inductive Call (Real : Type) where
  | draw (draw : Draw Real)
  | install (stream : RngStream)
  | getstate
  | setstate (saved : SavedState Real)
  /-- `key` is what the standard generator draws once it is seeded -/
  | seed (key : UInt64)

inductive Answer (Real : Type) where
  | drawn (drawn : Drawn Real)
  | saved (saved : SavedState Real)
  | done
  | failed (failure : Failure)

/-- The surface with the installed sample; every install is a new object. -/
structure Session (Real : Type) where
  surface : PhiloxRandom Real
  current : Option Install
  installs : Nat

namespace Session

variable {Real : Type} (floats : Arithmetic Real)

def new (surface : PhiloxRandom Real) : Session Real :=
  { surface, current := none, installs := 0 }

def machine : Machine (Session Real) (Call Real) (Answer Real) where
  step
    | session, .draw draw =>
        match perform (PhiloxRandom.nextWord session.current) floats
            (PhiloxRandom.takeCache session.current) PhiloxRandom.putCache draw
            session.surface with
        | .ok drawn surface => some (.drawn drawn, { session with surface })
        | .error failure surface => some (.failed failure, { session with surface })
    | session, .install stream =>
        some (.done,
          { session with
            current := some ⟨session.installs, stream⟩, installs := session.installs + 1 })
    | session, .getstate =>
        let surface := session.surface.ensureArmed session.current
        some (.saved surface.saved, { session with surface })
    | session, .setstate saved =>
        if PhiloxRandom.Accepts saved then
          some (.done, { session with surface := session.surface.restored session.current saved })
        else some (.failed .invalidState, session)
    | session, .seed key =>
        some (.done,
          { session with
            surface := { session.surface.rekey key 0 with
              armed := session.current.map Install.token } })

end Session

/-! ### The stream, read word by word -/

/-- A place in the words of a coordinate, in order, with the cached Gaussian value. -/
structure Reader (Real : Type) where
  streamId : UInt32
  key : UInt64
  coord : UInt64
  position : Nat
  gaussNext : Option Real

def WORD_LIMIT : Nat := 4 * DRAW_LIMIT

namespace Reader

variable {Real : Type}

/-- The words of the coordinate's blocks, one block after the other. -/
def word (reader : Reader Real) (index : Nat) : UInt32 :=
  (Random.PhiloxRandom.blockWords (blockFromKey reader.key reader.coord
    (UInt32.ofNat (index / 4)) reader.streamId))[index % 4]!

def nextWord : EStateM Failure (Reader Real) UInt32 := fun reader =>
  if reader.position = WORD_LIMIT then .error .exhausted reader
  else .ok (reader.word reader.position) { reader with position := reader.position + 1 }

def takeCache : EStateM Failure (Reader Real) (Option Real) :=
  fun reader => .ok reader.gaussNext { reader with gaussNext := none }

def putCache (value : Real) : EStateM Failure (Reader Real) PUnit :=
  fun reader => .ok ⟨⟩ { reader with gaussNext := some value }

/-- What draws answer, one after the other. -/
def answers (floats : Arithmetic Real) : Reader Real → List (Draw Real) → List (Answer Real)
  | _, [] => []
  | reader, draw :: draws =>
      match perform nextWord floats takeCache putCache draw reader with
      | .ok drawn reader => .drawn drawn :: answers floats reader draws
      | .error failure reader => .failed failure :: answers floats reader draws

end Reader

/-! ### Draws over two word sources -/

section Side

variable {Real State Other : Type} {related : State → Other → Prop}
  {nextWord : EStateM Failure State UInt32} {nextWord' : EStateM Failure Other UInt32}

theorem refines_random (floats : Arithmetic Real) (words : Refines related nextWord nextWord') :
    Refines related (random nextWord floats) (random nextWord' floats) := by
  refine refines_bind words fun upper => ?_
  exact refines_bind words fun lower => refines_pure _

theorem refines_gather (words : Refines related nextWord nextWord') (k result produced : Nat) :
    Refines related (gather nextWord k result produced) (gather nextWord' k result produced) := by
  induction left : k - produced using Nat.strong_induction_on generalizing result produced with
  | _ left ih =>
      unfold gather
      by_cases more : produced < k
      · rw [if_pos more, if_pos more]
        refine refines_bind words fun word => ?_
        exact ih _ (by omega) _ _ rfl
      · rw [if_neg more, if_neg more]
        exact refines_pure result

theorem refines_getrandbits (words : Refines related nextWord nextWord') (k : Int) :
    Refines related (getrandbits nextWord k) (getrandbits nextWord' k) := by
  refine refines_ite (refines_throw _) (refines_ite (refines_pure 0) ?_)
  exact refines_gather words k.toNat 0 0

theorem refines_perform (floats : Arithmetic Real) (words : Refines related nextWord nextWord')
    {takeCache : EStateM Failure State (Option Real)}
    {takeCache' : EStateM Failure Other (Option Real)}
    (caches : Refines related takeCache takeCache') {putCache : Real → EStateM Failure State PUnit}
    {putCache' : Real → EStateM Failure Other PUnit}
    (puts : ∀ value, Refines related (putCache value) (putCache' value)) (draw : Draw Real) :
    Refines related (perform nextWord floats takeCache putCache draw)
      (perform nextWord' floats takeCache' putCache' draw) := by
  cases draw with
  | random => exact refines_bind (refines_random floats words) fun value => refines_pure _
  | getrandbits k => exact refines_bind (refines_getrandbits words k) fun bits => refines_pure _
  | gauss mu sigma =>
      refine refines_bind ?_ fun value => refines_pure _
      refine refines_bind caches fun cached => ?_
      cases cached with
      | some z => exact refines_pure _
      | none =>
          refine refines_bind (refines_random floats words) fun one => ?_
          refine refines_bind (refines_random floats words) fun two => ?_
          exact refines_bind (puts _) fun _ => refines_pure _

end Side

/-! ### The surface reads the stream -/

section

variable {Real : Type}

/-- An armed surface at a place of its stream: the buffer holds the words of the block before
`nextBlock`, and the offset is the place in it. -/
structure Reads (surface : PhiloxRandom Real) (reader : Reader Real) : Prop where
  streamId : surface.streamId = reader.streamId
  key : surface.key = reader.key
  coord : surface.coord = reader.coord
  gaussNext : surface.gaussNext = reader.gaussNext
  nextBlock : surface.nextBlock ≤ DRAW_LIMIT
  position : reader.position + surface.words.length = 4 * surface.nextBlock + surface.wordOffset
  inside : surface.wordOffset ≤ surface.words.length
  buffer : (surface.nextBlock = 0 ∧ surface.words = []) ∨
    ∃ block, surface.nextBlock = block + 1 ∧
      surface.words = Random.PhiloxRandom.blockWords
        (blockFromKey reader.key reader.coord (UInt32.ofNat block) reader.streamId)

theorem length_blockWords (counter : Counter) :
    (Random.PhiloxRandom.blockWords counter).length = 4 := rfl

theorem reads_fresh {surface : PhiloxRandom Real} (key coord : UInt64) (token : Option Nat) :
    Reads { surface.rekey key coord with armed := token }
      { streamId := surface.streamId, key, coord, position := 0, gaussNext := none } :=
  { streamId := rfl
    key := rfl
    coord := rfl
    gaussNext := rfl
    nextBlock := Nat.zero_le _
    position := rfl
    inside := Nat.le_refl _
    buffer := Or.inl ⟨rfl, rfl⟩ }

theorem word_block (reader : Reader Real) {block offset : Nat} (inside : offset < 4) :
    reader.word (4 * block + offset) = (Random.PhiloxRandom.blockWords
      (blockFromKey reader.key reader.coord (UInt32.ofNat block) reader.streamId))[offset]! := by
  have quotient : (4 * block + offset) / 4 = block := by omega
  have remainder : (4 * block + offset) % 4 = offset := by omega
  unfold Reader.word
  rw [quotient, remainder]

/-- A surface takes the words that a reader of its stream reads. -/
theorem refines_takeWord : Refines (@Reads Real) PhiloxRandom.takeWord Reader.nextWord := by
  intro surface reader reads
  have position := reads.position
  have limit := reads.nextBlock
  have inside := reads.inside
  unfold PhiloxRandom.takeWord Reader.nextWord
  by_cases used : surface.wordOffset = surface.words.length
  · have place : reader.position = 4 * surface.nextBlock := by omega
    rw [if_pos used]
    by_cases last : surface.nextBlock = DRAW_LIMIT
    · rw [if_pos last, if_pos (by rw [place, last]; rfl)]
      exact ⟨rfl, reads⟩
    · have more : reader.position ≠ WORD_LIMIT := by
        unfold WORD_LIMIT
        omega
      rw [if_neg last, if_neg more]
      have first := @word_block Real reader surface.nextBlock 0 (by decide)
      refine ⟨?_, ?_⟩
      · rw [place, reads.key, reads.coord, reads.streamId]
        exact first.symm
      · exact
          { reads with
            nextBlock := Nat.succ_le_of_lt (Nat.lt_of_le_of_ne limit last)
            position := by
              rw [length_blockWords]
              dsimp only
              omega
            inside := by
              rw [length_blockWords]
              dsimp only
              omega
            buffer :=
              Or.inr ⟨surface.nextBlock, rfl, by rw [reads.key, reads.coord, reads.streamId]⟩ }
  · rw [if_neg used]
    rcases reads.buffer with ⟨-, none⟩ | ⟨block, next, words⟩
    · rw [none] at inside used
      exact absurd (Nat.le_zero.mp inside) used
    · have sized : surface.words.length = 4 := by rw [words, length_blockWords]
      have small : surface.wordOffset < 4 := by omega
      have place : reader.position = 4 * block + surface.wordOffset := by omega
      have more : reader.position ≠ WORD_LIMIT := by
        unfold WORD_LIMIT
        omega
      rw [if_neg more]
      refine ⟨?_, ?_⟩
      · rw [place, word_block reader small, words]
      · exact
          { reads with
            position := by
              dsimp only
              omega
            inside := by
              dsimp only
              omega }

/-! ### Arming -/

namespace PhiloxRandom

variable {surface other : PhiloxRandom Real} {current : Option Install}

/-- The surface is armed with the installed sample, if there is one. -/
def Settled (surface : PhiloxRandom Real) (current : Option Install) : Prop :=
  ∀ sample, current = some sample → surface.armed = some sample.token

theorem settled_ensureArmed (surface : PhiloxRandom Real) (current : Option Install) :
    (surface.ensureArmed current).Settled current := by
  rintro sample rfl
  by_cases armed : surface.armed = some sample.token
  · rw [PhiloxRandom.ensureArmed, if_pos armed]
    exact armed
  · rw [PhiloxRandom.ensureArmed, if_neg armed]

theorem Settled.ensureArmed (settled : surface.Settled current) :
    surface.ensureArmed current = surface := by
  cases current with
  | none => rfl
  | some sample => exact if_pos (settled sample rfl)

theorem takeWord_armed (surface : PhiloxRandom Real) :
    Ensures takeWord surface (fun _ after => after.armed = surface.armed)
      fun _ after => after.armed = surface.armed := by
  unfold Ensures takeWord
  by_cases used : surface.wordOffset = surface.words.length
  · by_cases last : surface.nextBlock = DRAW_LIMIT
    · rw [if_pos used, if_pos last]
    · rw [if_pos used, if_neg last]
  · rw [if_neg used]

theorem ensureArmed_idem (surface : PhiloxRandom Real) (current : Option Install) :
    (surface.ensureArmed current).ensureArmed current = surface.ensureArmed current :=
  (settled_ensureArmed surface current).ensureArmed

/-- A relation of settled surfaces that taking a word keeps is kept by `_next_word`. -/
theorem refines_nextWord {Other : Type} {related : PhiloxRandom Real → Other → Prop}
    {spec : EStateM Failure Other UInt32} (words : Refines related takeWord spec) :
    Refines (fun surface other => surface.Settled current ∧ related surface other)
      (nextWord current) spec := by
  rintro surface other ⟨settled, holds⟩
  unfold nextWord
  rw [settled.ensureArmed]
  refine (words surface other holds).strengthen (takeWord_armed surface) ?_
  exact fun after other kept armed => ⟨fun sample same => armed.trans (settled sample same), kept⟩

theorem nextWord_ensureArmed (surface : PhiloxRandom Real) (current : Option Install) :
    nextWord current surface = nextWord current (surface.ensureArmed current) := by
  unfold nextWord
  rw [ensureArmed_idem]

theorem random_ensureArmed (floats : Arithmetic Real) (surface : PhiloxRandom Real)
    (current : Option Install) :
    random (nextWord current) floats surface =
      random (nextWord current) floats (surface.ensureArmed current) :=
  bind_congr_state (nextWord_ensureArmed surface current) _

/-- Every draw arms the surface first, but for the ones that need no word. -/
theorem perform_ensureArmed (floats : Arithmetic Real) (surface : PhiloxRandom Real)
    (current : Option Install) {draw : Draw Real} (reads : ∀ k ≤ 0, draw ≠ .getrandbits k) :
    perform (nextWord current) floats (takeCache current) putCache draw surface =
      perform (nextWord current) floats (takeCache current) putCache draw
        (surface.ensureArmed current) := by
  cases draw with
  | random => exact bind_congr_state (random_ensureArmed floats surface current) _
  | getrandbits k =>
      have positive : ¬ k ≤ 0 := fun below => reads k below rfl
      refine bind_congr_state ?_ _
      unfold getrandbits gather
      rw [if_neg (by omega), if_neg (by omega), if_pos (by omega)]
      exact bind_congr_state (nextWord_ensureArmed surface current) _
  | gauss mu sigma =>
      refine bind_congr_state (bind_congr_state ?_ _) _
      unfold takeCache
      rw [ensureArmed_idem]

end PhiloxRandom

/-- Every draw is one from the stream. -/
theorem refines_draw (floats : Arithmetic Real) (current : Option Install) (draw : Draw Real) :
    Refines (fun surface reader => PhiloxRandom.Settled surface current ∧ Reads surface reader)
      (perform (PhiloxRandom.nextWord current) floats (PhiloxRandom.takeCache current)
        PhiloxRandom.putCache draw)
      (perform Reader.nextWord floats Reader.takeCache Reader.putCache draw) := by
  refine refines_perform floats (PhiloxRandom.refines_nextWord refines_takeWord) ?_ ?_ draw
  · rintro surface reader ⟨settled, reads⟩
    unfold PhiloxRandom.takeCache
    rw [settled.ensureArmed]
    exact ⟨reads.gaussNext, settled, { reads with gaussNext := rfl }⟩
  · rintro value surface reader ⟨settled, reads⟩
    exact ⟨rfl, settled, { reads with gaussNext := rfl }⟩

/-- A draw that needs no word leaves the surface as it is. -/
theorem perform_wordless {State : Type} (nextWord : EStateM Failure State UInt32)
    (floats : Arithmetic Real) (takeCache : EStateM Failure State (Option Real))
    (putCache : Real → EStateM Failure State PUnit) {k : Int} (none : k ≤ 0) (state : State) :
    perform nextWord floats takeCache putCache (.getrandbits k) state =
      if k < 0 then .error .negativeBits state else .ok (.bits 0) state := by
  by_cases negative : k < 0
  · have thrown : getrandbits nextWord k = throw .negativeBits := if_pos negative
    show (getrandbits nextWord k >>= fun bits => pure (Drawn.bits bits)) state = _
    rw [thrown, if_pos negative]
    rfl
  · have zero : k = 0 := by omega
    subst zero
    rfl

theorem wordless_or (draw : Draw Real) :
    (∃ k ≤ 0, draw = .getrandbits k) ∨ ∀ k ≤ 0, draw ≠ .getrandbits k := by
  by_cases none : ∃ k ≤ 0, draw = .getrandbits k
  · exact Or.inl none
  · exact Or.inr fun k below same => none ⟨k, below, same⟩

variable {surface : PhiloxRandom Real} {current : Option Install}

/-- Wherever the surface stands in its stream once armed, a draw answers what the stream does and
leaves the surface where the stream is. -/
theorem answers_draw (floats : Arithmetic Real) {reader : Reader Real}
    (reads : Reads (surface.ensureArmed current) reader) (draw : Draw Real) :
    Answers (fun surface reader => Reads (PhiloxRandom.ensureArmed surface current) reader)
      (perform (PhiloxRandom.nextWord current) floats (PhiloxRandom.takeCache current)
        PhiloxRandom.putCache draw surface)
      (perform Reader.nextWord floats Reader.takeCache Reader.putCache draw reader) := by
  rcases wordless_or draw with ⟨k, none, rfl⟩ | words
  · rw [perform_wordless _ _ _ _ none, perform_wordless _ _ _ _ none]
    split
    · exact ⟨rfl, reads⟩
    · exact ⟨rfl, reads⟩
  · rw [PhiloxRandom.perform_ensureArmed floats surface current words]
    have settled := PhiloxRandom.settled_ensureArmed surface current
    refine (refines_draw floats current draw _ reader ⟨settled, reads⟩).weaken ?_
    rintro after reader ⟨settled, reads⟩
    rw [settled.ensureArmed]
    exact reads

/-! ### Two surfaces with one content -/

/-- The same stream and place, whatever sample the surfaces are armed with. -/
structure Alike (one two : PhiloxRandom Real) : Prop where
  same : { one with armed := none } = { two with armed := none }

namespace PhiloxRandom

theorem refines_takeWord_alike (token token' : Option Nat) :
    Refines (fun one two : PhiloxRandom Real =>
      one.armed = token ∧ two.armed = token' ∧ Alike one two) takeWord takeWord := by
  rintro ⟨streamId, armed, key, coord, nextBlock, words, wordOffset, gaussNext⟩
    ⟨streamId', armed', key', coord', nextBlock', words', wordOffset', gaussNext'⟩
    ⟨here, there, ⟨same⟩⟩
  cases same
  unfold takeWord
  by_cases used : wordOffset = words.length
  · by_cases last : nextBlock = DRAW_LIMIT
    · rw [if_pos used, if_pos last, if_pos used, if_pos last]
      exact ⟨rfl, here, there, ⟨rfl⟩⟩
    · rw [if_pos used, if_neg last, if_pos used, if_neg last]
      exact ⟨rfl, here, there, ⟨rfl⟩⟩
  · rw [if_neg used, if_neg used]
    exact ⟨rfl, here, there, ⟨rfl⟩⟩

variable {one two : PhiloxRandom Real} {current current' : Option Install}

theorem refines_nextWord_alike :
    Refines (fun one two : PhiloxRandom Real =>
      one.Settled current ∧ two.Settled current' ∧ Alike one two)
      (nextWord current) (nextWord current') := by
  rintro one two ⟨settled, settled', alike⟩
  unfold nextWord
  rw [settled.ensureArmed, settled'.ensureArmed]
  refine (refines_takeWord_alike one.armed two.armed one two ⟨rfl, rfl, alike⟩).weaken ?_
  rintro after after' ⟨kept, kept', alike⟩
  exact ⟨fun sample same => kept.trans (settled sample same),
    fun sample same => kept'.trans (settled' sample same), alike⟩

theorem refines_draw_alike (floats : Arithmetic Real) (draw : Draw Real) :
    Refines (fun one two : PhiloxRandom Real =>
      one.Settled current ∧ two.Settled current' ∧ Alike one two)
      (perform (nextWord current) floats (takeCache current) putCache draw)
      (perform (nextWord current') floats (takeCache current') putCache draw) := by
  refine refines_perform floats refines_nextWord_alike ?_ ?_ draw
  · rintro one two ⟨settled, settled', alike⟩
    unfold takeCache
    rw [settled.ensureArmed, settled'.ensureArmed]
    have content := alike.same
    simp only [PhiloxRandom.mk.injEq, true_and] at content
    exact ⟨by simp [content], settled, settled', ⟨by simp [content]⟩⟩
  · rintro value one two ⟨settled, settled', alike⟩
    have content := alike.same
    simp only [PhiloxRandom.mk.injEq, true_and] at content
    exact ⟨rfl, settled, settled', ⟨by simp [content]⟩⟩

theorem answers_draw_alike (floats : Arithmetic Real)
    (alike : Alike (one.ensureArmed current) (two.ensureArmed current')) (draw : Draw Real) :
    Answers (fun one two : PhiloxRandom Real =>
      Alike (one.ensureArmed current) (two.ensureArmed current'))
      (perform (nextWord current) floats (takeCache current) putCache draw one)
      (perform (nextWord current') floats (takeCache current') putCache draw two) := by
  rcases wordless_or draw with ⟨k, none, rfl⟩ | words
  · rw [perform_wordless _ _ _ _ none, perform_wordless _ _ _ _ none]
    split
    · exact ⟨rfl, alike⟩
    · exact ⟨rfl, alike⟩
  · rw [perform_ensureArmed floats one current words, perform_ensureArmed floats two current' words]
    have settled := settled_ensureArmed one current
    have settled' := settled_ensureArmed two current'
    refine (refines_draw_alike floats draw _ _ ⟨settled, settled', alike⟩).weaken ?_
    rintro after after' ⟨settled, settled', alike⟩
    rw [settled.ensureArmed, settled'.ensureArmed]
    exact alike

end PhiloxRandom

/-! ### Sessions of any calls -/

/-- The buffer is as `setstate` checks it, and the surface knows installed samples only. -/
structure PhiloxRandom.Held (streamId : UInt32) (installs : Nat) (surface : PhiloxRandom Real) :
    Prop where
  stream : surface.streamId = streamId
  armed : ∀ token, surface.armed = some token → token < installs
  nextBlock : surface.nextBlock ≤ DRAW_LIMIT
  offset : surface.wordOffset ≤ surface.words.length
  words : surface.words.length ≤ 4

namespace PhiloxRandom

variable {streamId : UInt32} {installs : Nat}

theorem Held.ensureArmed (held : surface.Held streamId installs)
    (known : ∀ sample, current = some sample → sample.token < installs) :
    (surface.ensureArmed current).Held streamId installs := by
  cases current with
  | none => exact held
  | some sample =>
      unfold PhiloxRandom.ensureArmed
      dsimp only
      split
      · exact held
      · refine ⟨held.stream, ?_, Nat.zero_le _, Nat.le_refl _, Nat.zero_le _⟩
        rintro token ⟨⟩
        exact known sample rfl

theorem preserves_takeWord :
    Preserves (fun surface : PhiloxRandom Real => surface.Held streamId installs) takeWord := by
  intro surface held
  have limit := held.nextBlock
  have inside := held.offset
  unfold Ensures takeWord
  by_cases used : surface.wordOffset = surface.words.length
  · by_cases last : surface.nextBlock = DRAW_LIMIT
    · rw [if_pos used, if_pos last]
      exact held
    · rw [if_pos used, if_neg last]
      exact
        { held with
          nextBlock := Nat.succ_le_of_lt (Nat.lt_of_le_of_ne limit last)
          offset := by
            rw [length_blockWords]
            dsimp only
            omega
          words := Nat.le_refl 4 }
  · rw [if_neg used]
    exact { held with offset := Nat.succ_le_of_lt (Nat.lt_of_le_of_ne inside used) }

theorem preserves_draw (floats : Arithmetic Real)
    (known : ∀ sample, current = some sample → sample.token < installs) (draw : Draw Real) :
    Preserves (fun surface : PhiloxRandom Real => surface.Held streamId installs)
      (perform (nextWord current) floats (takeCache current) putCache draw) := by
  refine refines_self_iff.mp (refines_perform floats ?_ ?_ ?_ draw)
  · refine refines_self_iff.mpr fun surface held => ?_
    exact preserves_takeWord _ (held.ensureArmed known)
  · refine refines_self_iff.mpr fun surface held => ?_
    exact { held.ensureArmed known with }
  · exact fun value => refines_self_iff.mpr fun surface held => { held with }

end PhiloxRandom

namespace Session

variable {floats : Arithmetic Real} {session : Session Real} {streamId : UInt32}

structure Sound (streamId : UInt32) (session : Session Real) : Prop where
  surface : session.surface.Held streamId session.installs
  current : ∀ sample, session.current = some sample → sample.token < session.installs

theorem sound_new (streamId : UInt32) (key coord : UInt64) :
    (new ((PhiloxRandom.new streamId).rekey key coord) : Session Real).Sound streamId :=
  ⟨⟨rfl, nofun, Nat.zero_le _, Nat.le_refl _, Nat.zero_le _⟩, nofun⟩

theorem Sound.step (sound : session.Sound streamId) {call : Call Real} {answer : Answer Real}
    {after : Session Real} (step : (machine floats).step session call = some (answer, after)) :
    after.Sound streamId := by
  cases call with
  | draw draw =>
      have kept := PhiloxRandom.preserves_draw floats sound.current draw _ sound.surface
      unfold Ensures at kept
      simp only [machine] at step
      split at step
      · rename_i done
        cases step
        rw [done] at kept
        exact ⟨kept, sound.current⟩
      · rename_i done
        cases step
        rw [done] at kept
        exact ⟨kept, sound.current⟩
  | install stream =>
      cases step
      refine ⟨{ sound.surface with armed := ?_ }, ?_⟩
      · exact fun token armed => Nat.lt_succ_of_lt (sound.surface.armed token armed)
      · rintro sample ⟨⟩
        exact Nat.lt_succ_self _
  | getstate =>
      cases step
      exact ⟨sound.surface.ensureArmed sound.current, sound.current⟩
  | setstate saved =>
      simp only [machine] at step
      split at step
      · rename_i accepted
        cases step
        refine ⟨⟨sound.surface.stream, ?_, accepted.1, accepted.2.1, accepted.2.2⟩, sound.current⟩
        intro token armed
        obtain ⟨sample, currentEq, rfl⟩ := Option.map_eq_some_iff.mp armed
        exact sound.current sample currentEq
      · cases step
        exact sound
  | seed key =>
      cases step
      refine ⟨⟨sound.surface.stream, ?_, Nat.zero_le _, Nat.le_refl _, Nat.zero_le _⟩,
        sound.current⟩
      intro token armed
      obtain ⟨sample, currentEq, rfl⟩ := Option.map_eq_some_iff.mp armed
      exact sound.current sample currentEq

/-- Every run keeps a session sound. -/
theorem sound_run {after : Session Real} {calls : List (Call Real)}
    {trace : List (Call Real × Answer Real)} (sound : session.Sound streamId)
    (reached : (machine floats).run session calls = some (trace, after)) : after.Sound streamId :=
  (machine floats).run_invariant (fun _ _ _ _ sound _ step => sound.step step) sound
    ((machine floats).along_true _ _) reached

/-! ### Sessions with one content -/

/-- The surface once it is armed. -/
def armed (session : Session Real) : PhiloxRandom Real :=
  session.surface.ensureArmed session.current

structure Twin (streamId : UInt32) (one two : Session Real) : Prop where
  first : one.Sound streamId
  second : two.Sound streamId
  alike : Alike one.armed two.armed

/-- A new sample is a new object, so the surface starts on its stream. -/
theorem Sound.armed_install (sound : session.Sound streamId) (stream : RngStream) :
    armed { session with
      current := some ⟨session.installs, stream⟩, installs := session.installs + 1 } =
      { session.surface.rekey stream.key stream.coordinate with armed := some session.installs } :=
  if_neg fun stale => Nat.lt_irrefl _ (sound.surface.armed _ stale)

theorem alike_install {one two : Session Real} (first : one.Sound streamId) (second : two.Sound streamId)
    (stream : RngStream) :
    Alike
      (armed { one with
        current := some ⟨one.installs, stream⟩, installs := one.installs + 1 })
      (armed { two with
        current := some ⟨two.installs, stream⟩, installs := two.installs + 1 }) := by
  rw [first.armed_install, second.armed_install]
  unfold PhiloxRandom.rekey
  rw [first.surface.stream, second.surface.stream]
  exact ⟨rfl⟩

/-- A surface that is armed with the installed sample already stays as it is. -/
theorem armed_of_token (token : surface.armed = current.map Install.token) :
    surface.ensureArmed current = surface := by
  refine PhiloxRandom.Settled.ensureArmed ?_
  rintro sample rfl
  exact token

theorem saved_of_alike {one two : PhiloxRandom Real} (alike : Alike one two) :
    one.saved = two.saved := by
  have content := congrArg PhiloxRandom.saved alike.same
  exact content

/-- The draw of a session. -/
def performed (floats : Arithmetic Real) (session : Session Real) (draw : Draw Real) :
    EStateM.Result Failure (PhiloxRandom Real) (Drawn Real) :=
  perform (PhiloxRandom.nextWord session.current) floats (PhiloxRandom.takeCache session.current)
    PhiloxRandom.putCache draw session.surface

theorem step_drawn {draw : Draw Real} {drawn : Drawn Real}
    (done : performed floats session draw = .ok drawn surface) :
    (machine floats).step session (.draw draw) =
      some (.drawn drawn, { session with surface }) := by
  unfold performed at done
  simp only [machine]
  rw [done]

theorem step_failed {draw : Draw Real} {failure : Failure}
    (done : performed floats session draw = .error failure surface) :
    (machine floats).step session (.draw draw) =
      some (.failed failure, { session with surface }) := by
  unfold performed at done
  simp only [machine]
  rw [done]

theorem bisimilar (floats : Arithmetic Real) (streamId : UInt32) :
    Machine.Bisimulation (fun _ => True) (machine floats) (machine floats) (@Twin Real streamId) := by
  rintro one two call - twin
  have streams := twin.first.surface.stream.trans twin.second.surface.stream.symm
  have kept : ∀ {answer answer' : Answer Real} {after after' : Session Real},
      (machine floats).step one call = some (answer, after) →
      (machine floats).step two call = some (answer', after') →
      answer = answer' → Alike after.armed after'.armed →
      Option.Rel (fun left right => left.1 = right.1 ∧ Twin streamId left.2 right.2)
        ((machine floats).step one call) ((machine floats).step two call) := by
    intro answer answer' after after' first second same alike
    rw [first, second]
    exact .some ⟨same, ⟨twin.first.step first, twin.second.step second, alike⟩⟩
  cases call with
  | draw draw =>
      have same := PhiloxRandom.answers_draw_alike floats twin.alike draw
      change Answers _ (performed floats one draw) (performed floats two draw) at same
      cases here : performed floats one draw with
      | ok drawn after =>
          cases there : performed floats two draw with
          | ok drawn' after' =>
              rw [here, there] at same
              exact kept (step_drawn here) (step_drawn there) (congrArg Answer.drawn same.1) same.2
          | error failure after' =>
              rw [here, there] at same
              cases same
      | error failure after =>
          cases there : performed floats two draw with
          | ok drawn after' =>
              rw [here, there] at same
              cases same
          | error failure' after' =>
              rw [here, there] at same
              exact kept (step_failed here) (step_failed there) (congrArg Answer.failed same.1)
                same.2
  | install stream => exact kept rfl rfl rfl (alike_install twin.first twin.second stream)
  | getstate =>
      refine kept rfl rfl (congrArg Answer.saved (saved_of_alike twin.alike)) ?_
      have idem := PhiloxRandom.ensureArmed_idem one.surface one.current
      have idem' := PhiloxRandom.ensureArmed_idem two.surface two.current
      unfold armed
      dsimp only
      rw [idem, idem']
      exact twin.alike
  | setstate saved =>
      by_cases accepted : PhiloxRandom.Accepts saved
      · have first : (machine floats).step one (.setstate saved) = some (.done, { one with
            surface := one.surface.restored one.current saved }) := if_pos accepted
        have second : (machine floats).step two (.setstate saved) = some (.done, { two with
            surface := two.surface.restored two.current saved }) := if_pos accepted
        refine kept first second rfl ?_
        unfold armed
        dsimp only
        rw [armed_of_token rfl, armed_of_token rfl]
        unfold PhiloxRandom.restored
        rw [streams]
        exact ⟨rfl⟩
      · have first : (machine floats).step one (.setstate saved) =
            some (.failed .invalidState, one) := if_neg accepted
        have second : (machine floats).step two (.setstate saved) =
            some (.failed .invalidState, two) := if_neg accepted
        exact kept first second rfl twin.alike
  | seed key =>
      refine kept rfl rfl rfl ?_
      unfold armed
      dsimp only
      rw [armed_of_token rfl, armed_of_token rfl]
      unfold PhiloxRandom.rekey
      rw [streams]
      exact ⟨rfl⟩

/-! ### Draws after a new stream -/

/-- From a place of the stream the session's draws answer as the stream does. -/
theorem answers_of_reads {reader : Reader Real} (reads : Reads session.armed reader)
    (draws : List (Draw Real)) :
    ∃ trace after, (machine floats).run session (draws.map .draw) = some (trace, after) ∧
      trace.map Prod.snd = reader.answers floats draws := by
  induction draws generalizing session reader with
  | nil => exact ⟨[], session, rfl, rfl⟩
  | cons draw draws ih =>
      have same := answers_draw floats reads draw
      change Answers _ (performed floats session draw) _ at same
      rw [List.map_cons, Reader.answers]
      cases here : performed floats session draw with
      | ok drawn surface =>
          cases there : perform Reader.nextWord floats Reader.takeCache Reader.putCache draw
              reader with
          | ok drawn' place =>
              rw [here, there] at same
              obtain ⟨rfl, reads⟩ := same
              have rest : Reads (armed { session with surface }) place := reads
              obtain ⟨trace, after, run, answers⟩ := ih rest
              refine ⟨(.draw draw, .drawn drawn) :: trace, after, ?_, ?_⟩
              · exact (machine floats).run_cons_eq_some.mpr
                  ⟨_, _, trace, step_drawn here, run, rfl⟩
              · exact congrArg (.drawn drawn :: ·) answers
          | error failure place =>
              rw [here, there] at same
              cases same
      | error failure surface =>
          cases there : perform Reader.nextWord floats Reader.takeCache Reader.putCache draw
              reader with
          | ok drawn place =>
              rw [here, there] at same
              cases same
          | error failure' place =>
              rw [here, there] at same
              obtain ⟨rfl, reads⟩ := same
              have rest : Reads (armed { session with surface }) place := reads
              obtain ⟨trace, after, run, answers⟩ := ih rest
              refine ⟨(.draw draw, .failed failure) :: trace, after, ?_, ?_⟩
              · exact (machine floats).run_cons_eq_some.mpr
                  ⟨_, _, trace, step_failed here, run, rfl⟩
              · exact congrArg (.failed failure :: ·) answers

/-- Restoring a saved state gives back the content it was saved from. -/
theorem twin_setstate {earlier later : Session Real} (first : earlier.Sound streamId)
    (second : later.Sound streamId) :
    ∃ restored, (machine floats).step later (.setstate earlier.armed.saved) =
      some (.done, restored) ∧ Twin streamId restored earlier := by
  have held : earlier.armed.Held streamId earlier.installs :=
    first.surface.ensureArmed first.current
  have accepted : PhiloxRandom.Accepts earlier.armed.saved :=
    ⟨held.nextBlock, held.offset, held.words⟩
  have step : (machine floats).step later (.setstate earlier.armed.saved) = some (.done,
      { later with surface := later.surface.restored later.current earlier.armed.saved }) :=
    if_pos accepted
  refine ⟨_, step, second.step step, first, ?_⟩
  have settled : armed { later with
      surface := later.surface.restored later.current earlier.armed.saved } =
        later.surface.restored later.current earlier.armed.saved := armed_of_token rfl
  rw [settled]
  unfold PhiloxRandom.restored PhiloxRandom.saved
  rw [second.surface.stream, ← held.stream]
  exact ⟨rfl⟩

theorem sameTraces_of_twin {one two : Session Real} (twin : Twin streamId one two) :
    Machine.SameTraces (machine floats) one (machine floats) two :=
  (bisimilar floats streamId).sameTraces twin

theorem alike_refl (surface : PhiloxRandom Real) : Alike surface surface := ⟨rfl⟩

/-- `getstate` returns the state of the armed surface and changes nothing that is drawn. -/
theorem twin_getstate {after : Session Real} {answer : Answer Real} (sound : session.Sound streamId)
    (step : (machine floats).step session .getstate = some (answer, after)) :
    answer = .saved session.armed.saved ∧ Twin streamId after session := by
  have sound' := sound.step step
  cases step
  refine ⟨rfl, sound', sound, ?_⟩
  have idem := PhiloxRandom.ensureArmed_idem session.surface session.current
  unfold armed
  dsimp only
  rw [idem]
  exact alike_refl _

/-- The stream of a coordinate from its first word. -/
def streamOf (streamId : UInt32) (key coord : UInt64) : Reader Real :=
  { streamId, key, coord, position := 0, gaussNext := none }

end Session

open Session

/-- From a rekeyed surface, and after any new sample, draws read the words of the coordinate one by
one; a saved state goes on from where it was saved whatever was called in between; and what comes
after a new sample does not depend on what came before it. -/
theorem philox_random_stream (floats : Arithmetic Real) (streamId : UInt32) :
    (∀ key coord draws, ∃ trace after,
      (machine floats).run (new ((PhiloxRandom.new streamId).rekey key coord))
        (draws.map .draw) = some (trace, after) ∧
      trace.map Prod.snd = (streamOf streamId key coord).answers floats draws) ∧
    ∀ key coord calls trace session,
      (machine floats).run (new ((PhiloxRandom.new streamId).rekey key coord)) calls =
        some (trace, session) →
      (∀ stream draws, ∃ trace after,
        (machine floats).run session (.install stream :: draws.map .draw) = some (trace, after) ∧
        trace.map Prod.snd =
          .done :: (streamOf streamId stream.key stream.coordinate).answers floats draws) ∧
      (∀ answer after, (machine floats).step session .getstate = some (answer, after) →
        ∃ saved, answer = .saved saved ∧
          Machine.SameTraces (machine floats) after (machine floats) session ∧
          ∀ between part later, (machine floats).run after between = some (part, later) →
            ∃ restored, (machine floats).step later (.setstate saved) = some (.done, restored) ∧
              Machine.SameTraces (machine floats) restored (machine floats) session) ∧
      ∀ key' coord' calls' trace' session',
        (machine floats).run (new ((PhiloxRandom.new streamId).rekey key' coord')) calls' =
          some (trace', session') →
        ∀ stream one two, (machine floats).step session (.install stream) = some one →
          (machine floats).step session' (.install stream) = some two →
          one.1 = two.1 ∧ Machine.SameTraces (machine floats) one.2 (machine floats) two.2 := by
  refine ⟨fun key coord draws => ?_, fun key coord calls trace session run => ⟨?_, ?_, ?_⟩⟩
  · exact answers_of_reads (@reads_fresh Real (PhiloxRandom.new streamId) key coord none) draws
  · intro stream draws
    have sound := sound_run (sound_new streamId key coord) run
    have reads : Reads (armed { session with
        current := some ⟨session.installs, stream⟩, installs := session.installs + 1 })
        (streamOf streamId stream.key stream.coordinate) := by
      rw [sound.armed_install, ← sound.surface.stream]
      exact reads_fresh stream.key stream.coordinate (some session.installs)
    obtain ⟨trace, after, run, answers⟩ := @answers_of_reads Real floats _ _ reads draws
    refine ⟨(.install stream, .done) :: trace, after, ?_, congrArg (Answer.done :: ·) answers⟩
    exact (machine floats).run_cons_eq_some.mpr ⟨_, _, trace, rfl, run, rfl⟩
  · intro answer after step
    have sound := sound_run (sound_new streamId key coord) run
    obtain ⟨rfl, twin⟩ := twin_getstate sound step
    refine ⟨_, rfl, sameTraces_of_twin twin, fun between part later ran => ?_⟩
    obtain ⟨restored, back, twin⟩ := twin_setstate sound (sound_run twin.first ran)
    exact ⟨restored, back, sameTraces_of_twin twin⟩
  · rintro key' coord' calls' trace' session' run' stream one two first second
    have sound := sound_run (sound_new streamId key coord) run
    have sound' := sound_run (sound_new streamId key' coord') run'
    have kept := sound.step first
    have kept' := sound'.step second
    cases first
    cases second
    exact ⟨rfl, sameTraces_of_twin ⟨kept, kept', alike_install sound sound' stream⟩⟩

end

end Hyperloader.Random.WordStream
