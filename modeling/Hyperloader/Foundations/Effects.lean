/-
Module: Hyperloader.Foundations.Effects
Purpose: Calls that change a state and keep it where they fail, and the rules that put what each
  of their steps ensures together, of one call alone and of two calls side by side.
Trusted boundary: none
Main exports:
  Ensures, ensures_bind, ensures_tryCatch, bind_eq_ok_iff, Ensures.weaken, Preserves,
  preserves_bind, Answers, Refines, refines_bind
-/
import Mathlib.Logic.Basic

namespace Hyperloader.Foundations

universe u

variable {Error State Value Next : Type u}

/-- What a call leaves: `returns` of its value and state, or `fails` of its error and state. -/
def Ensures (effect : EStateM Error State Value) (before : State)
    (returns : Value → State → Prop) (fails : Error → State → Prop) : Prop :=
  match effect before with
  | .ok value after => returns value after
  | .error error after => fails error after

variable {effect : EStateM Error State Value} {before : State}
  {returns : Value → State → Prop} {fails : Error → State → Prop}

variable {value : Value} {after : State}

theorem ensures_ok_iff (done : effect before = .ok value after) :
    Ensures effect before returns fails ↔ returns value after := by
  unfold Ensures
  rw [done]

theorem ensures_error_iff {error : Error} (failed : effect before = .error error after) :
    Ensures effect before returns fails ↔ fails error after := by
  unfold Ensures
  rw [failed]

theorem ensures_pure (holds : returns value before) :
    Ensures (pure value) before returns fails := holds

theorem ensures_throw {error : Error} (holds : fails error before) :
    Ensures (throw error : EStateM Error State Value) before returns fails := holds

variable {change : State → State}

theorem ensures_modify {returns : PUnit → State → Prop} (holds : returns ⟨⟩ (change before)) :
    Ensures (modify change : EStateM Error State PUnit) before returns fails := holds

variable {returns' : Value → State → Prop} {fails' : Error → State → Prop}

theorem Ensures.weaken (ensured : Ensures effect before returns fails)
    (returned : ∀ value after, returns value after → returns' value after)
    (failed : ∀ error after, fails error after → fails' error after) :
    Ensures effect before returns' fails' := by
  unfold Ensures at ensured ⊢
  cases done : effect before with
  | ok value after =>
      rw [done] at ensured
      exact returned value after ensured
  | error error after =>
      rw [done] at ensured
      exact failed error after ensured

theorem Ensures.and (one : Ensures effect before returns fails)
    (two : Ensures effect before returns' fails') :
    Ensures effect before (fun value after => returns value after ∧ returns' value after)
      (fun error after => fails error after ∧ fails' error after) := by
  unfold Ensures at one two ⊢
  cases done : effect before with
  | ok value after | error error after =>
      rw [done] at one two
      exact ⟨one, two⟩

variable {next : Value → EStateM Error State Next}

variable {returns' : Next → State → Prop}

/-- A step whose answer is known. -/
theorem ensures_step (done : effect before = .ok value after)
    (rest : Ensures (next value) after returns' fails) :
    Ensures (effect >>= next) before returns' fails := by
  have through : (effect >>= next) before = next value after := by
    show EStateM.bind effect next before = _
    unfold EStateM.bind
    rw [done]
  unfold Ensures at rest ⊢
  rw [through]
  exact rest

theorem ensures_bind {next : Value → EStateM Error State Next}
    {returns' : Next → State → Prop} (first : Ensures effect before returns fails)
    (then_ : ∀ value after, returns value after → Ensures (next value) after returns' fails) :
    Ensures (effect >>= next) before returns' fails := by
  unfold Ensures at first
  cases done : effect before with
  | ok value after =>
      rw [done] at first
      exact ensures_step done (then_ value after first)
  | error error after =>
      rw [done] at first
      have through : (effect >>= next) before = .error error after := by
        show EStateM.bind effect next before = _
        unfold EStateM.bind
        rw [done]
      exact (ensures_error_iff through).mpr first

theorem bind_eq_ok_iff {result : Next} {final : State} :
    (effect >>= next) before = .ok result final ↔
      ∃ value after, effect before = .ok value after ∧ next value after = .ok result final := by
  show EStateM.bind effect next before = _ ↔ _
  unfold EStateM.bind
  cases done : effect before with
  | ok value after =>
      constructor
      · intro rest
        exact ⟨value, after, rfl, rest⟩
      · rintro ⟨_, _, same, rest⟩
        cases same
        exact rest
  | error error after =>
      constructor
      · intro impossible
        cases impossible
      · rintro ⟨_, _, impossible, _⟩
        cases impossible

/-- A fallible value among the steps of a call. -/
theorem ofExcept_eq_ok_iff {result : Except Error Value} :
    (MonadExcept.ofExcept result : EStateM Error State Value) before = .ok value after ↔
      result = .ok value ∧ after = before := by
  cases result with
  | error failure =>
      constructor
      · intro impossible
        cases impossible
      · rintro ⟨impossible, _⟩
        cases impossible
  | ok held =>
      constructor
      · intro same
        cases same
        exact ⟨rfl, rfl⟩
      · rintro ⟨same, rfl⟩
        cases same
        rfl

theorem ensures_modify_bind {next : PUnit → EStateM Error State Value}
    (rest : Ensures (next ⟨⟩) (change before) returns fails) :
    Ensures (modify change >>= next) before returns fails := ensures_step rfl rest

theorem ensures_get {next : State → EStateM Error State Value}
    (holds : Ensures (next before) before returns fails) :
    Ensures (get >>= next) before returns fails := holds

theorem ensures_map {change : Value → Next}
    (ensured : Ensures effect before (fun value after => returns' (change value) after) fails) :
    Ensures (change <$> effect) before returns' fails := by
  unfold Ensures at ensured ⊢
  cases done : effect before with
  | ok value after =>
      have through : (change <$> effect) before = .ok (change value) after := by
        show EStateM.map change effect before = _
        unfold EStateM.map
        rw [done]
      rw [done] at ensured
      rw [through]
      exact ensured
  | error error after =>
      have through : (change <$> effect) before = .error error after := by
        show EStateM.map change effect before = _
        unfold EStateM.map
        rw [done]
      rw [done] at ensured
      rw [through]
      exact ensured

variable {handler : Error → EStateM Error State Value}

theorem ensures_tryCatch {failing : Error → State → Prop}
    (first : Ensures effect before returns failing)
    (handled : ∀ error after, failing error after → Ensures (handler error) after returns fails) :
    Ensures (tryCatch effect handler) before returns fails := by
  unfold Ensures at first
  cases done : effect before with
  | ok value after =>
      rw [done] at first
      have through : (tryCatch effect handler) before = .ok value after := by
        show EStateM.tryCatch effect handler before = _
        unfold EStateM.tryCatch
        rw [done]
      exact (ensures_ok_iff through).mpr first
  | error error after =>
      rw [done] at first
      have through : (tryCatch effect handler) before = handler error after := by
        show EStateM.tryCatch effect handler before = _
        unfold EStateM.tryCatch
        rw [done]
        rfl
      have rest := handled error after first
      unfold Ensures at rest ⊢
      rw [through]
      exact rest

variable {condition : Prop} {other : EStateM Error State Value}

/-- A choice ensures what both its branches do. -/
theorem ensures_ite [Decidable condition] (holds : condition → Ensures effect before returns fails)
    (otherwise : ¬condition → Ensures other before returns fails) :
    Ensures (if condition then effect else other) before returns fails := by
  split
  · rename_i yes
    exact holds yes
  · rename_i no
    exact otherwise no

/-! ### State predicates -/

/-- A call keeps a predicate of the state, whether it returns or fails. -/
def Preserves (invariant : State → Prop) (effect : EStateM Error State Value) : Prop :=
  ∀ before, invariant before → Ensures effect before (fun _ => invariant) fun _ => invariant

section Preserves

variable {invariant : State → Prop}

theorem preserves_pure (value : Value) :
    Preserves invariant (pure value : EStateM Error State Value) := fun _ holds => holds

theorem preserves_throw (error : Error) :
    Preserves invariant (throw error : EStateM Error State Value) := fun _ holds => holds

theorem preserves_bind (first : Preserves invariant effect)
    (rest : ∀ value, Preserves invariant (next value)) :
    Preserves invariant (effect >>= next) := fun before holds =>
  ensures_bind (first before holds) fun value after kept => rest value after kept

theorem preserves_get {next : State → EStateM Error State Value}
    (rest : ∀ state, Preserves invariant (next state)) : Preserves invariant (get >>= next) :=
  fun before holds => ensures_get (rest before before holds)

theorem preserves_modify (keeps : ∀ state, invariant state → invariant (change state)) :
    Preserves invariant (modify change : EStateM Error State PUnit) := fun before holds =>
  ensures_modify (keeps before holds)

theorem preserves_map {change : Value → Next} (first : Preserves invariant effect) :
    Preserves invariant (change <$> effect) := fun before holds => ensures_map (first before holds)

theorem preserves_tryCatch (first : Preserves invariant effect)
    (handled : ∀ error, Preserves invariant (handler error)) :
    Preserves invariant (tryCatch effect handler) := fun before holds =>
  ensures_tryCatch (first before holds) fun error after kept => handled error after kept

theorem preserves_ite [Decidable condition] (holds : Preserves invariant effect)
    (otherwise : Preserves invariant other) :
    Preserves invariant (if condition then effect else other) := by
  split
  · exact holds
  · exact otherwise

end Preserves

/-! ### Two calls side by side -/

section Refines

variable {Other : Type u}

/-- Two outcomes agree: the same value or the same error, and related states. -/
def Answers (related : State → Other → Prop) :
    EStateM.Result Error State Value → EStateM.Result Error Other Value → Prop
  | .ok one after, .ok two after' => one = two ∧ related after after'
  | .error one after, .error two after' => one = two ∧ related after after'
  | _, _ => False

/-- From related states both calls come to the same, and leave related states. -/
def Refines (related : State → Other → Prop) (effect : EStateM Error State Value)
    (spec : EStateM Error Other Value) : Prop :=
  ∀ before other, related before other → Answers related (effect before) (spec other)

variable {related : State → Other → Prop} {spec : EStateM Error Other Value}

theorem refines_pure (value : Value) :
    Refines related (pure value : EStateM Error State Value)
      (pure value : EStateM Error Other Value) := fun _ _ holds => ⟨rfl, holds⟩

theorem refines_throw (error : Error) :
    Refines related (throw error : EStateM Error State Value)
      (throw error : EStateM Error Other Value) := fun _ _ holds => ⟨rfl, holds⟩

theorem refines_bind {specNext : Value → EStateM Error Other Next}
    (first : Refines related effect spec)
    (rest : ∀ value, Refines related (next value) (specNext value)) :
    Refines related (effect >>= next) (spec >>= specNext) := by
  intro before other holds
  have one := first before other holds
  show Answers related (EStateM.bind effect next before) (EStateM.bind spec specNext other)
  unfold EStateM.bind
  cases here : effect before with
  | ok value after =>
      rw [here] at one
      cases there : spec other with
      | ok value' after' =>
          rw [there] at one
          obtain ⟨rfl, kept⟩ := one
          exact rest value after after' kept
      | error error after' =>
          rw [there] at one
          cases one
  | error error after =>
      rw [here] at one
      cases there : spec other with
      | ok value' after' =>
          rw [there] at one
          cases one
      | error error' after' =>
          rw [there] at one
          exact one

/-- Only its first step sees the state a sequence starts from. -/
theorem bind_congr_state {before' : State} (same : effect before = effect before')
    (next : Value → EStateM Error State Next) :
    (effect >>= next) before = (effect >>= next) before' := by
  show EStateM.bind effect next before = EStateM.bind effect next before'
  unfold EStateM.bind
  rw [same]

variable {related' : State → Other → Prop}

theorem Answers.weaken {one : EStateM.Result Error State Value}
    {two : EStateM.Result Error Other Value} (answers : Answers related one two)
    (weaker : ∀ after other, related after other → related' after other) :
    Answers related' one two := by
  cases one with
  | ok value after =>
      cases two with
      | ok value' after' => exact ⟨answers.1, weaker after after' answers.2⟩
      | error error after' => cases answers
  | error error after =>
      cases two with
      | ok value' after' => cases answers
      | error error' after' => exact ⟨answers.1, weaker after after' answers.2⟩

/-- What a call ensures of its state strengthens the relation it leaves. -/
theorem Answers.strengthen {kept : State → Prop} {result : EStateM.Result Error Other Value}
    (answers : Answers related (effect before) result)
    (ensured : Ensures effect before (fun _ => kept) fun _ => kept)
    (stronger : ∀ after other, related after other → kept after → related' after other) :
    Answers related' (effect before) result := by
  unfold Ensures at ensured
  cases here : effect before with
  | ok value after =>
      rw [here] at answers ensured
      cases result with
      | ok value' after' => exact ⟨answers.1, stronger after after' answers.2 ensured⟩
      | error error after' => cases answers
  | error error after =>
      rw [here] at answers ensured
      cases result with
      | ok value' after' => cases answers
      | error error' after' => exact ⟨answers.1, stronger after after' answers.2 ensured⟩

/-- A call that keeps a predicate refines itself under it. -/
theorem refines_self_iff {invariant : State → Prop} :
    Refines (fun one two => one = two ∧ invariant one) effect effect ↔
      Preserves invariant effect := by
  constructor
  · intro refines before holds
    have self := refines before before ⟨rfl, holds⟩
    unfold Ensures
    cases done : effect before with
    | ok value after | error error after =>
        rw [done] at self
        exact self.2.2
  · rintro preserves before _ ⟨rfl, holds⟩
    have ensured := preserves before holds
    unfold Ensures at ensured
    cases done : effect before with
    | ok value after | error error after =>
        rw [done] at ensured
        exact ⟨rfl, rfl, ensured⟩

theorem refines_ite [Decidable condition] {effect' : EStateM Error State Value}
    {spec' : EStateM Error Other Value} (holds : Refines related effect spec)
    (otherwise : Refines related effect' spec') :
    Refines related (if condition then effect else effect')
      (if condition then spec else spec') := by
  split
  · exact holds
  · exact otherwise

end Refines

end Hyperloader.Foundations
