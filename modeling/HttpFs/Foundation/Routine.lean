namespace HttpFs

/-- A function body that works on a state and may take its error exit, in which
case it has no result but leaves the state as it is by then. -/
def Routine (σ α : Type) : Type := σ → Option α × σ

namespace Routine

variable {σ α β : Type}

instance : Monad (Routine σ) where
  pure value := fun state => (some value, state)
  bind routine next := fun state =>
    match routine state with
    | (some value, reached) => next value reached
    | (none, reached) => (none, reached)

def fail : Routine σ α := fun state => (none, state)

def modify (change : σ → σ) : Routine σ Unit := fun state => (some (), change state)

def call (step : σ → α × σ) : Routine σ α := fun state =>
  let (answer, reached) := step state
  (some answer, reached)

@[simp] theorem run_pure (value : α) (state : σ) :
    (pure value : Routine σ α) state = (some value, state) := rfl

@[simp] theorem run_fail (state : σ) :
    (fail : Routine σ α) state = (none, state) := rfl

@[simp] theorem run_modify (change : σ → σ) (state : σ) :
    modify change state = (some (), change state) := rfl

@[simp] theorem run_call (step : σ → α × σ) (state : σ) :
    call step state = (some (step state).1, (step state).2) := rfl

theorem run_bind_some {routine : Routine σ α} {state reached : σ} {value : α}
    (run : routine state = (some value, reached)) (next : α → Routine σ β) :
    (routine >>= next) state = next value reached := by
  change (match routine state with
    | (some value, reached) => next value reached
    | (none, reached) => (none, reached)) = next value reached
  rw [run]

theorem run_bind_none {routine : Routine σ α} {state reached : σ}
    (run : routine state = (none, reached)) (next : α → Routine σ β) :
    (routine >>= next) state = (none, reached) := by
  change (match routine state with
    | (some value, reached) => next value reached
    | (none, reached) => (none, reached)) = (none, reached)
  rw [run]

theorem bind_assoc {γ : Type} (routine : Routine σ α) (next : α → Routine σ β)
    (last : β → Routine σ γ) :
    (routine >>= next) >>= last = routine >>= fun value => next value >>= last := by
  funext state
  change (match (match routine state with
      | (some value, reached) => next value reached
      | (none, reached) => (none, reached)) with
    | (some value, reached) => last value reached
    | (none, reached) => (none, reached)) =
      match routine state with
      | (some value, reached) => (next value >>= last) reached
      | (none, reached) => (none, reached)
  cases routine state with
  | mk result reached => cases result <;> rfl

/-- From every state in `pre` the routine ends in `post` with its result, or in
`failed` through its error exit. -/
def Triple (pre : σ → Prop) (routine : Routine σ α) (post : α → σ → Prop)
    (failed : σ → Prop) : Prop :=
  ∀ state, pre state →
    match routine state with
    | (some value, reached) => post value reached
    | (none, reached) => failed reached

variable {pre pre' : σ → Prop} {post post' : α → σ → Prop} {failed failed' : σ → Prop}

theorem triple_pure {value : α} (holds : ∀ state, pre state → post value state) :
    Triple pre (pure value) post failed :=
  fun state start => holds state start

theorem triple_fail (holds : ∀ state, pre state → failed state) :
    Triple pre (fail : Routine σ α) post failed :=
  fun state start => holds state start

theorem triple_modify {change : σ → σ} {after : Unit → σ → Prop}
    (holds : ∀ state, pre state → after () (change state)) :
    Triple pre (modify change) after failed :=
  fun state start => holds state start

theorem triple_call {step : σ → α × σ}
    (holds : ∀ state, pre state → post (step state).1 (step state).2) :
    Triple pre (call step) post failed :=
  fun state start => holds state start

theorem triple_bind {routine : Routine σ α} {next : α → Routine σ β}
    {final : β → σ → Prop} (first : Triple pre routine post failed)
    (second : ∀ value, Triple (post value) (next value) final failed) :
    Triple pre (routine >>= next) final failed := by
  intro state start
  have reached := first state start
  cases run : routine state with
  | mk result middle =>
      rw [run] at reached
      cases result with
      | some value =>
          rw [run_bind_some run]
          exact second value middle reached
      | none =>
          rw [run_bind_none run]
          exact reached

theorem triple_assuming {fact : Prop} {routine : Routine σ α}
    (triple : fact → Triple pre routine post failed) :
    Triple (fun state => fact ∧ pre state) routine post failed :=
  fun state start => triple start.1 state start.2

theorem triple_bind_value {routine : Routine σ α} {value : α} {next : α → Routine σ β}
    {middle : σ → Prop} {final : β → σ → Prop}
    (first : Triple pre routine (fun found reached => found = value ∧ middle reached) failed)
    (second : Triple middle (next value) final failed) :
    Triple pre (routine >>= next) final failed := by
  apply triple_bind first
  intro found
  apply triple_assuming
  rintro rfl
  exact second

theorem triple_bind_fails {routine : Routine σ α} {next : α → Routine σ β}
    {final : β → σ → Prop} (first : Triple pre routine (fun _ _ => False) failed) :
    Triple pre (routine >>= next) final failed :=
  triple_bind first fun _ _ impossible => impossible.elim

theorem triple_ite {condition : Prop} [Decidable condition]
    {first second : Routine σ α}
    (whenTrue : condition → Triple pre first post failed)
    (whenFalse : ¬ condition → Triple pre second post failed) :
    Triple pre (if condition then first else second) post failed := by
  split
  · exact whenTrue ‹_›
  · exact whenFalse ‹_›

theorem triple_consequence {routine : Routine σ α}
    (triple : Triple pre routine post failed)
    (stronger : ∀ state, pre' state → pre state)
    (weaker : ∀ value state, post value state → post' value state)
    (weakerFailed : ∀ state, failed state → failed' state) :
    Triple pre' routine post' failed' := by
  intro state start
  have reached := triple state (stronger state start)
  cases run : routine state with
  | mk result middle =>
      rw [run] at reached
      cases result with
      | some value => exact weaker value middle reached
      | none => exact weakerFailed middle reached

theorem triple_result {routine : Routine σ α} {result : Option α} {state : σ}
    (triple : Triple pre routine (fun value _ => result = some value)
      fun _ => result = none)
    (start : pre state) : (routine state).1 = result := by
  have reached := triple state start
  cases run : routine state with
  | mk returned middle =>
      rw [run] at reached
      cases returned with
      | some value => exact reached.symm
      | none => exact reached.symm

theorem triple_failed {routine : Routine σ α} (triple : Triple pre routine post failed)
    (weakerFailed : ∀ state, failed state → failed' state) :
    Triple pre routine post failed' :=
  triple_consequence triple (fun _ start => start) (fun _ _ reached => reached)
    weakerFailed

end Routine

end HttpFs
