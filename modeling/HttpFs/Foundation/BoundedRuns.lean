namespace HttpFs

/-! Runs of a system in which every step counts, apart from those of its surroundings. -/

namespace BoundedRuns

variable {σ : Type}

/-- A run with the number of its steps that count. -/
inductive Run (counts idles : σ → σ → Prop) : σ → Nat → σ → Prop where
  | refl (state : σ) : Run counts idles state 0 state
  | counted {before middle after : σ} {n : Nat} (step : counts before middle)
      (rest : Run counts idles middle n after) : Run counts idles before (n + 1) after
  | idle {before middle after : σ} {n : Nat} (step : idles before middle)
      (rest : Run counts idles middle n after) : Run counts idles before n after

/-- A measure of the states of an invariant that every counted step lowers. -/
structure Bounded (counts idles : σ → σ → Prop) (holds : σ → Prop) (measure : σ → Nat) : Prop where
  counted : ∀ {before after}, holds before → counts before after → holds after
  idle : ∀ {before after}, holds before → idles before after → holds after
  lowers : ∀ {before after}, holds before → counts before after → measure after < measure before
  notRaises : ∀ {before after}, holds before → idles before after →
    measure after ≤ measure before

namespace Bounded

variable {counts idles : σ → σ → Prop} {holds : σ → Prop} {measure : σ → Nat}
  {before after : σ} {n : Nat}

theorem keeps (bounded : Bounded counts idles holds measure) (run : Run counts idles before n after)
    (start : holds before) : holds after := by
  induction run with
  | refl => exact start
  | counted step rest induction => exact induction (bounded.counted start step)
  | idle step rest induction => exact induction (bounded.idle start step)

/-- Where a counted step is possible until a goal is reached, the goal is within reach. -/
theorem reaches (bounded : Bounded counts idles holds measure) {goal : σ → Prop}
    (progress : ∀ state, holds state → ¬ goal state → ∃ after, counts state after) {state : σ}
    (start : holds state) : ∃ n after, Run counts idles state n after ∧ goal after := by
  induction bound : measure state using Nat.strongRecOn generalizing state with
  | ind size induction =>
      by_cases reached : goal state
      · exact ⟨0, state, .refl state, reached⟩
      · obtain ⟨after, step⟩ := progress state start reached
        have lowered := bounded.lowers start step
        obtain ⟨n, final, run, isGoal⟩ :=
          induction (measure after) (bound ▸ lowered) (bounded.counted start step) rfl
        exact ⟨n + 1, final, .counted step run, isGoal⟩

end Bounded

end BoundedRuns

end HttpFs
