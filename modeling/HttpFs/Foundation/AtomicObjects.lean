import Mathlib.Logic.Function.Basic

/-! Objects that threads call, and what can be seen of the calls. -/

namespace HttpFs

/-- A step without a label is one that nobody sees. -/
structure TransitionSystem (σ ι : Type) where
  start : σ
  step : σ → Option ι → σ → Prop

namespace TransitionSystem

variable {σ τ ι : Type}

/-- What is seen of a run, and the state that it leads to. -/
inductive Run (system : TransitionSystem σ ι) : List ι → σ → Prop where
  | start : Run system [] system.start
  | silent {seen : List ι} {before after : σ} (run : Run system seen before)
      (step : system.step before none after) : Run system seen after
  | visible {seen : List ι} {before after : σ} {label : ι} (run : Run system seen before)
      (step : system.step before (some label) after) : Run system (seen ++ [label]) after

/-- A step of `concrete` is one of `abstract`, or nobody sees it and it stands for none. -/
structure Refines (concrete : TransitionSystem σ ι) (abstract : TransitionSystem τ ι)
    (relates : σ → τ → Prop) : Prop where
  start : relates concrete.start abstract.start
  step : ∀ {before after : σ} {label : Option ι} {state : τ}, relates before state →
    concrete.step before label after →
      (∃ next, abstract.step state label next ∧ relates after next) ∨
        label = none ∧ relates after state

variable {concrete : TransitionSystem σ ι} {abstract : TransitionSystem τ ι}
  {relates : σ → τ → Prop}

/-- Whatever is seen of the one system can be seen of the other. -/
theorem Refines.run (refines : Refines concrete abstract relates) {seen : List ι} {state : σ}
    (run : concrete.Run seen state) : ∃ other, abstract.Run seen other ∧ relates state other := by
  induction run with
  | start => exact ⟨abstract.start, .start, refines.start⟩
  | silent run step induction =>
      obtain ⟨other, sofar, related⟩ := induction
      obtain ⟨next, abstractStep, related⟩ | ⟨_, related⟩ := refines.step related step
      · exact ⟨next, .silent sofar abstractStep, related⟩
      · exact ⟨other, sofar, related⟩
  | visible run step induction =>
      obtain ⟨other, sofar, related⟩ := induction
      obtain ⟨next, abstractStep, related⟩ | ⟨silent, _⟩ := refines.step related step
      · exact ⟨next, .visible sofar abstractStep, related⟩
      · contradiction

end TransitionSystem

/-- An object by what its operations do and answer when they are done one at a time. -/
structure AtomicObject (σ ω ρ : Type) where
  start : σ
  effect : σ → ω → ρ → σ → Prop

/-- How a thread stands with an object. -/
inductive Call (ω ρ : Type) where
  | none
  | called (operation : ω)
  | done (result : ρ)

inductive CallEvent (Thread ω ρ : Type) where
  | call (thread : Thread) (operation : ω)
  | return (thread : Thread) (result : ρ)

namespace AtomicObject

variable {σ ω ρ Thread : Type} [DecidableEq Thread]

/-- The operation of a thread is done at one moment between its call and its return. -/
inductive Step (object : AtomicObject σ ω ρ) : σ × (Thread → Call ω ρ) →
    Option (CallEvent Thread ω ρ) → σ × (Thread → Call ω ρ) → Prop where
  | call {contents : σ} {calls : Thread → Call ω ρ} {thread : Thread}
      (outside : calls thread = .none) (operation : ω) :
      Step object (contents, calls) (some (.call thread operation))
        (contents, Function.update calls thread (.called operation))
  | commit {contents next : σ} {calls : Thread → Call ω ρ} {thread : Thread} {operation : ω}
      {result : ρ} (called : calls thread = .called operation)
      (effect : object.effect contents operation result next) :
      Step object (contents, calls) none (next, Function.update calls thread (.done result))
  | return {contents : σ} {calls : Thread → Call ω ρ} {thread : Thread} {result : ρ}
      (done : calls thread = .done result) :
      Step object (contents, calls) (some (.return thread result))
        (contents, Function.update calls thread .none)

/-- Threads that call the object, in any order. -/
def threads (object : AtomicObject σ ω ρ) (Thread : Type) [DecidableEq Thread] :
    TransitionSystem (σ × (Thread → Call ω ρ)) (CallEvent Thread ω ρ) where
  start := (object.start, fun _ => .none)
  step := object.Step

end AtomicObject

end HttpFs
