import Mathlib.Data.List.Forall2

namespace HttpFs

/-! Operations that are carried out one after another on a state. -/

namespace Session

variable {ω σ α : Type}

/-- The answers to a list of operations, and the state that they leave. -/
def run (step : ω → σ → α × σ) : List ω → σ → List α × σ
  | [], state => ([], state)
  | operation :: operations, state =>
      let (answer, reached) := step operation state
      let (answers, final) := run step operations reached
      (answer :: answers, final)

/-- The operations at which the marks say so. -/
def marked : List Bool → List ω → List ω
  | true :: marks, operation :: operations => operation :: marked marks operations
  | false :: marks, _ :: operations => marked marks operations
  | [], _ => []
  | _, [] => []

/-- How a service that may fail carries out one operation: as the other one does, or with an
answer that is no acceptance, and then with all of its effect or none. -/
def Attempts (accepted : α → Prop) (actual ideal : ω → σ → α × σ) (operation : ω) (state : σ) :
    Prop :=
  actual operation state = ideal operation state ∨
    ¬ accepted (actual operation state).1 ∧
      ((actual operation state).2 = state ∨
        (actual operation state).2 = (ideal operation state).2)

/-- A service that may fail carries out some of the operations, each of them once and in
their order, and among them all that it accepts. -/
theorem run_attempts {accepted : α → Prop} {actual ideal : ω → σ → α × σ}
    {operations : List ω}
    (attempts : ∀ operation ∈ operations, ∀ state,
      Attempts accepted actual ideal operation state) (state : σ) :
    ∃ marks, (run actual operations state).2 = (run ideal (marked marks operations) state).2 ∧
      List.Forall₂ (fun answer mark => accepted answer → mark = true)
        (run actual operations state).1 marks := by
  induction operations generalizing state with
  | nil => exact ⟨[], rfl, .nil⟩
  | cons operation operations induction =>
      obtain ⟨first, others⟩ := List.forall_mem_cons.mp attempts
      obtain ⟨marks, final, answers⟩ := induction others (actual operation state).2
      obtain same | ⟨notAccepted, none | all⟩ := first state
      · rw [same] at final answers
        refine ⟨true :: marks, ?_, ?_⟩
        · simpa only [run, marked, same] using final
        · simp only [run, same]
          exact .cons (fun _ => rfl) answers
      · rw [none] at final answers
        refine ⟨false :: marks, ?_, ?_⟩
        · simpa only [run, marked, none] using final
        · simp only [run, none]
          exact .cons (fun accepts => absurd accepts notAccepted) answers
      · rw [all] at final answers
        refine ⟨true :: marks, ?_, ?_⟩
        · simpa only [run, marked, all] using final
        · simp only [run, all]
          exact .cons (fun _ => rfl) answers

/-- A session in which everything is accepted is as if nothing had failed. -/
theorem run_accepted {accepted : α → Prop} {actual ideal : ω → σ → α × σ}
    {operations : List ω} {state : σ}
    (attempts : ∀ operation ∈ operations, ∀ state,
      Attempts accepted actual ideal operation state)
    (accepts : ∀ answer ∈ (run actual operations state).1, accepted answer) :
    run actual operations state = run ideal operations state := by
  induction operations generalizing state with
  | nil => rfl
  | cons operation operations induction =>
      obtain ⟨first, others⟩ := List.forall_mem_cons.mp attempts
      simp only [run, List.forall_mem_cons] at accepts
      obtain same | ⟨notAccepted, _⟩ := first state
      · have rest := induction others accepts.2
        rw [same] at rest
        simp only [run, same, rest]
      · exact absurd accepts.1 notAccepted

end Session

end HttpFs
