namespace HttpFs

/-! Transfers by calls that may move less than they are asked to. -/

namespace FullTransfer

/-- How the surroundings let one call end: it moves at most `n` elements, or it
fails. -/
inductive Return (ε : Type) where
  | count (n : Nat)
  | failed (error : ε)
  deriving Repr, DecidableEq

structure Outcome (ε σ : Type) where
  result : Except ε Nat
  state : σ
  returns : List (Return ε)

variable {ε σ : Type}

/-- One call that can move at most `limit` elements. Past the end of the list of
returns a call moves all it can. -/
def once (limit : Nat) : List (Return ε) → Except ε Nat × List (Return ε)
  | [] => (.ok limit, [])
  | .count n :: returns => (.ok (min n limit), returns)
  | .failed error :: returns => (.error error, returns)

theorem once_le {limit n : Nat} {returns rest : List (Return ε)}
    (returned : once limit returns = (.ok n, rest)) : n ≤ limit := by
  cases returns with
  | nil =>
      cases returned
      exact Nat.le_refl _
  | cons first others =>
      cases first with
      | count m =>
          cases returned
          exact Nat.min_le_right m limit
      | failed error => cases returned

theorem once_error {limit : Nat} {returns rest : List (Return ε)} {error : ε}
    (returned : once limit returns = (.error error, rest)) : .failed error ∈ returns := by
  cases returns with
  | nil => cases returned
  | cons first others =>
      cases first with
      | count n => cases returned
      | failed found =>
          cases returned
          exact List.mem_cons_self ..

/-- A call that ends so does not end its transfer. -/
def Return.GoesOn (retried : ε → Bool) : Return ε → Prop
  | .count n => 0 < n
  | .failed error => retried error = true

theorem once_goesOn {retried : ε → Bool} {limit : Nat} {returns rest : List (Return ε)}
    {result : Except ε Nat} (goOn : ∀ call ∈ returns, call.GoesOn retried)
    (returned : once limit returns = (result, rest)) :
    (∀ call ∈ rest, call.GoesOn retried) ∧
      (∀ error, result = .error error → retried error = true) ∧
      (result = .ok 0 → limit = 0) := by
  cases returns with
  | nil =>
      cases returned
      exact ⟨goOn, by rintro error ⟨⟩, by rintro ⟨⟩; rfl⟩
  | cons first others =>
      obtain ⟨here, later⟩ := List.forall_mem_cons.mp goOn
      cases first with
      | count n =>
          cases returned
          refine ⟨later, by rintro error ⟨⟩, ?_⟩
          intro nothing
          have isZero : min n limit = 0 := Except.ok.inj nothing
          have positive : 0 < n := here
          omega
      | failed error =>
          cases returned
          refine ⟨later, ?_, by rintro ⟨⟩⟩
          rintro found ⟨⟩
          exact here

/-- Calls until `length` elements have been moved, a call moves none, or one fails
with an error that is not retried. The call that follows `total` elements can move
`limit total` of them, and `move total n` is its effect when it moves `n`. -/
def run (retried : ε → Bool) (length : Nat) (limit : Nat → Nat) (move : Nat → Nat → σ → σ) :
    List (Return ε) → Nat → σ → Outcome ε σ
  | [], total, state =>
      if total < length then
        ⟨.ok (total + limit total), move total (limit total) state, []⟩
      else
        ⟨.ok total, state, []⟩
  | .failed error :: returns, total, state =>
      if total < length then
        if retried error then
          run retried length limit move returns total state
        else
          ⟨.error error, state, returns⟩
      else
        ⟨.ok total, state, .failed error :: returns⟩
  | .count n :: returns, total, state =>
      if total < length then
        if min n (limit total) = 0 then
          ⟨.ok total, state, returns⟩
        else
          run retried length limit move returns (total + min n (limit total))
            (move total (min n (limit total)) state)
      else
        ⟨.ok total, state, .count n :: returns⟩

variable {retried : ε → Bool} {length : Nat} {limit : Nat → Nat}
  {move : Nat → Nat → σ → σ} {returns : List (Return ε)} {total : Nat} {state : σ}

/-- What every call keeps holds in the end, of some number of elements, which is
the result if there is one. -/
theorem run_invariant {inv : Nat → σ → Prop}
    (step : ∀ total n state, total < length → n ≤ limit total → inv total state →
      inv (total + n) (move total n state))
    (start : inv total state) :
    ∃ moved, inv moved (run retried length limit move returns total state).state ∧
      ∀ result, (run retried length limit move returns total state).result = .ok result →
        result = moved := by
  induction returns generalizing total state with
  | nil =>
      simp only [run]
      split
      · next more =>
        refine ⟨total + limit total, step total _ state more (Nat.le_refl _) start, ?_⟩
        rintro result ⟨⟩
        rfl
      · refine ⟨total, start, ?_⟩
        rintro result ⟨⟩
        rfl
  | cons first rest induction =>
      cases first with
      | failed error =>
          simp only [run]
          split
          · split
            · exact induction start
            · exact ⟨total, start, by simp⟩
          · refine ⟨total, start, ?_⟩
            rintro result ⟨⟩
            rfl
      | count n =>
          simp only [run]
          split
          · next more =>
            split
            · refine ⟨total, start, ?_⟩
              rintro result ⟨⟩
              rfl
            · exact induction (step total _ state more (Nat.min_le_right _ _) start)
          · refine ⟨total, start, ?_⟩
            rintro result ⟨⟩
            rfl

/-- A transfer fails with the error of one of its calls. -/
theorem run_error {error : ε}
    (failed : (run retried length limit move returns total state).result = .error error) :
    .failed error ∈ returns := by
  induction returns generalizing total state with
  | nil =>
      simp only [run] at failed
      split at failed <;> cases failed
  | cons first rest induction =>
      cases first with
      | failed found =>
          simp only [run] at failed
          split at failed
          · split at failed
            · exact List.mem_cons_of_mem _ (induction failed)
            · cases failed
              exact List.mem_cons_self ..
          · cases failed
      | count n =>
          simp only [run] at failed
          split at failed
          · split at failed
            · cases failed
            · exact List.mem_cons_of_mem _ (induction failed)
          · cases failed

/-- The calls of a transfer, one by one. Past the end of the list of returns the first
call moves all that is left to move. -/
theorem run_calls {motive : List (Return ε) → Nat → σ → Outcome ε σ → Prop}
    (drained : ∀ total, length ≤ total + limit total ∨ limit (total + limit total) = 0)
    (still : ∀ total state, move total 0 state = state)
    (done : ∀ returns total state, ¬ total < length →
      motive returns total state ⟨.ok total, state, returns⟩)
    (broken : ∀ returns rest total state error, total < length →
      once (limit total) returns = (.error error, rest) → retried error = false →
      motive returns total state ⟨.error error, state, rest⟩)
    (again : ∀ returns rest total state error outcome, total < length →
      once (limit total) returns = (.error error, rest) → retried error = true →
      motive rest total state outcome → motive returns total state outcome)
    (ended : ∀ returns rest total state, total < length →
      once (limit total) returns = (.ok 0, rest) →
      motive returns total state ⟨.ok total, state, rest⟩)
    (moved : ∀ returns rest total state n outcome, total < length →
      once (limit total) returns = (.ok n, rest) → 0 < n →
      motive rest (total + n) (move total n state) outcome →
      motive returns total state outcome)
    (returns : List (Return ε)) (total : Nat) (state : σ) :
    motive returns total state (run retried length limit move returns total state) := by
  induction returns generalizing total state with
  | nil =>
      simp only [run]
      split
      · next more =>
        have lastCall : once (limit total) ([] : List (Return ε)) = (.ok (limit total), []) :=
          rfl
        rcases Nat.eq_zero_or_pos (limit total) with nothing | something
        · rw [nothing] at lastCall ⊢
          rw [still]
          exact ended [] [] total state more (by rw [nothing]; exact lastCall)
        · refine moved [] [] total state _ _ more lastCall something ?_
          by_cases short : total + limit total < length
          · have left : limit (total + limit total) = 0 := by
              rcases drained total with all | none
              · omega
              · exact none
            exact ended [] [] _ _ short (by rw [left]; rfl)
          · exact done [] _ _ short
      · next all => exact done [] total state all
  | cons first rest induction =>
      cases first with
      | failed error =>
          simp only [run]
          split
          · next more =>
            split
            · next isRetried =>
              exact again _ rest total state error _ more rfl isRetried (induction total state)
            · next notRetried =>
              exact broken _ rest total state error more rfl (Bool.not_eq_true _ ▸ notRetried)
          · next all => exact done _ total state all
      | count n =>
          simp only [run]
          split
          · next more =>
            split
            · next nothing =>
              exact ended _ rest total state more (by rw [once, nothing])
            · next something =>
              exact moved _ rest total state _ _ more rfl (Nat.pos_of_ne_zero something)
                (induction _ _)
          · next all => exact done _ total state all

end FullTransfer

end HttpFs
