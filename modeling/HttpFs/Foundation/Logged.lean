import HttpFs.Foundation.FullTransfer

namespace HttpFs

/-- A computation with a record of what it evaluates on the way. -/
structure Logged (ω α : Type) where
  value : α
  log : List ω

namespace Logged

variable {ω ω' α β : Type}

instance : Monad (Logged ω) where
  pure value := ⟨value, []⟩
  bind first next := ⟨(next first.value).value, first.log ++ (next first.value).log⟩

def note (entry : ω) : Logged ω Unit := ⟨(), [entry]⟩

/-- The same computation with its record read another way. -/
def relabel (label : ω → ω') (computation : Logged ω α) : Logged ω' α :=
  ⟨computation.value, computation.log.map label⟩

@[simp] theorem value_pure (value : α) : (pure value : Logged ω α).value = value := rfl

@[simp] theorem log_pure (value : α) : (pure value : Logged ω α).log = [] := rfl

@[simp] theorem value_bind (first : Logged ω α) (next : α → Logged ω β) :
    (first >>= next).value = (next first.value).value := rfl

@[simp] theorem log_bind (first : Logged ω α) (next : α → Logged ω β) :
    (first >>= next).log = first.log ++ (next first.value).log := rfl

@[simp] theorem value_note (entry : ω) : (note entry).value = () := rfl

@[simp] theorem log_note (entry : ω) : (note entry).log = [entry] := rfl

@[simp] theorem value_relabel (label : ω → ω') (computation : Logged ω α) :
    (computation.relabel label).value = computation.value := rfl

@[simp] theorem log_relabel (label : ω → ω') (computation : Logged ω α) :
    (computation.relabel label).log = computation.log.map label := rfl

def All (property : ω → Prop) (computation : Logged ω α) : Prop :=
  ∀ entry ∈ computation.log, property entry

theorem all_pure {property : ω → Prop} (value : α) :
    (pure value : Logged ω α).All property := by
  intro entry member
  contradiction

theorem all_note {property : ω → Prop} {entry : ω} (holds : property entry) :
    (note entry).All property := by
  intro other member
  rw [log_note, List.mem_singleton] at member
  rw [member]
  exact holds

theorem all_bind {property : ω → Prop} {first : Logged ω α} {next : α → Logged ω β}
    (allFirst : first.All property) (allNext : (next first.value).All property) :
    (first >>= next).All property := by
  intro entry member
  rw [log_bind, List.mem_append] at member
  exact member.elim (allFirst entry) (allNext entry)

end Logged

namespace FullTransfer

open Logged

variable {ε σ : Type} {retried : ε → Bool} {length : Nat} {limit : Nat → Nat}
  {move : Nat → Nat → σ → σ}

/-- `run` with a record of how much every call finds moved. Past the end of the list of
returns a call that leaves something to move is followed by one that moves none. -/
def runLogged (retried : ε → Bool) (length : Nat) (limit : Nat → Nat)
    (move : Nat → Nat → σ → σ) :
    List (Return ε) → Nat → σ → Logged Nat (Outcome ε σ)
  | [], total, state =>
      if total < length then do
        note total
        if 0 < limit total ∧ total + limit total < length then
          note (total + limit total)
        return ⟨.ok (total + limit total), move total (limit total) state, []⟩
      else
        return ⟨.ok total, state, []⟩
  | .failed error :: returns, total, state =>
      if total < length then do
        note total
        if retried error then
          runLogged retried length limit move returns total state
        else
          return ⟨.error error, state, returns⟩
      else
        return ⟨.ok total, state, .failed error :: returns⟩
  | .count n :: returns, total, state =>
      if total < length then do
        note total
        if min n (limit total) = 0 then
          return ⟨.ok total, state, returns⟩
        else
          runLogged retried length limit move returns (total + min n (limit total))
            (move total (min n (limit total)) state)
      else
        return ⟨.ok total, state, .count n :: returns⟩

theorem runLogged_value (returns : List (Return ε)) (total : Nat) (state : σ) :
    (runLogged retried length limit move returns total state).value =
      run retried length limit move returns total state := by
  induction returns generalizing total state with
  | nil =>
      simp only [runLogged, run]
      split
      · rw [value_bind]
        split <;> rfl
      · rfl
  | cons first rest induction =>
      cases first with
      | failed error =>
          simp only [runLogged, run]
          split
          · split
            · exact induction total state
            · rfl
          · rfl
      | count n =>
          simp only [runLogged, run]
          split
          · split
            · rfl
            · exact induction _ _
          · rfl

theorem runLogged_lt (returns : List (Return ε)) (total : Nat) (state : σ) :
    ∀ entry ∈ (runLogged retried length limit move returns total state).log,
      entry < length := by
  induction returns generalizing total state with
  | nil =>
      simp only [runLogged]
      split
      · next more =>
        split
        · next further => simpa using ⟨more, further.2⟩
        · simpa using more
      · simp
  | cons first rest induction =>
      cases first with
      | failed error =>
          simp only [runLogged]
          split
          · next more =>
            split
            · simpa using ⟨more, induction total state⟩
            · simpa using more
          · simp
      | count n =>
          simp only [runLogged]
          split
          · next more =>
            split
            · simpa using more
            · simpa using ⟨more, induction _ _⟩
          · simp

end FullTransfer

end HttpFs
