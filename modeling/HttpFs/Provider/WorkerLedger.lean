import HttpFs.Provider.Lifecycle

namespace HttpFs.CProvider

/-- What is held, whether the workers have been told to stop, and which of them have been
woken since. -/
structure Holdings where
  held : Ledger Resource
  stopped : Bool
  woken : List Nat

def Holdings.start : Holdings := ⟨Ledger.empty, false, []⟩

variable {state : Holdings} {resource : Resource}

variable {other : Resource} {index : Nat}

/-- Nothing that is held rests on the worker. -/
structure Idle (held : Ledger Resource) (index : Nat) : Prop where
  thread : held (.thread index) = 0
  pending : ∀ fd, held (.pending index fd) = 0

end HttpFs.CProvider
