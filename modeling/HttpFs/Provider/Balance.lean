import HttpFs.Provider.WorkerLedger
import Mathlib.Algebra.Order.Interval.Finset.SuccPred
import Mathlib.Data.Nat.SuccPred
import Mathlib.Order.Interval.Finset.Nat

namespace HttpFs.CProvider

variable {state : Holdings} {index : Nat}

/-- What is held with the given workers running. -/
def standing (queues : Nat → List Nat) (running : Finset Nat) (serverFd : Bool) :
    Ledger Resource
  | .workers => 1
  | .queueMutex index | .epollFd index | .notifyPipe index _ | .thread index =>
      if index ∈ running then 1 else 0
  | .pending index fd => if index ∈ running then (queues index).count fd else 0
  | .serverFd => if serverFd then 1 else 0
  | .addresses | .clientFd _ => 0

section Standing

variable {queues : Nat → List Nat} {running : Finset Nat} {serverFd : Bool}

end Standing

section Stopping

variable {taken : Nat → Nat} {queues : Nat → List Nat} {serverFd : Bool} {woken : List Nat}

end Stopping

section Starting

variable {answers : Nat → WorkerAnswers} {stopped : Bool} {woken : List Nat}

end Starting

section Accepting

variable {queues : Nat → List Nat} {stopped : Bool} {woken : List Nat} {workerCount : Nat}

end Accepting

section Running

variable {answers : RunAnswers} {workerCount : Nat}

end Running

end HttpFs.CProvider
