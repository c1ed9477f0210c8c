import HttpFs.Foundation.Ledger
import HttpFs.Provider.ServerRun

namespace HttpFs.CProvider

open Logged

/-! What `httpfs_server_run` takes and gives back. -/

/-- The block of the workers, what each `worker_context` holds, and what the thread of
`httpfs_server_run` holds for itself. -/
inductive Resource where
  | workers
  | queueMutex (index : Nat)
  | epollFd (index : Nat)
  | notifyPipe (index : Nat) (writeEnd : Bool)
  | thread (index : Nat)
  | pending (index fd : Nat)
  | serverFd
  | addresses
  | clientFd (fd : Nat)
  deriving Repr, DecidableEq

inductive LifecycleEvent where
  | ledger (event : LedgerEvent Resource)
  | stopped
  | woken (index : Nat)
  | joined (index : Nat)
  deriving Repr, DecidableEq

def acquire (resource : Resource) : Logged LifecycleEvent Unit :=
  note (.ledger (.acquired resource))

def release (resource : Resource) : Logged LifecycleEvent Unit :=
  note (.ledger (.released resource))

end HttpFs.CProvider
