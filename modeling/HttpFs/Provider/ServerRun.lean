import HttpFs.Provider.Workers
import Mathlib.Logic.Relation

namespace HttpFs.CProvider

def SERVER_DEFAULT_WORKERS : Nat := 4

def SERVER_MAX_WORKERS : Nat := 32

def chooseWorkerCount (cpuCount : Int) : Nat :=
  if cpuCount ≤ 0 then
    SERVER_DEFAULT_WORKERS
  else if cpuCount > SERVER_MAX_WORKERS then
    SERVER_MAX_WORKERS
  else
    cpuCount.toNat

theorem chooseWorkerCount_pos (cpuCount : Int) : 0 < chooseWorkerCount cpuCount := by
  unfold chooseWorkerCount
  split
  · decide
  · split
    · decide
    · omega

/-- What a run takes from the machine it is on. -/
structure Machine where
  cpuCount : Int
  pipeCapacity : Nat
  pipeHolds : 0 < pipeCapacity

def Machine.workerCount (machine : Machine) : Nat := chooseWorkerCount machine.cpuCount

/-- Where `httpfs_server_run` is: before its loop, in the loop, in `stop_workers` (the
loop that wakes, the loop that joins, `destroy_worker`), behind it. -/
inductive MainPhase where
  | preparing
  | looping
  | accepting
  | accepted (fd : Nat)
  | queuing (fd : Nat)
  | enqueued (worker : Nat)
  | waking (worker : Nat)
  | joining (worker : Nat)
  | destroying (worker : Nat)
  | returned
  deriving Repr, DecidableEq

/-- The process: the thread of `httpfs_server_run`, its workers, of which `started` run,
the client descriptors that are open in it, and the records of those that `accept` has
returned and that `close` was called for. -/
structure Server where
  stop : Bool
  main : MainPhase
  started : Nat
  nextWorker : Nat
  workers : Nat → Worker
  opened : List Nat
  accepted : List Nat
  closed : List Nat

namespace Server

def start : Server := ⟨false, .preparing, 0, 0, fun _ => Worker.start, [], [], []⟩

def setWorker (server : Server) (index : Nat) (worker : Worker) : Server :=
  { server with workers := Function.update server.workers index worker }

def close (server : Server) (fds : List Nat) : Server :=
  { server with
    opened := fds.foldl List.erase server.opened
    closed := server.closed ++ fds }

def chosen (machine : Machine) (server : Server) : Nat :=
  server.nextWorker % machine.workerCount

def advanced (server : Server) : Server :=
  { server with nextWorker := (server.nextWorker + 1) % 2 ^ 64 }

inductive Step (machine : Machine) : Server → Server → Prop where
  | signalled {server} : Step machine server { server with stop := true }
  | workerStep {server : Server} {index fds worker} (runs : index < server.started)
      (step : Worker.Step server.stop (server.workers index) fds worker) :
      Step machine server ((server.setWorker index worker).close fds)
  | startWorker {server} (isAt : server.main = .preparing)
      (another : server.started < machine.workerCount) :
      Step machine server { server with started := server.started + 1 }
  | setupFailed {server} (isAt : server.main = .preparing) :
      Step machine server { server with stop := true, main := .waking 0 }
  | listening {server} (isAt : server.main = .preparing)
      (all : server.started = machine.workerCount) :
      Step machine server { server with main := .looping }
  | accept {server} (isAt : server.main = .looping) (going : server.stop = false) :
      Step machine server { server with main := .accepting }
  | stopSeen {server} (isAt : server.main = .looping) (stopped : server.stop = true) :
      Step machine server { server with main := .waking 0 }
  | interrupted {server} (isAt : server.main = .accepting) :
      Step machine server { server with main := .looping }
  | acceptFailed {server} (isAt : server.main = .accepting) :
      Step machine server { server with stop := true, main := .waking 0 }
  | accepted {server} (isAt : server.main = .accepting) (fd : Nat)
      (unused : fd ∉ server.opened) :
      Step machine server
        { server with
          main := .accepted fd
          opened := fd :: server.opened
          accepted := server.accepted ++ [fd] }
  | nonblocking {server fd} (isAt : server.main = .accepted fd) :
      Step machine server { server with main := .queuing fd }
  | staysBlocking {server : Server} {fd} (isAt : server.main = .accepted fd) :
      Step machine server { server.close [fd] with main := .looping }
  | enqueued {server : Server} {fd} (isAt : server.main = .queuing fd) (address : Nat)
      (fresh : (server.workers (server.chosen machine)).queue.memory address = none) :
      Step machine server
        { server.advanced.setWorker (server.chosen machine)
            ((server.workers (server.chosen machine)).enqueuePendingFd address fd) with
          main := .enqueued (server.chosen machine) }
  | noNode {server : Server} {fd} (isAt : server.main = .queuing fd) :
      Step machine server { server.advanced.close [fd] with main := .looping }
  | woken {server : Server} {index} (isAt : server.main = .enqueued index) :
      Step machine server
        { server.setWorker index ((server.workers index).wake machine.pipeCapacity) with
          main := .looping }
  | wokenToStop {server : Server} {index} (isAt : server.main = .waking index)
      (another : index < server.started) :
      Step machine server
        { server.setWorker index ((server.workers index).wake machine.pipeCapacity) with
          main := .waking (index + 1) }
  | allWoken {server index} (isAt : server.main = .waking index)
      (all : index = server.started) :
      Step machine server { server with main := .joining 0 }
  | joined {server : Server} {index} (isAt : server.main = .joining index)
      (another : index < server.started) (ended : (server.workers index).phase = .ended) :
      Step machine server { server with main := .destroying index }
  -- One node of the queue that `destroy_worker` walks along.
  | destroyed {server : Server} {index fd worker} (isAt : server.main = .destroying index)
      (first : (server.workers index).dequeuePendingFd = some (fd, worker)) :
      Step machine server ((server.setWorker index worker).close [fd])
  | destroyedAll {server : Server} {index} (isAt : server.main = .destroying index)
      (none : (server.workers index).dequeuePendingFd = none) :
      Step machine server { server with main := .joining (index + 1) }
  | returned {server index} (isAt : server.main = .joining index)
      (all : index = server.started) :
      Step machine server { server with main := .returned }

/-- The states that a run can reach, whatever the threads, the clients and the system do. -/
def Reachable (machine : Machine) (server : Server) : Prop :=
  Relation.ReflTransGen (Step machine) start server

theorem Reachable.invariant {machine : Machine} {server : Server} {holds : Server → Prop}
    (reachable : Reachable machine server) (initially : holds start)
    (preserved : ∀ {before after}, holds before → Step machine before after → holds after) :
    holds server := by
  induction reachable with
  | refl => exact initially
  | tail _ step induction => exact preserved induction step

end Server

end HttpFs.CProvider
