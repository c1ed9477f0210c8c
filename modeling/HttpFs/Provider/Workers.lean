import HttpFs.Foundation.LinkedQueue
import HttpFs.Provider.Connections

namespace HttpFs.CProvider

def SERVER_EPOLL_MAX_EVENTS : Nat := 64

/-- What an event of `epoll_wait` is about: the notify pipe or a connection. -/
inductive Ready where
  | notifier
  | client (fd : Nat)
  deriving Repr, DecidableEq

/-- Where a worker is in `worker_thread_main`. The events `after` are those that a visit
to the queue leaves for later; the visit behind the loop has none to return to. -/
inductive WorkerPhase where
  | looping
  | waiting
  | handling (events : List Ready)
  | draining (after : Option (List Ready))
  | dequeuing (after : Option (List Ready))
  | adding (fd : Nat) (after : Option (List Ready))
  | ended
  deriving Repr, DecidableEq

/-- A `worker_context`, with the records of what went into the queue and what has left it. -/
structure Worker where
  queue : LinkedQueue Nat
  notifyPipe : Nat
  connections : List (Nat × ConnectionState)
  phase : WorkerPhase
  enqueued : List Nat
  dequeued : List Nat

/-- What the system answers while a connection is added. -/
structure AddAnswers where
  calloc : Bool
  realloc : Nat → Bool
  epollCtl : Bool

namespace Worker

def start : Worker := ⟨LinkedQueue.empty, 0, [], .looping, [], []⟩

def enqueuePendingFd (worker : Worker) (address fd : Nat) : Worker :=
  { worker with
    queue := worker.queue.push address fd
    enqueued := worker.enqueued ++ [fd] }

def dequeuePendingFd (worker : Worker) : Option (Nat × Worker) :=
  worker.queue.pop.map fun (fd, queue) =>
    (fd, { worker with queue, dequeued := worker.dequeued ++ [fd] })

/-- The write does not block: a full pipe stays as it is. -/
def wake (pipeCapacity : Nat) (worker : Worker) : Worker :=
  if worker.notifyPipe < pipeCapacity then
    { worker with notifyPipe := worker.notifyPipe + 1 }
  else
    worker

def readNotifyPipe (worker : Worker) : Worker :=
  { worker with notifyPipe := worker.notifyPipe - min 64 worker.notifyPipe }

def addClientToWorker (answers : AddAnswers) (fd : Nat) (worker : Worker) : Option Worker :=
  if answers.calloc then
    (ensureConnectionCapacity answers.realloc ⟨[], -1, 0, 0⟩
      SERVER_INITIAL_REQUEST_BUFFER_SIZE).bind fun conn =>
        if answers.epollCtl then
          some { worker with connections := worker.connections ++ [(fd, conn)] }
        else
          none
  else
    none

def closeConnection (worker : Worker) (fd : Nat) : Worker :=
  { worker with connections := worker.connections.eraseP fun entry => entry.1 == fd }

def keepConnection (worker : Worker) (fd : Nat) (conn : ConnectionState) : Worker :=
  { worker with
    connections := worker.connections.map fun entry =>
      if entry.1 = fd then (fd, conn) else entry }

/-- The events that `epoll_wait` may return, the notifier being level-triggered. -/
structure Reports (worker : Worker) (events : List Ready) : Prop where
  count : events.length ≤ SERVER_EPOLL_MAX_EVENTS
  distinct : events.Nodup
  notified : Ready.notifier ∈ events → 0 < worker.notifyPipe
  registered : ∀ fd, Ready.client fd ∈ events → fd ∈ worker.connections.map Prod.fst

def afterQueue : Option (List Ready) → WorkerPhase
  | some events => .handling events
  | none => .ended

/-- The steps of a worker while `g_stop_server` is `stop`, with the client descriptors
that each one closes. -/
inductive Step (stop : Bool) : Worker → List Nat → Worker → Prop where
  | stopSeen {worker} (isAt : worker.phase = .looping) (stopped : stop = true) :
      Step stop worker [] { worker with phase := .draining none }
  | wait {worker} (isAt : worker.phase = .looping) (going : stop = false) :
      Step stop worker [] { worker with phase := .waiting }
  | interrupted {worker} (isAt : worker.phase = .waiting) :
      Step stop worker [] { worker with phase := .looping }
  | waitFailed {worker} (isAt : worker.phase = .waiting) :
      Step stop worker [] { worker with phase := .ended }
  | ready {worker} (isAt : worker.phase = .waiting) (events : List Ready)
      (reported : worker.Reports events) :
      Step stop worker [] { worker with phase := .handling events }
  | handled {worker} (isAt : worker.phase = .handling []) :
      Step stop worker [] { worker with phase := .looping }
  | notified {worker events} (isAt : worker.phase = .handling (.notifier :: events)) :
      Step stop worker [] { worker with phase := .draining (some events) }
  -- A turn of `handle_client_event` that leaves the connection open; the event is done
  -- when there was nothing to receive.
  | kept {worker events fd conn conn'} (isAt : worker.phase = .handling (.client fd :: events))
      (found : (fd, conn) ∈ worker.connections) (turn : Turn)
      (waits : handleClientEvent turn conn = .waiting conn') :
      Step stop worker []
        { worker.keepConnection fd conn' with
          phase := .handling
            (if turn.recv = .wouldBlock then events else .client fd :: events) }
  | closed {worker events fd conn} (isAt : worker.phase = .handling (.client fd :: events))
      (found : (fd, conn) ∈ worker.connections) (turn : Turn)
      (ends : ∀ conn', handleClientEvent turn conn ≠ .waiting conn') :
      Step stop worker [fd] { worker.closeConnection fd with phase := .handling events }
  | read {worker after} (isAt : worker.phase = .draining after)
      (some : 0 < worker.notifyPipe) : Step stop worker [] worker.readNotifyPipe
  | drained {worker after} (isAt : worker.phase = .draining after)
      (empty : worker.notifyPipe = 0) :
      Step stop worker [] { worker with phase := .dequeuing after }
  | dequeued {worker worker' : Worker} {after fd} (isAt : worker.phase = .dequeuing after)
      (first : worker.dequeuePendingFd = some (fd, worker')) :
      Step stop worker [] { worker' with phase := .adding fd after }
  | dequeuedAll {worker after} (isAt : worker.phase = .dequeuing after)
      (none : worker.dequeuePendingFd = none) :
      Step stop worker [] { worker with phase := afterQueue after }
  | added {worker worker' : Worker} {after fd} (isAt : worker.phase = .adding fd after)
      (answers : AddAnswers) (succeeds : worker.addClientToWorker answers fd = some worker') :
      Step stop worker [] { worker' with phase := .dequeuing after }
  | refused {worker : Worker} {after fd} (isAt : worker.phase = .adding fd after)
      (answers : AddAnswers) (fails : worker.addClientToWorker answers fd = none) :
      Step stop worker [fd] { worker with phase := .dequeuing after }

end Worker

end HttpFs.CProvider
