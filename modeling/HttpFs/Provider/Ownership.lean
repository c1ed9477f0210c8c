import HttpFs.Foundation.Custody
import HttpFs.Provider.HandOff

namespace HttpFs.CProvider

/-- Who has the descriptor of a client. A worker has it for a `connection_state` from the
moment it takes it off its queue to add it. -/
inductive Owner where
  | acceptLoop
  | pendingQueue (worker : Nat)
  | connectionState (worker : Nat)
  deriving Repr, DecidableEq

def MainPhase.held : MainPhase → List Nat
  | .accepted fd | .queuing fd => [fd]
  | .preparing | .looping | .accepting | .enqueued _ | .waking _ | .joining _ | .destroying _
  | .returned => []

def WorkerPhase.held : WorkerPhase → List Nat
  | .adding fd _ => [fd]
  | .looping | .waiting | .handling _ | .draining _ | .dequeuing _ | .ended => []

namespace Worker

def held (worker : Worker) : List Nat :=
  worker.phase.held ++ worker.connections.map Prod.fst

def pending (worker : Worker) : List Nat := worker.enqueued.drop worker.dequeued.length

/-- What a step of a worker does with the descriptors that the worker has. -/
inductive Moves (worker : Worker) : List Nat → Worker → Prop where
  | stays {worker' : Worker} (pending : worker'.pending = worker.pending)
      (held : worker'.held.Perm worker.held) : Moves worker [] worker'
  | takes {worker' : Worker} {fd : Nat} (pending : worker.pending = fd :: worker'.pending)
      (held : worker'.held.Perm (fd :: worker.held)) : Moves worker [] worker'
  | closes {worker' : Worker} {fd : Nat} (pending : worker'.pending = worker.pending)
      (held : worker.held.Perm (fd :: worker'.held)) : Moves worker [fd] worker'

variable {worker worker' : Worker} {nodes : List (Nat × Nat)} {fds : List Nat}

theorem Queues.pending (queues : worker.Queues nodes) :
    worker.pending = nodes.map Prod.snd := by
  simp [Worker.pending, queues.history]

theorem Queues.enqueued_pending (queues : worker.Queues nodes) (address fd : Nat) :
    (worker.enqueuePendingFd address fd).pending = worker.pending ++ [fd] := by
  simp [Worker.pending, enqueuePendingFd, queues.history]

@[simp] theorem wake_pending (capacity : Nat) (worker : Worker) :
    (worker.wake capacity).pending = worker.pending := by
  unfold wake
  split <;> rfl

@[simp] theorem wake_held (capacity : Nat) (worker : Worker) :
    (worker.wake capacity).held = worker.held := by
  simp [held]

theorem keepConnection_fds (worker : Worker) (fd : Nat) (conn : ConnectionState) :
    (worker.keepConnection fd conn).connections.map Prod.fst =
      worker.connections.map Prod.fst := by
  simp only [keepConnection, List.map_map]
  refine List.map_congr_left fun entry _ => ?_
  by_cases same : entry.1 = fd <;> simp [same]

theorem closeConnection_fds {fd : Nat} {conn : ConnectionState}
    (found : (fd, conn) ∈ worker.connections) :
    (worker.connections.map Prod.fst).Perm
      (fd :: (worker.closeConnection fd).connections.map Prod.fst) := by
  obtain ⟨entry, front, behind, _, isFd, split, erased⟩ :=
    List.exists_of_eraseP (p := fun entry => entry.1 == fd) found (by simp)
  simp only [beq_iff_eq] at isFd
  simp only [closeConnection, erased]
  simp only [split, List.map_append, List.map_cons, isFd]
  exact List.perm_middle

theorem afterQueue_held (after : Option (List Ready)) : (afterQueue after).held = [] := by
  cases after <;> rfl

theorem Step.moves {stop : Bool} (step : Step stop worker fds worker')
    (queues : worker.Queues nodes) : Moves worker fds worker' := by
  cases step with
  | stopSeen isAt | wait isAt | interrupted isAt | waitFailed isAt | ready isAt | handled isAt
  | notified isAt | drained isAt =>
      refine .stays rfl (List.Perm.of_eq ?_)
      simp [held, isAt, WorkerPhase.held]
  | read isAt => exact .stays rfl (.refl _)
  | kept isAt =>
      refine .stays rfl (List.Perm.of_eq ?_)
      simp only [held, isAt, WorkerPhase.held, keepConnection_fds]
  | closed isAt found =>
      refine .closes rfl ?_
      simp only [held, isAt, WorkerPhase.held, List.nil_append]
      exact closeConnection_fds found
  | @dequeued taken _ fd isAt first =>
      obtain ⟨address, rest, rfl, restQueues⟩ := queues.of_dequeued first
      obtain ⟨phase, connections, _⟩ := dequeuePendingFd_frame first
      refine @Moves.takes _ _ fd ?_ (List.Perm.of_eq ?_)
      · change worker.pending = fd :: taken.pending
        rw [queues.pending, restQueues.pending, List.map_cons]
      · simp [held, isAt, connections, WorkerPhase.held]
  | dequeuedAll isAt none =>
      refine .stays rfl (List.Perm.of_eq ?_)
      simp only [held, isAt, afterQueue_held]
      rfl
  | added isAt answers succeeds =>
      obtain rfl := addClientToWorker_eq_some succeeds
      refine .stays rfl ?_
      simp only [held, isAt, WorkerPhase.held, List.map_append, List.map_cons, List.map_nil,
        List.nil_append, List.singleton_append]
      exact List.perm_append_singleton ..
  | refused isAt =>
      refine .closes rfl (List.Perm.of_eq ?_)
      simp [held, isAt, WorkerPhase.held]

end Worker

namespace Server

def Owns (server : Server) (fd : Nat) : Owner → Prop
  | .acceptLoop => fd ∈ server.main.held
  | .pendingQueue index =>
      ∃ nodes, (server.workers index).queue.Holds nodes ∧ fd ∈ nodes.map Prod.snd
  | .connectionState index => fd ∈ (server.workers index).held

def holdings (server : Server) : Owner → List Nat
  | .acceptLoop => server.main.held
  | .pendingQueue index => (server.workers index).pending
  | .connectionState index => (server.workers index).held

/-- The open descriptors are shared out, and the others have been closed as often as they
have been accepted. -/
structure Kept (server : Server) : Prop where
  custody : Custody server.opened server.holdings
  count : ∀ fd, server.accepted.count fd = server.closed.count fd + server.opened.count fd

variable {machine : Machine} {server before after : Server} {index : Nat}

theorem start_kept : start.Kept where
  custody := Custody.empty fun owner => by cases owner <;> rfl
  count _ := rfl

theorem Kept.moved (kept : before.Kept) (opened : after.opened = before.opened)
    (accepted : after.accepted = before.accepted) (closed : after.closed = before.closed)
    (holdings : ∀ owner, (after.holdings owner).Perm (before.holdings owner)) :
    after.Kept where
  custody := opened ▸ kept.custody.rearrange holdings
  count := by rw [opened, accepted, closed]; exact kept.count

theorem Kept.transferred (kept : before.Kept) (opened : after.opened = before.opened)
    (accepted : after.accepted = before.accepted) (closed : after.closed = before.closed)
    (fd : Nat) (giver taker : Owner) (different : giver ≠ taker)
    (gives : (before.holdings giver).Perm (fd :: after.holdings giver))
    (takes : (after.holdings taker).Perm (fd :: before.holdings taker))
    (others : ∀ other, other ≠ giver → other ≠ taker →
      after.holdings other = before.holdings other) : after.Kept where
  custody := opened ▸ kept.custody.transfer giver taker different gives takes others
  count := by rw [opened, accepted, closed]; exact kept.count

theorem Kept.closing (kept : before.Kept) (fd : Nat) (giver : Owner)
    (opened : after.opened = before.opened.erase fd)
    (accepted : after.accepted = before.accepted)
    (closed : after.closed = before.closed ++ [fd])
    (gives : (before.holdings giver).Perm (fd :: after.holdings giver))
    (others : ∀ other, other ≠ giver → after.holdings other = before.holdings other) :
    after.Kept where
  custody := opened ▸ kept.custody.release giver gives others
  count other := by
    have isOpen : fd ∈ before.opened :=
      (kept.custody.live_iff fd).mpr ⟨giver, gives.mem_iff.mpr (List.mem_cons_self ..)⟩
    have grows := kept.count other
    have split := (List.perm_cons_erase isOpen).count_eq other
    rw [List.count_cons] at split
    rw [opened, accepted, closed, List.count_append, List.count_singleton, grows, split]
    omega

theorem holdings_update_other {worker : Worker} {owner : Owner}
    (notQueue : owner ≠ .pendingQueue index) (notState : owner ≠ .connectionState index)
    {main : MainPhase} (held : main.held = server.main.held) :
    ({ server.setWorker index worker with main } : Server).holdings owner =
      server.holdings owner := by
  cases owner with
  | acceptLoop => exact held
  | pendingQueue other =>
      have different : other ≠ index := by simpa using notQueue
      simp [holdings, setWorker, Function.update_of_ne different]
  | connectionState other =>
      have different : other ≠ index := by simpa using notState
      simp [holdings, setWorker, Function.update_of_ne different]

theorem holdings_pendingQueue {worker : Worker} (main : MainPhase) :
    ({ server.setWorker index worker with main } : Server).holdings (.pendingQueue index) =
      worker.pending := by
  simp [holdings, setWorker]

theorem holdings_connectionState {worker : Worker} (main : MainPhase) :
    ({ server.setWorker index worker with main } : Server).holdings (.connectionState index) =
      worker.held := by
  simp [holdings, setWorker]

theorem Kept.updated (kept : before.Kept) {worker : Worker} (main : MainPhase)
    (pending : worker.pending = (before.workers index).pending)
    (held : worker.held.Perm (before.workers index).held)
    (sameMain : main.held = before.main.held) :
    ({ before.setWorker index worker with main } : Server).Kept := by
  refine kept.moved rfl rfl rfl fun owner => ?_
  by_cases isQueue : owner = .pendingQueue index
  · subst isQueue
    rw [holdings_pendingQueue, pending]
    rfl
  by_cases isState : owner = .connectionState index
  · subst isState
    rw [holdings_connectionState]
    exact held
  · rw [holdings_update_other isQueue isState sameMain]

theorem Kept.workerStep (kept : before.Kept) {fds : List Nat} {worker : Worker}
    (moves : (before.workers index).Moves fds worker) :
    ((before.setWorker index worker).close fds).Kept := by
  have others {owner : Owner} (notQueue : owner ≠ .pendingQueue index)
      (notState : owner ≠ .connectionState index) :
      (before.setWorker index worker).holdings owner = before.holdings owner :=
    holdings_update_other notQueue notState rfl
  have queue : (before.setWorker index worker).holdings (.pendingQueue index) =
      worker.pending := holdings_pendingQueue before.main
  have state : (before.setWorker index worker).holdings (.connectionState index) =
      worker.held := holdings_connectionState before.main
  cases moves with
  | stays pending held =>
      have updated := kept.updated before.main pending held rfl
      exact updated.moved rfl rfl (by simp [close]) fun owner => .refl _
  | @takes _ fd pending held =>
      refine kept.transferred rfl rfl (by simp [close, setWorker]) fd (.pendingQueue index)
        (.connectionState index) (by simp) ?_ ?_ fun owner notQueue notState =>
          others notQueue notState
      · exact .of_eq (pending.trans (congrArg _ queue.symm))
      · exact state ▸ held
  | @closes _ fd pending held =>
      refine kept.closing fd (.connectionState index) rfl rfl rfl ?_
        fun owner notState => ?_
      · exact state ▸ held
      · by_cases isQueue : owner = .pendingQueue index
        · subst isQueue
          exact queue.trans pending
        · exact others isQueue notState

theorem Kept.step (kept : before.Kept) (reachable : Reachable machine before)
    (step : Step machine before after) : after.Kept := by
  have phase {main : MainPhase} (same : main.held = before.main.held) (stop : Bool)
      (started next : Nat) :
      ({ before with main, stop, started, nextWorker := next } : Server).Kept := by
    refine kept.moved rfl rfl rfl fun owner => ?_
    cases owner with
    | acceptLoop => exact .of_eq same
    | pendingQueue index => exact .refl _
    | connectionState index => exact .refl _
  have dropped {fd next : Nat} (holds : before.main.held = [fd]) :
      ({ before.close [fd] with main := .looping, nextWorker := next } : Server).Kept := by
    refine kept.closing fd .acceptLoop rfl rfl rfl (.of_eq holds) fun owner notMain => ?_
    cases owner with
    | acceptLoop => exact absurd rfl notMain
    | pendingQueue index => rfl
    | connectionState index => rfl
  cases step with
  | signalled | startWorker => exact phase rfl _ _ _
  | setupFailed isAt | listening isAt | accept isAt | stopSeen isAt | interrupted isAt
  | acceptFailed isAt | nonblocking isAt | allWoken isAt | joined isAt | destroyedAll isAt
  | returned isAt =>
      exact phase (by rw [isAt]; rfl) _ _ _
  | staysBlocking isAt | noNode isAt => exact dropped (by rw [isAt]; rfl)
  | @workerStep index _ _ _ step =>
      obtain ⟨nodes, queues, _⟩ := reachable.handedOver index
      exact kept.workerStep (step.moves queues)
  | accepted isAt fd unused =>
      refine ⟨kept.custody.acquire .acceptLoop unused ?_ fun owner notMain => ?_,
        fun other => ?_⟩
      · refine .of_eq (congrArg (fd :: ·) (Eq.symm ?_))
        change before.main.held = []
        rw [isAt]
        rfl
      · cases owner with
        | acceptLoop => exact absurd rfl notMain
        | pendingQueue index => rfl
        | connectionState index => rfl
      · change (before.accepted ++ [fd]).count other =
          before.closed.count other + (fd :: before.opened).count other
        rw [List.count_append, kept.count other, List.count_singleton, List.count_cons]
        omega
  | @enqueued fd isAt address fresh =>
      obtain ⟨nodes, queues, _⟩ := reachable.handedOver (before.chosen machine)
      refine kept.transferred rfl rfl rfl fd .acceptLoop
        (.pendingQueue (before.chosen machine)) (by simp) ?_ ?_ fun owner notMain notQueue => ?_
      · refine .of_eq ?_
        change before.main.held = [fd]
        rw [isAt]
        rfl
      · rw [holdings_pendingQueue, queues.enqueued_pending]
        exact List.perm_append_singleton ..
      · cases owner with
        | acceptLoop => exact absurd rfl notMain
        | pendingQueue other =>
            have different : other ≠ before.chosen machine := by simpa using notQueue
            simp [holdings, setWorker, advanced, Function.update_of_ne different]
        | connectionState other =>
            by_cases same : other = before.chosen machine
            · subst same
              exact holdings_connectionState _
            · simp [holdings, setWorker, advanced, Function.update_of_ne same]
  | woken isAt | wokenToStop isAt =>
      exact kept.updated _ (Worker.wake_pending ..) (.of_eq (Worker.wake_held ..))
        (by rw [isAt]; rfl)
  | @destroyed index fd worker isAt first =>
      obtain ⟨nodes, queues, _⟩ := reachable.handedOver index
      obtain ⟨address, rest, rfl, restQueues⟩ := queues.of_dequeued first
      obtain ⟨phase, connections, _⟩ := Worker.dequeuePendingFd_frame first
      have held : worker.held = (before.workers index).held := by
        rw [Worker.held, phase, connections, Worker.held]
      refine kept.closing fd (.pendingQueue index) rfl rfl rfl (.of_eq ?_)
        fun owner notQueue => ?_
      · change (before.workers index).pending =
          fd :: (before.setWorker index worker).holdings (.pendingQueue index)
        rw [queues.pending, List.map_cons, ← restQueues.pending]
        exact congrArg (fd :: ·) (holdings_pendingQueue before.main).symm
      · by_cases isState : owner = .connectionState index
        · subst isState
          exact (holdings_connectionState before.main).trans held
        · exact holdings_update_other notQueue isState rfl

end Server

end HttpFs.CProvider
