import HttpFs.Provider.ServerRun

namespace HttpFs.CProvider

open LinkedQueue (Holds)

def WorkerPhase.VisitsQueue : WorkerPhase → Prop
  | .draining _ | .dequeuing _ | .adding _ _ => True
  | .looping | .waiting | .handling _ | .ended => False

namespace Worker

/-- The queue is the list `nodes`, and all that went into it and is not in it has come
out of it, in order. -/
structure Queues (worker : Worker) (nodes : List (Nat × Nat)) : Prop where
  holds : worker.queue.Holds nodes
  history : worker.enqueued = worker.dequeued ++ nodes.map Prod.snd

theorem start_queues : start.Queues [] := ⟨Holds.empty, rfl⟩

/-- A worker that is not on its way to the queue, with a connection in it, has something
in its pipe to wake it, or is about to have. -/
def HandedOver (worker : Worker) (waking : Prop) : Prop :=
  ∃ nodes, worker.Queues nodes ∧
    (¬ worker.phase.VisitsQueue → nodes ≠ [] → 0 < worker.notifyPipe ∨ waking)

variable {worker worker' : Worker} {nodes : List (Nat × Nat)} {waking waking' : Prop}

theorem start_handedOver : start.HandedOver waking :=
  ⟨[], start_queues, fun _ nonempty => absurd rfl nonempty⟩

theorem HandedOver.weaken (handed : worker.HandedOver waking) (imp : waking → waking') :
    worker.HandedOver waking' := by
  obtain ⟨nodes, queues, awake⟩ := handed
  exact ⟨nodes, queues, fun visits nonempty => (awake visits nonempty).imp_right imp⟩

theorem HandedOver.moved (handed : worker.HandedOver waking)
    (queue : worker'.queue = worker.queue) (enqueued : worker'.enqueued = worker.enqueued)
    (dequeued : worker'.dequeued = worker.dequeued)
    (pipe : worker'.notifyPipe = worker.notifyPipe)
    (visits : worker.phase.VisitsQueue → worker'.phase.VisitsQueue) :
    worker'.HandedOver waking := by
  obtain ⟨nodes, ⟨holds, history⟩, awake⟩ := handed
  refine ⟨nodes, ⟨queue ▸ holds, by rw [enqueued, dequeued, history]⟩, ?_⟩
  intro away nonempty
  rw [pipe]
  exact awake (mt visits away) nonempty

theorem HandedOver.visiting (handed : worker.HandedOver waking)
    (queue : worker'.queue = worker.queue) (enqueued : worker'.enqueued = worker.enqueued)
    (dequeued : worker'.dequeued = worker.dequeued) (visits : worker'.phase.VisitsQueue) :
    worker'.HandedOver waking := by
  obtain ⟨nodes, ⟨holds, history⟩, _⟩ := handed
  exact ⟨nodes, ⟨queue ▸ holds, by rw [enqueued, dequeued, history]⟩,
    fun away => absurd visits away⟩

theorem HandedOver.enqueuePendingFd (handed : worker.HandedOver waking) {address fd : Nat}
    (fresh : worker.queue.memory address = none) (wakes : waking') :
    (worker.enqueuePendingFd address fd).HandedOver waking' := by
  obtain ⟨nodes, ⟨holds, history⟩, _⟩ := handed
  refine ⟨nodes ++ [(address, fd)], ⟨holds.push fresh fd, ?_⟩, fun _ _ => .inr wakes⟩
  simp [Worker.enqueuePendingFd, history]

@[simp] theorem wake_phase (capacity : Nat) (worker : Worker) :
    (worker.wake capacity).phase = worker.phase := by
  unfold wake
  split <;> rfl

@[simp] theorem wake_connections (capacity : Nat) (worker : Worker) :
    (worker.wake capacity).connections = worker.connections := by
  unfold wake
  split <;> rfl

@[simp] theorem wake_queue (capacity : Nat) (worker : Worker) :
    (worker.wake capacity).queue = worker.queue := by
  unfold wake
  split <;> rfl

theorem Queues.wake (queues : worker.Queues nodes) (capacity : Nat) :
    (worker.wake capacity).Queues nodes := by
  unfold Worker.wake
  split <;> exact ⟨queues.holds, queues.history⟩

/-- A pipe that cannot take another byte has one in it. -/
theorem wake_notifyPipe {capacity : Nat} (positive : 0 < capacity) (worker : Worker) :
    0 < (worker.wake capacity).notifyPipe := by
  unfold wake
  split
  · exact Nat.succ_pos _
  · omega

theorem HandedOver.wake (handed : worker.HandedOver waking) {capacity : Nat}
    (positive : 0 < capacity) : (worker.wake capacity).HandedOver waking' := by
  obtain ⟨nodes, queues, _⟩ := handed
  exact ⟨nodes, queues.wake capacity, fun _ _ => .inl (wake_notifyPipe positive worker)⟩

theorem dequeuePendingFd_frame {fd : Nat}
    (first : worker.dequeuePendingFd = some (fd, worker')) :
    worker'.phase = worker.phase ∧ worker'.connections = worker.connections ∧
      worker'.notifyPipe = worker.notifyPipe := by
  obtain ⟨⟨taken, queue⟩, _, same⟩ := Option.map_eq_some_iff.mp first
  cases same
  exact ⟨rfl, rfl, rfl⟩

theorem Queues.dequeued_nil (queues : worker.Queues []) : worker.dequeuePendingFd = none := by
  simp [dequeuePendingFd, queues.holds.pop_nil]

theorem Queues.dequeued_cons {address fd : Nat} (queues : worker.Queues ((address, fd) :: nodes)) :
    ∃ worker', worker.dequeuePendingFd = some (fd, worker') ∧ worker'.Queues nodes := by
  obtain ⟨holds, history⟩ := queues
  obtain ⟨rest, popped, restHolds⟩ := holds.pop_cons
  refine ⟨{ worker with queue := rest, dequeued := worker.dequeued ++ [fd] }, ?_, restHolds, ?_⟩
  · simp [dequeuePendingFd, popped]
  · simpa using history

theorem Queues.of_dequeued (queues : worker.Queues nodes) {fd : Nat}
    (first : worker.dequeuePendingFd = some (fd, worker')) :
    ∃ address rest, nodes = (address, fd) :: rest ∧ worker'.Queues rest := by
  cases nodes with
  | nil => simp [queues.dequeued_nil] at first
  | cons node rest =>
      obtain ⟨after, dequeued, restQueues⟩ := queues.dequeued_cons
      rw [dequeued, Option.some.injEq, Prod.mk.injEq] at first
      obtain ⟨rfl, rfl⟩ := first
      exact ⟨node.1, rest, rfl, restQueues⟩

theorem Queues.of_dequeued_none (queues : worker.Queues nodes)
    (none : worker.dequeuePendingFd = none) : nodes = [] := by
  cases nodes with
  | nil => rfl
  | cons node rest =>
      obtain ⟨after, dequeued, _⟩ := queues.dequeued_cons
      simp [dequeued] at none

theorem addClientToWorker_eq (answers : AddAnswers) (fd : Nat) (worker : Worker) :
    worker.addClientToWorker answers fd =
      if answers.calloc ∧ answers.realloc SERVER_INITIAL_REQUEST_BUFFER_SIZE ∧ answers.epollCtl then
        some { worker with connections := worker.connections ++ [(fd, ConnectionState.start)] }
      else
        none := by
  rw [addClientToWorker, ensureConnectionCapacity_initial]
  cases answers.calloc <;> cases answers.realloc SERVER_INITIAL_REQUEST_BUFFER_SIZE <;>
    cases answers.epollCtl <;> rfl

theorem addClientToWorker_eq_some {answers : AddAnswers} {fd : Nat}
    (succeeds : worker.addClientToWorker answers fd = some worker') :
    worker' =
      { worker with connections := worker.connections ++ [(fd, ConnectionState.start)] } := by
  rw [addClientToWorker_eq] at succeeds
  split at succeeds
  · exact (Option.some.inj succeeds).symm
  · contradiction

/-- A worker that leaves the queue has seen it empty. -/
theorem Step.handedOver {stop : Bool} {fds : List Nat} (step : Step stop worker fds worker')
    (handed : worker.HandedOver waking) : worker'.HandedOver waking := by
  cases step with
  | stopSeen isAt => exact handed.visiting rfl rfl rfl trivial
  | notified isAt => exact handed.visiting rfl rfl rfl trivial
  | wait isAt | interrupted isAt | waitFailed isAt | ready isAt | handled isAt | kept isAt
  | closed isAt =>
      refine handed.moved rfl rfl rfl rfl ?_
      simp [isAt, WorkerPhase.VisitsQueue]
  | read isAt =>
      refine handed.visiting rfl rfl rfl ?_
      simp [readNotifyPipe, isAt, WorkerPhase.VisitsQueue]
  | drained isAt | refused isAt => exact handed.visiting rfl rfl rfl trivial
  | dequeued isAt first =>
      obtain ⟨nodes, queues, _⟩ := handed
      obtain ⟨address, rest, rfl, restQueues⟩ := queues.of_dequeued first
      exact ⟨rest, ⟨restQueues.holds, restQueues.history⟩, fun away => absurd trivial away⟩
  | dequeuedAll isAt none =>
      obtain ⟨nodes, queues, _⟩ := handed
      obtain rfl := queues.of_dequeued_none none
      exact ⟨[], ⟨queues.holds, queues.history⟩, fun _ nonempty => absurd rfl nonempty⟩
  | added isAt answers succeeds =>
      obtain rfl := addClientToWorker_eq_some succeeds
      exact handed.visiting rfl rfl rfl trivial

end Worker

namespace Server

def HandedOver (server : Server) (index : Nat) : Prop :=
  (server.workers index).HandedOver (server.main = .enqueued index)

variable {machine : Machine} {server before after : Server} {index other : Nat}

private theorem HandedOver.update {worker : Worker} {main : MainPhase}
    (handed : other ≠ index → (server.workers index).HandedOver (main = .enqueued index))
    (updated : other = index → worker.HandedOver (main = .enqueued index)) :
    (Function.update server.workers other worker index).HandedOver
      (main = .enqueued index) := by
  by_cases same : other = index
  · subst same
    rw [Function.update_self]
    exact updated rfl
  · rw [Function.update_of_ne (Ne.symm same)]
    exact handed same

theorem HandedOver.step (handed : before.HandedOver index) (step : Step machine before after) :
    after.HandedOver index := by
  have elsewhere {main : MainPhase} (isAt : before.main = main)
      (away : main ≠ .enqueued index) {waking : Prop} :
      (before.workers index).HandedOver waking :=
    handed.weaken fun waking => absurd (isAt.symm.trans waking) away
  cases step with
  | signalled | startWorker => exact handed
  | workerStep _ step =>
      refine HandedOver.update (fun _ => handed) ?_
      rintro rfl
      exact step.handedOver handed
  | setupFailed isAt | listening isAt | accept isAt | stopSeen isAt | interrupted isAt
  | acceptFailed isAt | accepted isAt | nonblocking isAt | staysBlocking isAt | noNode isAt
  | allWoken isAt | joined isAt | destroyedAll isAt | returned isAt =>
      exact elsewhere isAt (by simp)
  | enqueued isAt address fresh =>
      refine HandedOver.update (fun _ => elsewhere isAt (by simp)) ?_
      rintro rfl
      exact handed.enqueuePendingFd fresh rfl
  | woken isAt =>
      refine HandedOver.update (fun different => elsewhere isAt (by simpa using different)) ?_
      rintro rfl
      exact handed.wake machine.pipeHolds
  | wokenToStop isAt =>
      refine HandedOver.update (fun _ => elsewhere isAt (by simp)) ?_
      rintro rfl
      exact handed.wake machine.pipeHolds
  | destroyed isAt first =>
      refine HandedOver.update (fun _ => handed) ?_
      rintro rfl
      obtain ⟨nodes, queues, awake⟩ := @elsewhere _ isAt (by simp) False
      obtain ⟨address, rest, rfl, restQueues⟩ := queues.of_dequeued first
      obtain ⟨phase, _, pipe⟩ := Worker.dequeuePendingFd_frame first
      refine ⟨rest, restQueues, fun away _ => ?_⟩
      rw [pipe]
      rw [phase] at away
      exact (awake away (by simp)).imp_right False.elim

theorem Reachable.handedOver (reachable : Reachable machine server) (index : Nat) :
    server.HandedOver index :=
  reachable.invariant (@Worker.start_handedOver _) HandedOver.step

/-- The queue of every worker is in order and loses nothing, and no worker waits for a
connection that it is not going to be woken for. -/
theorem queue_losesNothing (machine : Machine) (server : Server)
    (reachable : Reachable machine server) (index : Nat) :
    let worker := server.workers index
    (worker.queue.head = none ↔ worker.queue.tail = none) ∧
      ∃ nodes, worker.queue.Holds nodes ∧
        worker.enqueued = worker.dequeued ++ nodes.map Prod.snd ∧
        (worker.phase = .looping ∨ worker.phase = .waiting → worker.queue.head ≠ none →
          0 < worker.notifyPipe ∨ server.main = .enqueued index) := by
  obtain ⟨nodes, ⟨holds, history⟩, awake⟩ := reachable.handedOver index
  refine ⟨?_, nodes, holds, history, ?_⟩
  · rw [holds.head_eq_none_iff, holds.tail_eq_none_iff]
  · intro waits nonempty
    refine awake ?_ (mt holds.head_eq_none_iff.mpr nonempty)
    rcases waits with waits | waits <;> simp [waits, WorkerPhase.VisitsQueue]

def oneCore : Machine := ⟨1, 65536, by decide⟩

def firstQueued : Server where
  stop := false
  main := .enqueued 0
  started := 1
  nextWorker := 1
  workers := Function.update (fun _ => Worker.start) 0 (Worker.start.enqueuePendingFd 0 7)
  opened := [7]
  accepted := [7]
  closed := []

theorem firstQueued_reachable : Reachable oneCore firstQueued := by
  have started : Reachable oneCore _ := .single (.startWorker rfl (by decide))
  have listens := started.tail (.listening rfl rfl)
  have accepts := listens.tail (.accept rfl rfl)
  have accepted := accepts.tail (.accepted rfl 7 List.not_mem_nil)
  have nonblocking := accepted.tail (.nonblocking rfl)
  exact nonblocking.tail (.enqueued rfl 0 rfl)

theorem queue_losesNothing_firstQueued :
    (firstQueued.workers 0).queue.head ≠ none ∧
      ((firstQueued.workers 0).queue.head = none ↔
        (firstQueued.workers 0).queue.tail = none) ∧
      ∃ nodes, (firstQueued.workers 0).queue.Holds nodes ∧
        [7] = [] ++ nodes.map Prod.snd ∧
        (WorkerPhase.looping = .looping ∨ WorkerPhase.looping = .waiting →
          some 0 ≠ (none : Option Nat) →
          0 < 0 ∨ firstQueued.main = .enqueued 0) :=
  ⟨by decide, queue_losesNothing oneCore firstQueued firstQueued_reachable 0⟩

end Server

end HttpFs.CProvider
