import Mathlib.Algebra.Order.BigOperators.Group.Finset
import HttpFs.Foundation.BoundedRuns
import HttpFs.Provider.Shutdown

namespace HttpFs.CProvider

/-! How far the process is from the end of `httpfs_server_run`. -/

def WorkerPhase.events : WorkerPhase → List Ready
  | .handling events | .draining (some events) | .dequeuing (some events)
  | .adding _ (some events) => events
  | .looping | .waiting | .draining none | .dequeuing none | .adding _ none | .ended => []

def WorkerPhase.rank : WorkerPhase → Nat
  | .ended => 0
  | .dequeuing none => 1
  | .draining none | .adding _ none => 2
  | .looping => 3
  | .handling events => 5 * events.length + 4
  | .dequeuing (some events) => 5 * events.length + 5
  | .draining (some events) | .adding _ (some events) => 5 * events.length + 6
  | .waiting => 5 * SERVER_EPOLL_MAX_EVENTS + 5

namespace Worker

variable {worker worker' : Worker} {nodes : List (Nat × Nat)} {fds : List Nat} {stop : Bool}

/-- The events that a worker has yet to handle are about connections that it still has. -/
structure Current (worker : Worker) : Prop where
  count : worker.phase.events.length ≤ SERVER_EPOLL_MAX_EVENTS
  distinct : worker.phase.events.Nodup
  registered : ∀ fd, .client fd ∈ worker.phase.events → fd ∈ worker.connections.map Prod.fst

theorem Current.moved (current : worker.Current) (events : worker'.phase.events =
    worker.phase.events) (connections : worker.connections.map Prod.fst ⊆
      worker'.connections.map Prod.fst) : worker'.Current where
  count := events ▸ current.count
  distinct := events ▸ current.distinct
  registered fd member := connections (current.registered fd (events ▸ member))

theorem current_nil (none : worker.phase.events = []) : worker.Current where
  count := by simp [none]
  distinct := by simp [none]
  registered fd member := by simp [none] at member

theorem Step.current (step : Step stop worker fds worker') (current : worker.Current) :
    worker'.Current := by
  cases step with
  | stopSeen | wait | interrupted | waitFailed | handled => exact current_nil rfl
  | ready isAt events reported => exact ⟨reported.count, reported.distinct, reported.registered⟩
  | @notified events isAt =>
      obtain ⟨count, distinct, registered⟩ := current
      simp only [isAt, WorkerPhase.events] at count distinct registered
      exact ⟨Nat.le_of_succ_le count, (List.nodup_cons.mp distinct).2,
        fun fd member => registered fd (List.mem_cons_of_mem _ member)⟩
  | @kept events fd conn conn' isAt found turn waits =>
      obtain ⟨count, distinct, registered⟩ := current
      simp only [isAt, WorkerPhase.events] at count distinct registered
      refine ⟨?_, ?_, fun other member => ?_⟩
      · simp only [WorkerPhase.events]
        split
        · exact Nat.le_of_succ_le count
        · exact count
      · simp only [WorkerPhase.events]
        split
        · exact (List.nodup_cons.mp distinct).2
        · exact distinct
      · change other ∈ (worker.keepConnection fd conn').connections.map Prod.fst
        rw [keepConnection_fds]
        apply registered
        simp only [WorkerPhase.events] at member
        split at member
        · exact List.mem_cons_of_mem _ member
        · exact member
  | @closed events fd conn isAt found turn ends =>
      obtain ⟨count, distinct, registered⟩ := current
      simp only [isAt, WorkerPhase.events] at count distinct registered
      obtain ⟨absent, distinct⟩ := List.nodup_cons.mp distinct
      refine ⟨Nat.le_of_succ_le count, distinct, fun other member => ?_⟩
      have inConnections := registered other (List.mem_cons_of_mem _ member)
      obtain rfl | kept := List.mem_cons.mp ((closeConnection_fds found).subset inConnections)
      · exact absurd member absent
      · exact kept
  | read => exact current.moved rfl (List.Subset.refl _)
  | @drained after isAt =>
      refine current.moved ?_ (List.Subset.refl _)
      cases after <;> simp [isAt, WorkerPhase.events]
  | @dequeued _ after fd isAt first =>
      obtain ⟨_, connections, _⟩ := dequeuePendingFd_frame first
      refine current.moved ?_ (by simp [connections])
      cases after <;> simp [isAt, WorkerPhase.events]
  | @dequeuedAll after isAt =>
      refine current.moved ?_ (List.Subset.refl _)
      cases after <;> simp [isAt, WorkerPhase.events, afterQueue]
  | @added _ after fd isAt answers succeeds =>
      obtain rfl := addClientToWorker_eq_some succeeds
      refine current.moved ?_ ?_
      · cases after <;> simp [isAt, WorkerPhase.events]
      · simp
  | @refused after fd isAt =>
      refine current.moved ?_ (List.Subset.refl _)
      cases after <;> simp [isAt, WorkerPhase.events]

def measure (worker : Worker) : Nat :=
  2 * worker.pending.length + worker.notifyPipe + worker.phase.rank

/-- A turn of `handle_client_event` that is followed by another one on the same connection. -/
def Receives (worker worker' : Worker) : Prop :=
  ∃ fd conn conn' events turn, worker.phase = .handling (.client fd :: events) ∧
    (fd, conn) ∈ worker.connections ∧ handleClientEvent turn conn = .waiting conn' ∧
    worker' = worker.keepConnection fd conn'

theorem Receives.measure (receives : worker.Receives worker') :
    worker'.measure = worker.measure := by
  obtain ⟨fd, conn, conn', events, turn, _, _, _, rfl⟩ := receives
  rfl

theorem Queues.length_dequeued (queues : worker.Queues nodes) {fd : Nat}
    (first : worker.dequeuePendingFd = some (fd, worker')) :
    worker.pending.length = worker'.pending.length + 1 := by
  obtain ⟨address, rest, rfl, restQueues⟩ := queues.of_dequeued first
  rw [queues.pending, restQueues.pending]
  simp

theorem Queues.measure_dequeued (queues : worker.Queues nodes) {fd : Nat}
    (first : worker.dequeuePendingFd = some (fd, worker')) :
    worker'.measure < worker.measure := by
  have fewer := queues.length_dequeued first
  obtain ⟨phase, _, pipe⟩ := dequeuePendingFd_frame first
  simp only [Worker.measure, phase, pipe]
  omega

/-- When the server is to stop, every step of a worker brings it nearer to its end, other
than to receive more of a request. -/
theorem Step.measure (step : Step true worker fds worker') (queues : worker.Queues nodes) :
    worker'.measure < worker.measure ∨ fds = [] ∧ worker.Receives worker' := by
  cases step with
  | wait isAt going => contradiction
  | stopSeen isAt | interrupted isAt | waitFailed isAt | handled isAt | notified isAt =>
      left
      simp only [Worker.measure, isAt, WorkerPhase.rank, Worker.pending, List.length_cons,
        SERVER_EPOLL_MAX_EVENTS]
      omega
  | ready isAt events reported =>
      left
      have count := reported.count
      simp only [Worker.measure, isAt, WorkerPhase.rank, Worker.pending]
      omega
  | @kept events fd conn conn' isAt found turn waits =>
      by_cases blocked : turn.recv = .wouldBlock
      · left
        simp only [Worker.measure, isAt, WorkerPhase.rank, Worker.pending, if_pos blocked,
          List.length_cons, keepConnection]
        omega
      · refine .inr ⟨rfl, fd, conn, conn', events, turn, isAt, found, waits, ?_⟩
        simp only [if_neg blocked, ← isAt]
        rfl
  | closed isAt =>
      left
      simp only [Worker.measure, isAt, WorkerPhase.rank, Worker.pending, List.length_cons,
        closeConnection]
      omega
  | read isAt some =>
      left
      simp only [Worker.measure, Worker.pending, readNotifyPipe]
      omega
  | @drained after isAt =>
      left
      cases after <;> simp only [Worker.measure, isAt, WorkerPhase.rank, Worker.pending] <;> omega
  | @dequeued taken after fd isAt first =>
      left
      have fewer := queues.length_dequeued first
      obtain ⟨_, _, pipe⟩ := dequeuePendingFd_frame first
      change 2 * taken.pending.length + taken.notifyPipe + _ < _
      cases after <;> simp only [Worker.measure, isAt, WorkerPhase.rank, pipe] <;> omega
  | @dequeuedAll after isAt =>
      left
      cases after <;>
        simp only [Worker.measure, isAt, WorkerPhase.rank, Worker.pending, afterQueue] <;> omega
  | @added _ after fd isAt answers succeeds =>
      left
      obtain rfl := addClientToWorker_eq_some succeeds
      cases after <;> simp only [Worker.measure, isAt, WorkerPhase.rank, Worker.pending] <;> omega
  | @refused after fd isAt =>
      left
      cases after <;> simp only [Worker.measure, isAt, WorkerPhase.rank, Worker.pending] <;> omega

/-- A turn of a client that has sent nothing more. -/
def quietTurn : Turn := ⟨false, fun _ => true, .wouldBlock, true⟩

/-- A worker that has not ended is never stuck, even when no client sends anything more. -/
theorem Current.progress (current : worker.Current) (queues : worker.Queues nodes)
    (running : worker.phase ≠ .ended) :
    ∃ fds worker', Step true worker fds worker' ∧ worker'.measure < worker.measure := by
  have lowers {fds : List Nat} {worker' : Worker} (step : Step true worker fds worker')
      (other : worker'.phase ≠ worker.phase ∨ fds ≠ []) :
      ∃ fds worker', Step true worker fds worker' ∧ worker'.measure < worker.measure := by
    obtain lower | ⟨noFds, fd, conn, conn', events, turn, _, _, _, rfl⟩ := step.measure queues
    · exact ⟨fds, worker', step, lower⟩
    · obtain phase | closes := other
      · exact absurd rfl phase
      · exact absurd noFds closes
  cases isAt : worker.phase with
  | looping => exact lowers (.stopSeen isAt rfl) (.inl (by simp [isAt]))
  -- The wait is over after a second at the latest.
  | waiting =>
      exact lowers (.ready isAt [] ⟨Nat.zero_le _, List.nodup_nil, by simp, by simp⟩)
        (.inl (by simp [isAt]))
  | handling events =>
      cases events with
      | nil => exact lowers (.handled isAt) (.inl (by simp [isAt]))
      | cons first events =>
          cases first with
          | notifier => exact lowers (.notified isAt) (.inl (by simp [isAt]))
          | client fd =>
              have inPhase : .client fd ∈ worker.phase.events := by
                simp [isAt, WorkerPhase.events]
              obtain ⟨⟨_, conn⟩, found, rfl⟩ := List.mem_map.mp (current.registered fd inPhase)
              by_cases waits : ∃ conn', handleClientEvent quietTurn conn = .waiting conn'
              · obtain ⟨conn', waits⟩ := waits
                exact lowers (.kept isAt found quietTurn waits)
                  (.inl (by simp [isAt, quietTurn]))
              · exact lowers (.closed isAt found quietTurn (not_exists.mp waits)) (.inr (by simp))
  | draining after =>
      rcases Nat.eq_zero_or_pos worker.notifyPipe with empty | some
      · exact lowers (.drained isAt empty) (.inl (by simp [isAt]))
      · refine ⟨_, _, .read isAt some, ?_⟩
        simp only [Worker.measure, Worker.pending, readNotifyPipe]
        omega
  | dequeuing after =>
      cases first : worker.dequeuePendingFd with
      | none =>
          refine lowers (.dequeuedAll isAt first) (.inl ?_)
          cases after <;> simp [isAt, afterQueue]
      | some taken => exact lowers (.dequeued isAt first) (.inl (by simp [isAt]))
  | adding fd after =>
      exact lowers (.refused isAt ⟨false, fun _ => true, true⟩ rfl) (.inr (by simp))
  | ended => contradiction

end Worker

def MainPhase.rank (workerCount started : Nat) : MainPhase → Nat
  | .returned => 0
  | .destroying index => 2 * (workerCount - index)
  | .joining index => 2 * (workerCount - index) + 1
  | .waking index => 2 * workerCount + 2 * (workerCount - index) + 2
  | .looping => 4 * workerCount + 3
  | .enqueued _ => 4 * workerCount + 5
  | .queuing _ => 4 * workerCount + 8
  | .accepted _ => 4 * workerCount + 9
  | .accepting => 4 * workerCount + 10
  | .preparing => 4 * workerCount + 4 * (workerCount - started) + 11

namespace Server

variable {machine : Machine} {server before after : Server} {index : Nat}

/-- No event is handled for a connection that is gone. -/
theorem Reachable.current (reachable : Reachable machine server) (index : Nat) :
    (server.workers index).Current := by
  induction reachable with
  | refl => exact Worker.current_nil rfl
  | @tail before after path step current =>
      rcases step.worker index with ⟨fds, step⟩ | ⟨phase, connections⟩
      · exact step.current current
      · exact current.moved (by rw [phase]) (by simp [connections])

/-- The worker that the main thread is at is one of those that run. -/
def MainPhase.Within (started : Nat) : MainPhase → Prop
  | .waking index | .joining index => index ≤ started
  | .enqueued index | .destroying index => index < started
  | .preparing | .looping | .accepting | .accepted _ | .queuing _ | .returned => True

structure Counted (machine : Machine) (server : Server) : Prop where
  started : server.started ≤ machine.workerCount
  within : MainPhase.Within server.started server.main

theorem Counted.step (counted : before.Counted machine) (shape : before.Shape machine)
    (step : Step machine before after) : after.Counted machine := by
  obtain ⟨started, within⟩ := counted
  cases step with
  | signalled | workerStep => exact ⟨started, within⟩
  | startWorker isAt another => exact ⟨another, by simp [isAt, MainPhase.Within]⟩
  | setupFailed | acceptFailed | stopSeen => exact ⟨started, Nat.zero_le _⟩
  | listening | accept | interrupted | accepted | nonblocking | staysBlocking | noNode
  | woken | returned => exact ⟨started, trivial⟩
  | enqueued isAt =>
      have stage := shape.stage
      rw [isAt] at stage
      exact ⟨started, stage.symm ▸ chosen_lt machine before⟩
  | wokenToStop isAt another => exact ⟨started, another⟩
  | allWoken => exact ⟨started, Nat.zero_le _⟩
  | joined isAt another => exact ⟨started, another⟩
  | destroyed isAt =>
      rw [isAt] at within
      exact ⟨started, by simpa [close, setWorker, isAt] using within⟩
  | destroyedAll isAt =>
      rw [isAt] at within
      exact ⟨started, within⟩

theorem Reachable.counted (reachable : Reachable machine server) : server.Counted machine := by
  induction reachable with
  | refl => exact ⟨Nat.zero_le _, trivial⟩
  | tail path step counted => exact counted.step (Reachable.shape path) step

def work (server : Server) : Nat :=
  ∑ index ∈ Finset.range server.started, (server.workers index).measure

def measure (machine : Machine) (server : Server) : Nat :=
  server.main.rank machine.workerCount server.started + server.work

theorem work_setWorker (runs : index < server.started) (worker : Worker) :
    (server.setWorker index worker).work + (server.workers index).measure =
      server.work + worker.measure := by
  have member : index ∈ Finset.range server.started := Finset.mem_range.mpr runs
  have others : ∑ other ∈ (Finset.range server.started).erase index,
      (Function.update server.workers index worker other).measure =
        ∑ other ∈ (Finset.range server.started).erase index,
          (server.workers other).measure := by
    refine Finset.sum_congr rfl fun other inside => ?_
    rw [Function.update_of_ne (Finset.ne_of_mem_erase inside)]
  simp only [work, setWorker]
  rw [← Finset.add_sum_erase _ _ member, ← Finset.add_sum_erase _ _ member, others,
    Function.update_self]
  omega

/-- What brings one worker nearer to its end brings the process nearer to its own. -/
theorem measure_setWorker (runs : index < server.started) {worker : Worker}
    (lower : worker.measure < (server.workers index).measure) (fds : List Nat) :
    ((server.setWorker index worker).close fds).measure machine < server.measure machine := by
  have sum := work_setWorker runs worker
  have fewer : (server.setWorker index worker).work < server.work := by omega
  exact Nat.add_lt_add_left fewer _

theorem work_wake (runs : index < server.started) (capacity : Nat) :
    (server.setWorker index ((server.workers index).wake capacity)).work ≤ server.work + 1 := by
  have sum := work_setWorker runs ((server.workers index).wake capacity)
  have grows : ((server.workers index).wake capacity).measure ≤
      (server.workers index).measure + 1 := by
    unfold Worker.wake
    split
    · simp only [Worker.measure, Worker.pending]
      omega
    · omega
  omega

/-- A worker receives more of a request. -/
def Receives (before after : Server) : Prop :=
  ∃ index worker, index < before.started ∧ (before.workers index).Receives worker ∧
    after = before.setWorker index worker

/-- A step that brings the process no nearer to its end: a signal to one that is to stop
already, or a client that sends more. -/
def Idle (before after : Server) : Prop := after = before ∨ before.Receives after

theorem Idle.measure (idle : before.Idle after) :
    after.measure machine = before.measure machine := by
  obtain rfl | ⟨index, worker, runs, receives, rfl⟩ := idle
  · rfl
  · have sum := work_setWorker runs worker
    rw [receives.measure] at sum
    have same : (before.setWorker index worker).work = before.work := by omega
    simp only [Server.measure, same]
    rfl

theorem Step.stays_stopped (step : Step machine before after) (stopped : before.stop = true) :
    after.stop = true := by
  cases step <;> first | exact stopped | rfl

private theorem measure_lt {main : MainPhase} (added : Nat)
    (phase : after.main.rank machine.workerCount after.started + added <
      main.rank machine.workerCount before.started)
    (isAt : before.main = main) (work : after.work ≤ before.work + added) :
    after.measure machine < before.measure machine := by
  simp only [Server.measure, isAt]
  omega

/-- When the server is to stop, every step brings it nearer to its end, other than to
receive more of a request. -/
theorem Step.measure (reachable : Reachable machine before) (stopped : before.stop = true)
    (step : Step machine before after) :
    after.measure machine < before.measure machine ∨ before.Idle after := by
  have shape := reachable.shape
  have stage := shape.stage
  obtain ⟨started, within⟩ := reachable.counted
  cases step with
  | signalled =>
      refine .inr (.inl ?_)
      rw [← stopped]
  | @workerStep index fds worker runs step =>
      obtain ⟨nodes, queues, _⟩ := reachable.handedOver index
      rw [stopped] at step
      obtain lower | ⟨rfl, receives⟩ := step.measure queues
      · exact .inl (measure_setWorker runs lower fds)
      · refine .inr (.inr ⟨index, worker, runs, receives, ?_⟩)
        simp [close]
  | accept isAt going =>
      rw [stopped] at going
      contradiction
  | startWorker isAt another =>
      have fresh : (before.workers before.started).measure = 3 := by
        rw [shape.idle _ (Nat.le_refl _)]
        rfl
      refine .inl (measure_lt 3 ?_ isAt ?_)
      · simp only [isAt, MainPhase.rank]
        omega
      · simp only [work, Finset.sum_range_succ, fresh]
        exact Nat.le_refl _
  | setupFailed isAt | listening isAt | stopSeen isAt | interrupted isAt | acceptFailed isAt
  | accepted isAt | nonblocking isAt | staysBlocking isAt | noNode isAt =>
      refine .inl (measure_lt 0 ?_ isAt (Nat.le_refl _))
      simp only [MainPhase.rank]
      omega
  | @enqueued fd isAt address fresh =>
      rw [isAt] at stage
      have runs : before.chosen machine < before.started :=
        stage.symm ▸ chosen_lt machine before
      obtain ⟨nodes, queues, _⟩ := reachable.handedOver (before.chosen machine)
      have sum := work_setWorker runs
        ((before.workers (before.chosen machine)).enqueuePendingFd address fd)
      have longer : ((before.workers (before.chosen machine)).enqueuePendingFd address
          fd).measure = (before.workers (before.chosen machine)).measure + 2 := by
        simp only [Worker.measure, queues.enqueued_pending, List.length_append,
          List.length_singleton]
        simp only [Worker.enqueuePendingFd]
        omega
      refine .inl (measure_lt 2 ?_ isAt ?_)
      · simp only [MainPhase.rank]
        omega
      · change (before.setWorker _ _).work ≤ _
        omega
  | @woken index isAt =>
      rw [isAt] at within
      refine .inl (measure_lt 1 ?_ isAt (work_wake within _))
      simp only [MainPhase.rank]
      omega
  | @wokenToStop index isAt another =>
      refine .inl (measure_lt 1 ?_ isAt (work_wake another _))
      simp only [MainPhase.rank]
      omega
  | allWoken isAt all =>
      refine .inl (measure_lt 0 ?_ isAt (Nat.le_refl _))
      simp only [MainPhase.rank]
      omega
  | joined isAt another =>
      refine .inl (measure_lt 0 ?_ isAt (Nat.le_refl _))
      simp only [MainPhase.rank]
      omega
  | @destroyed index fd worker isAt first =>
      rw [isAt] at within
      obtain ⟨nodes, queues, _⟩ := reachable.handedOver index
      exact .inl (measure_setWorker within (queues.measure_dequeued first) [fd])
  | @destroyedAll index isAt =>
      rw [isAt] at within
      have runs : index < before.started := within
      refine .inl (measure_lt 0 ?_ isAt (Nat.le_refl _))
      simp only [MainPhase.rank]
      omega
  | returned isAt =>
      refine .inl (measure_lt 0 ?_ isAt (Nat.le_refl _))
      simp only [MainPhase.rank]
      omega

/-- A server that is to stop and has not returned is never stuck. -/
theorem Reachable.progress (reachable : Reachable machine server) (stopped : server.stop = true)
    (running : server.main ≠ .returned) :
    ∃ after, Step machine server after ∧ ¬ server.Idle after := by
  have lowers {after : Server} (step : Step machine server after)
      (other : after.main ≠ server.main) : ∃ after, Step machine server after ∧
        ¬ server.Idle after := by
    refine ⟨after, step, fun idle => other ?_⟩
    obtain rfl | ⟨index, worker, _, _, rfl⟩ := idle
    · rfl
    · rfl
  obtain ⟨_, within⟩ := reachable.counted
  have stage := reachable.shape.stage
  cases isAt : server.main with
  | preparing => exact lowers (.setupFailed isAt) (by simp [isAt])
  | looping => exact lowers (.stopSeen isAt stopped) (by simp [isAt])
  | accepting => exact lowers (.interrupted isAt) (by simp [isAt])
  | accepted fd => exact lowers (.staysBlocking isAt) (by simp [isAt])
  | queuing fd => exact lowers (.noNode isAt) (by simp [isAt])
  | enqueued index => exact lowers (.woken isAt) (by simp [isAt])
  | waking index =>
      rw [isAt] at within
      rcases Nat.lt_or_eq_of_le within with another | all
      · exact lowers (.wokenToStop isAt another) (by simp [isAt])
      · exact lowers (.allWoken isAt all) (by simp [isAt])
  | joining index =>
      rw [isAt] at within
      rcases Nat.lt_or_eq_of_le within with another | all
      · by_cases ended : (server.workers index).phase = .ended
        · exact lowers (.joined isAt another ended) (by simp [isAt])
        · obtain ⟨nodes, queues, _⟩ := reachable.handedOver index
          obtain ⟨fds, worker, step, lower⟩ := (reachable.current index).progress queues ended
          rw [← stopped] at step
          exact ⟨_, .workerStep another step, fun idle =>
            Nat.ne_of_lt (measure_setWorker another lower fds) (@Idle.measure machine _ _ idle)⟩
      · exact lowers (.returned isAt all) (by simp [isAt])
  | destroying index =>
      cases first : (server.workers index).dequeuePendingFd with
      | none => exact lowers (.destroyedAll isAt first) (by simp [isAt])
      | some taken =>
          rw [isAt] at within
          obtain ⟨nodes, queues, _⟩ := reachable.handedOver index
          exact ⟨_, .destroyed isAt first, fun idle => Nat.ne_of_lt
            (measure_setWorker within (queues.measure_dequeued first) [taken.1])
            (@Idle.measure machine _ _ idle)⟩
  | returned => contradiction

/-- The steps of a run that bring the process nearer to its end, and the others. -/
def Advances (machine : Machine) (before after : Server) : Prop :=
  Step machine before after ∧ ¬ before.Idle after

def Idles (machine : Machine) (before after : Server) : Prop :=
  Step machine before after ∧ before.Idle after

def Stopping (machine : Machine) (server : Server) : Prop :=
  Reachable machine server ∧ server.stop = true

theorem Stopping.step (stopping : before.Stopping machine) (step : Step machine before after) :
    after.Stopping machine :=
  ⟨stopping.1.tail step, step.stays_stopped stopping.2⟩

open BoundedRuns

theorem Stopping.bounded (machine : Machine) :
    Bounded (Advances machine) (Idles machine) (Stopping machine) (measure machine) where
  counted stopping step := stopping.step step.1
  idle stopping step := stopping.step step.1
  lowers stopping step := (Step.measure stopping.1 stopping.2 step.1).resolve_right step.2
  notRaises _ step := Nat.le_of_eq step.2.measure

/-- The events that a worker has got are about connections that are open, that it has itself
and that no other worker has, until it has handled them. -/
theorem events_current (machine : Machine) (server : Server) (reachable : Reachable machine server)
    (index fd : Nat) (left : .client fd ∈ (server.workers index).phase.events) :
    fd ∈ server.opened ∧ (∃! conn, (fd, conn) ∈ (server.workers index).connections) ∧
      ∀ other conn, (fd, conn) ∈ (server.workers other).connections → other = index := by
  have custody := reachable.kept.custody
  have registered := (reachable.current index).registered fd left
  have holds : fd ∈ server.holdings (.connectionState index) := List.mem_append_right _ registered
  refine ⟨(custody.live_iff fd).mpr ⟨_, holds⟩, ?_, fun other conn found => ?_⟩
  · obtain ⟨⟨_, conn⟩, found, rfl⟩ := List.mem_map.mp registered
    have distinct : ((server.workers index).connections.map Prod.fst).Nodup :=
      (List.nodup_append.mp (custody.distinct (.connectionState index))).2.1
    refine ⟨conn, found, fun other alsoFound => ?_⟩
    exact congrArg Prod.snd (List.inj_on_of_nodup_map distinct alsoFound found rfl)
  · have alsoHolds : fd ∈ server.holdings (.connectionState other) :=
      List.mem_append_right _ (List.mem_map.mpr ⟨_, found, rfl⟩)
    injection custody.exclusive alsoHolds holds

/-- The worker has added the connection that was queued and waits for its events. -/
theorem firstAdded_waits : ∃ server, Reachable oneCore server ∧ 0 < server.started ∧
    (server.workers 0).phase = .waiting ∧
    (server.workers 0).connections.map Prod.fst = [7] := by
  have woken := firstQueued_reachable.tail (.woken rfl)
  have waits := Reachable.byWorker woken 0 (by decide) (.wait rfl rfl)
  have ready := waits.byWorker 0 (by decide)
    (.ready rfl [.notifier] ⟨by decide, by decide, fun _ => by decide, by simp⟩)
  have notified := ready.byWorker 0 (by decide) (.notified rfl)
  have read := notified.byWorker 0 (by decide) (.read rfl (by decide))
  have drained := read.byWorker 0 (by decide) (.drained rfl rfl)
  have dequeued := drained.byWorker 0 (by decide) (.dequeued rfl rfl)
  have added := dequeued.byWorker 0 (by decide)
    (.added rfl ⟨true, fun _ => true, true⟩ (Worker.addClientToWorker_eq _ 7 _))
  have dequeuedAll := added.byWorker 0 (by decide) (.dequeuedAll rfl rfl)
  have handled := dequeuedAll.byWorker 0 (by decide) (.handled rfl)
  exact ⟨_, handled.byWorker 0 (by decide) (.wait rfl rfl), by decide, rfl, rfl⟩

theorem events_current_first : ∃ server : Server,
    .client 7 ∈ (server.workers 0).phase.events ∧
      7 ∈ server.opened ∧ (∃! conn, (7, conn) ∈ (server.workers 0).connections) ∧
      ∀ other conn, (7, conn) ∈ (server.workers other).connections → other = 0 := by
  obtain ⟨server, reachable, runs, isAt, connections⟩ := firstAdded_waits
  have event := reachable.byWorker 0 runs (.ready isAt [.client 7] ⟨by decide, by decide,
    by simp, by simp [connections]⟩)
  have left : .client 7 ∈ WorkerPhase.events (.handling [.client 7]) := by decide
  refine ⟨_, ?_, events_current oneCore _ event 0 7 ?_⟩
  all_goals simpa [close, setWorker] using left

end Server

end HttpFs.CProvider
