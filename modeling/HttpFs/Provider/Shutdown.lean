import HttpFs.Provider.Ownership

namespace HttpFs.CProvider

namespace Worker

variable {worker worker' : Worker} {fds : List Nat} {stop : Bool}

theorem Step.not_ended (step : Step stop worker fds worker') : worker.phase ≠ .ended := by
  cases step <;> simp_all

theorem Step.ended_connections (step : Step stop worker fds worker')
    (ended : worker'.phase = .ended) : worker'.connections = worker.connections := by
  cases step with
  | waitFailed | dequeuedAll => rfl
  | read isAt => simp [readNotifyPipe, isAt] at ended
  | stopSeen | wait | interrupted | ready | handled | notified | kept | closed | drained
  | dequeued | added | refused => simp at ended

end Worker

namespace Server

variable {machine : Machine} {server before after : Server} {index : Nat}

theorem Reachable.kept (reachable : Reachable machine server) : server.Kept := by
  induction reachable with
  | refl => exact start_kept
  | tail path step kept => exact kept.step path step

def Retired (server : Server) (index : Nat) : Prop :=
  (server.workers index).phase = .ended ∧ (server.workers index).pending = []

/-- What the place where the main thread is says about the workers. -/
def Stage (machine : Machine) (server : Server) : MainPhase → Prop
  | .preparing | .waking _ => True
  | .looping | .accepting | .accepted _ | .queuing _ => server.started = machine.workerCount
  | .enqueued index => server.started = machine.workerCount ∧ index < server.started
  | .joining index => ∀ earlier < index, server.Retired earlier
  | .destroying index =>
      index < server.started ∧ (server.workers index).phase = .ended ∧
        ∀ earlier < index, server.Retired earlier
  | .returned => ∀ index < server.started, server.Retired index

structure Shape (machine : Machine) (server : Server) : Prop where
  stage : server.Stage machine server.main
  idle : ∀ index, server.started ≤ index → server.workers index = Worker.start

theorem start_shape : start.Shape machine := ⟨trivial, fun _ _ => rfl⟩

theorem chosen_lt (machine : Machine) (server : Server) :
    server.chosen machine < machine.workerCount :=
  Nat.mod_lt _ (chooseWorkerCount_pos _)

private theorem idle_update (shape : before.Shape machine) (runs : index < before.started)
    (worker : Worker) (other : Nat) (notStarted : before.started ≤ other) :
    Function.update before.workers index worker other = Worker.start := by
  rw [Function.update_of_ne (by omega), shape.idle other notStarted]

private theorem retired_update {worker : Worker} {other : Nat} (retired : before.Retired other)
    (different : other ≠ index) : (before.setWorker index worker).Retired other := by
  simpa [Retired, setWorker, Function.update_of_ne different] using retired

private theorem stage_update (stage : before.Stage machine before.main)
    (running : (before.workers index).phase ≠ .ended) (worker : Worker) :
    (before.setWorker index worker).Stage machine before.main := by
  have stays {other : Nat} (retired : before.Retired other) :
      (before.setWorker index worker).Retired other := by
    refine retired_update retired ?_
    rintro rfl
    exact running retired.1
  cases main : before.main with
  | preparing | waking => trivial
  | looping | accepting | accepted | queuing | enqueued =>
      rw [main] at stage
      exact stage
  | joining next =>
      rw [main] at stage
      exact fun earlier isEarlier => stays (stage earlier isEarlier)
  | destroying next =>
      rw [main] at stage
      refine ⟨stage.1, ?_, fun earlier isEarlier => stays (stage.2.2 earlier isEarlier)⟩
      have different : next ≠ index := by
        rintro rfl
        exact running stage.2.1
      simpa [setWorker, Function.update_of_ne different] using stage.2.1
  | returned =>
      rw [main] at stage
      exact fun other isStarted => stays (stage other isStarted)

theorem Shape.step (shape : before.Shape machine) (reachable : Reachable machine before)
    (step : Step machine before after) : after.Shape machine := by
  have stage := shape.stage
  cases step with
  | signalled => exact ⟨stage, shape.idle⟩
  | workerStep runs step =>
      exact ⟨stage_update stage step.not_ended _, idle_update shape runs _⟩
  | startWorker isAt another =>
      refine ⟨?_, fun index notStarted => shape.idle index (Nat.le_of_succ_le notStarted)⟩
      change Stage machine _ before.main
      rw [isAt]
      trivial
  | setupFailed | acceptFailed | stopSeen => exact ⟨trivial, shape.idle⟩
  | listening isAt all => exact ⟨all, shape.idle⟩
  | accept isAt | interrupted isAt | accepted isAt | nonblocking isAt | staysBlocking isAt
  | noNode isAt =>
      rw [isAt] at stage
      exact ⟨stage, shape.idle⟩
  | enqueued isAt =>
      rw [isAt] at stage
      have runs : before.chosen machine < before.started :=
        stage.symm ▸ chosen_lt machine before
      exact ⟨⟨stage, runs⟩, idle_update shape runs _⟩
  | woken isAt =>
      rw [isAt] at stage
      exact ⟨stage.1, idle_update shape stage.2 _⟩
  | wokenToStop isAt another => exact ⟨trivial, idle_update shape another _⟩
  | allWoken isAt => exact ⟨fun _ isEarlier => absurd isEarlier (Nat.not_lt_zero _), shape.idle⟩
  | joined isAt another ended =>
      rw [isAt] at stage
      exact ⟨⟨another, ended, stage⟩, shape.idle⟩
  | @destroyed index fd worker isAt first =>
      obtain ⟨phase, _, _⟩ := Worker.dequeuePendingFd_frame first
      rw [isAt] at stage
      refine ⟨?_, idle_update shape stage.1 _⟩
      change Stage machine _ before.main
      rw [isAt]
      refine ⟨stage.1, ?_, fun earlier isEarlier => ?_⟩
      · simpa [close, setWorker, phase] using stage.2.1
      · exact retired_update (stage.2.2 earlier isEarlier) (Nat.ne_of_lt isEarlier)
  | @destroyedAll index isAt none =>
      obtain ⟨nodes, queues, _⟩ := reachable.handedOver index
      obtain rfl := queues.of_dequeued_none none
      rw [isAt] at stage
      refine ⟨fun earlier isEarlier => ?_, shape.idle⟩
      rcases Nat.lt_succ_iff_lt_or_eq.mp isEarlier with isEarlier | rfl
      · exact stage.2.2 earlier isEarlier
      · exact ⟨stage.2.1, queues.pending⟩
  | returned isAt all =>
      rw [isAt, all] at stage
      exact ⟨stage, shape.idle⟩

theorem Reachable.shape (reachable : Reachable machine server) : server.Shape machine := by
  induction reachable with
  | refl => exact start_shape
  | tail path step shape => exact shape.step path step

theorem Step.worker (step : Step machine before after) (index : Nat) :
    (∃ fds, Worker.Step before.stop (before.workers index) fds (after.workers index)) ∨
      (after.workers index).phase = (before.workers index).phase ∧
        (after.workers index).connections = (before.workers index).connections := by
  have updated {other : Nat} {worker : Worker}
      (phase : worker.phase = (before.workers other).phase)
      (connections : worker.connections = (before.workers other).connections) :
      (Function.update before.workers other worker index).phase =
          (before.workers index).phase ∧
        (Function.update before.workers other worker index).connections =
          (before.workers index).connections := by
    by_cases same : index = other
    · subst same
      rw [Function.update_self]
      exact ⟨phase, connections⟩
    · rw [Function.update_of_ne same]
      exact ⟨rfl, rfl⟩
  cases step with
  | @workerStep stepping fds worker runs step =>
      by_cases same : index = stepping
      · subst same
        refine .inl ⟨fds, ?_⟩
        simpa [close, setWorker] using step
      · refine .inr ?_
        simp [close, setWorker, Function.update_of_ne same]
  | enqueued => exact .inr (updated rfl rfl)
  | woken | wokenToStop => exact .inr (updated (Worker.wake_phase ..) (Worker.wake_connections ..))
  | destroyed isAt first =>
      obtain ⟨phase, connections, _⟩ := Worker.dequeuePendingFd_frame first
      exact .inr (updated phase connections)
  | signalled | startWorker | setupFailed | listening | accept | stopSeen | interrupted
  | acceptFailed | accepted | nonblocking | staysBlocking | noNode | allWoken | joined
  | destroyedAll | returned => exact .inr ⟨rfl, rfl⟩

theorem Step.ended_connections (step : Step machine before after)
    (ended : (after.workers index).phase = .ended) :
    (after.workers index).connections = (before.workers index).connections := by
  rcases step.worker index with ⟨fds, step⟩ | ⟨_, connections⟩
  · exact step.ended_connections ended
  · exact connections

theorem Step.stays_ended (step : Step machine before after)
    (ended : (before.workers index).phase = .ended) :
    (after.workers index).phase = .ended := by
  rcases step.worker index with ⟨fds, step⟩ | ⟨phase, _⟩
  · exact absurd ended step.not_ended
  · exact phase.trans ended

def LeavesNone (before after : Server) : Prop :=
  ∀ index, (before.workers index).phase ≠ .ended → (after.workers index).phase = .ended →
    (before.workers index).connections = []

/-- The runs in which no worker ends while it still has a connection. -/
def CleanRun (machine : Machine) (server : Server) : Prop :=
  Relation.ReflTransGen (fun before after => Step machine before after ∧ LeavesNone before after)
    start server

theorem CleanRun.none_left (run : CleanRun machine server)
    (ended : (server.workers index).phase = .ended) :
    (server.workers index).connections = [] := by
  induction run with
  | refl => rfl
  | @tail before after path step induction =>
      obtain ⟨step, leavesNone⟩ := step
      rw [step.ended_connections ended]
      by_cases endedBefore : (before.workers index).phase = .ended
      · exact induction endedBefore
      · exact leavesNone index endedBefore ended

theorem Reachable.cleanRun (reachable : Reachable machine server)
    (noneLeft : ∀ index, (server.workers index).phase = .ended →
      (server.workers index).connections = []) : CleanRun machine server := by
  induction reachable with
  | refl => exact .refl
  | @tail before after path step induction =>
      refine .tail (induction fun index ended => ?_) ⟨step, fun index _ ended => ?_⟩
      · rw [← step.ended_connections (step.stays_ended ended)]
        exact noneLeft index (step.stays_ended ended)
      · rw [← step.ended_connections ended]
        exact noneLeft index ended

/-- Every open descriptor has one owner, and one that has been accepted has been closed
once or is open. -/
structure OwnedOnce (server : Server) : Prop where
  owner : ∀ fd ∈ server.opened, ∃! owner, server.Owns fd owner
  isOpen : ∀ fd owner, server.Owns fd owner → fd ∈ server.opened
  closedOnce : ∀ fd, server.accepted.count fd =
    server.closed.count fd + if fd ∈ server.opened then 1 else 0

theorem Reachable.owns_iff (reachable : Reachable machine server) (fd : Nat) (owner : Owner) :
    server.Owns fd owner ↔ fd ∈ server.holdings owner := by
  cases owner with
  | acceptLoop | connectionState => exact .rfl
  | pendingQueue index =>
      obtain ⟨nodes, queues, _⟩ := reachable.handedOver index
      constructor
      · rintro ⟨others, holds, member⟩
        obtain rfl := queues.holds.chain.unique holds.chain
        change fd ∈ (server.workers index).pending
        rw [queues.pending]
        exact member
      · intro member
        exact ⟨nodes, queues.holds, queues.pending ▸ member⟩

theorem Reachable.ownedOnce (reachable : Reachable machine server) : server.OwnedOnce where
  owner fd isOpen := by
    simp only [reachable.owns_iff]
    exact reachable.kept.custody.uniqueHolder isOpen
  isOpen fd owner owns :=
    (reachable.kept.custody.live_iff fd).mpr ⟨owner, (reachable.owns_iff fd owner).mp owns⟩
  closedOnce fd := by
    rw [reachable.kept.count fd, reachable.kept.custody.once.count]

/-- What is still open when `httpfs_server_run` has returned is what its workers ended with. -/
theorem Reachable.opened_returned (reachable : Reachable machine server)
    (returned : server.main = .returned) (fd : Nat) :
    fd ∈ server.opened ↔ ∃ index, fd ∈ (server.workers index).connections.map Prod.fst := by
  have stage := reachable.shape.stage
  rw [returned] at stage
  have workers (index : Nat) : (server.workers index).pending = [] ∧
      (server.workers index).phase.held = [] := by
    by_cases started : index < server.started
    · obtain ⟨ended, pending⟩ := stage index started
      exact ⟨pending, by rw [ended]; rfl⟩
    · rw [reachable.shape.idle index (Nat.le_of_not_lt started)]
      exact ⟨rfl, rfl⟩
  rw [reachable.kept.custody.live_iff]
  constructor
  · rintro ⟨owner, holds⟩
    cases owner with
    | acceptLoop => simp [holdings, returned, MainPhase.held] at holds
    | pendingQueue index => simp [holdings, (workers index).1] at holds
    | connectionState index =>
        exact ⟨index, by simpa [holdings, Worker.held, (workers index).2] using holds⟩
  · rintro ⟨index, member⟩
    exact ⟨.connectionState index, List.mem_append_right _ member⟩

/-- At all times every accepted descriptor has one owner or has been closed once; they
are all closed in the end just when no worker has ended with a connection. -/
theorem descriptors_closed_iff (machine : Machine) (server : Server)
    (reachable : Reachable machine server) :
    server.OwnedOnce ∧ (server.main = .returned →
      ((∀ fd, server.closed.count fd = server.accepted.count fd) ↔
        CleanRun machine server)) := by
  refine ⟨reachable.ownedOnce, fun returned => ⟨fun closed => ?_, fun run fd => ?_⟩⟩
  · refine reachable.cleanRun fun index ended => ?_
    have noneOpen (fd : Nat) : fd ∉ server.opened := by
      intro isOpen
      have counts := reachable.ownedOnce.closedOnce fd
      rw [closed fd, if_pos isOpen] at counts
      omega
    cases connections : (server.workers index).connections with
    | nil => rfl
    | cons entry rest =>
        refine absurd ?_ (noneOpen entry.1)
        exact (reachable.opened_returned returned _).mpr ⟨index, by simp [connections]⟩
  · have notOpen : fd ∉ server.opened := by
      intro isOpen
      obtain ⟨index, member⟩ := (reachable.opened_returned returned fd).mp isOpen
      have none : (server.workers index).connections = [] := by
        by_cases started : index < server.started
        · have stage := reachable.shape.stage
          rw [returned] at stage
          exact run.none_left (stage index started).1
        · rw [reachable.shape.idle index (Nat.le_of_not_lt started)]
          rfl
      simp [none] at member
    rw [reachable.ownedOnce.closedOnce fd, if_neg notOpen, Nat.add_zero]

theorem Reachable.byWorker (reachable : Reachable machine server) (index : Nat)
    (runs : index < server.started) {fds : List Nat} {worker : Worker}
    (step : Worker.Step server.stop (server.workers index) fds worker) :
    Reachable machine ((server.setWorker index worker).close fds) :=
  reachable.tail (.workerStep runs step)

/-- The worker has seen the stop signal and takes the first connection off its queue. -/
def firstAdding : { server : Server // Reachable oneCore server } :=
  have woken := firstQueued_reachable.tail (.woken rfl)
  have signalled := woken.tail .signalled
  have stopSeen := Reachable.byWorker signalled 0 (by decide) (.stopSeen rfl rfl)
  have read := stopSeen.byWorker 0 (by decide) (.read rfl (by decide))
  have drained := read.byWorker 0 (by decide) (.drained rfl rfl)
  ⟨_, drained.byWorker 0 (by decide) (.dequeued rfl rfl)⟩

/-- The connection is added to an epoll instance that nothing will wait on again. -/
theorem stopped_leavesOpen : ∃ server, Reachable oneCore server ∧ server.main = .returned ∧
    server.accepted = [7] ∧ server.closed = [] := by
  have added := firstAdding.2.byWorker 0 (by decide)
    (.added rfl ⟨true, fun _ => true, true⟩ (Worker.addClientToWorker_eq _ 7 _))
  have ended := added.byWorker 0 (by decide) (.dequeuedAll rfl rfl)
  have stopSeen := ended.tail (.stopSeen rfl rfl)
  have woken := stopSeen.tail (.wokenToStop rfl (by decide))
  have allWoken := woken.tail (.allWoken rfl rfl)
  have joined := allWoken.tail (.joined rfl (by decide) rfl)
  have destroyed := joined.tail (.destroyedAll rfl rfl)
  exact ⟨_, destroyed.tail (.returned rfl rfl), rfl, rfl, rfl⟩

/-- The same run, in which there was no memory for the connection. -/
theorem descriptors_closed_iff_refused : ∃ server : Server,
    server.main = .returned ∧ server.accepted = [7] ∧ server.closed = [7] ∧
      server.OwnedOnce ∧ (server.main = .returned →
        ((∀ fd, server.closed.count fd = server.accepted.count fd) ↔
          CleanRun oneCore server)) := by
  have refused := firstAdding.2.byWorker 0 (by decide)
    (.refused rfl ⟨false, fun _ => true, true⟩ rfl)
  have ended := refused.byWorker 0 (by decide) (.dequeuedAll rfl rfl)
  have stopSeen := ended.tail (.stopSeen rfl rfl)
  have woken := stopSeen.tail (.wokenToStop rfl (by decide))
  have allWoken := woken.tail (.allWoken rfl rfl)
  have joined := allWoken.tail (.joined rfl (by decide) rfl)
  have destroyed := joined.tail (.destroyedAll rfl rfl)
  have returned := destroyed.tail (.returned rfl rfl)
  exact ⟨_, rfl, rfl, rfl, descriptors_closed_iff oneCore _ returned⟩

end Server

end HttpFs.CProvider
