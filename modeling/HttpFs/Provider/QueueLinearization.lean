import HttpFs.Provider.QueueThreads

namespace HttpFs.CProvider

open LinkedQueue

namespace QueuePhase

variable {queue : LinkedQueue Nat} {nodes : List (Nat × Nat)} {phase phase' : QueuePhase}

/-- The mutex is taken by a thread that has not got it, when the queue is in order. -/
theorem Local.lock (isLocal : phase.Local queue nodes) (isTail : IsTail queue.tail nodes)
    (locks : phase.locked = some phase') :
    phase'.Local queue nodes ∧ phase'.Critical ∧ phase'.owned = phase.owned ∧
      ∀ memory, phase'.call memory = phase.call memory := by
  obtain ⟨chain, distinct, foreign, allocated, _, stored⟩ := isLocal
  cases phase <;> simp only [locked, Option.some.injEq, reduceCtorEq] at locks <;> subst locks <;>
    exact ⟨⟨chain, distinct, foreign, allocated, isTail, stored⟩, trivial, rfl, fun _ => rfl⟩

/-- A thread leaves the queue in order when it gives the mutex back. -/
theorem Local.unlock (isLocal : phase.Local queue nodes) (unlocks : phase.unlocked = some phase') :
    phase'.Local queue nodes ∧ phase.Critical ∧ ¬ phase'.Critical ∧ phase'.owned = phase.owned ∧
      IsTail queue.tail nodes ∧ ∀ memory, phase'.call memory = phase.call memory := by
  obtain ⟨chain, distinct, foreign, allocated, sees, stored⟩ := isLocal
  cases phase <;> simp only [unlocked, Option.some.injEq, reduceCtorEq] at unlocks <;>
    subst unlocks <;>
      exact ⟨⟨chain, distinct, foreign, allocated, trivial, trivial⟩, trivial, id, rfl, sees,
        fun _ => rfl⟩

theorem Local.enter (isLocal : phase.Local queue nodes) (operation : QueueCall) :
    (entering operation).Local queue nodes ∧ ¬ (entering operation).Critical ∧
      (entering operation).owned = none ∧
      ∀ memory, (entering operation).call memory = .called operation := by
  cases operation <;>
    exact ⟨⟨isLocal.chain, isLocal.distinct, nofun, nofun, trivial, trivial⟩, id, rfl, fun _ => rfl⟩

theorem Local.leave (isLocal : phase.Local queue nodes) : outside.Local queue nodes :=
  ⟨isLocal.chain, isLocal.distinct, nofun, nofun, trivial, trivial⟩

end QueuePhase

namespace QueueThreads

variable {Thread : Type} {state after : QueueThreads Thread} {queue' : LinkedQueue Nat}
  {nodes nodes' : List (Nat × Nat)} {thread : Thread} {phase' : QueuePhase}
  {label : Option (CallEvent Thread QueueCall Int)}

theorem Kept.exclusive (kept : state.Kept nodes) {other : Thread}
    (critical : (state.phases thread).Critical) (alsoCritical : (state.phases other).Critical) :
    other = thread := by
  have first := (kept.critical thread).mp critical
  have second := (kept.critical other).mp alsoCritical
  exact Option.some.inj (second.symm.trans first)

/-- The other threads do not notice the step of one. -/
theorem Kept.others (kept : state.Kept nodes)
    (effect : QueueEffect state.queue nodes (state.phases thread) queue' nodes' phase')
    {other : Thread} (different : other ≠ thread) :
    (state.phases other).Local queue' nodes' ∧
      (state.phases other).call queue'.memory = (state.phases other).call state.queue.memory := by
  have isLocal := kept.threads other
  refine isLocal.framed effect.after.chain effect.after.distinct (fun node isOwned => ?_) ?_
  · refine effect.frame node (fun alsoOwned => different (kept.apart isOwned alsoOwned)) ?_ ?_
    · exact isLocal.allocated node isOwned
    · exact isLocal.foreign node isOwned
  · by_cases critical : (state.phases thread).Critical
    · exact .inl fun alsoCritical => different (kept.exclusive critical alsoCritical)
    · exact .inr (effect.quiet critical)

theorem atomic_call (state : QueueThreads Thread) (nodes : List (Nat × Nat)) (thread : Thread) :
    (state.atomic nodes).2 thread = (state.phases thread).call state.queue.memory := rfl

variable [DecidableEq Thread]

theorem Kept.stepped (kept : state.Kept nodes)
    (effect : QueueEffect state.queue nodes (state.phases thread) queue' nodes' phase') :
    ({ state.setPhase thread phase' with queue := queue' } : QueueThreads Thread).Kept nodes' := by
  have takesFrom {other : Thread} {node : Nat} (different : other ≠ thread)
      (isOwned : phase'.owned = some node) (alsoOwned : (state.phases other).owned = some node) :
      False := by
    rcases effect.fresh node isOwned with mine | unused | queued
    · exact different (kept.apart alsoOwned mine)
    · exact (kept.threads other).allocated node alsoOwned unused
    · exact (kept.threads other).foreign node alsoOwned queued
  refine ⟨effect.after.chain, fun other => ?_, fun other => ?_, fun free => ?_,
    fun {first second node} => ?_⟩ <;> simp only [setPhase]
  · by_cases same : other = thread
    · subst same
      rw [Function.update_self]
      exact effect.after
    · rw [Function.update_of_ne same]
      exact (kept.others effect same).1
  · by_cases same : other = thread
    · subst same
      rw [Function.update_self, effect.critical]
      exact kept.critical other
    · rw [Function.update_of_ne same]
      exact kept.critical other
  · have notCritical : ¬ (state.phases thread).Critical := by
      rw [kept.critical]
      exact fun locked => nomatch locked.symm.trans free
    obtain ⟨tail, rfl⟩ := effect.quiet notCritical
    rw [tail]
    exact kept.free free
  · by_cases isFirst : first = thread <;> by_cases isSecond : second = thread
    · exact fun _ _ => isFirst.trans isSecond.symm
    · subst isFirst
      rw [Function.update_self, Function.update_of_ne isSecond]
      exact fun isOwned alsoOwned => (takesFrom isSecond isOwned alsoOwned).elim
    · subst isSecond
      rw [Function.update_self, Function.update_of_ne isFirst]
      exact fun isOwned alsoOwned => (takesFrom isFirst alsoOwned isOwned).elim
    · rw [Function.update_of_ne isFirst, Function.update_of_ne isSecond]
      exact kept.apart

theorem Kept.atomic_stepped (kept : state.Kept nodes)
    (effect : QueueEffect state.queue nodes (state.phases thread) queue' nodes' phase') :
    ({ state.setPhase thread phase' with queue := queue' } : QueueThreads Thread).atomic nodes' =
      (nodes'.map Prod.snd,
        Function.update (state.atomic nodes).2 thread (phase'.call queue'.memory)) := by
  refine congrArg _ (funext fun other => ?_)
  by_cases same : other = thread
  · subst same
    simp [setPhase]
  · simp only [setPhase, atomic, Function.update_of_ne same]
    exact (kept.others effect same).2

/-- A thread that goes on with the queue as it is. -/
theorem Kept.becomes (kept : state.Kept nodes) (mutex : Option Thread)
    (isLocal : phase'.Local state.queue nodes)
    (owned : phase'.owned = (state.phases thread).owned ∨ phase'.owned = none)
    (critical : phase'.Critical ↔ mutex = some thread)
    (others : ∀ other, other ≠ thread → (state.mutex = some other ↔ mutex = some other))
    (free : mutex = none → QueuePhase.IsTail state.queue.tail nodes) :
    ({ state.setPhase thread phase' with mutex } : QueueThreads Thread).Kept nodes := by
  have keeps {node : Nat} (isOwned : phase'.owned = some node) :
      (state.phases thread).owned = some node := by
    obtain same | none := owned
    · exact same ▸ isOwned
    · rw [none] at isOwned
      contradiction
  refine ⟨kept.chain, fun other => ?_, fun other => ?_, free, fun {first second node} => ?_⟩ <;>
    simp only [setPhase]
  · by_cases same : other = thread
    · subst same
      rw [Function.update_self]
      exact isLocal
    · rw [Function.update_of_ne same]
      exact kept.threads other
  · by_cases same : other = thread
    · subst same
      rw [Function.update_self]
      exact critical
    · rw [Function.update_of_ne same, kept.critical]
      exact others other same
  · by_cases isFirst : first = thread <;> by_cases isSecond : second = thread
    · exact fun _ _ => isFirst.trans isSecond.symm
    · subst isFirst
      rw [Function.update_self, Function.update_of_ne isSecond]
      exact fun isOwned => kept.apart (keeps isOwned)
    · subst isSecond
      rw [Function.update_self, Function.update_of_ne isFirst]
      exact fun isOwned alsoOwned => kept.apart isOwned (keeps alsoOwned)
    · rw [Function.update_of_ne isFirst, Function.update_of_ne isSecond]
      exact kept.apart

theorem atomic_setPhase (state : QueueThreads Thread) (nodes : List (Nat × Nat)) (thread : Thread)
    (phase : QueuePhase) :
    (state.setPhase thread phase).atomic nodes =
      (nodes.map Prod.snd,
        Function.update (state.atomic nodes).2 thread (phase.call state.queue.memory)) := by
  refine congrArg _ (funext fun other => ?_)
  by_cases same : other = thread
  · subst same
    simp [setPhase]
  · simp only [setPhase, atomic, Function.update_of_ne same]

/-- A step is one of a queue that answers at once, or nobody sees it. -/
theorem Kept.step (kept : state.Kept nodes) (step : Step thread state label after) :
    ∃ nodes', after.Kept nodes' ∧
      (fifo.Step (state.atomic nodes) label (after.atomic nodes') ∨
        label = none ∧ after.atomic nodes' = state.atomic nodes) := by
  have isLocal := kept.threads thread
  have silent {phase : QueuePhase} (same : phase.call state.queue.memory =
      (state.phases thread).call state.queue.memory) :
      (state.setPhase thread phase).atomic nodes = state.atomic nodes := by
    rw [atomic_setPhase, same, ← atomic_call state nodes, Function.update_eq_self]
    rfl
  cases step with
  | called outside operation =>
      obtain ⟨enters, notCritical, none, isCall⟩ := isLocal.enter operation
      have notMine : ¬ state.mutex = some thread := by
        rw [← kept.critical, outside]
        exact id
      refine ⟨nodes, kept.becomes state.mutex enters (.inr none) (iff_of_false notCritical notMine)
        (fun _ _ => Iff.rfl) kept.free, .inl ?_⟩
      rw [atomic_setPhase, isCall]
      exact .call (by rw [outside]; rfl) operation
  | @stepped queue phase step =>
      obtain ⟨nodes', effect⟩ := step.effect isLocal
      refine ⟨nodes', kept.stepped effect, ?_⟩
      rw [kept.atomic_stepped effect]
      obtain ⟨contents, same⟩ | ⟨operation, result, isCall, isDone, effect⟩ := effect.commits
      · refine .inr ⟨rfl, ?_⟩
        rw [contents, same, ← atomic_call state nodes, Function.update_eq_self]
        rfl
      · rw [isDone]
        exact .inl (.commit isCall effect)
  | @locked phase free isAt =>
      obtain ⟨locks, critical, owned, same⟩ := isLocal.lock (kept.free free) isAt
      refine ⟨nodes, kept.becomes (some thread) locks (.inl owned) (iff_of_true critical rfl)
        (fun other different => ?_) nofun, .inr ⟨rfl, silent (same _)⟩⟩
      rw [free]
      exact iff_of_false nofun fun isThread => different (Option.some.inj isThread).symm
  | @unlocked phase isAt =>
      obtain ⟨unlocks, critical, notCritical, owned, isTail, same⟩ := isLocal.unlock isAt
      have mine := (kept.critical thread).mp critical
      refine ⟨nodes, kept.becomes none unlocks (.inl owned) (iff_of_false notCritical nofun)
        (fun other different => ?_) (fun _ => isTail), .inr ⟨rfl, silent (same _)⟩⟩
      rw [mine]
      exact iff_of_false (fun isThread => different (Option.some.inj isThread).symm) nofun
  | @returned result isAt =>
      have notMine : ¬ state.mutex = some thread := by
        rw [← kept.critical, isAt]
        exact id
      refine ⟨nodes, kept.becomes state.mutex isLocal.leave (.inr rfl) (iff_of_false id notMine)
        (fun _ _ => Iff.rfl) kept.free, .inl ?_⟩
      rw [atomic_setPhase]
      exact .return (by rw [isAt]; rfl)

theorem refines_fifo : TransitionSystem.Refines (queueThreads Thread) (fifo.threads Thread)
    fun state other => ∃ nodes, state.Kept nodes ∧ other = state.atomic nodes where
  start := ⟨[], start_kept, rfl⟩
  step := by
    rintro state after label _ ⟨nodes, kept, rfl⟩ ⟨thread, step⟩
    obtain ⟨nodes', keptAfter, commits | ⟨silent, same⟩⟩ := kept.step step
    · exact .inl ⟨_, commits, nodes', keptAfter, rfl⟩
    · exact .inr ⟨silent, nodes', keptAfter, same.symm⟩

theorem kept_of_run {seen : List (CallEvent Thread QueueCall Int)} {state : QueueThreads Thread}
    (run : (queueThreads Thread).Run seen state) : ∃ nodes, state.Kept nodes := by
  obtain ⟨_, _, nodes, kept, _⟩ := refines_fifo.run run
  exact ⟨nodes, kept⟩

end QueueThreads

/-- Whatever threads see of the queue, they could have seen of one that answers each call at
one moment between the call and the return, first in first out. -/
theorem queueThreads_linearizable (Thread : Type) [DecidableEq Thread]
    (seen : List (CallEvent Thread QueueCall Int)) (state : QueueThreads Thread)
    (run : (queueThreads Thread).Run seen state) :
    ∃ nodes calls, Chain state.queue.memory state.queue.head nodes ∧
      (fifo.threads Thread).Run seen (nodes.map Prod.snd, calls) := by
  obtain ⟨_, atOnce, nodes, kept, rfl⟩ := QueueThreads.refines_fifo.run run
  exact ⟨nodes, _, kept.chain, atOnce⟩

/-- One thread takes out what another has linked before that one returns. -/
theorem queueThreads_linearizable_overlapping : ∃ nodes calls,
    (fifo.threads Bool).Run
      [.call true (.enqueue 7), .call false .dequeue, .return false 7] (nodes, calls) := by
  have called : (queueThreads Bool).Run _ _ :=
    .visible .start ⟨true, .called rfl (.enqueue 7)⟩
  have allocated := called.silent ⟨true, .stepped (.allocated 0 rfl ⟨0, some 0⟩)⟩
  have fdStored := allocated.silent ⟨true, .stepped (.fdStored rfl)⟩
  have nextStored := fdStored.silent ⟨true, .stepped (.nextStored rfl)⟩
  have bothCalled := nextStored.visible ⟨false, .called rfl .dequeue⟩
  have locked := bothCalled.silent ⟨true, .locked rfl rfl⟩
  have noTail := locked.silent ⟨true, .stepped (.noTail rfl)⟩
  have headed := noTail.silent ⟨true, .stepped .headed⟩
  have tailed := headed.silent ⟨true, .stepped .tailed⟩
  have unlocked := tailed.silent ⟨true, .unlocked rfl⟩
  have lockedAgain := unlocked.silent ⟨false, .locked rfl rfl⟩
  have first := lockedAgain.silent ⟨false, .stepped (.first rfl)⟩
  have unlinked := first.silent ⟨false, .stepped (.unlinked rfl)⟩
  have noneLeft := unlinked.silent ⟨false, .stepped (.noneLeft rfl)⟩
  have cleared := noneLeft.silent ⟨false, .stepped .cleared⟩
  have unlockedAgain := cleared.silent ⟨false, .unlocked rfl⟩
  have fdRead := unlockedAgain.silent ⟨false, .stepped (.fdRead rfl)⟩
  have freed := fdRead.silent ⟨false, .stepped (.freed rfl)⟩
  have returned := freed.visible ⟨false, .returned rfl⟩
  obtain ⟨nodes, calls, _, atOnce⟩ := queueThreads_linearizable Bool _ _ returned
  exact ⟨_, calls, atOnce⟩

end HttpFs.CProvider
