import HttpFs.Provider.QueueLinearization
import Mathlib.Logic.Relation

namespace HttpFs.CProvider

open LinkedQueue

inductive QueueLocation where
  | head
  | tail
  | fdOf (node : Nat)
  | nextOf (node : Nat)
  deriving Repr, DecidableEq

namespace QueueLocation

def node? : QueueLocation → Option Nat
  | .head | .tail => none
  | .fdOf node | .nextOf node => some node

def Unchanged (queue queue' : LinkedQueue Nat) : QueueLocation → Prop
  | .head => queue'.head = queue.head
  | .tail => queue'.tail = queue.tail
  | .fdOf node => (queue'.memory node).map Node.value = (queue.memory node).map Node.value
  | .nextOf node => (queue'.memory node).map Node.next = (queue.memory node).map Node.next

theorem unchanged_update {queue : LinkedQueue Nat} {location : QueueLocation} {node : Nat}
    {content : Option (Node Nat)}
    (fd : location = .fdOf node → content.map Node.value = (queue.memory node).map Node.value)
    (next : location = .nextOf node → content.map Node.next = (queue.memory node).map Node.next) :
    location.Unchanged queue
      { queue with memory := Function.update queue.memory node content } := by
  cases location with
  | head | tail => rfl
  | fdOf other =>
      by_cases same : other = node
      · subst same
        simpa [Unchanged] using fd rfl
      · simp only [Unchanged, Function.update_of_ne same]
  | nextOf other =>
      by_cases same : other = node
      · subst same
        simpa [Unchanged] using next rfl
      · simp only [Unchanged, Function.update_of_ne same]

end QueueLocation

namespace QueuePhase

/-- What the next step of a thread reads or writes. -/
def accesses (queue : LinkedQueue Nat) : QueuePhase → List QueueLocation
  | .storingFd _ node | .readingFd node => [.fdOf node]
  | .storingNext _ node => [.nextOf node]
  | .testingTail _ _ | .tailing _ | .clearing _ => [.tail]
  | .linking _ _ => .tail :: queue.tail.toList.map .nextOf
  | .heading _ _ | .readingHead | .testingHead _ => [.head]
  | .unlinking node => [.nextOf node, .head]
  | .freeing node _ => [.fdOf node, .nextOf node]
  | .outside | .allocating _ | .lockingToEnqueue _ _ | .unlockingEnqueued | .lockingToDequeue
  | .unlockingEmpty | .unlockingDequeued _ | .returning _ => []

variable {queue queue' : LinkedQueue Nat} {nodes : List (Nat × Nat)} {phase phase' : QueuePhase}
  {location : QueueLocation}

/-- A thread accesses its own node, or what the mutex guards. -/
theorem Local.accesses (isLocal : phase.Local queue nodes)
    (accessed : location ∈ phase.accesses queue) :
    (∃ node, phase.owned = some node ∧ location.node? = some node) ∨
      phase.Critical ∧ ∀ node, location.node? = some node → node ∈ nodes.map Prod.fst := by
  have sees := isLocal.sees
  cases phase with
  | storingFd | storingNext | readingFd =>
      obtain rfl := List.mem_singleton.mp accessed
      exact .inl ⟨_, rfl, rfl⟩
  | testingTail | tailing | clearing | heading | readingHead | testingHead =>
      obtain rfl := List.mem_singleton.mp accessed
      exact .inr ⟨trivial, nofun⟩
  | linking =>
      obtain rfl | inTail := List.mem_cons.mp accessed
      · exact .inr ⟨trivial, nofun⟩
      · obtain ⟨last, isTail, rfl⟩ := List.mem_map.mp inTail
        refine .inr ⟨trivial, fun node isNode => ?_⟩
        obtain rfl : last = node := Option.some.inj isNode
        rw [Option.mem_toList, sees.1] at isTail
        obtain ⟨entry, isLast, rfl⟩ := Option.map_eq_some_iff.mp isTail
        exact List.mem_map_of_mem (List.mem_of_getLast? isLast)
  | unlinking node =>
      obtain ⟨_, fd, rest, rfl⟩ := sees
      refine .inr ⟨trivial, fun other isNode => ?_⟩
      obtain rfl | isHead := List.mem_cons.mp accessed
      · obtain rfl : node = other := Option.some.inj isNode
        exact List.mem_cons_self ..
      · obtain rfl := List.mem_singleton.mp isHead
        contradiction
  | freeing node =>
      refine .inl ⟨node, rfl, ?_⟩
      obtain rfl | isNext := List.mem_cons.mp accessed
      · rfl
      · obtain rfl := List.mem_singleton.mp isNext
        rfl
  | outside | allocating | lockingToEnqueue | unlockingEnqueued | lockingToDequeue
  | unlockingEmpty | unlockingDequeued | returning => contradiction

/-- A thread that is not at the mutex finds allocated whatever it is about to access. -/
theorem Local.steps (isLocal : phase.Local queue nodes) (inside : phase ≠ .outside)
    (notLocking : phase.locked = none) (notUnlocking : phase.unlocked = none)
    (notReturning : ∀ result, phase ≠ .returning result) :
    ∃ queue' phase', QueueStep queue phase queue' phase' := by
  have found {node : Nat} (allocated : queue.memory node ≠ none) :
      ∃ cell, queue.memory node = some cell := Option.ne_none_iff_exists'.mp allocated
  have sees := isLocal.sees
  cases phase with
  | outside => contradiction
  | lockingToEnqueue | lockingToDequeue => contradiction
  | unlockingEnqueued | unlockingEmpty | unlockingDequeued => contradiction
  | returning result => exact absurd rfl (notReturning result)
  | allocating => exact ⟨_, _, .noMemory⟩
  | storingFd fd node =>
      obtain ⟨cell, found⟩ := found (isLocal.allocated node rfl)
      exact ⟨_, _, .fdStored found⟩
  | storingNext fd node =>
      obtain ⟨cell, found⟩ := found (isLocal.allocated node rfl)
      exact ⟨_, _, .nextStored found⟩
  | testingTail =>
      by_cases none : queue.tail = none
      · exact ⟨_, _, .noTail none⟩
      · exact ⟨_, _, .hasTail none⟩
  | linking fd node =>
      obtain ⟨isTail, nonempty⟩ := sees
      have isLast := List.getLast?_eq_some_getLast nonempty
      obtain ⟨cell, found⟩ := found (isLocal.chain.allocated (List.getLast_mem nonempty))
      refine ⟨_, _, .linked ?_ found⟩
      rw [isTail, isLast]
      rfl
  | heading => exact ⟨_, _, .headed⟩
  | tailing => exact ⟨_, _, .tailed⟩
  | readingHead =>
      cases isHead : queue.head with
      | none => exact ⟨_, _, .empty isHead⟩
      | some node => exact ⟨_, _, .first isHead⟩
  | unlinking node =>
      obtain ⟨_, fd, rest, rfl⟩ := sees
      obtain ⟨cell, found⟩ := found (isLocal.chain.allocated (List.mem_cons_self ..))
      exact ⟨_, _, .unlinked found⟩
  | testingHead =>
      by_cases none : queue.head = none
      · exact ⟨_, _, .noneLeft none⟩
      · exact ⟨_, _, .someLeft none⟩
  | clearing => exact ⟨_, _, .cleared⟩
  | readingFd node =>
      obtain ⟨cell, found⟩ := found (isLocal.allocated node rfl)
      exact ⟨_, _, .fdRead found⟩
  | freeing node fd =>
      obtain ⟨cell, found⟩ := found (isLocal.allocated node rfl)
      exact ⟨_, _, .freed found⟩

end QueuePhase

/-- A step changes nothing but what it accesses, and the memory that `malloc` gives. -/
theorem QueueStep.unchanged {queue queue' : LinkedQueue Nat} {phase phase' : QueuePhase}
    (step : QueueStep queue phase queue' phase') {location : QueueLocation}
    (notAccessed : location ∉ phase.accesses queue)
    (allocated : ∀ node, location.node? = some node → queue.memory node ≠ none) :
    location.Unchanged queue queue' := by
  have accesses {other : QueueLocation} (isAccess : other ∈ phase.accesses queue) :
      location ≠ other := fun same => notAccessed (same ▸ isAccess)
  cases step with
  | allocated node unused cell =>
      refine QueueLocation.unchanged_update ?_ ?_ <;> rintro rfl <;>
        exact absurd unused (allocated node rfl)
  | noMemory | hasTail | noTail | empty | first | noneLeft | someLeft | fdRead =>
      cases location <;> rfl
  | fdStored found =>
      refine QueueLocation.unchanged_update (absurd · (accesses (List.mem_singleton_self _))) ?_
      rw [found]
      exact fun _ => rfl
  | nextStored found =>
      refine QueueLocation.unchanged_update ?_ (absurd · (accesses (List.mem_singleton_self _)))
      rw [found]
      exact fun _ => rfl
  | linked isTail found =>
      refine QueueLocation.unchanged_update ?_ (absurd · (accesses ?_))
      · rw [found]
        exact fun _ => rfl
      · simp [QueuePhase.accesses, isTail]
  | headed | tailed | unlinked | cleared =>
      cases location <;> first | rfl | exact absurd rfl (accesses (by simp [QueuePhase.accesses]))
  | freed found =>
      exact QueueLocation.unchanged_update
        (absurd · (accesses (by simp [QueuePhase.accesses])))
        (absurd · (accesses (by simp [QueuePhase.accesses])))

namespace QueueThreads

variable {Thread : Type} {state : QueueThreads Thread} {nodes : List (Nat × Nat)}
  {thread other : Thread} {location : QueueLocation}

theorem Kept.accesses_apart (kept : state.Kept nodes) (different : thread ≠ other)
    (accessed : location ∈ (state.phases thread).accesses state.queue) :
    location ∉ (state.phases other).accesses state.queue := by
  intro alsoAccessed
  rcases (kept.threads thread).accesses accessed with ⟨node, isOwned, isNode⟩ | ⟨critical, inQueue⟩
  · rcases (kept.threads other).accesses alsoAccessed with ⟨same, alsoOwned, isSame⟩ | ⟨_, inQueue⟩
    · obtain rfl : node = same := Option.some.inj (isNode.symm.trans isSame)
      exact different (kept.apart isOwned alsoOwned)
    · exact (kept.threads thread).foreign node isOwned (inQueue node isNode)
  · rcases (kept.threads other).accesses alsoAccessed with
      ⟨node, isOwned, isNode⟩ | ⟨alsoCritical, _⟩
    · exact (kept.threads other).foreign node isOwned (inQueue node isNode)
    · exact different (kept.exclusive alsoCritical critical)

theorem Kept.accesses_allocated (kept : state.Kept nodes)
    (accessed : location ∈ (state.phases thread).accesses state.queue) (node : Nat)
    (isNode : location.node? = some node) : state.queue.memory node ≠ none := by
  have isLocal := kept.threads thread
  rcases isLocal.accesses accessed with ⟨own, isOwned, isSame⟩ | ⟨_, inQueue⟩
  · obtain rfl : own = node := Option.some.inj (isSame.symm.trans isNode)
    exact isLocal.allocated own isOwned
  · obtain ⟨⟨_, fd⟩, member, rfl⟩ := List.mem_map.mp (inQueue node isNode)
    exact kept.chain.allocated member

variable [DecidableEq Thread]

/-- A thread in the middle of a call goes on, or waits for another to give the mutex back. -/
theorem Kept.progress (kept : state.Kept nodes) (inside : state.phases thread ≠ .outside) :
    (∃ label after, Step thread state label after) ∨
      (state.phases thread).locked ≠ none ∧ ∃ other, other ≠ thread ∧ state.mutex = some other := by
  cases locks : (state.phases thread).locked with
  | some phase =>
      cases mutex : state.mutex with
      | none => exact .inl ⟨_, _, .locked mutex locks⟩
      | some other =>
          refine .inr ⟨nofun, other, ?_, rfl⟩
          rintro rfl
          have critical := (kept.critical other).mpr mutex
          cases isAt : state.phases other <;> simp [isAt, QueuePhase.locked] at locks <;>
            simp [isAt, QueuePhase.Critical] at critical
  | none =>
      cases unlocks : (state.phases thread).unlocked with
      | some phase => exact .inl ⟨_, _, .unlocked unlocks⟩
      | none =>
          by_cases returning : ∃ result, state.phases thread = .returning result
          · obtain ⟨result, returning⟩ := returning
            exact .inl ⟨_, _, .returned returning⟩
          · obtain ⟨queue, phase, step⟩ :=
              (kept.threads thread).steps inside locks unlocks (not_exists.mp returning)
            exact .inl ⟨_, _, .stepped step⟩

end QueueThreads

/-- No two threads are about to access one location, so that no step changes what another
thread is about to access; a thread finds allocated what it accesses, and it only ever waits
for the mutex, which it gives back only when it has it. -/
theorem queueThreads_safe (Thread : Type) [DecidableEq Thread]
    (seen : List (CallEvent Thread QueueCall Int)) (state : QueueThreads Thread)
    (run : (queueThreads Thread).Run seen state) :
    (∀ thread other, thread ≠ other → ∀ location ∈ (state.phases other).accesses state.queue,
      location ∉ (state.phases thread).accesses state.queue ∧
        ∀ queue phase, QueueStep state.queue (state.phases thread) queue phase →
          location.Unchanged state.queue queue) ∧
    (∀ thread, ∀ location ∈ (state.phases thread).accesses state.queue, ∀ node,
      location.node? = some node → state.queue.memory node ≠ none) ∧
    (∀ thread, state.phases thread ≠ .outside →
      (∃ label after, QueueThreads.Step thread state label after) ∨
        (state.phases thread).locked ≠ none ∧
          ∃ other, other ≠ thread ∧ state.mutex = some other) ∧
    ∀ thread phase, (state.phases thread).unlocked = some phase → state.mutex = some thread := by
  obtain ⟨nodes, kept⟩ := QueueThreads.kept_of_run run
  refine ⟨fun thread other different location accessed => ?_,
    fun thread location accessed => kept.accesses_allocated accessed,
    fun thread inside => kept.progress inside, fun thread phase unlocks => ?_⟩
  · have notAccessed := kept.accesses_apart (Ne.symm different) accessed
    exact ⟨notAccessed, fun queue phase step =>
      step.unchanged notAccessed (kept.accesses_allocated accessed)⟩
  · obtain ⟨_, critical, _⟩ := (kept.threads thread).unlock unlocks
    exact (kept.critical thread).mp critical

/-- One thread has its node and the other the mutex. -/
theorem queueThreads_safe_both : ∃ state : QueueThreads Bool,
    state.phases true = .storingFd 7 0 ∧ state.phases false = .readingHead ∧
      (∀ location ∈ (state.phases false).accesses state.queue,
        location ∉ (state.phases true).accesses state.queue) ∧
      state.queue.memory 0 ≠ none := by
  have called : (queueThreads Bool).Run _ _ :=
    .visible .start ⟨true, .called rfl (.enqueue 7)⟩
  have allocated := called.silent ⟨true, .stepped (.allocated 0 rfl ⟨0, some 0⟩)⟩
  have bothCalled := allocated.visible ⟨false, .called rfl .dequeue⟩
  have locked := bothCalled.silent ⟨false, .locked rfl rfl⟩
  obtain ⟨apart, found, _⟩ := queueThreads_safe Bool _ _ locked
  exact ⟨_, rfl, rfl, fun location accessed => (apart true false nofun location accessed).1,
    found true (.fdOf 0) (List.mem_singleton_self _) 0 rfl⟩

namespace QueueThreads

variable {Thread : Type} [DecidableEq Thread] {state : QueueThreads Thread} {thread : Thread}
  {nodes : List (Nat × Nat)} {mutex : Option Thread} {queue queue' : LinkedQueue Nat}
  {phase phase' : QueuePhase}

/-- A run in which no other thread takes a step. -/
def Alone (thread : Thread) : QueueThreads Thread → QueueThreads Thread → Prop :=
  Relation.ReflTransGen fun before after => Step thread before none after

/-- The state in which one thread has come to `phase`. -/
def reached (state : QueueThreads Thread) (thread : Thread) (queue : LinkedQueue Nat)
    (mutex : Option Thread) (phase : QueuePhase) : QueueThreads Thread :=
  ⟨queue, mutex, Function.update state.phases thread phase⟩

theorem reached_phases : (state.reached thread queue mutex phase).phases thread = phase :=
  Function.update_self ..

theorem setPhase_reached :
    (state.reached thread queue mutex phase).setPhase thread phase' =
      state.reached thread queue mutex phase' := by
  simp [setPhase, reached]

theorem Alone.step {start : QueueThreads Thread}
    (sofar : Alone thread start (state.reached thread queue mutex phase))
    (step : QueueStep queue phase queue' phase') :
    Alone thread start (state.reached thread queue' mutex phase') := by
  have next := @Step.stepped _ _ thread (state.reached thread queue mutex phase) queue' phase'
    (by rw [reached_phases]; exact step)
  rw [setPhase_reached] at next
  exact sofar.tail next

theorem Alone.lock {start : QueueThreads Thread}
    (sofar : Alone thread start (state.reached thread queue none phase))
    (locks : phase.locked = some phase') :
    Alone thread start (state.reached thread queue (some thread) phase') := by
  have next := @Step.locked _ _ thread (state.reached thread queue none phase) phase' rfl
    (by rw [reached_phases]; exact locks)
  rw [setPhase_reached] at next
  exact sofar.tail next

theorem Alone.unlock {start : QueueThreads Thread}
    (sofar : Alone thread start (state.reached thread queue mutex phase))
    (unlocks : phase.unlocked = some phase') :
    Alone thread start (state.reached thread queue none phase') := by
  have next := @Step.unlocked _ _ thread (state.reached thread queue mutex phase) phase'
    (by rw [reached_phases]; exact unlocks)
  rw [setPhase_reached] at next
  exact sofar.tail next

theorem reached_self (isAt : state.phases thread = phase) :
    state.reached thread state.queue state.mutex phase = state := by
  rw [← isAt, reached, Function.update_eq_self]

/-- A thread alone in `enqueue_pending_fd` pushes its node. -/
theorem enqueue_alone (holds : state.queue.Holds nodes) (free : state.mutex = none) {fd node : Nat}
    (isAt : state.phases thread = .allocating fd) (unused : state.queue.memory node = none) :
    Alone thread state
      (state.reached thread (state.queue.push node fd) none (.returning 0)) := by
  have start : Alone thread state (state.reached thread state.queue none (.allocating fd)) := by
    rw [← free, reached_self isAt]
    exact .refl
  have stored := ((start.step (.allocated node unused ⟨0, none⟩)).step
    (.fdStored (Function.update_self ..))).step (.nextStored (Function.update_self ..))
  simp only [Function.update_idem] at stored
  have locked := stored.lock rfl
  cases isTail : state.queue.tail with
  | none =>
      have linked := ((locked.step (.noTail isTail)).step .headed).step .tailed
      have pushed : state.queue.push node fd =
          ⟨Function.update state.queue.memory node (some ⟨fd, none⟩), some node, some node⟩ := by
        simp only [push, isTail]
      rw [pushed]
      exact linked.unlock rfl
  | some last =>
      obtain ⟨front, value, rfl⟩ : ∃ front value, nodes = front ++ [(last, value)] := by
        rcases List.eq_nil_or_concat nodes with rfl | ⟨front, ⟨address, value⟩, rfl⟩
        · have noTail := holds.isTail
          rw [isTail] at noTail
          contradiction
        · rw [List.concat_eq_append] at *
          have same := holds.isTail
          rw [isTail] at same
          obtain rfl : last = address := by simpa using same
          exact ⟨front, value, rfl⟩
      have found := holds.chain.last
      have different : last ≠ node := by
        rintro rfl
        rw [found] at unused
        contradiction
      have foundAfter : Function.update state.queue.memory node (some ⟨fd, none⟩) last =
          some ⟨value, none⟩ := by rw [Function.update_of_ne different, found]
      have linked := ((locked.step (.hasTail (by simp [isTail]))).step
        (.linked isTail foundAfter)).step .tailed
      have pushed : state.queue.push node fd =
          ⟨Function.update (Function.update state.queue.memory node (some ⟨fd, none⟩)) last
            (some ⟨value, some node⟩), state.queue.head, some node⟩ := by
        simp only [push, isTail, foundAfter, Option.map_some]
      rw [pushed]
      exact linked.unlock rfl

/-- A thread alone in `dequeue_pending_fd` pops the first node. -/
theorem dequeue_alone (free : state.mutex = none) (isAt : state.phases thread = .lockingToDequeue)
    {fd : Nat} (pops : state.queue.pop = some (fd, queue)) :
    Alone thread state (state.reached thread queue none (.returning fd)) := by
  have start : Alone thread state (state.reached thread state.queue none .lockingToDequeue) := by
    rw [← free, reached_self isAt]
    exact .refl
  rw [pop, Option.bind_eq_bind, Option.bind_eq_some_iff] at pops
  obtain ⟨address, isHead, pops⟩ := pops
  rw [Option.bind_eq_bind, Option.bind_eq_some_iff] at pops
  obtain ⟨cell, found, pops⟩ := pops
  obtain ⟨rfl, rfl⟩ := Prod.mk.inj (Option.some.inj pops)
  have unlinked := ((start.lock rfl).step (.first isHead)).step (.unlinked found)
  by_cases last : cell.next = none
  · rw [if_pos last]
    have unlocked := ((unlinked.step (.noneLeft last)).step .cleared).unlock rfl
    exact (unlocked.step (.fdRead found)).step (.freed found)
  · rw [if_neg last]
    have unlocked := (unlinked.step (.someLeft last)).unlock rfl
    exact (unlocked.step (.fdRead found)).step (.freed found)

theorem dequeue_alone_empty (holds : state.queue.Holds nodes) (free : state.mutex = none)
    (isAt : state.phases thread = .lockingToDequeue) (pops : state.queue.pop = none) :
    Alone thread state (state.reached thread state.queue none (.returning (-1))) := by
  have empty : nodes = [] := by
    cases nodes with
    | nil => rfl
    | cons node nodes =>
        obtain ⟨rest, popped, _⟩ := holds.pop_cons
        rw [pops] at popped
        contradiction
  have start : Alone thread state (state.reached thread state.queue none .lockingToDequeue) := by
    rw [← free, reached_self isAt]
    exact .refl
  exact ((start.lock rfl).step (.empty (holds.head_eq_none_iff.mpr empty))).unlock rfl

end QueueThreads

end HttpFs.CProvider
