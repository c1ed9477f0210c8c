import HttpFs.Foundation.AtomicObjects
import HttpFs.Foundation.LinkedQueue

namespace HttpFs.CProvider

open LinkedQueue

/-! Threads in `enqueue_pending_fd` and `dequeue_pending_fd`, one memory access at a time. -/

inductive QueueCall where
  | enqueue (fd : Nat)
  | dequeue
  deriving Repr, DecidableEq

/-- What a thread does next. -/
inductive QueuePhase where
  | outside
  | allocating (fd : Nat)
  | storingFd (fd node : Nat)
  | storingNext (fd node : Nat)
  | lockingToEnqueue (fd node : Nat)
  | testingTail (fd node : Nat)
  | linking (fd node : Nat)
  | heading (fd node : Nat)
  | tailing (node : Nat)
  | unlockingEnqueued
  | lockingToDequeue
  | readingHead
  | unlockingEmpty
  | unlinking (node : Nat)
  | testingHead (node : Nat)
  | clearing (node : Nat)
  | unlockingDequeued (node : Nat)
  | readingFd (node : Nat)
  | freeing (node fd : Nat)
  | returning (result : Int)
  deriving Repr, DecidableEq

namespace QueuePhase

def entering : QueueCall → QueuePhase
  | .enqueue fd => .allocating fd
  | .dequeue => .lockingToDequeue

def locked : QueuePhase → Option QueuePhase
  | .lockingToEnqueue fd node => some (.testingTail fd node)
  | .lockingToDequeue => some .readingHead
  | _ => none

def unlocked : QueuePhase → Option QueuePhase
  | .unlockingEnqueued => some (.returning 0)
  | .unlockingEmpty => some (.returning (-1))
  | .unlockingDequeued node => some (.readingFd node)
  | _ => none

end QueuePhase

/-- The steps that a thread takes without the mutex or with it in its hands. What `malloc`
returns has any contents. -/
inductive QueueStep (queue : LinkedQueue Nat) :
    QueuePhase → LinkedQueue Nat → QueuePhase → Prop where
  | allocated {fd : Nat} (node : Nat) (unused : queue.memory node = none) (cell : Node Nat) :
      QueueStep queue (.allocating fd)
        { queue with memory := Function.update queue.memory node (some cell) } (.storingFd fd node)
  | noMemory {fd : Nat} : QueueStep queue (.allocating fd) queue (.returning (-1))
  | fdStored {fd node : Nat} {cell : Node Nat} (found : queue.memory node = some cell) :
      QueueStep queue (.storingFd fd node)
        { queue with
          memory := Function.update queue.memory node (some { cell with value := fd }) }
        (.storingNext fd node)
  | nextStored {fd node : Nat} {cell : Node Nat} (found : queue.memory node = some cell) :
      QueueStep queue (.storingNext fd node)
        { queue with
          memory := Function.update queue.memory node (some { cell with next := none }) }
        (.lockingToEnqueue fd node)
  | hasTail {fd node : Nat} (some : queue.tail ≠ none) :
      QueueStep queue (.testingTail fd node) queue (.linking fd node)
  | noTail {fd node : Nat} (none : queue.tail = none) :
      QueueStep queue (.testingTail fd node) queue (.heading fd node)
  | linked {fd node last : Nat} {cell : Node Nat} (isTail : queue.tail = some last)
      (found : queue.memory last = some cell) :
      QueueStep queue (.linking fd node)
        { queue with
          memory := Function.update queue.memory last (some { cell with next := some node }) }
        (.tailing node)
  | headed {fd node : Nat} :
      QueueStep queue (.heading fd node) { queue with head := some node } (.tailing node)
  | tailed {node : Nat} :
      QueueStep queue (.tailing node) { queue with tail := some node } .unlockingEnqueued
  | empty (none : queue.head = none) : QueueStep queue .readingHead queue .unlockingEmpty
  | first {node : Nat} (isHead : queue.head = some node) :
      QueueStep queue .readingHead queue (.unlinking node)
  | unlinked {node : Nat} {cell : Node Nat} (found : queue.memory node = some cell) :
      QueueStep queue (.unlinking node) { queue with head := cell.next } (.testingHead node)
  | noneLeft {node : Nat} (none : queue.head = none) :
      QueueStep queue (.testingHead node) queue (.clearing node)
  | someLeft {node : Nat} (some : queue.head ≠ none) :
      QueueStep queue (.testingHead node) queue (.unlockingDequeued node)
  | cleared {node : Nat} :
      QueueStep queue (.clearing node) { queue with tail := none } (.unlockingDequeued node)
  | fdRead {node : Nat} {cell : Node Nat} (found : queue.memory node = some cell) :
      QueueStep queue (.readingFd node) queue (.freeing node cell.value)
  | freed {node fd : Nat} {cell : Node Nat} (found : queue.memory node = some cell) :
      QueueStep queue (.freeing node fd)
        { queue with memory := Function.update queue.memory node none } (.returning fd)

/-- The queue of a worker with its mutex, and the threads that use it. -/
structure QueueThreads (Thread : Type) where
  queue : LinkedQueue Nat
  mutex : Option Thread
  phases : Thread → QueuePhase

namespace QueueThreads

variable {Thread : Type}

def start : QueueThreads Thread := ⟨LinkedQueue.empty, none, fun _ => .outside⟩

variable [DecidableEq Thread]

def setPhase (state : QueueThreads Thread) (thread : Thread) (phase : QueuePhase) :
    QueueThreads Thread :=
  { state with phases := Function.update state.phases thread phase }

inductive Step (thread : Thread) : QueueThreads Thread →
    Option (CallEvent Thread QueueCall Int) → QueueThreads Thread → Prop where
  | called {state} (outside : state.phases thread = .outside) (operation : QueueCall) :
      Step thread state (some (.call thread operation))
        (state.setPhase thread (.entering operation))
  | stepped {state : QueueThreads Thread} {queue : LinkedQueue Nat} {phase : QueuePhase}
      (step : QueueStep state.queue (state.phases thread) queue phase) :
      Step thread state none { state.setPhase thread phase with queue }
  | locked {state : QueueThreads Thread} {phase : QueuePhase} (free : state.mutex = none)
      (isAt : (state.phases thread).locked = some phase) :
      Step thread state none { state.setPhase thread phase with mutex := some thread }
  | unlocked {state : QueueThreads Thread} {phase : QueuePhase}
      (isAt : (state.phases thread).unlocked = some phase) :
      Step thread state none { state.setPhase thread phase with mutex := none }
  | returned {state : QueueThreads Thread} {result : Int}
      (isAt : state.phases thread = .returning result) :
      Step thread state (some (.return thread result)) (state.setPhase thread .outside)

end QueueThreads

/-- Any threads, in any order of their steps. -/
def queueThreads (Thread : Type) [DecidableEq Thread] :
    TransitionSystem (QueueThreads Thread) (CallEvent Thread QueueCall Int) where
  start := .start
  step state label after := ∃ thread, QueueThreads.Step thread state label after

namespace QueuePhase

/-- The thread has the mutex. -/
def Critical : QueuePhase → Prop
  | .testingTail _ _ | .linking _ _ | .heading _ _ | .tailing _ | .unlockingEnqueued
  | .readingHead | .unlockingEmpty | .unlinking _ | .testingHead _ | .clearing _
  | .unlockingDequeued _ => True
  | .outside | .allocating _ | .storingFd _ _ | .storingNext _ _ | .lockingToEnqueue _ _
  | .lockingToDequeue | .readingFd _ | .freeing _ _ | .returning _ => False

/-- The node that only this thread knows of. -/
def owned : QueuePhase → Option Nat
  | .storingFd _ node | .storingNext _ node | .lockingToEnqueue _ node | .testingTail _ node
  | .linking _ node | .heading _ node | .testingHead node | .clearing node
  | .unlockingDequeued node | .readingFd node | .freeing node _ => some node
  | .outside | .allocating _ | .tailing _ | .unlockingEnqueued | .lockingToDequeue
  | .readingHead | .unlockingEmpty | .unlinking _ | .returning _ => none

/-- What the thread has stored in its node. -/
def Stored (memory : Memory Nat) : QueuePhase → Prop
  | .storingNext fd node => ∃ next, memory node = some ⟨fd, next⟩
  | .lockingToEnqueue fd node | .testingTail fd node | .linking fd node | .heading fd node =>
      memory node = some ⟨fd, none⟩
  | _ => True

def IsTail (tail : Option Nat) (nodes : List (Nat × Nat)) : Prop :=
  tail = nodes.getLast?.map Prod.fst

/-- What the thread that has the mutex knows of the queue. -/
def Sees (tail : Option Nat) (nodes : List (Nat × Nat)) : QueuePhase → Prop
  | .testingTail _ _ | .unlockingEnqueued | .readingHead | .unlockingEmpty
  | .unlockingDequeued _ => IsTail tail nodes
  | .linking _ _ => IsTail tail nodes ∧ nodes ≠ []
  | .heading _ _ => nodes = []
  | .tailing node => ∃ front fd, nodes = front ++ [(node, fd)]
  | .unlinking node => IsTail tail nodes ∧ ∃ fd rest, nodes = (node, fd) :: rest
  | .testingHead _ => nodes ≠ [] → IsTail tail nodes
  | .clearing _ => nodes = []
  | .outside | .allocating _ | .storingFd _ _ | .storingNext _ _ | .lockingToEnqueue _ _
  | .lockingToDequeue | .readingFd _ | .freeing _ _ | .returning _ => True

/-- How the call of a thread stands: it takes effect when a node is linked or unlinked, when
there is no memory, or when the queue is found empty. -/
def call (memory : Memory Nat) : QueuePhase → Call QueueCall Int
  | .outside => .none
  | .allocating fd | .storingFd fd _ | .storingNext fd _ | .lockingToEnqueue fd _
  | .testingTail fd _ | .linking fd _ | .heading fd _ => .called (.enqueue fd)
  | .tailing _ | .unlockingEnqueued => .done 0
  | .lockingToDequeue | .readingHead | .unlinking _ => .called .dequeue
  | .unlockingEmpty => .done (-1)
  | .testingHead node | .clearing node | .unlockingDequeued node | .readingFd node =>
      match memory node with
      | some cell => .done cell.value
      | none => .none
  | .freeing _ fd => .done fd
  | .returning result => .done result

end QueuePhase

/-- A queue that answers at once, first in first out. -/
inductive FifoEffect : List Nat → QueueCall → Int → List Nat → Prop where
  | enqueued (fds : List Nat) (fd : Nat) : FifoEffect fds (.enqueue fd) 0 (fds ++ [fd])
  | noMemory (fds : List Nat) (fd : Nat) : FifoEffect fds (.enqueue fd) (-1) fds
  | dequeued (fd : Nat) (fds : List Nat) : FifoEffect (fd :: fds) .dequeue fd fds
  | empty : FifoEffect [] .dequeue (-1) []

def fifo : AtomicObject (List Nat) QueueCall Int := ⟨[], FifoEffect⟩

/-- What a thread can tell of the queue and of its own node. -/
structure QueuePhase.Local (queue : LinkedQueue Nat) (nodes : List (Nat × Nat))
    (phase : QueuePhase) : Prop where
  chain : Chain queue.memory queue.head nodes
  distinct : (nodes.map Prod.fst).Nodup
  foreign : ∀ node, phase.owned = some node → node ∉ nodes.map Prod.fst
  allocated : ∀ node, phase.owned = some node → queue.memory node ≠ none
  sees : phase.Sees queue.tail nodes
  stored : phase.Stored queue.memory

/-- What a step of a thread means for the queue, and for the threads that have other nodes. -/
structure QueueEffect (queue : LinkedQueue Nat) (nodes : List (Nat × Nat)) (phase : QueuePhase)
    (queue' : LinkedQueue Nat) (nodes' : List (Nat × Nat)) (phase' : QueuePhase) : Prop where
  after : phase'.Local queue' nodes'
  critical : phase'.Critical ↔ phase.Critical
  quiet : ¬ phase.Critical → queue'.tail = queue.tail ∧ nodes' = nodes
  frame : ∀ other, phase.owned ≠ some other → queue.memory other ≠ none →
    other ∉ nodes.map Prod.fst →
      queue'.memory other = queue.memory other ∧ other ∉ nodes'.map Prod.fst
  fresh : ∀ node, phase'.owned = some node →
    phase.owned = some node ∨ queue.memory node = none ∨ node ∈ nodes.map Prod.fst
  commits : (nodes'.map Prod.snd = nodes.map Prod.snd ∧
      phase'.call queue'.memory = phase.call queue.memory) ∨
    ∃ operation result, phase.call queue.memory = .called operation ∧
      phase'.call queue'.memory = .done result ∧
      FifoEffect (nodes.map Prod.snd) operation result (nodes'.map Prod.snd)

namespace QueueStep

variable {queue queue' : LinkedQueue Nat} {nodes : List (Nat × Nat)} {phase phase' : QueuePhase}

/-- A step that only reads. -/
theorem effect_read (isLocal : phase.Local queue nodes)
    (critical : phase'.Critical ↔ phase.Critical)
    (owned : phase'.owned = phase.owned ∨ phase'.owned = none)
    (sees : phase'.Sees queue.tail nodes) (stored : phase'.Stored queue.memory)
    (commits : phase'.call queue.memory = phase.call queue.memory ∨
      ∃ operation result, phase.call queue.memory = .called operation ∧
        phase'.call queue.memory = .done result ∧
        FifoEffect (nodes.map Prod.snd) operation result (nodes.map Prod.snd)) :
    QueueEffect queue nodes phase queue nodes phase' := by
  have keeps {node : Nat} (isOwned : phase'.owned = some node) : phase.owned = some node := by
    obtain same | none := owned
    · exact same ▸ isOwned
    · rw [none] at isOwned
      contradiction
  exact {
    after := ⟨isLocal.chain, isLocal.distinct,
      fun node isOwned => isLocal.foreign node (keeps isOwned),
      fun node isOwned => isLocal.allocated node (keeps isOwned), sees, stored⟩
    critical
    quiet := fun _ => ⟨rfl, rfl⟩
    frame := fun other _ _ foreign => ⟨rfl, foreign⟩
    fresh := fun node isOwned => .inl (keeps isOwned)
    commits := commits.imp_left fun same => ⟨rfl, same⟩ }

/-- A step that writes to the node of the thread, which is out of reach of all others. -/
theorem effect_private {node : Nat} (isLocal : phase.Local queue nodes)
    (own : phase.owned = some node) (notCritical : ¬ phase.Critical) (stays : ¬ phase'.Critical)
    (content : Option (Node Nat))
    (keeps : phase'.owned = some node ∧ content ≠ none ∨ phase'.owned = none)
    (sees : phase'.Sees queue.tail nodes)
    (stored : phase'.Stored (Function.update queue.memory node content))
    (same : phase'.call (Function.update queue.memory node content) = phase.call queue.memory) :
    QueueEffect queue nodes phase
      { queue with memory := Function.update queue.memory node content } nodes phase' := by
  have isNode {other : Nat} (isOwned : phase'.owned = some other) :
      other = node ∧ content ≠ none := by
    obtain ⟨owned, some⟩ | none := keeps
    · exact ⟨Option.some.inj (isOwned.symm.trans owned), some⟩
    · rw [none] at isOwned
      contradiction
  have foreign := isLocal.foreign node own
  refine ⟨⟨isLocal.chain.frame foreign content, isLocal.distinct, fun other isOwned => ?_,
    fun other isOwned => ?_, sees, stored⟩, iff_of_false stays notCritical,
    fun _ => ⟨rfl, rfl⟩, fun other notOwned _ outside => ⟨?_, outside⟩,
    fun other isOwned => .inl ?_, .inl ⟨rfl, same⟩⟩
  · obtain ⟨rfl, _⟩ := isNode isOwned
    exact foreign
  · obtain ⟨rfl, some⟩ := isNode isOwned
    simpa using some
  · refine Function.update_of_ne ?_ ..
    rintro rfl
    exact notOwned own
  · obtain ⟨rfl, _⟩ := isNode isOwned
    exact own

theorem effect_allocated {fd node : Nat} (isLocal : (QueuePhase.allocating fd).Local queue nodes)
    (unused : queue.memory node = none) (cell : Node Nat) :
    QueueEffect queue nodes (.allocating fd)
      { queue with memory := Function.update queue.memory node (some cell) } nodes
      (.storingFd fd node) where
  after := by
    have foreign := isLocal.chain.foreign unused
    refine ⟨isLocal.chain.frame foreign _, isLocal.distinct, fun other isOwned => ?_,
      fun other isOwned => ?_, trivial, trivial⟩
    · obtain rfl : node = other := Option.some.inj isOwned
      exact foreign
    · obtain rfl : node = other := Option.some.inj isOwned
      simp
  critical := Iff.rfl
  quiet _ := ⟨rfl, rfl⟩
  frame other _ allocated outside := by
    refine ⟨Function.update_of_ne ?_ .., outside⟩
    rintro rfl
    exact allocated unused
  fresh other isOwned := by
    obtain rfl : node = other := Option.some.inj isOwned
    exact .inr (.inl unused)
  commits := .inl ⟨rfl, rfl⟩

theorem effect_linked {fd node last : Nat} {cell : Node Nat}
    (isLocal : (QueuePhase.linking fd node).Local queue nodes) (isTail : queue.tail = some last)
    (found : queue.memory last = some cell) :
    QueueEffect queue nodes (.linking fd node)
      { queue with
        memory := Function.update queue.memory last (some { cell with next := some node }) }
      (nodes ++ [(node, fd)]) (.tailing node) := by
  obtain ⟨chain, distinct, foreign, _, ⟨seesTail, nonempty⟩, stored⟩ := isLocal
  have outside := foreign node rfl
  obtain ⟨front, ⟨lastNode, lastFd⟩, rfl⟩ := (List.eq_nil_or_concat nodes).resolve_left nonempty
  rw [List.concat_eq_append] at *
  obtain rfl : lastNode = last := by
    simpa [QueuePhase.IsTail, isTail] using seesTail.symm
  obtain rfl : cell = ⟨lastFd, none⟩ := Option.some.inj (found.symm.trans chain.last)
  have grown := chain.link distinct stored outside
  refine ⟨⟨by simpa using grown, ?_, nofun, nofun,
      ⟨front ++ [(lastNode, lastFd)], fd, rfl⟩, trivial⟩,
    Iff.rfl, fun notCritical => absurd trivial notCritical,
    fun other notOwned _ isOther => ⟨?_, ?_⟩, nofun, .inr ⟨.enqueue fd, 0, rfl, rfl, ?_⟩⟩
  · rw [List.map_append, List.nodup_append]
    refine ⟨distinct, by simp, fun first member second isNode same => ?_⟩
    simp only [List.map_cons, List.map_nil, List.mem_singleton] at isNode
    exact outside (isNode ▸ same ▸ member)
  · refine Function.update_of_ne ?_ ..
    rintro rfl
    exact isOther (by simp)
  · rw [List.map_append, List.mem_append]
    rintro (member | isNode)
    · exact isOther member
    · simp only [List.map_cons, List.map_nil, List.mem_singleton] at isNode
      exact notOwned (isNode ▸ rfl)
  · simpa using FifoEffect.enqueued ((front ++ [(lastNode, lastFd)]).map Prod.snd) fd

theorem effect_headed {fd node : Nat} (isLocal : (QueuePhase.heading fd node).Local queue nodes) :
    QueueEffect queue nodes (.heading fd node) { queue with head := some node } [(node, fd)]
      (.tailing node) := by
  obtain ⟨_, _, _, _, rfl, stored⟩ := isLocal
  refine ⟨⟨.cons stored .nil, by simp, nofun, nofun, ⟨[], fd, rfl⟩, trivial⟩, Iff.rfl,
    fun notCritical => absurd trivial notCritical, fun other notOwned _ _ => ⟨rfl, ?_⟩, nofun,
    .inr ⟨.enqueue fd, 0, rfl, rfl, .enqueued [] fd⟩⟩
  simp only [List.map_cons, List.map_nil, List.mem_singleton]
  rintro rfl
  exact notOwned rfl

theorem effect_unlinked {node : Nat} {cell : Node Nat}
    (isLocal : (QueuePhase.unlinking node).Local queue nodes)
    (found : queue.memory node = some cell) :
    ∃ rest, QueueEffect queue nodes (.unlinking node) { queue with head := cell.next } rest
      (.testingHead node) := by
  obtain ⟨chain, distinct, _, _, ⟨isTail, fd, rest, rfl⟩, _⟩ := isLocal
  cases isHead : queue.head with
  | none =>
      rw [isHead] at chain
      cases chain
  | some first =>
      rw [isHead] at chain
      obtain ⟨outside, restDistinct⟩ := List.nodup_cons.mp distinct
      cases chain with
      | @cons _ _ next _ alsoFound chain =>
          obtain rfl : cell = ⟨fd, next⟩ := Option.some.inj (found.symm.trans alsoFound)
          refine ⟨rest, ⟨chain, restDistinct, fun other isOwned => ?_, fun other isOwned => ?_,
            fun nonempty => ?_, trivial⟩, Iff.rfl, fun notCritical => absurd trivial notCritical,
            fun other _ _ isOther => ⟨rfl, fun member => isOther (List.mem_cons_of_mem _ member)⟩,
            fun other isOwned => ?_, .inr ⟨.dequeue, fd, rfl, ?_, .dequeued fd _⟩⟩
          · obtain rfl : node = other := Option.some.inj isOwned
            exact outside
          · obtain rfl : node = other := Option.some.inj isOwned
            simp [found]
          · obtain ⟨second, others, rfl⟩ := List.exists_cons_of_ne_nil nonempty
            simpa [QueuePhase.IsTail, List.getLast?_cons_cons] using isTail
          · obtain rfl : node = other := Option.some.inj isOwned
            exact .inr (.inr (by simp))
          · simp [QueuePhase.call, found]

theorem effect (step : QueueStep queue phase queue' phase') (isLocal : phase.Local queue nodes) :
    ∃ nodes', QueueEffect queue nodes phase queue' nodes' phase' := by
  have sees := isLocal.sees
  cases step with
  | allocated node unused cell => exact ⟨nodes, effect_allocated isLocal unused cell⟩
  | noMemory =>
      exact ⟨nodes, effect_read isLocal Iff.rfl (.inl rfl) trivial trivial
        (.inr ⟨_, -1, rfl, rfl, .noMemory _ _⟩)⟩
  | @fdStored fd node cell found =>
      exact ⟨nodes, effect_private isLocal rfl id id _ (.inl ⟨rfl, nofun⟩) trivial
        ⟨cell.next, Function.update_self ..⟩ rfl⟩
  | @nextStored fd node cell found =>
      obtain ⟨next, stored⟩ := isLocal.stored
      obtain rfl : cell = ⟨fd, next⟩ := Option.some.inj (found.symm.trans stored)
      exact ⟨nodes, effect_private isLocal rfl id id _ (.inl ⟨rfl, nofun⟩) trivial
        (Function.update_self ..) rfl⟩
  | hasTail some =>
      have nonempty : nodes ≠ [] := by
        rintro rfl
        exact some sees
      exact ⟨nodes, effect_read isLocal Iff.rfl (.inl rfl) ⟨sees, nonempty⟩ isLocal.stored
        (.inl rfl)⟩
  | noTail none =>
      have empty : nodes = [] := by
        simpa [QueuePhase.Sees, QueuePhase.IsTail, none] using sees.symm
      exact ⟨nodes, effect_read isLocal Iff.rfl (.inl rfl) empty isLocal.stored (.inl rfl)⟩
  | linked isTail found => exact ⟨_, effect_linked isLocal isTail found⟩
  | headed => exact ⟨_, effect_headed isLocal⟩
  | tailed =>
      obtain ⟨front, fd, rfl⟩ := sees
      exact ⟨_, ⟨isLocal.chain, isLocal.distinct, nofun, nofun,
        by simp [QueuePhase.Sees, QueuePhase.IsTail], trivial⟩, Iff.rfl,
        fun notCritical => absurd trivial notCritical, fun other _ _ outside => ⟨rfl, outside⟩,
        nofun, .inl ⟨rfl, rfl⟩⟩
  | empty none =>
      obtain rfl : nodes = [] := (none ▸ isLocal.chain).eq_nil
      exact ⟨[], effect_read isLocal Iff.rfl (.inl rfl) sees trivial
        (.inr ⟨.dequeue, -1, rfl, rfl, .empty⟩)⟩
  | first isHead =>
      obtain ⟨fd, rest, rfl⟩ := (isHead ▸ isLocal.chain).eq_cons
      exact ⟨_, effect_read isLocal Iff.rfl (.inl rfl) ⟨sees, fd, rest, rfl⟩ trivial (.inl rfl)⟩
  | unlinked found => exact effect_unlinked isLocal found
  | noneLeft none =>
      exact ⟨nodes, effect_read isLocal Iff.rfl (.inl rfl) ((none ▸ isLocal.chain).eq_nil)
        trivial (.inl rfl)⟩
  | someLeft some =>
      have nonempty : nodes ≠ [] := by
        rintro rfl
        exact some isLocal.chain.first_eq_none
      exact ⟨nodes, effect_read isLocal Iff.rfl (.inl rfl) (sees nonempty) trivial (.inl rfl)⟩
  | @cleared node =>
      obtain rfl : nodes = [] := sees
      exact ⟨[], ⟨isLocal.chain, isLocal.distinct, isLocal.foreign, isLocal.allocated, rfl,
          trivial⟩,
        Iff.rfl, fun notCritical => absurd trivial notCritical,
        fun other _ _ outside => ⟨rfl, outside⟩, fun node isOwned => .inl isOwned, .inl ⟨rfl, rfl⟩⟩
  | @fdRead node cell found =>
      refine ⟨nodes, effect_read isLocal Iff.rfl (.inl rfl) trivial trivial (.inl ?_)⟩
      simp [QueuePhase.call, found]
  | freed found =>
      exact ⟨nodes, effect_private isLocal rfl id id none (.inr rfl) trivial trivial rfl⟩

end QueueStep

namespace QueueThreads

variable {Thread : Type}

/-- The mutex keeps the threads apart, and each node is in the queue or with one thread. -/
structure Kept (state : QueueThreads Thread) (nodes : List (Nat × Nat)) : Prop where
  chain : Chain state.queue.memory state.queue.head nodes
  threads : ∀ thread, (state.phases thread).Local state.queue nodes
  critical : ∀ thread, (state.phases thread).Critical ↔ state.mutex = some thread
  free : state.mutex = none → QueuePhase.IsTail state.queue.tail nodes
  apart : ∀ {thread other node}, (state.phases thread).owned = some node →
    (state.phases other).owned = some node → thread = other

theorem start_kept : (start : QueueThreads Thread).Kept [] where
  chain := .nil
  threads _ := ⟨.nil, List.nodup_nil, nofun, nofun, trivial, trivial⟩
  critical _ := ⟨False.elim, nofun⟩
  free _ := rfl
  apart := nofun

/-- What the queue and the calls of the threads come to. -/
def atomic (state : QueueThreads Thread) (nodes : List (Nat × Nat)) :
    List Nat × (Thread → Call QueueCall Int) :=
  (nodes.map Prod.snd, fun thread => (state.phases thread).call state.queue.memory)

end QueueThreads

/-- A thread that does not know of the changes to the queue and keeps its node. -/
theorem QueuePhase.Local.framed {queue queue' : LinkedQueue Nat} {nodes nodes' : List (Nat × Nat)}
    {phase : QueuePhase} (isLocal : phase.Local queue nodes)
    (chain : Chain queue'.memory queue'.head nodes') (distinct : (nodes'.map Prod.fst).Nodup)
    (keeps : ∀ node, phase.owned = some node →
      queue'.memory node = queue.memory node ∧ node ∉ nodes'.map Prod.fst)
    (sees : ¬ phase.Critical ∨ queue'.tail = queue.tail ∧ nodes' = nodes) :
    phase.Local queue' nodes' ∧ phase.call queue'.memory = phase.call queue.memory := by
  refine ⟨⟨chain, distinct, fun node isOwned => (keeps node isOwned).2, fun node isOwned => ?_,
    ?_, ?_⟩, ?_⟩
  · rw [(keeps node isOwned).1]
    exact isLocal.allocated node isOwned
  · obtain notCritical | ⟨tail, rfl⟩ := sees
    · cases phase <;> first | exact trivial | exact absurd trivial notCritical
    · rw [tail]
      exact isLocal.sees
  · have stored := isLocal.stored
    cases phase <;> first | exact trivial | simpa [Stored, (keeps _ rfl).1] using stored
  · cases phase <;> first | rfl | simp only [call, (keeps _ rfl).1]

end HttpFs.CProvider
