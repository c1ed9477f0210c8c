import Mathlib.Logic.Function.Basic

/-! Queues of linked nodes, with a pointer to the first node and one to the last. -/

namespace HttpFs.LinkedQueue

variable {α : Type}

structure Node (α : Type) where
  value : α
  next : Option Nat

abbrev Memory (α : Type) := Nat → Option (Node α)

/-- The nodes with the given addresses and values, each linked to the one behind it. -/
inductive Chain (memory : Memory α) : Option Nat → List (Nat × α) → Prop where
  | nil : Chain memory none []
  | cons {address : Nat} {value : α} {next : Option Nat} {nodes : List (Nat × α)}
      (found : memory address = some ⟨value, next⟩) (rest : Chain memory next nodes) :
      Chain memory (some address) ((address, value) :: nodes)

namespace Chain

variable {memory : Memory α} {first : Option Nat} {nodes : List (Nat × α)} {address : Nat}

theorem eq_nil (chain : Chain memory none nodes) : nodes = [] := by
  cases chain
  rfl

theorem eq_cons (chain : Chain memory (some address) nodes) :
    ∃ value rest, nodes = (address, value) :: rest := by
  cases chain with
  | cons found rest => exact ⟨_, _, rfl⟩

theorem first_eq_none (chain : Chain memory first []) : first = none := by
  cases chain
  rfl

theorem allocated (chain : Chain memory first nodes) {value : α}
    (member : (address, value) ∈ nodes) : memory address ≠ none := by
  induction chain with
  | nil => cases member
  | cons found rest induction =>
      cases member with
      | head => simp [found]
      | tail _ inRest => exact induction inRest

theorem foreign (chain : Chain memory first nodes) (fresh : memory address = none) :
    address ∉ nodes.map Prod.fst := by
  intro member
  obtain ⟨⟨other, value⟩, inside, rfl⟩ := List.mem_map.mp member
  exact chain.allocated inside fresh

theorem unique (chain : Chain memory first nodes) {others : List (Nat × α)}
    (other : Chain memory first others) : nodes = others := by
  induction chain generalizing others with
  | nil =>
      cases other
      rfl
  | cons found rest induction =>
      cases other with
      | cons alsoFound otherRest =>
          rw [found, Option.some.injEq, Node.mk.injEq] at alsoFound
          obtain ⟨rfl, rfl⟩ := alsoFound
          rw [induction otherRest]

theorem frame (chain : Chain memory first nodes) (foreign : address ∉ nodes.map Prod.fst)
    (node : Option (Node α)) : Chain (Function.update memory address node) first nodes := by
  induction chain with
  | nil => exact .nil
  | cons found rest induction =>
      simp only [List.map_cons, List.mem_cons, not_or] at foreign
      refine .cons ?_ (induction foreign.2)
      rw [Function.update_of_ne (Ne.symm foreign.1), found]

theorem last {address : Nat} {value : α}
    (chain : Chain memory first (nodes ++ [(address, value)])) :
    memory address = some ⟨value, none⟩ := by
  induction nodes generalizing first with
  | nil =>
      cases chain with
      | cons found rest =>
          cases rest
          exact found
  | cons node nodes induction =>
      cases chain with
      | cons found rest => exact induction rest

theorem link {last next : Nat} {lastValue value : α}
    (chain : Chain memory first (nodes ++ [(last, lastValue)]))
    (distinct : ((nodes ++ [(last, lastValue)]).map Prod.fst).Nodup)
    (found : memory next = some ⟨value, none⟩)
    (foreign : next ∉ (nodes ++ [(last, lastValue)]).map Prod.fst) :
    Chain (Function.update memory last (some ⟨lastValue, some next⟩)) first
      (nodes ++ [(last, lastValue), (next, value)]) := by
  have different : next ≠ last := by
    rintro rfl
    exact foreign (by simp)
  have nextFound : Function.update memory last (some ⟨lastValue, some next⟩) next =
      some ⟨value, none⟩ := by
    rw [Function.update_of_ne different, found]
  induction nodes generalizing first with
  | nil =>
      cases chain with
      | cons lastFound rest =>
          exact .cons (Function.update_self ..) (.cons nextFound .nil)
  | cons node nodes induction =>
      cases chain with
      | @cons address nodeValue behind _ nodeFound rest =>
          simp only [List.cons_append, List.map_cons, List.nodup_cons] at distinct
          simp only [List.cons_append, List.map_cons, List.mem_cons, not_or] at foreign
          have other : address ≠ last := by
            rintro rfl
            exact distinct.1 (by simp)
          refine .cons ?_ (induction rest distinct.2 foreign.2)
          rw [Function.update_of_ne other, nodeFound]

end Chain

end HttpFs.LinkedQueue

namespace HttpFs

open LinkedQueue

structure LinkedQueue (α : Type) where
  memory : Memory α
  head : Option Nat
  tail : Option Nat

namespace LinkedQueue

variable {α : Type}

def empty : LinkedQueue α := ⟨fun _ => none, none, none⟩

/-- A new node, at an address the allocator has given, behind the last one. -/
def push (queue : LinkedQueue α) (address : Nat) (value : α) : LinkedQueue α :=
  let memory := Function.update queue.memory address (some ⟨value, none⟩)
  match queue.tail with
  | some tail =>
      { memory := Function.update memory tail
          ((memory tail).map fun node => { node with next := some address })
        head := queue.head
        tail := some address }
  | none => { memory, head := some address, tail := some address }

/-- The first node, which is freed; `none` when there is none. -/
def pop (queue : LinkedQueue α) : Option (α × LinkedQueue α) := do
  let address ← queue.head
  let node ← queue.memory address
  return (node.value,
    { memory := Function.update queue.memory address none
      head := node.next
      tail := if node.next = none then none else queue.tail })

structure Holds (queue : LinkedQueue α) (nodes : List (Nat × α)) : Prop where
  chain : Chain queue.memory queue.head nodes
  distinct : (nodes.map Prod.fst).Nodup
  isTail : queue.tail = nodes.getLast?.map Prod.fst

namespace Holds

variable {queue : LinkedQueue α} {nodes : List (Nat × α)}

theorem empty : (LinkedQueue.empty : LinkedQueue α).Holds [] := ⟨.nil, List.nodup_nil, rfl⟩

theorem head_eq_none_iff (holds : queue.Holds nodes) : queue.head = none ↔ nodes = [] := by
  obtain ⟨chain, _, _⟩ := holds
  cases chain' : queue.head with
  | none =>
      rw [chain'] at chain
      cases chain
      simp
  | some address =>
      rw [chain'] at chain
      cases chain
      simp

theorem tail_eq_none_iff (holds : queue.Holds nodes) : queue.tail = none ↔ nodes = [] := by
  rw [holds.isTail, Option.map_eq_none_iff, List.getLast?_eq_none_iff]

theorem push (holds : queue.Holds nodes) {address : Nat} (fresh : queue.memory address = none)
    (value : α) : (queue.push address value).Holds (nodes ++ [(address, value)]) := by
  obtain ⟨chain, distinct, isTail⟩ := holds
  have foreign := chain.foreign fresh
  have grown := chain.frame foreign (some ⟨value, none⟩)
  have distinct' : ((nodes ++ [(address, value)]).map Prod.fst).Nodup := by
    rw [List.map_append, List.nodup_append]
    refine ⟨distinct, by simp, ?_⟩
    rintro other member next isNext rfl
    simp only [List.map_cons, List.map_nil, List.mem_singleton] at isNext
    exact foreign (isNext ▸ member)
  rcases List.eq_nil_or_concat nodes with rfl | ⟨front, ⟨last, lastValue⟩, rfl⟩
  · have noTail : queue.tail = none := isTail
    refine ⟨?_, distinct', ?_⟩ <;> simp only [LinkedQueue.push, noTail]
    · exact .cons (Function.update_self ..) .nil
    · rfl
  · rw [List.concat_eq_append] at *
    have isLast : queue.tail = some last := by simp [isTail]
    have lastFound := grown.last
    refine ⟨?_, distinct', ?_⟩
    · have linked := grown.link distinct (Function.update_self ..) foreign
      simp only [LinkedQueue.push, isLast, lastFound, Option.map_some, List.append_assoc,
        List.singleton_append]
      exact linked
    · simp [LinkedQueue.push, isLast]

theorem pop_nil (holds : queue.Holds []) : queue.pop = none := by
  have noHead : queue.head = none := holds.head_eq_none_iff.mpr rfl
  simp [LinkedQueue.pop, noHead]

theorem pop_cons {address : Nat} {value : α} (holds : queue.Holds ((address, value) :: nodes)) :
    ∃ rest, queue.pop = some (value, rest) ∧ rest.Holds nodes := by
  obtain ⟨memory, head, tail⟩ := queue
  obtain ⟨chain, distinct, isTail⟩ := holds
  simp only [List.map_cons, List.nodup_cons] at distinct
  cases chain with
  | @cons _ _ next _ found chain =>
      change memory address = some ⟨value, next⟩ at found
      refine ⟨⟨Function.update memory address none, next, if next = none then none else tail⟩,
        by simp [LinkedQueue.pop, found], chain.frame distinct.1 none, distinct.2, ?_⟩
      cases chain with
      | nil => simp
      | cons nextFound rest => simpa [List.getLast?_cons_cons] using isTail

end Holds

end LinkedQueue

end HttpFs
