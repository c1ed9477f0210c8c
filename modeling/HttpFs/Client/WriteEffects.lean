import HttpFs.Client.AnyServer
import HttpFs.Client.OkOperations

namespace HttpFs

open Routine ClientM

variable {σ : Type}

def chunkOf (buffer : Bytes) (k : Nat) : Bytes :=
  (buffer.drop (k * HTTPFS_WRITE_CHUNK_SIZE)).take
    (min (buffer.length - k * HTTPFS_WRITE_CHUNK_SIZE) HTTPFS_WRITE_CHUNK_SIZE)

def writeOffset (offset : Int) (k : Nat) : Int :=
  offset + (k * HTTPFS_WRITE_CHUNK_SIZE : Nat)

def sentBefore (buffer : Bytes) (k : Nat) : Bytes := buffer.take (k * HTTPFS_WRITE_CHUNK_SIZE)

theorem length_chunkOf (buffer : Bytes) (k : Nat) : (chunkOf buffer k).length =
    min (buffer.length - k * HTTPFS_WRITE_CHUNK_SIZE) HTTPFS_WRITE_CHUNK_SIZE := by
  rw [chunkOf, List.length_take, List.length_drop]
  generalize HTTPFS_WRITE_CHUNK_SIZE = chunkSize
  omega

theorem length_sentBefore (buffer : Bytes) (k : Nat) :
    (sentBefore buffer k).length = min buffer.length (k * HTTPFS_WRITE_CHUNK_SIZE) := by
  rw [sentBefore, List.length_take, Nat.min_comm]

theorem sentBefore_zero (buffer : Bytes) : sentBefore buffer 0 = [] := by
  simp [sentBefore]

theorem sentBefore_succ (buffer : Bytes) (k : Nat) :
    sentBefore buffer k ++ chunkOf buffer k = sentBefore buffer (k + 1) := by
  simp only [sentBefore, chunkOf]
  generalize HTTPFS_WRITE_CHUNK_SIZE = chunkSize
  rw [Nat.succ_mul, List.take_add]
  congr 1
  rcases Nat.le_total (buffer.length - k * chunkSize) chunkSize with last | full
  · rw [Nat.min_eq_left last, List.take_of_length_le (by simp),
      List.take_of_length_le (by simpa using last)]
  · rw [Nat.min_eq_right full]

theorem sentBefore_all {buffer : Bytes} {k : Nat}
    (beyond : buffer.length ≤ k * HTTPFS_WRITE_CHUNK_SIZE) : sentBefore buffer k = buffer :=
  List.take_of_length_le beyond

theorem writeFileLoop_rule {curl : Curl σ} {client : HttpfsClient} {path buffer : Bytes}
    {offset : Int} {inv : Nat → ClientState σ → Prop} {failed : ClientState σ → Prop}
    (turn : ∀ k, k * HTTPFS_WRITE_CHUNK_SIZE < buffer.length →
      Triple (inv k)
        (writeChunk curl client path (writeOffset offset k) (chunkOf buffer k))
        (fun _ => inv (k + 1)) failed)
    (k : Nat) :
    Triple (inv k)
      (writeFileLoop curl client path offset buffer
        (min buffer.length (k * HTTPFS_WRITE_CHUNK_SIZE)))
      (fun total state => total = buffer.length ∧
        ∃ count, buffer.length ≤ count * HTTPFS_WRITE_CHUNK_SIZE ∧ inv count state)
      failed := by
  rw [writeFileLoop]
  apply triple_ite
  · intro more
    have inside : k * HTTPFS_WRITE_CHUNK_SIZE < buffer.length := by omega
    have position : min buffer.length (k * HTTPFS_WRITE_CHUNK_SIZE) =
        k * HTTPFS_WRITE_CHUNK_SIZE :=
      Nat.min_eq_right (Nat.le_of_lt inside)
    rw [position, next_total inside]
    apply triple_bind (turn k inside)
    intro _
    exact writeFileLoop_rule turn (k + 1)
  · intro finish
    apply triple_pure
    intro state holds
    exact ⟨by omega, k, by omega, holds⟩
termination_by buffer.length - k * HTTPFS_WRITE_CHUNK_SIZE
decreasing_by
  have positive : 0 < HTTPFS_WRITE_CHUNK_SIZE := by decide
  rw [Nat.succ_mul]
  omega

theorem httpfsWriteFile_rule {curl : Curl σ} {client : HttpfsClient} {path buffer : Bytes}
    {offset : Int} {pre : ClientState σ → Prop} {inv : Nat → ClientState σ → Prop}
    {failed : ClientState σ → Prop}
    (start : ∀ state, pre state → inv 0 { state with transferred := 0 })
    (turn : ∀ k, k * HTTPFS_WRITE_CHUNK_SIZE < buffer.length →
      Triple (inv k)
        (writeChunk curl client path (writeOffset offset k) (chunkOf buffer k))
        (fun _ => inv (k + 1)) failed) :
    Triple pre (httpfsWriteFile curl client path offset buffer)
      (fun _ after => ∃ count state, buffer.length ≤ count * HTTPFS_WRITE_CHUNK_SIZE ∧
        inv count state ∧ after = { state with transferred := buffer.length })
      failed := by
  unfold httpfsWriteFile
  have reset : Triple pre (setTransferred 0)
      (fun _ state => inv 0 state ∧ state.transferred = 0) failed := by
    apply triple_modify
    intro state before
    exact ⟨start state before, rfl⟩
  apply triple_bind reset
  intro _
  apply triple_ite
  · intro empty
    apply triple_pure
    rintro state ⟨holds, nothing⟩
    refine ⟨0, state, by omega, holds, ?_⟩
    rw [empty, ← nothing]
  · intro _
    have loop := writeFileLoop_rule turn 0
    rw [Nat.zero_mul, Nat.min_zero] at loop
    apply triple_bind_value (triple_consequence loop (fun _ reached => reached.1)
      (fun _ _ reached => reached) fun _ reached => reached)
    apply triple_modify
    rintro state ⟨count, beyond, holds⟩
    exact ⟨count, state, beyond, holds, rfl⟩

end HttpFs
