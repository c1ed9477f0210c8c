import HttpFs.Client.ReadEffects

namespace HttpFs

open Routine ClientM

variable {σ : Type}

/-- The number of bytes the `k`-th request of a read of `size` bytes asks for. -/
def chunkAt (size k : Nat) : Nat :=
  min (size - k * HTTPFS_READ_CHUNK_SIZE) HTTPFS_READ_CHUNK_SIZE

theorem next_total {size chunk k : Nat} (inside : k * chunk < size) :
    k * chunk + min (size - k * chunk) chunk = min size ((k + 1) * chunk) := by
  rw [Nat.succ_mul]
  omega

theorem chunkAt_next {size k : Nat} (inside : k * HTTPFS_READ_CHUNK_SIZE < size) :
    k * HTTPFS_READ_CHUNK_SIZE + chunkAt size k =
      min size ((k + 1) * HTTPFS_READ_CHUNK_SIZE) :=
  next_total inside

def chunkOffset (offset : Int) (k : Nat) : Int :=
  offset + (k * HTTPFS_READ_CHUNK_SIZE : Nat)

def Exchange.response (exchange : Exchange) : Bytes :=
  (exchange.outcome.reply.map fun reply => reply.response).getD []

/-- The exchange brought a body that fits the request, with the digest of its bytes
at their own offset. -/
def Verified (offset : Int) (chunkSize : Nat) (exchange : Exchange) : Prop :=
  ∃ reply, exchange.outcome.reply = some reply ∧ reply.response.length ≤ chunkSize ∧
    httpfsSparseMd5Hex reply.response offset = some reply.metadata.contentMd5

theorem acceptChunk_ok {reply : HttpResponse} {offset : Int} {chunkSize : Nat}
    {response : Bytes} (accepted : acceptChunk reply offset chunkSize = .ok response) :
    response = reply.response ∧ reply.response.length ≤ chunkSize ∧
      httpfsSparseMd5Hex reply.response offset = some reply.metadata.contentMd5 := by
  simp only [acceptChunk] at accepted
  split at accepted
  · contradiction
  split at accepted
  · split at accepted <;> contradiction
  split at accepted
  · contradiction
  split at accepted
  · contradiction
  split at accepted
  · contradiction
  next fits =>
  split at accepted
  · contradiction
  next expectedMd5 computed =>
  split at accepted
  · contradiction
  next same =>
  have equal : expectedMd5 = reply.metadata.contentMd5 := Decidable.not_not.mp same
  cases accepted
  exact ⟨rfl, by omega, by rw [computed, equal]⟩

/-- The loop of `httpfs_read_file` before the next request: all requests so far
brought the bytes they asked for, and the buffer holds these bytes. -/
structure Reading (client : HttpfsClient) (offset : Int) (size totalRead : Nat)
    (state : ClientState σ) : Prop where
  total : totalRead = min size (state.exchanges.length * HTTPFS_READ_CHUNK_SIZE)
  chunks : ∀ k exchange, state.exchanges[k]? = some exchange →
    k * HTTPFS_READ_CHUNK_SIZE < size ∧
    AsksChunk client (chunkOffset offset k) (chunkAt size k) exchange ∧
    Verified (chunkOffset offset k) (chunkAt size k) exchange ∧
    exchange.response.length = chunkAt size k
  length : state.buffer.length = size
  contents : state.buffer.take totalRead =
    (state.exchanges.map Exchange.response).flatten
  stores : ∀ store ∈ state.stores, store.start + store.length ≤ size
  transferred : state.transferred = 0

/-- What a caller of `httpfs_read_file` can rely on whatever the server does. The
`k`-th request asks for at most `HTTPFS_READ_CHUNK_SIZE` bytes at `k` times this
distance from the offset, and it is the last one unless its body is that long. -/
structure ReadOutcome (client : HttpfsClient) (offset : Int) (size : Nat)
    (result : Option Unit) (after : ClientState σ) : Prop where
  inBounds : ∀ store ∈ after.stores, store.start + store.length ≤ size
  asked : ∀ k exchange, after.exchanges[k]? = some exchange →
    k * HTTPFS_READ_CHUNK_SIZE < size ∧
    AsksChunk client (chunkOffset offset k) (chunkAt size k) exchange
  stops : ∀ k exchange, after.exchanges[k]? = some exchange →
    k + 1 < after.exchanges.length →
    Verified (chunkOffset offset k) (chunkAt size k) exchange ∧
    exchange.response.length = HTTPFS_READ_CHUNK_SIZE
  succeeded : result = some () →
    after.transferred ≤ size ∧
    after.buffer.take after.transferred =
      (after.exchanges.map Exchange.response).flatten ∧
    after.transferred = ((after.exchanges.map Exchange.response).flatten).length ∧
    ∀ k exchange, after.exchanges[k]? = some exchange →
      Verified (chunkOffset offset k) (chunkAt size k) exchange
  failed : result = none → after.transferred = 0

/-- The loop of `httpfs_read_file` has been left; only its last request may have
brought fewer bytes than it asked for. -/
structure ReadDone (client : HttpfsClient) (offset : Int) (size totalRead : Nat)
    (state : ClientState σ) : Prop where
  total : totalRead ≤ size
  asked : ∀ k exchange, state.exchanges[k]? = some exchange →
    k * HTTPFS_READ_CHUNK_SIZE < size ∧
    AsksChunk client (chunkOffset offset k) (chunkAt size k) exchange ∧
    Verified (chunkOffset offset k) (chunkAt size k) exchange
  full : ∀ k exchange, state.exchanges[k]? = some exchange →
    k + 1 < state.exchanges.length → exchange.response.length = HTTPFS_READ_CHUNK_SIZE
  length : state.buffer.length = size
  contents : state.buffer.take totalRead =
    (state.exchanges.map Exchange.response).flatten
  stores : ∀ store ∈ state.stores, store.start + store.length ≤ size

theorem getElem?_append_singleton {α : Type} {list : List α} {last element : α} {k : Nat}
    (found : (list ++ [last])[k]? = some element) :
    list[k]? = some element ∨ k = list.length ∧ element = last := by
  rcases Nat.lt_or_ge k list.length with inside | outside
  · exact .inl (by rwa [List.getElem?_append_left inside] at found)
  · right
    rw [List.getElem?_append_right outside] at found
    have zero : k - list.length = 0 := by
      cases difference : k - list.length with
      | zero => rfl
      | succ n => simp [difference] at found
    simp only [zero, List.getElem?_cons_zero, Option.some.injEq] at found
    exact ⟨by omega, found.symm⟩

theorem Reading.position {client : HttpfsClient} {offset : Int} {size totalRead : Nat}
    {state : ClientState σ} (reading : Reading client offset size totalRead state)
    (more : totalRead < size) :
    totalRead = state.exchanges.length * HTTPFS_READ_CHUNK_SIZE ∧
      min (size - totalRead) HTTPFS_READ_CHUNK_SIZE =
        chunkAt size state.exchanges.length ∧
      offset + (totalRead : Nat) = chunkOffset offset state.exchanges.length := by
  have position : totalRead = state.exchanges.length * HTTPFS_READ_CHUNK_SIZE := by
    have total := reading.total
    omega
  exact ⟨position, by rw [chunkAt, ← position], by rw [chunkOffset, ← position]⟩

theorem Reading.full_before {client : HttpfsClient} {offset : Int} {size totalRead : Nat}
    {state : ClientState σ} (reading : Reading client offset size totalRead state)
    {k : Nat} {exchange : Exchange} (found : state.exchanges[k]? = some exchange)
    (within : (k + 1) * HTTPFS_READ_CHUNK_SIZE ≤ size) :
    exchange.response.length = HTTPFS_READ_CHUNK_SIZE := by
  rw [(reading.chunks k exchange found).2.2.2, chunkAt]
  rw [Nat.add_mul] at within
  omega

/-- What one turn adds to the facts about the turns before it. -/
theorem Reading.turn {client : HttpfsClient} {offset : Int} {size totalRead : Nat}
    {before after : ClientState σ} {response : Bytes}
    (reading : Reading client offset size totalRead before) (more : totalRead < size)
    (read : ChunkRead client offset totalRead
      (min (size - totalRead) HTTPFS_READ_CHUNK_SIZE) before response after) :
    ∃ exchange, after.exchanges = before.exchanges ++ [exchange] ∧
      exchange.response = response ∧
      AsksChunk client (chunkOffset offset before.exchanges.length)
        (chunkAt size before.exchanges.length) exchange ∧
      Verified (chunkOffset offset before.exchanges.length)
        (chunkAt size before.exchanges.length) exchange ∧
      after.buffer.length = size ∧
      after.buffer.take (totalRead + response.length) =
        ((before.exchanges ++ [exchange]).map Exchange.response).flatten ∧
      (∀ store ∈ after.stores, store.start + store.length ≤ size) ∧
      after.transferred = 0 := by
  obtain ⟨position, chunk, place⟩ := reading.position more
  obtain ⟨exchange, reply, asked, outcome, accepted, host, rfl⟩ := read
  rw [chunk, place] at accepted
  rw [chunk, place] at asked
  obtain ⟨rfl, fits, digest⟩ := acceptChunk_ok accepted
  have isResponse : exchange.response = reply.response := by
    simp [Exchange.response, outcome]
  have bound : totalRead + reply.response.length ≤ before.buffer.length := by
    rw [reading.length]
    rw [← chunk] at fits
    omega
  refine ⟨exchange, ?_, isResponse, asked, ⟨reply, outcome, fits, digest⟩, ?_⟩
  · simp only [storedAt]
    split <;> rfl
  · by_cases content : reply.response.length > 0
    · simp only [storedAt, if_pos content]
      refine ⟨(length_copyInto bound).trans reading.length, ?_, ?_, reading.transferred⟩
      · rw [take_copyInto bound, reading.contents]
        simp [isResponse]
      · intro store member
        obtain old | new := List.mem_append.mp member
        · exact reading.stores store old
        · obtain rfl := List.mem_singleton.mp new
          rw [← reading.length]
          exact bound
    · have empty : reply.response = [] := by
        cases shape : reply.response with
        | nil => rfl
        | cons head tail => simp [shape] at content
      simp only [storedAt, if_neg content]
      refine ⟨reading.length, ?_, reading.stores, reading.transferred⟩
      rw [empty, List.length_nil, Nat.add_zero, reading.contents]
      simp [isResponse, empty]

theorem Reading.next {client : HttpfsClient} {offset : Int} {size totalRead : Nat}
    {before after : ClientState σ} {response : Bytes}
    (reading : Reading client offset size totalRead before) (more : totalRead < size)
    (read : ChunkRead client offset totalRead
      (min (size - totalRead) HTTPFS_READ_CHUNK_SIZE) before response after)
    (full : ¬ response.length < min (size - totalRead) HTTPFS_READ_CHUNK_SIZE) :
    Reading client offset size (totalRead + response.length) after := by
  obtain ⟨position, chunk, _⟩ := reading.position more
  obtain ⟨exchange, exchanges, isResponse, asked, verified, length, contents, stores,
    transferred⟩ := reading.turn more read
  have fits : response.length = chunkAt size before.exchanges.length := by
    obtain ⟨reply, outcome, bound, _⟩ := verified
    have same : reply.response = response := by
      simpa [Exchange.response, outcome] using isResponse
    rw [same] at bound
    omega
  constructor
  · rw [exchanges, List.length_append, List.length_singleton, Nat.add_mul, fits, ← chunk]
    omega
  · intro k found member
    rw [exchanges] at member
    obtain old | ⟨rfl, rfl⟩ := getElem?_append_singleton member
    · exact reading.chunks k found old
    · exact ⟨by omega, asked, verified, by rw [isResponse, fits]⟩
  · exact length
  · rw [contents, exchanges]
  · exact stores
  · exact transferred

theorem Reading.last {client : HttpfsClient} {offset : Int} {size totalRead : Nat}
    {before after : ClientState σ} {response : Bytes}
    (reading : Reading client offset size totalRead before) (more : totalRead < size)
    (read : ChunkRead client offset totalRead
      (min (size - totalRead) HTTPFS_READ_CHUNK_SIZE) before response after)
    (short : response.length < min (size - totalRead) HTTPFS_READ_CHUNK_SIZE) :
    ReadDone client offset size (totalRead + response.length) after := by
  obtain ⟨position, _, _⟩ := reading.position more
  obtain ⟨exchange, exchanges, _, asked, verified, length, contents, stores, _⟩ :=
    reading.turn more read
  constructor
  · omega
  · intro k found member
    rw [exchanges] at member
    obtain old | ⟨rfl, rfl⟩ := getElem?_append_singleton member
    · obtain ⟨inside, oldAsked, oldVerified, _⟩ := reading.chunks k found old
      exact ⟨inside, oldAsked, oldVerified⟩
    · exact ⟨by omega, asked, verified⟩
  · intro k found member notLast
    rw [exchanges] at member notLast
    obtain old | ⟨rfl, rfl⟩ := getElem?_append_singleton member
    · apply reading.full_before old
      have bound : (k + 1) * HTTPFS_READ_CHUNK_SIZE ≤
          before.exchanges.length * HTTPFS_READ_CHUNK_SIZE :=
        Nat.mul_le_mul_right _ (by simp at notLast; omega)
      omega
    · simp at notLast
  · exact length
  · rw [contents, exchanges]
  · exact stores

theorem Reading.done {client : HttpfsClient} {offset : Int} {size totalRead : Nat}
    {state : ClientState σ} (reading : Reading client offset size totalRead state) :
    ReadDone client offset size totalRead state := by
  have total := reading.total
  constructor
  · omega
  · intro k exchange found
    obtain ⟨inside, asked, verified, _⟩ := reading.chunks k exchange found
    exact ⟨inside, asked, verified⟩
  · intro k exchange found notLast
    apply reading.full_before found
    obtain ⟨next, isNext⟩ : ∃ next, state.exchanges[k + 1]? = some next :=
      ⟨_, List.getElem?_eq_getElem notLast⟩
    exact Nat.le_of_lt (reading.chunks (k + 1) next isNext).1
  · exact reading.length
  · exact reading.contents
  · exact reading.stores

theorem Reading.fails {client : HttpfsClient} {offset : Int} {size totalRead : Nat}
    {before after : ClientState σ}
    (reading : Reading client offset size totalRead before) (more : totalRead < size)
    (failed : ChunkFailed client offset totalRead
      (min (size - totalRead) HTTPFS_READ_CHUNK_SIZE) before after) :
    ReadOutcome client offset size none after := by
  obtain ⟨position, chunk, place⟩ := reading.position more
  have facts : ∃ added, after.exchanges = before.exchanges ++ added ∧ added.length ≤ 1 ∧
      (∀ exchange ∈ added, AsksChunk client (chunkOffset offset before.exchanges.length)
        (chunkAt size before.exchanges.length) exchange) ∧
      after.stores = before.stores ∧ after.transferred = before.transferred := by
    rw [chunk] at failed
    simp only [ChunkFailed, place] at failed
    obtain ⟨_, _, added, _, single, asked, host, rfl⟩ |
      ⟨exchange, _, _, state, asked, _, _, ⟨host, rfl⟩, rfl⟩ := failed
    · exact ⟨added, rfl, single, fun exchange member => (asked exchange member).1, rfl, rfl⟩
    · exact ⟨[exchange], rfl, by simp, by simpa using asked, rfl, rfl⟩
  obtain ⟨added, exchanges, single, asked, stores, transferred⟩ := facts
  have split : ∀ k exchange, after.exchanges[k]? = some exchange →
      before.exchanges[k]? = some exchange ∨
        k = before.exchanges.length ∧ exchange ∈ added := by
    intro k exchange member
    rw [exchanges] at member
    cases added with
    | nil => exact .inl (by simpa using member)
    | cons head tail =>
        obtain rfl : tail = [] := by
          cases tail with
          | nil => rfl
          | cons => simp at single
        obtain old | ⟨position, rfl⟩ := getElem?_append_singleton member
        · exact .inl old
        · exact .inr ⟨position, by simp⟩
  constructor
  · rw [stores]
    exact reading.stores
  · intro k exchange member
    obtain old | ⟨rfl, new⟩ := split k exchange member
    · exact ⟨(reading.chunks k exchange old).1, (reading.chunks k exchange old).2.1⟩
    · exact ⟨by omega, asked exchange new⟩
  · intro k exchange member notLast
    have earlier : k < before.exchanges.length := by
      rw [exchanges, List.length_append] at notLast
      omega
    obtain old | ⟨rfl, _⟩ := split k exchange member
    · refine ⟨(reading.chunks k exchange old).2.2.1, reading.full_before old ?_⟩
      have bound : (k + 1) * HTTPFS_READ_CHUNK_SIZE ≤
          before.exchanges.length * HTTPFS_READ_CHUNK_SIZE :=
        Nat.mul_le_mul_right _ earlier
      omega
    · omega
  · exact fun impossible => absurd impossible (by simp)
  · exact fun _ => transferred.trans reading.transferred

end HttpFs
