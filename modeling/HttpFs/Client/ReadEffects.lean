import HttpFs.Client.Effects
import HttpFs.Client.Transfer

namespace HttpFs

open Routine ClientM

variable {σ : Type}

def AsksChunk (client : HttpfsClient) (offset : Int) (size : Nat)
    (exchange : Exchange) : Prop :=
  ∃ escapedPath, exchange.request =
    ⟨client.baseUrl ++ readEndpoint offset size escapedPath, client.timeoutMs,
      client.verbose, none⟩

/-- The state after the `memcpy` of one turn, which leaves an empty response out. -/
def storedAt (start : Nat) (response : Bytes) (state : ClientState σ) : ClientState σ :=
  if response.length > 0 then
    { state with
      buffer := copyInto state.buffer start response
      stores := state.stores ++ [⟨start, response.length⟩] }
  else
    state

/-- One turn has stored `response`, the body of the reply it asked for. -/
def ChunkRead (client : HttpfsClient) (offset : Int) (totalRead chunkSize : Nat)
    (before : ClientState σ) (response : Bytes) (after : ClientState σ) : Prop :=
  ∃ exchange reply,
    AsksChunk client (offset + totalRead) chunkSize exchange ∧
    exchange.outcome.reply = some reply ∧
    acceptChunk reply (offset + totalRead) chunkSize = .ok response ∧
    HostOnly (storedAt totalRead response
      { before with exchanges := before.exchanges ++ [exchange] }) after

/-- One turn has failed: without a body to look at, or because of it. -/
def ChunkFailed (client : HttpfsClient) (offset : Int) (totalRead chunkSize : Nat)
    (before after : ClientState σ) : Prop :=
  GaveUp (fun exchange => AsksChunk client (offset + totalRead) chunkSize exchange ∧
    Empty exchange) before after ∨
  ∃ exchange reply error state,
    AsksChunk client (offset + totalRead) chunkSize exchange ∧
    exchange.outcome.reply = some reply ∧
    acceptChunk reply (offset + totalRead) chunkSize = .error error ∧
    HostOnly { before with exchanges := before.exchanges ++ [exchange] } state ∧
    after = reported error.errnoValue error.message state

theorem readChunk_effect (curl : Curl σ) (client : HttpfsClient) (path : Bytes)
    (offset : Int) (totalRead chunkSize : Nat) (before : ClientState σ) :
    Triple (HostOnly before) (readChunk curl client path offset totalRead chunkSize)
      (ChunkRead client offset totalRead chunkSize before)
      (ChunkFailed client offset totalRead chunkSize before) := by
  unfold readChunk
  apply triple_bind triple_buildEndpoint
  intro endpoint
  have built : Triple
      (fun after => HostOnly before after ∧ ∀ text, endpoint = some text →
        ∃ escapedPath, text = readEndpoint (offset + totalRead) chunkSize escapedPath)
      (obtainOr Errno.ENAMETOOLONG (ascii "Failed to build read request") endpoint)
      (fun text after =>
        (∃ escapedPath, text = readEndpoint (offset + totalRead) chunkSize escapedPath) ∧
          HostOnly before after)
      (ChunkFailed client offset totalRead chunkSize before) := by
    apply triple_obtainOr
    · intro text isText state reached
      exact ⟨reached.2 text isText, reached.1⟩
    · intro _ state reached
      exact .inl (GaveUp.of_hostOnly reached.1 (by decide) _)
  apply triple_bind built
  intro endpoint
  apply triple_assuming
  intro isEndpoint
  obtain ⟨escapedPath, rfl⟩ := isEndpoint
  have asks : ∀ exchange, Asks client .get
      (readEndpoint (offset + totalRead) chunkSize escapedPath) none none none exchange →
      AsksChunk client (offset + totalRead) chunkSize exchange := by
    intro exchange asked
    simp only [Asks, requestFor, Except.ok.injEq] at asked
    exact ⟨escapedPath, asked.symm⟩
  have answered : Triple (HostOnly before)
      (httpRequestEx curl client .get
        (readEndpoint (offset + totalRead) chunkSize escapedPath) none none none)
      (Answered client .get (readEndpoint (offset + totalRead) chunkSize escapedPath)
        none none none before)
      (ChunkFailed client offset totalRead chunkSize before) := by
    apply triple_failed (httpRequestEx_effect curl client .get
      (readEndpoint (offset + totalRead) chunkSize escapedPath) none none none before)
    intro after gaveUp
    exact .inl (gaveUp.mono fun exchange unread => ⟨asks exchange unread.1, unread.2⟩)
  apply triple_bind answered
  intro reply
  have accepted : Triple
      (Answered client .get (readEndpoint (offset + totalRead) chunkSize escapedPath)
        none none none before reply)
      (passOn (acceptChunk reply (offset + totalRead) chunkSize))
      (fun response after =>
        acceptChunk reply (offset + totalRead) chunkSize = .ok response ∧
          Answered client .get (readEndpoint (offset + totalRead) chunkSize escapedPath)
            none none none before reply after)
      (ChunkFailed client offset totalRead chunkSize before) := by
    apply triple_passOn
    · intro response isOk state reached
      exact ⟨isOk, reached⟩
    · intro error rejected state reached
      obtain ⟨exchange, asked, outcome, same⟩ := reached
      exact .inr ⟨exchange, reply, error, state, asks exchange asked, outcome, rejected,
        same, rfl⟩
  apply triple_bind accepted
  intro response
  apply triple_assuming
  intro isOk state reached
  obtain ⟨exchange, asked, outcome, host, rfl⟩ := reached
  have stored : ChunkRead client offset totalRead chunkSize before response
      (storedAt totalRead response
        { before with host, exchanges := before.exchanges ++ [exchange] }) := by
    refine ⟨exchange, reply, asks exchange asked, outcome, isOk, host, ?_⟩
    simp only [storedAt]
    split <;> rfl
  by_cases content : response.length > 0
  · rw [storedAt, if_pos content] at stored
    rw [if_pos content]
    exact stored
  · rw [storedAt, if_neg content] at stored
    rw [if_neg content]
    exact stored

/-- The rule for the loop of `httpfs_read_file`: a turn keeps the invariant, or ends the
loop. -/
theorem readFileLoop_turns {curl : Curl σ} {client : HttpfsClient} {path : Bytes}
    {offset : Int} {size : Nat} {inv finished : Nat → ClientState σ → Prop}
    {failed : ClientState σ → Prop}
    (turn : ∀ totalRead, totalRead < size →
      Triple (inv totalRead)
        (readChunk curl client path offset totalRead
          (min (size - totalRead) HTTPFS_READ_CHUNK_SIZE))
        (fun response after =>
          if response.length < min (size - totalRead) HTTPFS_READ_CHUNK_SIZE then
            finished (totalRead + response.length) after
          else
            inv (totalRead + response.length) after)
        failed)
    (done : ∀ totalRead state, ¬ totalRead < size → inv totalRead state →
      finished totalRead state)
    (totalRead : Nat) :
    Triple (inv totalRead) (readFileLoop curl client path offset size totalRead) finished
      failed := by
  rw [readFileLoop]
  apply triple_ite
  · intro more
    apply triple_bind (turn totalRead more)
    intro response
    apply triple_ite
    · intro isShort
      apply triple_pure
      intro after reached
      rwa [if_pos isShort] at reached
    · intro isFull
      apply triple_consequence
        (readFileLoop_turns turn done (totalRead + response.length))
      · intro after reached
        rwa [if_neg isFull] at reached
      · exact fun _ _ reached => reached
      · exact fun _ reached => reached
  · intro finish
    exact triple_pure fun state holds => done totalRead state finish holds
termination_by size - totalRead
decreasing_by
  have positive : 0 < HTTPFS_READ_CHUNK_SIZE := by decide
  omega

theorem readFileLoop_rule {curl : Curl σ} {client : HttpfsClient} {path : Bytes}
    {offset : Int} {size : Nat} {inv finished : Nat → ClientState σ → Prop}
    {failed : ClientState σ → Prop}
    (full : ∀ totalRead before response after, totalRead < size → inv totalRead before →
      ChunkRead client offset totalRead (min (size - totalRead) HTTPFS_READ_CHUNK_SIZE)
        before response after →
      ¬ response.length < min (size - totalRead) HTTPFS_READ_CHUNK_SIZE →
      inv (totalRead + response.length) after)
    (short : ∀ totalRead before response after, totalRead < size → inv totalRead before →
      ChunkRead client offset totalRead (min (size - totalRead) HTTPFS_READ_CHUNK_SIZE)
        before response after →
      response.length < min (size - totalRead) HTTPFS_READ_CHUNK_SIZE →
      finished (totalRead + response.length) after)
    (unread : ∀ totalRead before after, totalRead < size → inv totalRead before →
      ChunkFailed client offset totalRead (min (size - totalRead) HTTPFS_READ_CHUNK_SIZE)
        before after → failed after)
    (done : ∀ totalRead state, ¬ totalRead < size → inv totalRead state →
      finished totalRead state)
    (totalRead : Nat) :
    Triple (inv totalRead) (readFileLoop curl client path offset size totalRead) finished
      failed := by
  apply readFileLoop_turns ?_ done
  intro totalRead more before holds
  refine triple_consequence
    (readChunk_effect curl client path offset totalRead
      (min (size - totalRead) HTTPFS_READ_CHUNK_SIZE) before)
    (fun _ start => start) ?_ (fun after reached => unread totalRead before after more holds
      reached) before (HostOnly.refl before)
  intro response after read
  split
  · next isShort => exact short totalRead before response after more holds read isShort
  · next isFull => exact full totalRead before response after more holds read isFull

end HttpFs
