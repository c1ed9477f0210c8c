import Mathlib.Tactic.IntervalCases
import HttpFs.Client.WrittenFile
import HttpFs.EndToEnd.Writes

namespace HttpFs

open Routine ClientM Region Json

variable {σ : Type}

def FuseCall.Counts (call : FuseCall σ) (count : Nat) : Prop :=
  call.clientFailed = false ∧ call.state.transferred = count ∧
    call.value = some (toInt32 count)

def FuseCall.Fails (call : FuseCall σ) : Prop :=
  call.clientFailed = true ∧ call.state.transferred = 0 ∧
    call.value = negatedErrno call.state

/-- What a caller of the write operation learns, and what has become of its chunks,
whatever the server does. A write that succeeds has had every chunk acknowledged, and
returns their number of bytes as an `int`. One that fails returns no count, with the
chunks before the one it has come to acknowledged. -/
theorem httpfsWrite_accounts (curl : Curl σ) (client : HttpfsClient) (host : σ)
    (path buf : Bytes) (offset : Int) :
    let call := httpfsWrite curl client host path buf offset
    ∃ acknowledged refused,
      call.state.exchanges = acknowledged ++ refused ∧
      StoredChunks client offset buf acknowledged ∧
      (∀ exchange ∈ refused,
        Sends client (writeOffset offset acknowledged.length)
          (chunkOf buf acknowledged.length) exchange ∧
        ¬ Acknowledges (writeOffset offset acknowledged.length)
          (chunkOf buf acknowledged.length) exchange) ∧
      (∀ contents, StoresAcknowledged client curl contents →
        contents call.state.host =
          overwrite 0 (contents host) offset.toNat (sentBefore buf acknowledged.length)) ∧
      ((call.Counts buf.length ∧ refused = [] ∧
          sentBefore buf acknowledged.length = buf) ∨
        (call.Fails ∧ refused.length ≤ 1 ∧
          (sentBefore buf acknowledged.length).length < buf.length)) := by
  have effect := httpfsWriteFile_effect curl client path offset buf (.start host []) _ rfl
  have tracked : ∀ contents, StoresAcknowledged client curl contents →
      StoresAll client
        (httpfsWriteFile curl client path offset buf (.start host [])).2.exchanges
        (contents host)
        (contents (httpfsWriteFile curl client path offset buf (.start host [])).2.host) := by
    intro contents stores
    have kept := (traceInvariant_contents stores [] (contents host)).writeFile client path buf
      offset (.start host []) ⟨[], rfl, rfl⟩
    cases run : httpfsWriteFile curl client path offset buf (.start host []) with
    | mk result after =>
        rw [run] at kept
        cases result <;>
        · obtain ⟨added, isAdded, reached⟩ := kept
          rw [List.nil_append] at isAdded
          rw [isAdded]
          exact reached
  cases run : httpfsWriteFile curl client path offset buf (.start host []) with
  | mk result after =>
      rw [run] at effect tracked
      cases result with
      | some =>
          obtain ⟨acknowledged, exchanges, stored, beyond, transferred⟩ := effect
          rw [ClientState.start, List.nil_append] at exchanges
          have isCall : httpfsWrite curl client host path buf offset =
              ⟨false, some (toInt32 buf.length), after⟩ := by
            rw [httpfsWrite, fuseCall, run, ← transferred]
          rw [isCall]
          refine ⟨acknowledged, [], by simp [exchanges], stored, by simp, ?_,
            .inl ⟨⟨rfl, transferred, rfl⟩, rfl, sentBefore_all beyond⟩⟩
          intro contents stores
          have reached := tracked contents stores
          rw [exchanges] at reached
          exact stored.contents reached
      | none =>
          obtain ⟨acknowledged, refused, exchanges, stored, inside, single, unacknowledged,
            transferred⟩ := effect
          rw [ClientState.start, List.nil_append] at exchanges
          have isCall : httpfsWrite curl client host path buf offset =
              ⟨true, negatedErrno after, after⟩ := by
            rw [httpfsWrite, fuseCall, run]
          rw [isCall]
          refine ⟨acknowledged, refused, exchanges, stored, unacknowledged, ?_,
            .inr ⟨⟨rfl, transferred, rfl⟩, single, ?_⟩⟩
          · intro contents stores
            have reached := tracked contents stores
            rw [exchanges] at reached
            obtain ⟨middle, first, second⟩ := storesAll_append.mp reached
            rw [← stored.contents first]
            cases refused with
            | nil => exact second
            | cons exchange rest =>
                have alone : rest = [] := List.eq_nil_of_length_eq_zero (by
                  simpa using single)
                obtain ⟨final, storesChunk, isFinal⟩ := second
                have last := unacknowledged exchange (by simp)
                rw [alone] at isFinal
                exact isFinal.trans ((storesChunk _ _ last.1).2 last.2)
          · rw [length_sentBefore, Nat.min_eq_right (Nat.le_of_lt inside)]
            exact inside

/-- A server with a single file, which takes one request and resets the connection of
every later one. -/
def resettingCurl : Curl Bytes where
  easyInit := fun contents => (true, contents)
  easyEscape := fun text contents => (some (percentEncode text), contents)
  malloc := fun _ contents => (true, contents)
  easyPerform := fun request contents =>
    let digest := (request.headers.getD 1 []).drop (HTTPFS_CONTENT_MD5_HEADER.length + 2)
    if contents = [] then
      (.received 200 [] [(Value.object (writtenMembers request.body.length digest)).text],
        request.body)
    else
      (.failed (ascii "Connection reset by peer"), contents)

theorem dependable_resettingCurl (contents : Bytes) : Dependable resettingCurl contents :=
  ⟨rfl, fun _ => rfl, fun _ => rfl⟩

theorem resettingCurl_write (client : HttpfsClient) (path chunk : Bytes) (offset : Int) :
    resettingCurl.easyPerform (writeTransfer client path offset chunk) [] =
      (.received 200 [] [(Value.object (writtenMembers chunk.length
        (sparseMd5 chunk offset))).text], chunk) := by
  unfold writeTransfer
  generalize sparseMd5 chunk offset = digest
  have parsed : (HTTPFS_CONTENT_MD5_HEADER ++ ascii ": " ++ digest).drop
      (HTTPFS_CONTENT_MD5_HEADER.length + 2) = digest :=
    List.drop_left' (by simp [ascii])
  simp only [resettingCurl, HttpRequest.headers, HttpRequest.body, List.getD_cons_succ,
    List.getD_cons_zero, parsed, if_true]

theorem failed_writeChunk {host reached : σ} {before : ClientState σ} {curl : Curl σ}
    {client : HttpfsClient} {path chunk message : Bytes} {offset : Int}
    (dependable : Dependable curl host)
    (fits : (client.baseUrl ++ writeEndpoint offset (percentEncode path)).length < 1024)
    (notNegative : 0 ≤ offset)
    (performed : curl.easyPerform (writeTransfer client path offset chunk) host =
      (.failed message, reached)) :
    Triple (Reached before host) (writeChunk curl client path offset chunk)
      (fun _ _ => False)
      (fun after => ∃ state, Reached before reached state ∧
        after = reported Errno.EIO message state) := by
  have digest : httpfsSparseMd5Hex chunk offset = some (sparseMd5 chunk offset) := by
    rw [httpfsSparseMd5Hex, if_neg (Int.not_lt.mpr notNegative)]
  have short : (writeEndpoint offset (percentEncode path)).length < 1024 := by
    rw [List.length_append] at fits
    omega
  unfold writeChunk
  apply triple_bind_value (succeeds_buildEndpoint dependable short).triple
  apply triple_bind_value succeeds_obtainOr.triple
  rw [digest]
  apply triple_bind_value succeeds_obtainOr.triple
  have requested : Triple (Reached before host)
      (httpRequestEx curl client .post (writeEndpoint offset (percentEncode path))
        (some chunk) (some (ascii "application/octet-stream"))
        (some (sparseMd5 chunk offset)))
      (fun _ _ => False)
      (fun after => ∃ state, Reached before reached state ∧
        after = reported Errno.EIO message state) := by
    unfold httpRequestEx
    apply triple_bind (succeeds_require (decide_eq_true fits)).triple
    intro _
    apply triple_bind_value (succeeds_ask dependable.easyInit).triple
    apply triple_bind (succeeds_require rfl).triple
    intro _
    rw [requestFor_write]
    apply triple_bind_value succeeds_passOn.triple
    have perform : Succeeds (Reached before host)
        (easyPerform curl (writeTransfer client path offset chunk))
        (fun outcome after => outcome = .failed message ∧ Reached before reached after) := by
      apply triple_call
      rintro state ⟨exchanges, tokenRuns, rfl⟩
      simp only [performed]
      exact ⟨trivial, _, _, rfl⟩
    apply triple_bind_value perform.triple
    exact triple_raise fun state arrived => ⟨state, arrived, rfl⟩
  have stopped : ∀ statusMessage, Triple (Reached before host)
      (requestOk curl client .post (writeEndpoint offset (percentEncode path)) (some chunk)
        (some (ascii "application/octet-stream")) (some (sparseMd5 chunk offset))
        statusMessage 256)
      (fun _ _ => False)
      (fun after => ∃ state, Reached before reached state ∧
        after = reported Errno.EIO message state) := by
    intro statusMessage
    apply triple_bind requested
    exact fun _ _ impossible => False.elim impossible
  apply triple_bind (stopped _)
  exact fun _ _ impossible => False.elim impossible

theorem httpfsWriteFile_resetting {buffer : Bytes}
    (second : HTTPFS_WRITE_CHUNK_SIZE < buffer.length)
    (last : buffer.length ≤ 2 * HTTPFS_WRITE_CHUNK_SIZE) :
    Triple (fun state => state = .start [] [])
      (httpfsWriteFile resettingCurl localClient (ascii "/a") 0 buffer)
      (fun _ _ => False)
      (fun after => ∃ state, Reached (.start [] []) (chunkOf buffer 0) state ∧
        after = reported Errno.EIO (ascii "Connection reset by peer") state) := by
  have stored : chunkOf buffer 0 ≠ [] := by
    intro empty
    have length := length_chunkOf buffer 0
    rw [empty, List.length_nil] at length
    have positive : 0 < HTTPFS_WRITE_CHUNK_SIZE := by decide
    generalize HTTPFS_WRITE_CHUNK_SIZE = chunkSize at *
    omega
  have fits : ∀ k, k ≤ 1 → (localClient.baseUrl ++ writeEndpoint (writeOffset 0 k)
      (percentEncode (ascii "/a"))).length < 1024 := by
    intro k two
    interval_cases k <;> decide +kernel
  have bound : ((chunkOf buffer 0).length : Int) ≤ longMax := by
    have length := length_chunkOf buffer 0
    have small : (HTTPFS_WRITE_CHUNK_SIZE : Int) ≤ longMax := by decide
    generalize HTTPFS_WRITE_CHUNK_SIZE = chunkSize at *
    omega
  have rule := @httpfsWriteFile_rule Bytes resettingCurl localClient (ascii "/a") buffer 0
    (fun state => state = .start [] [])
    (fun k state => (k = 0 ∧ Reached (.start [] []) [] state) ∨
      (k = 1 ∧ Reached (.start [] []) (chunkOf buffer 0) state))
    (fun after => ∃ state, Reached (.start [] []) (chunkOf buffer 0) state ∧
      after = reported Errno.EIO (ascii "Connection reset by peer") state) ?_ ?_
  · refine triple_consequence rule (fun _ start => start) ?_ fun _ failed => failed
    rintro _ after ⟨count, state, beyond, ⟨rfl, _⟩ | ⟨rfl, _⟩, _⟩
    all_goals
      generalize HTTPFS_WRITE_CHUNK_SIZE = chunkSize at second beyond
      omega
  · rintro state rfl
    exact .inl ⟨rfl, Reached.refl _⟩
  · intro k inside
    have two : k = 0 ∨ k = 1 := by
      have bound : k * HTTPFS_WRITE_CHUNK_SIZE < 2 * HTTPFS_WRITE_CHUNK_SIZE :=
        Nat.lt_of_lt_of_le inside last
      have below := Nat.lt_of_mul_lt_mul_right bound
      omega
    obtain rfl | rfl := two
    · have turn := @succeeds_writeChunk Bytes [] _ (.start [] []) _ _
        (dependable_resettingCurl _) (dependable_resettingCurl _) _ _ _ _ _
        (fits 0 (by omega)) (by decide) bound
        (resettingCurl_write localClient (ascii "/a") (chunkOf buffer 0) (writeOffset 0 0))
        List.flatten_singleton
      refine triple_consequence turn ?_ (fun _ _ arrived => .inr ⟨rfl, arrived⟩)
        fun _ failed => failed.elim
      rintro state (⟨_, start⟩ | ⟨impossible, _⟩)
      · exact start
      · contradiction
    · have turn := @failed_writeChunk Bytes _ _ (.start [] []) _ _ _ (chunkOf buffer 1) _ _
        (dependable_resettingCurl _) (fits 1 (by omega)) (by decide) (if_neg stored)
      refine triple_consequence turn ?_ (fun _ _ impossible => False.elim impossible)
        fun _ failed => failed
      rintro state (⟨impossible, _⟩ | ⟨_, start⟩)
      · contradiction
      · exact start

theorem httpfsWrite_resetting {buffer : Bytes}
    (second : HTTPFS_WRITE_CHUNK_SIZE < buffer.length)
    (last : buffer.length ≤ 2 * HTTPFS_WRITE_CHUNK_SIZE) :
    let call := httpfsWrite resettingCurl localClient [] (ascii "/a") buffer 0
    call.value = some (-Errno.EIO) ∧ call.state.transferred = 0 ∧
      call.state.host = chunkOf buffer 0 := by
  have run := httpfsWriteFile_resetting second last _ rfl
  cases ended : httpfsWriteFile resettingCurl localClient (ascii "/a") 0 buffer
      (.start [] []) with
  | mk result after =>
      rw [ended] at run
      cases result with
      | some => exact run.elim
      | none =>
          obtain ⟨state, ⟨exchanges, tokenRuns, rfl⟩, rfl⟩ := run
          simp only [httpfsWrite, fuseCall, ended]
          have shown : negateInt32 (toInt32 Errno.EIO) = some (-Errno.EIO) := by decide
          exact ⟨shown, rfl, rfl⟩

/-- The second request of a write fails: the caller learns of an error, but the first
chunk is stored. -/
theorem interrupted_write_changes_file :
    let buf := List.replicate (HTTPFS_WRITE_CHUNK_SIZE + 1) 0
    let call := httpfsWrite resettingCurl localClient [] (ascii "/a") buf 0
    call.value = some (-Errno.EIO) ∧ call.state.transferred = 0 ∧
      call.state.host = List.replicate HTTPFS_WRITE_CHUNK_SIZE 0 := by
  intro buf
  have length : buf.length = HTTPFS_WRITE_CHUNK_SIZE + 1 := List.length_replicate
  have positive : 0 < HTTPFS_WRITE_CHUNK_SIZE := by decide
  have first : chunkOf buf 0 = List.replicate HTTPFS_WRITE_CHUNK_SIZE 0 := by
    rw [chunkOf, Nat.zero_mul, List.drop_zero, Nat.sub_zero, length,
      Nat.min_eq_right (Nat.le_succ _), List.take_replicate,
      Nat.min_eq_left (Nat.le_succ _)]
  rw [← first]
  exact httpfsWrite_resetting (by omega) (by omega)

end HttpFs
