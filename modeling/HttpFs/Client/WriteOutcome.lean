import HttpFs.Client.WriteEffects
import HttpFs.Foundation.Region
import HttpFs.Fuse.Operations

namespace HttpFs

open Routine ClientM Region

variable {σ : Type}

/-- The transfer of one turn of `httpfs_write_file`; the path is written as the library
has escaped it. -/
def Sends (client : HttpfsClient) (offset : Int) (chunk : Bytes) (exchange : Exchange) :
    Prop :=
  ∃ escapedPath digest, httpfsSparseMd5Hex chunk offset = some digest ∧
    Asks client .post (writeEndpoint offset escapedPath) (some chunk)
      (some (ascii "application/octet-stream")) (some digest) exchange

/-- The reply says that the chunk is stored: it is an `ok` reply with the length of the
chunk and its digest. -/
def Acknowledges (offset : Int) (chunk : Bytes) (exchange : Exchange) : Prop :=
  ∃ reply tokens digest, exchange.outcome.reply = some reply ∧ reply.statusCode = 200 ∧
    parseOkResponse (cString reply.response) = .ok tokens ∧
    httpfsSparseMd5Hex chunk offset = some digest ∧
    (findToken (cString reply.response) tokens 0 (ascii "bytes_written")).bind
      (tokenLong? (cString reply.response)) = some (chunk.length : Int) ∧
    (findToken (cString reply.response) tokens 0 (ascii "content_md5")).bind
      (tokenToString (cString reply.response) · 33) = some digest

def Exchanged (before : ClientState σ) (added : List Exchange) (after : ClientState σ) :
    Prop :=
  after.exchanges = before.exchanges ++ added ∧ after.transferred = before.transferred

/-- The exchange of a turn that ends in an error, if it comes to one. -/
def ChunkRefused (client : HttpfsClient) (offset : Int) (chunk : Bytes)
    (before after : ClientState σ) : Prop :=
  ∃ added, added.length ≤ 1 ∧
    (∀ exchange ∈ added, Sends client offset chunk exchange ∧
      ¬ Acknowledges offset chunk exchange) ∧
    Exchanged before added after

theorem Unparsed.unacknowledged {exchange : Exchange} (unparsed : Unparsed exchange)
    (offset : Int) (chunk : Bytes) : ¬ Acknowledges offset chunk exchange := by
  rintro ⟨reply, tokens, digest, outcome, isOk, parsed, _⟩
  obtain status | empty := unparsed reply outcome
  · exact status isOk
  · rw [empty] at parsed
    exact absurd parsed (by simp [show parseOkResponse (cString []) = .error _ from rfl])

theorem httpfsSparseMd5Hex_valid {chunk digest : Bytes} {offset : Int}
    (computed : httpfsSparseMd5Hex chunk offset = some digest) :
    httpfsIsValidMd5Hex digest = true := by
  rw [httpfsSparseMd5Hex] at computed
  split at computed
  · contradiction
  · rw [← Option.some.inj computed]
    exact httpfsIsValidMd5Hex_sparseMd5 chunk offset

theorem acceptWritten_effect {offset : Int} {chunk digest : Bytes} {exchange : Exchange}
    {reply : HttpResponse} {tokens : List JsmnToken}
    (computed : httpfsSparseMd5Hex chunk offset = some digest)
    (outcome : exchange.outcome.reply = some reply) (isOk : reply.statusCode = 200)
    (parsed : parseOkResponse (cString reply.response) = .ok tokens)
    {inv : ClientState σ → Prop} {failed : ClientState σ → Prop}
    (refused : ¬ Acknowledges offset chunk exchange → ∀ errnoValue message state, inv state →
      failed (reported errnoValue message state)) :
    Triple inv (acceptWritten ⟨cString reply.response, tokens⟩ digest chunk.length)
      (fun _ state => Acknowledges offset chunk exchange ∧ inv state) failed := by
  have only : Acknowledges offset chunk exchange →
      (findToken (cString reply.response) tokens 0 (ascii "bytes_written")).bind
        (tokenLong? (cString reply.response)) = some (chunk.length : Int) ∧
      (findToken (cString reply.response) tokens 0 (ascii "content_md5")).bind
        (tokenToString (cString reply.response) · 33) = some digest := by
    rintro ⟨found, foundTokens, foundDigest, isFound, _, isTokens, isDigest, rest⟩
    obtain rfl : reply = found := Option.some.inj (outcome.symm.trans isFound)
    obtain rfl : tokens = foundTokens := Except.ok.inj (parsed.symm.trans isTokens)
    obtain rfl : digest = foundDigest := Option.some.inj (computed.symm.trans isDigest)
    exact rest
  unfold acceptWritten
  have counted : Triple inv
      (obtainOr Errno.EIO (ascii "Write response is missing bytes_written")
        ((findToken (cString reply.response) tokens 0 (ascii "bytes_written")).bind
          (tokenLong? (cString reply.response))))
      (fun count state =>
        (findToken (cString reply.response) tokens 0 (ascii "bytes_written")).bind
          (tokenLong? (cString reply.response)) = some count ∧ inv state) failed :=
    triple_obtainOr (fun count found state holds => ⟨found, holds⟩)
      fun missing state holds =>
        refused (fun acknowledged => by simp [(only acknowledged).1] at missing) _ _ _ holds
  apply triple_bind counted
  intro serverBytesWritten
  apply triple_assuming
  intro isCount
  have digested : Triple inv
      (obtainOr Errno.EIO (ascii "Write response is missing a valid content MD5")
        (((findToken (cString reply.response) tokens 0 (ascii "content_md5")).bind
          (tokenToString (cString reply.response) · 33)).filter httpfsIsValidMd5Hex))
      (fun found state =>
        (findToken (cString reply.response) tokens 0 (ascii "content_md5")).bind
          (tokenToString (cString reply.response) · 33) = some found ∧ inv state) failed :=
    triple_obtainOr (fun found isFound state holds =>
        ⟨(Option.filter_eq_some_iff.mp isFound).1, holds⟩)
      fun missing state holds =>
        refused (fun acknowledged => by
          have valid := httpfsSparseMd5Hex_valid computed
          simp [(only acknowledged).2, valid] at missing) _ _ _ holds
  apply triple_bind digested
  intro responseMd5
  apply triple_assuming
  intro isDigest
  have sized : Triple inv
      (require (serverBytesWritten = chunk.length) Errno.EIO
        (ascii "Write response returned an invalid bytes_written value"))
      (fun _ state => serverBytesWritten = chunk.length ∧ inv state) failed :=
    triple_require (fun equal state holds => ⟨by simpa using equal, holds⟩)
      fun differ state holds =>
        refused (fun acknowledged => by
          have same := Option.some.inj (isCount.symm.trans (only acknowledged).1)
          simp [same] at differ) _ _ _ holds
  apply triple_bind sized
  intro _
  apply triple_assuming
  intro sameCount
  apply triple_require
  · intro equal state holds
    have sameDigest : digest = responseMd5 := by simpa using equal
    exact ⟨⟨reply, tokens, digest, outcome, isOk, parsed, computed, by rw [isCount, sameCount],
      by rw [isDigest, sameDigest]⟩, holds⟩
  · intro differ state holds
    refine refused (fun acknowledged => ?_) _ _ _ holds
    have same := Option.some.inj (isDigest.symm.trans (only acknowledged).2)
    simp [same] at differ

theorem ChunkRefused.of_quiet {client : HttpfsClient} {offset : Int} {chunk : Bytes}
    {before after : ClientState σ} (same : HostOnly before after) (errnoValue : Int)
    (message : Bytes) :
    ChunkRefused client offset chunk before (reported errnoValue message after) := by
  obtain ⟨host, rfl⟩ := same
  exact ⟨[], by simp, by simp, by simp [Exchanged, reported]⟩

/-- All that one turn of a write can do. -/
theorem writeChunk_effect (curl : Curl σ) (client : HttpfsClient) (path : Bytes)
    (offset : Int) (chunk : Bytes) (before : ClientState σ) :
    Triple (HostOnly before) (writeChunk curl client path offset chunk)
      (fun _ after => ∃ exchange, Sends client offset chunk exchange ∧
        Acknowledges offset chunk exchange ∧ Exchanged before [exchange] after)
      (ChunkRefused client offset chunk before) := by
  unfold writeChunk
  apply triple_bind triple_buildEndpoint
  intro endpoint
  have isEndpoint : Triple
      (fun after => HostOnly before after ∧
        ∀ text, endpoint = some text → ∃ escapedPath, text = writeEndpoint offset escapedPath)
      (obtainOr Errno.ENAMETOOLONG (ascii "Failed to build write request") endpoint)
      (fun text after => (∃ escapedPath, text = writeEndpoint offset escapedPath) ∧
        HostOnly before after)
      (ChunkRefused client offset chunk before) :=
    triple_obtainOr (fun text built _ reached => ⟨reached.2 text built, reached.1⟩)
      fun _ _ reached => ChunkRefused.of_quiet reached.1 _ _
  apply triple_bind isEndpoint
  intro endpoint
  apply triple_assuming
  rintro ⟨escapedPath, rfl⟩
  have digested : Triple (HostOnly before)
      (obtainOr Errno.EIO (ascii "Failed to compute write content MD5")
        (httpfsSparseMd5Hex chunk offset))
      (fun digest after => httpfsSparseMd5Hex chunk offset = some digest ∧
        HostOnly before after)
      (ChunkRefused client offset chunk before) :=
    triple_obtainOr (fun digest computed _ same => ⟨computed, same⟩)
      fun _ _ same => ChunkRefused.of_quiet same _ _
  apply triple_bind digested
  intro digest
  apply triple_assuming
  intro computed
  have sends : ∀ exchange, Asks client .post (writeEndpoint offset escapedPath) (some chunk)
      (some (ascii "application/octet-stream")) (some digest) exchange →
      Sends client offset chunk exchange :=
    fun exchange asks => ⟨escapedPath, digest, computed, asks⟩
  have asked := requestOk_asks curl client .post (writeEndpoint offset escapedPath)
    (some chunk) (some (ascii "application/octet-stream")) (some digest)
    (ascii "Write request returned a non-200 status") 256 before
  generalize Asks client .post (writeEndpoint offset escapedPath) (some chunk)
    (some (ascii "application/octet-stream")) (some digest) = asks at asked sends
  apply triple_bind (triple_failed asked ?_)
  · rintro ⟨json, tokens⟩
    apply triple_assuming
    intro parsed state reached
    obtain ⟨exchange, reply, asked, outcome, isOk, rfl, host, rfl⟩ := reached
    have accepted := @acceptWritten_effect σ offset chunk digest exchange reply tokens
      computed outcome isOk parsed
      (fun after => Exchanged before [exchange] after)
      (ChunkRefused client offset chunk before) ?_
    · refine triple_consequence accepted (fun _ start => start) ?_ (fun _ failed => failed)
        _ ⟨rfl, rfl⟩
      exact fun _ after done => ⟨exchange, sends exchange asked, done.1, done.2⟩
    · intro refused errnoValue message after exchanged
      refine ⟨[exchange], by simp, ?_, exchanged⟩
      simpa using ⟨sends exchange asked, refused⟩
  · rintro after (gaveUp | ⟨json, error, state, rejected, parsed, rfl⟩)
    · obtain ⟨errnoValue, message, added, _, single, unread, host, rfl⟩ := gaveUp
      refine ⟨added, single, fun exchange member => ?_, rfl, rfl⟩
      obtain ⟨asked, unparsed⟩ := unread exchange member
      exact ⟨sends exchange asked, unparsed.unacknowledged offset chunk⟩
    · obtain ⟨exchange, reply, asked, outcome, isOk, rfl, host, rfl⟩ := parsed
      refine ⟨[exchange], by simp, ?_, rfl, rfl⟩
      simp only [List.mem_singleton, forall_eq]
      refine ⟨sends exchange asked, ?_⟩
      rintro ⟨found, tokens, _, isFound, _, ok, _⟩
      obtain rfl : reply = found := Option.some.inj (outcome.symm.trans isFound)
      rw [rejected] at ok
      contradiction

/-- The exchanges of the first turns of a write, each of which was acknowledged. -/
def StoredChunks (client : HttpfsClient) (offset : Int) (buffer : Bytes)
    (acknowledged : List Exchange) : Prop :=
  ∀ k exchange, acknowledged[k]? = some exchange →
    k * HTTPFS_WRITE_CHUNK_SIZE < buffer.length ∧
      Sends client (writeOffset offset k) (chunkOf buffer k) exchange ∧
      Acknowledges (writeOffset offset k) (chunkOf buffer k) exchange

theorem StoredChunks.next {client : HttpfsClient} {offset : Int} {buffer : Bytes}
    {acknowledged : List Exchange} {exchange : Exchange}
    (stored : StoredChunks client offset buffer acknowledged)
    (inside : acknowledged.length * HTTPFS_WRITE_CHUNK_SIZE < buffer.length)
    (sends : Sends client (writeOffset offset acknowledged.length)
      (chunkOf buffer acknowledged.length) exchange)
    (isAcknowledged : Acknowledges (writeOffset offset acknowledged.length)
      (chunkOf buffer acknowledged.length) exchange) :
    StoredChunks client offset buffer (acknowledged ++ [exchange]) := by
  intro k found isFound
  obtain isEarlier | ⟨rfl, rfl⟩ := getElem?_append_singleton isFound
  · exact stored k found isEarlier
  · exact ⟨inside, sends, isAcknowledged⟩

def WriteDone (client : HttpfsClient) (offset : Int) (buffer : Bytes)
    (acknowledged : List Exchange) (before after : ClientState σ) : Prop :=
  after.exchanges = before.exchanges ++ acknowledged ∧
    StoredChunks client offset buffer acknowledged ∧
    buffer.length ≤ acknowledged.length * HTTPFS_WRITE_CHUNK_SIZE ∧
    after.transferred = buffer.length

def WriteStopped (client : HttpfsClient) (offset : Int) (buffer : Bytes)
    (acknowledged refused : List Exchange) (before after : ClientState σ) : Prop :=
  after.exchanges = before.exchanges ++ acknowledged ++ refused ∧
    StoredChunks client offset buffer acknowledged ∧
    acknowledged.length * HTTPFS_WRITE_CHUNK_SIZE < buffer.length ∧
    refused.length ≤ 1 ∧
    (∀ exchange ∈ refused,
      Sends client (writeOffset offset acknowledged.length)
        (chunkOf buffer acknowledged.length) exchange ∧
      ¬ Acknowledges (writeOffset offset acknowledged.length)
        (chunkOf buffer acknowledged.length) exchange) ∧
    after.transferred = 0

theorem httpfsWriteFile_effect (curl : Curl σ) (client : HttpfsClient) (path : Bytes)
    (offset : Int) (buffer : Bytes) (before : ClientState σ) :
    Triple (fun state => state = before) (httpfsWriteFile curl client path offset buffer)
      (fun _ after => ∃ acknowledged,
        WriteDone client offset buffer acknowledged before after)
      (fun after => ∃ acknowledged refused,
        WriteStopped client offset buffer acknowledged refused before after) := by
  have rule := @httpfsWriteFile_rule σ curl client path buffer offset
    (fun state => state = before)
    (fun k state => ∃ acknowledged, acknowledged.length = k ∧
      state.exchanges = before.exchanges ++ acknowledged ∧
      StoredChunks client offset buffer acknowledged ∧ state.transferred = 0)
    (fun after => ∃ acknowledged refused,
      WriteStopped client offset buffer acknowledged refused before after) ?_ ?_
  · refine triple_consequence rule (fun _ start => start) ?_ fun _ failed => failed
    rintro _ after ⟨count, state, beyond, ⟨acknowledged, rfl, exchanges, stored, _⟩, rfl⟩
    exact ⟨acknowledged, exchanges, stored, beyond, rfl⟩
  · rintro state rfl
    exact ⟨[], rfl, by simp, by simp [StoredChunks], rfl⟩
  · rintro k inside state ⟨acknowledged, rfl, exchanges, stored, transferred⟩
    refine triple_consequence
      (writeChunk_effect curl client path (writeOffset offset acknowledged.length)
        (chunkOf buffer acknowledged.length) state)
      (fun _ start => start) ?_ ?_ state (HostOnly.refl state)
    · rintro _ after ⟨exchange, sends, isAcknowledged, added, same⟩
      refine ⟨acknowledged ++ [exchange], by simp, ?_, stored.next inside sends isAcknowledged,
        same.trans transferred⟩
      rw [added, exchanges, List.append_assoc]
    · rintro after ⟨refused, single, unacknowledged, added, same⟩
      refine ⟨acknowledged, refused, ?_, stored, inside, single, unacknowledged,
        same.trans transferred⟩
      rw [added, exchanges]

end HttpFs
