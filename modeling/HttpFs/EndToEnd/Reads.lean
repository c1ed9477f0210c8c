import HttpFs.Client.AnyServer
import HttpFs.EndToEnd.Replies
import HttpFs.EndToEnd.Serving

namespace HttpFs

open Routine ClientM CProvider Region

variable {κ : Type}

theorem acceptChunk_binary {buffer : Bytes} {offset : Int} {chunkSize : Nat}
    (notNegative : 0 ≤ offset) (fits : buffer.length ≤ chunkSize) :
    acceptChunk (sendBinary buffer (sparseMd5 buffer offset)).received offset chunkSize =
      .ok buffer := by
  have valid := httpfsIsValidMd5Hex_sparseMd5 buffer offset
  have notJson : isContentTypeJson (ascii "application/octet-stream") = false := by decide
  have isBinary : isContentTypeOctetStream (ascii "application/octet-stream") = true := by
    decide
  rw [received_sendBinary valid]
  simp [acceptChunk, notJson, isBinary, valid, httpfsSparseMd5Hex,
    Int.not_lt.mpr notNegative, Nat.not_lt.mpr fits]

theorem acceptChunk_json (body : Bytes) (offset : Int) (chunkSize : Nat) :
    ∃ error, acceptChunk (sendJson 200 body).received offset chunkSize = .error error := by
  have isJson : isContentTypeJson (ascii "application/json; charset=utf-8") = true := by
    decide
  rw [received_sendJson]
  simp only [acceptChunk, ne_eq, not_true_eq_false, if_false, isJson, if_true]
  cases parseErrorResponse (cString body) with
  | ok => exact ⟨_, rfl⟩
  | error error => exact ⟨error, rfl⟩

def Stored {σ : Type} (before : ClientState σ) (host : σ) (start : Nat) (response : Bytes)
    (after : ClientState σ) : Prop :=
  Reached (storedAt start response before) host after

theorem once_eq {ε : Type} (limit : Nat) (returns : List (FullTransfer.Return ε)) :
    (FullTransfer.once limit returns).2 = returns.tail ∧
      ∀ n, (FullTransfer.once limit returns).1 = .ok n → n ≤ limit := by
  cases returns with
  | nil => simp [FullTransfer.once]
  | cons first rest =>
      cases first with
      | count n =>
          simp only [FullTransfer.once, List.tail_cons, Except.ok.injEq, true_and]
          omega
      | failed error => simp [FullTransfer.once]

theorem pread_ok {host after : Host κ} {file size offset : Nat} {buffer : Bytes}
    (read : host.pread file size offset = (.ok buffer, after)) :
    (FullTransfer.once (host.available file size offset) host.preads).1 = .ok buffer.length ∧
      buffer = slice (host.contents file) offset buffer.length ∧
      buffer.length ≤ size ∧ after = { host with preads := host.preads.tail } := by
  simp only [Host.pread, Prod.mk.injEq] at read
  obtain ⟨moved, rfl⟩ := read
  obtain ⟨rest, bound⟩ := once_eq (host.available file size offset) host.preads
  cases result : (FullTransfer.once (host.available file size offset) host.preads).1 with
  | error error => simp [result, Except.map] at moved
  | ok n =>
      have fits := bound n result
      simp only [Host.available] at fits
      simp only [result, Except.map, Except.ok.injEq] at moved
      have length : buffer.length = n := by
        rw [← moved, length_slice]
        omega
      rw [length]
      exact ⟨rfl, moved.symm, by omega, by rw [rest]⟩

theorem pread_error {host after : Host κ} {file size offset : Nat} {errnoValue : Int}
    (read : host.pread file size offset = (.error errnoValue, after)) :
    (FullTransfer.once (host.available file size offset) host.preads).1 =
      .error errnoValue := by
  simp only [Host.pread, Prod.mk.injEq] at read
  cases result : (FullTransfer.once (host.available file size offset) host.preads).1 with
  | error error => simpa [result, Except.map] using read.1
  | ok n => simp [result, Except.map] at read

/-- One turn of a read from a file the provider serves. -/
theorem readChunk_served {kernel : Kernel κ} {rootDir path : Bytes} {client : HttpfsClient}
    {curl : Curl (Host κ)} (faithful : FaithfulTransport kernel rootDir client.baseUrl curl)
    {offset : Int} {totalRead chunkSize file : Nat} {before : ClientState (Host κ)}
    (served : Opens kernel .readOnly rootDir path file before.host.names)
    (calm : before.host.mallocs = [])
    (fits : (client.baseUrl ++ readEndpoint (offset + totalRead) chunkSize
      (percentEncode path)).length < 1024)
    (notNegative : 0 ≤ offset) (offsetBound : offset + totalRead ≤ longMax)
    (sizeBound : (chunkSize : Int) ≤ longMax) :
    Triple (fun state => state = before)
      (readChunk curl client path offset totalRead chunkSize)
      (fun response after =>
        (before.host.pread file chunkSize (offset + totalRead).toNat).1 = .ok response ∧
          Stored before (before.host.pread file chunkSize (offset + totalRead).toNat).2
            totalRead response after)
      (fun _ => ∃ errnoValue,
        (before.host.pread file chunkSize (offset + totalRead).toNat).1 =
          .error errnoValue) := by
  have short : (readEndpoint (offset + totalRead) chunkSize (percentEncode path)).length <
      1024 := by
    rw [List.length_append] at fits
    omega
  have asked : ∀ reply host, readReply kernel (offset + totalRead)
      (before.host.pread file chunkSize (offset + totalRead).toNat) = (reply, host) →
      Succeeds (Reached before before.host)
        (httpRequestEx curl client .get
          (readEndpoint (offset + totalRead) chunkSize (percentEncode path)) none none none)
        (fun response after => response = reply.received ∧ Reached before host after) := by
    intro reply host answer
    apply @succeeds_httpRequestEx _ _ _ _ _ faithful _ _ _ _ _
      ⟨client.baseUrl ++ readEndpoint (offset + totalRead) chunkSize (percentEncode path),
        client.timeoutMs, client.verbose, none⟩ _ _ _ fits rfl (by simp [Sendable,
          HttpRequest.headers])
    intro lines carries
    rw [← answer]
    exact processRequestBuffer_read served calm rfl carries short (by omega) offsetBound
      sizeBound
  unfold readChunk
  have built := @succeeds_buildEndpoint _ before.host before curl
    (faithful.dependable before.host) path _ _ short
  apply triple_bind (triple_consequence built (by
    rintro state rfl
    exact Reached.refl _) (fun _ _ reached => reached) fun _ impossible => impossible.elim)
  intro endpoint
  apply triple_assuming
  rintro rfl
  apply triple_bind_value succeeds_obtainOr.triple
  cases read : before.host.pread file chunkSize (offset + totalRead).toNat with
  | mk result host =>
      cases result with
      | error errnoValue =>
          apply triple_bind_value (asked _ _ (by rw [read, readReply])).triple
          obtain ⟨error, rejected⟩ : ∃ error, acceptChunk (sendErrno kernel errnoValue).received
              (offset + totalRead) chunkSize = .error error :=
            acceptChunk_json _ _ _
          rw [rejected]
          have refused : Triple (Reached before host) (passOn (.error error) : ClientM _ Bytes)
              (fun _ _ => False) (fun _ => ∃ found, (Except.error errnoValue :
                Except Int Bytes) = .error found) :=
            triple_raise fun _ _ => ⟨errnoValue, rfl⟩
          apply triple_bind refused
          exact fun _ _ impossible => impossible.elim
      | ok buffer =>
          have length : buffer.length ≤ chunkSize := (pread_ok read).2.2.1
          apply triple_bind_value (asked _ _ (by rw [read, readReply])).triple
          rw [acceptChunk_binary (by omega) length]
          apply triple_bind succeeds_passOn.triple
          intro response
          apply triple_assuming
          intro isResponse
          subst response
          rintro state ⟨exchanges, tokenRuns, rfl⟩
          by_cases content : buffer.length > 0
          · rw [if_pos content]
            refine ⟨rfl, ?_⟩
            rw [Stored, storedAt, if_pos content]
            exact ⟨_, _, rfl⟩
          · rw [if_neg content]
            refine ⟨rfl, ?_⟩
            rw [Stored, storedAt, if_neg content]
            exact ⟨_, _, rfl⟩

/-! How far a read gets. The `k`-th `pread` of a read of `size` bytes from `offset` can
deliver `chunkLimit` bytes of a file of `length` bytes, and delivers `delivered`. -/

def chunkLimit (length offset size k : Nat) : Nat :=
  min (chunkAt size k) (length - (offset + k * HTTPFS_READ_CHUNK_SIZE))

def delivered (length offset size : Nat) (preads : List SysReturn) (k : Nat) :
    Except Int Nat :=
  (FullTransfer.once (chunkLimit length offset size k) (preads.drop k)).1

def FullBefore (length offset size : Nat) (preads : List SysReturn) (k : Nat) : Prop :=
  ∀ j, j < k → j * HTTPFS_READ_CHUNK_SIZE < size ∧
    delivered length offset size preads j = .ok (chunkAt size j)

/-- A read that returns 0 has read `total` bytes: all it was asked for, or up to the
first short body. -/
inductive ReadTotal (length offset size : Nat) (preads : List SysReturn) (total : Nat) :
    Prop
  | complete
      (full : ∀ j, j * HTTPFS_READ_CHUNK_SIZE < size →
        delivered length offset size preads j = .ok (chunkAt size j))
      (isTotal : total = size)
  | short (k n : Nat) (full : FullBefore length offset size preads k)
      (inside : k * HTTPFS_READ_CHUNK_SIZE < size)
      (last : delivered length offset size preads k = .ok n) (isShort : n < chunkAt size k)
      (isTotal : total = k * HTTPFS_READ_CHUNK_SIZE + n)

def ReadFails (length offset size : Nat) (preads : List SysReturn) : Prop :=
  ∃ k errnoValue, FullBefore length offset size preads k ∧
    k * HTTPFS_READ_CHUNK_SIZE < size ∧
    delivered length offset size preads k = .error errnoValue

/-- The loop of a read that has started on the machine `origin`. -/
structure ReadSoFar (origin : Host κ) (file offset size : Nat) (totalRead : Nat)
    (state : ClientState (Host κ)) (k : Nat) : Prop where
  total : totalRead = min size (k * HTTPFS_READ_CHUNK_SIZE)
  host : state.host = { origin with preads := origin.preads.drop k }
  full : FullBefore (origin.contents file).length offset size origin.preads k
  length : state.buffer.length = size
  contents : state.buffer.take totalRead = slice (origin.contents file) offset totalRead

/-- What a caller has after a read that returns 0. -/
structure ReadResult (origin : Host κ) (file offset size : Nat) (totalRead : Nat)
    (state : ClientState (Host κ)) : Prop where
  host : ∃ k, state.host = { origin with preads := origin.preads.drop k }
  total : ReadTotal (origin.contents file).length offset size origin.preads totalRead
  contents : state.buffer.take totalRead = slice (origin.contents file) offset totalRead

theorem ReadSoFar.position {origin : Host κ} {file offset size totalRead k : Nat}
    {state : ClientState (Host κ)}
    (reading : ReadSoFar origin file offset size totalRead state k)
    (more : totalRead < size) :
    totalRead = k * HTTPFS_READ_CHUNK_SIZE ∧
      min (size - totalRead) HTTPFS_READ_CHUNK_SIZE = chunkAt size k ∧
      state.host.available file (chunkAt size k) (offset + totalRead) =
        chunkLimit (origin.contents file).length offset size k := by
  have position : totalRead = k * HTTPFS_READ_CHUNK_SIZE := by
    have total := reading.total
    omega
  refine ⟨position, by rw [chunkAt, ← position], ?_⟩
  rw [Host.available, reading.host, chunkLimit, position]

theorem ReadSoFar.turn {origin host : Host κ} {file offset size totalRead k : Nat}
    {before after : ClientState (Host κ)} {response : Bytes}
    (reading : ReadSoFar origin file offset size totalRead before k)
    (more : totalRead < size)
    (read : before.host.pread file (chunkAt size k) (offset + totalRead) =
      (.ok response, host))
    (stored : Stored before host totalRead response after) :
    delivered (origin.contents file).length offset size origin.preads k =
        .ok response.length ∧
      response.length ≤ chunkAt size k ∧
      after.host = { origin with preads := origin.preads.drop (k + 1) } ∧
      after.buffer.length = size ∧
      after.buffer.take (totalRead + response.length) =
        slice (origin.contents file) offset (totalRead + response.length) := by
  obtain ⟨position, chunk, available⟩ := reading.position more
  obtain ⟨once, isSlice, fits, rfl⟩ := pread_ok read
  have isHost := reading.host
  obtain ⟨exchanges, tokenRuns, rfl⟩ := stored
  rw [available, isHost] at once
  rw [isHost] at isSlice
  have bound : totalRead + response.length ≤ before.buffer.length := by
    rw [reading.length]
    omega
  have joined : before.buffer.take totalRead ++ response =
      slice (origin.contents file) offset (totalRead + response.length) := by
    rw [reading.contents, ← slice_append]
    exact congrArg _ isSlice
  refine ⟨once, fits, by simp [isHost], ?_⟩
  by_cases content : response.length > 0
  · simp only [storedAt, if_pos content]
    exact ⟨(length_copyInto bound).trans reading.length, (take_copyInto bound).trans joined⟩
  · have empty : response = [] := List.eq_nil_of_length_eq_zero (by omega)
    simp only [storedAt, if_neg content]
    refine ⟨reading.length, ?_⟩
    rw [← joined, empty]
    simp

def ReadFits (client : HttpfsClient) (path : Bytes) (offset : Int) (size : Nat) : Prop :=
  ∀ k, k * HTTPFS_READ_CHUNK_SIZE < size →
    (client.baseUrl ++ readEndpoint (chunkOffset offset k) (chunkAt size k)
      (percentEncode path)).length < 1024

section Reading

variable {kernel : Kernel κ} {rootDir path : Bytes} {client : HttpfsClient}
  {curl : Curl (Host κ)} {offset : Int} {size file : Nat}

theorem readFileLoop_served (faithful : FaithfulTransport kernel rootDir client.baseUrl curl)
    {origin : Host κ} (served : Opens kernel .readOnly rootDir path file origin.names)
    (calm : origin.mallocs = []) (fits : ReadFits client path offset size)
    (notNegative : 0 ≤ offset) (bound : offset + size ≤ longMax) :
    Triple (fun state => ∃ k, ReadSoFar origin file offset.toNat size 0 state k)
      (readFileLoop curl client path offset size 0)
      (ReadResult origin file offset.toNat size)
      (fun _ => ReadFails (origin.contents file).length offset.toNat size origin.preads) := by
  refine @readFileLoop_turns _ curl client path offset size (fun totalRead state =>
    ∃ k, ReadSoFar origin file offset.toNat size totalRead state k) _ _ ?_ ?_ 0
  · rintro totalRead more before ⟨k, reading⟩
    obtain ⟨position, chunk, available⟩ := reading.position more
    have natural : (offset + totalRead).toNat = offset.toNat + totalRead := by omega
    have offsetBound : offset + totalRead ≤ longMax := by omega
    have sizeBound : (chunkAt size k : Int) ≤ longMax := by
      rw [← chunk]
      omega
    have inside : k * HTTPFS_READ_CHUNK_SIZE < size := by omega
    have fit : (client.baseUrl ++ readEndpoint (offset + totalRead) (chunkAt size k)
        (percentEncode path)).length < 1024 := by
      rw [position]
      exact fits k inside
    have isHost := reading.host
    have servedNow : Opens kernel .readOnly rootDir path file before.host.names := by
      rw [isHost]
      exact served
    have calmNow : before.host.mallocs = [] := by
      rw [isHost]
      exact calm
    have turn := readChunk_served faithful servedNow calmNow fit notNegative offsetBound
      sizeBound
    rw [natural] at turn
    rw [chunk]
    refine triple_consequence turn (fun _ start => start) ?_ ?_ before rfl
    · rintro response after ⟨ok, stored⟩
      have read : before.host.pread file (chunkAt size k) (offset.toNat + totalRead) =
          (.ok response,
            (before.host.pread file (chunkAt size k) (offset.toNat + totalRead)).2) := by
        rw [← ok]
      obtain ⟨isDelivered, within, host, length, contents⟩ := reading.turn more read stored
      split
      · next isShort =>
        refine ⟨⟨_, host⟩, .short k response.length reading.full inside isDelivered isShort
          (by omega), contents⟩
      · next isFull =>
        have isChunk : response.length = chunkAt size k := by omega
        refine ⟨k + 1, ?_, host, ?_, length, contents⟩
        · rw [← chunkAt_next inside, isChunk, position]
        · intro j before
          rcases Nat.lt_or_ge j k with earlier | last
          · exact reading.full j earlier
          · obtain rfl : j = k := by omega
            exact ⟨inside, by rw [isDelivered, isChunk]⟩
    · rintro after ⟨errnoValue, failed⟩
      have once := pread_error (Prod.ext failed rfl :
        before.host.pread file (chunkAt size k) (offset.toNat + totalRead) = (_, _))
      rw [available, isHost] at once
      exact ⟨k, errnoValue, reading.full, inside, once⟩
  · rintro totalRead state finish ⟨k, reading⟩
    have total := reading.total
    refine ⟨⟨_, reading.host⟩, .complete ?_ (by omega), reading.contents⟩
    intro j inside
    apply (reading.full j _).2
    have below : j * HTTPFS_READ_CHUNK_SIZE < k * HTTPFS_READ_CHUNK_SIZE := by omega
    exact Nat.lt_of_mul_lt_mul_right below

/-- All that can happen to a read from a file that the provider opens. -/
theorem httpfsReadFile_opened
    (faithful : FaithfulTransport kernel rootDir client.baseUrl curl)
    {before : ClientState (Host κ)}
    (served : Opens kernel .readOnly rootDir path file before.host.names)
    (calm : before.host.mallocs = []) (fits : ReadFits client path offset size)
    (notNegative : 0 ≤ offset) (bound : offset + size ≤ longMax)
    (room : before.buffer.length = size) :
    Triple (fun state => state = before) (httpfsReadFile curl client path offset size)
      (fun _ after =>
        ReadResult before.host file offset.toNat size after.transferred after)
      (fun _ => ReadFails (before.host.contents file).length offset.toNat size
        before.host.preads) := by
  unfold httpfsReadFile
  have reset : Triple (fun state => state = before) (setTransferred 0)
      (fun _ state => state = { before with transferred := 0 })
      (fun _ => ReadFails (before.host.contents file).length offset.toNat size
        before.host.preads) := by
    apply triple_modify
    rintro state rfl
    rfl
  apply triple_bind reset
  intro _
  apply triple_ite
  · intro nothing
    apply triple_pure
    rintro state rfl
    refine ⟨⟨0, rfl⟩, .complete (fun j inside => by omega) nothing.symm, ?_⟩
    simp [slice_zero]
  · intro _
    have loop := readFileLoop_served faithful served calm fits notNegative bound
    apply triple_bind (triple_consequence loop (by
      rintro state rfl
      refine ⟨0, by simp, by simp, fun j impossible => by omega, room, by simp [slice_zero]⟩)
      (fun _ _ reached => reached) fun _ failed => failed)
    intro totalRead
    apply triple_modify
    intro state reached
    exact ⟨reached.host, reached.total, reached.contents⟩

theorem httpfsReadFile_served
    (faithful : FaithfulTransport kernel rootDir client.baseUrl curl)
    {before : ClientState (Host κ)} (serves : Serves kernel rootDir path file before.host.names)
    (calm : before.host.mallocs = []) (fits : ReadFits client path offset size)
    (notNegative : 0 ≤ offset) (bound : offset + size ≤ longMax)
    (room : before.buffer.length = size) :
    Triple (fun state => state = before) (httpfsReadFile curl client path offset size)
      (fun _ after =>
        ReadResult before.host file offset.toNat size after.transferred after)
      (fun _ => ReadFails (before.host.contents file).length offset.toNat size
        before.host.preads) :=
  httpfsReadFile_opened faithful (serves.opensAs .readOnly) calm fits notNegative bound room

end Reading

end HttpFs
