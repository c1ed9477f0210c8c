import HttpFs.EndToEnd.ShortReads
import HttpFs.EndToEnd.Writes

namespace HttpFs

open Routine ClientM CProvider Region

variable {κ : Type}

theorem httpfsReadFile_filled {kernel : Kernel κ} {rootDir path : Bytes}
    {client : HttpfsClient} {curl : Curl (Host κ)} {offset : Int} {size file : Nat}
    (faithful : FaithfulTransport kernel rootDir client.baseUrl curl)
    {before : ClientState (Host κ)} (calm : Calm before.host)
    (served : Opens kernel .readOnly rootDir path file before.host.names)
    (fits : ReadFits client path offset size) (notNegative : 0 ≤ offset)
    (bound : offset + size ≤ longMax) (room : before.buffer.length = size) :
    ∃ after, httpfsReadFile curl client path offset size before = (some (), after) ∧
      after.host = before.host ∧
      after.transferred = min size ((before.host.contents file).length - offset.toNat) ∧
      after.buffer.take after.transferred =
        slice (before.host.contents file) offset.toNat size := by
  have outcome := httpfsReadFile_opened faithful served calm.mallocs fits notNegative bound
    room before rfl
  have delivers : ∀ k, delivered (before.host.contents file).length offset.toNat size
      before.host.preads k =
        .ok (chunkLimit (before.host.contents file).length offset.toNat size k) := by
    intro k
    rw [delivered_eq, calm.preads]
    rfl
  cases run : httpfsReadFile curl client path offset size before with
  | mk result after =>
      rw [run] at outcome
      cases result with
      | none =>
          obtain ⟨k, errnoValue, _, _, failed⟩ := outcome
          rw [delivers] at failed
          contradiction
      | some =>
          obtain ⟨k, isHost⟩ := outcome.host
          have total := outcome.total.whole fun k n _ isDelivered => by
            rw [delivers, Except.ok.injEq] at isDelivered
            exact isDelivered.symm
          refine ⟨after, rfl, ?_, total, ?_⟩
          · rw [isHost, calm.preads, List.drop_nil, ← calm.preads]
          · rw [outcome.contents, total, slice_within]

theorem httpfsReadFile_calm {kernel : Kernel κ} {rootDir path : Bytes}
    {client : HttpfsClient} {curl : Curl (Host κ)} {offset : Int} {size file : Nat}
    (faithful : FaithfulTransport kernel rootDir client.baseUrl curl)
    {before : ClientState (Host κ)} (calm : Calm before.host)
    (serves : Serves kernel rootDir path file before.host.names)
    (fits : ReadFits client path offset size) (notNegative : 0 ≤ offset)
    (bound : offset + size ≤ longMax) (room : before.buffer.length = size) :
    ∃ after, httpfsReadFile curl client path offset size before = (some (), after) ∧
      after.host = before.host ∧
      after.transferred = min size ((before.host.contents file).length - offset.toNat) ∧
      after.buffer.take after.transferred =
        slice (before.host.contents file) offset.toNat size :=
  httpfsReadFile_filled faithful calm (serves.opensAs .readOnly) fits notNegative bound room

/-- A write and a later read, seen as one file: the file is the old contents with the
buffer at its offset, and the read delivers what the file has of its range. An empty
buffer leaves the file alone. -/
theorem write_then_read {kernel : Kernel κ} {rootDir path : Bytes} {client : HttpfsClient}
    {curl : Curl (Host κ)} {file : Nat}
    (faithful : FaithfulTransport kernel rootDir client.baseUrl curl)
    {before : ClientState (Host κ)} (calm : Calm before.host)
    (serves : Serves kernel rootDir path file before.host.names) {offset : Int}
    {buffer : Bytes} (fits : WriteFits client path offset buffer.length)
    (notNegative : 0 ≤ offset) (bound : offset + buffer.length ≤ longMax) :
    ∃ written, httpfsWriteFile curl client path offset buffer before = (some (), written) ∧
      written.transferred = buffer.length ∧
      written.host = before.host.setContents file
        (overwrite 0 (before.host.contents file) offset.toNat buffer) ∧
      ∀ (later : ClientState (Host κ)) (offset' : Int) (size' : Nat),
        later.host = written.host → later.buffer.length = size' →
        ReadFits client path offset' size' → 0 ≤ offset' → offset' + size' ≤ longMax →
        ∃ after, httpfsReadFile curl client path offset' size' later = (some (), after) ∧
          after.host = later.host ∧
          after.transferred =
            min size' ((overwrite 0 (before.host.contents file) offset.toNat buffer).length -
              offset'.toNat) ∧
          after.buffer.take after.transferred =
            slice (overwrite 0 (before.host.contents file) offset.toNat buffer) offset'.toNat
              size' := by
  have outcome := httpfsWriteFile_served faithful calm serves fits notNegative bound before
    before rfl
  cases run : httpfsWriteFile curl client path offset buffer before with
  | mk result written =>
      rw [run] at outcome
      cases result with
      | none => exact outcome.elim
      | some =>
          obtain ⟨exchanges, tokenRuns, rfl⟩ := outcome
          refine ⟨_, rfl, rfl, rfl, ?_⟩
          intro later offset' size' isHost room readFits notNegative' bound'
          have calmLater : Calm later.host := isHost ▸ calm.setContents file _
          have servesLater : Serves kernel rootDir path file later.host.names := by
            rw [isHost]
            exact serves
          have read := httpfsReadFile_calm faithful calmLater servesLater readFits
            notNegative' bound' room
          have contents : later.host.contents file =
              overwrite 0 (before.host.contents file) offset.toNat buffer := by
            simp [isHost, Host.setContents]
          rwa [contents] at read

theorem writeFits_local : WriteFits localClient (ascii "/a") 1 2 := by
  intro k inside
  have first : k = 0 := by
    have positive : 2 ≤ HTTPFS_WRITE_CHUNK_SIZE := by decide
    refine Nat.eq_zero_of_not_pos fun later => ?_
    have multiple := Nat.le_mul_of_pos_left HTTPFS_WRITE_CHUNK_SIZE later
    omega
  subst first
  decide +kernel

theorem write_then_read_local :
    ∃ written, httpfsWriteFile localCurl localClient (ascii "/a") 1 (ascii "hi")
        (.start (.calm (ascii "abc")) []) = (some (), written) ∧
      written.transferred = 2 ∧ written.host.contents 0 = ascii "ahi" ∧
      ∃ after, httpfsReadFile localCurl localClient (ascii "/a") 0 2
          { written with buffer := [0, 0] } = (some (), after) ∧
        after.transferred = 2 ∧ after.buffer.take after.transferred = ascii "ah" := by
  have faithful := faithful_directCurl (.single (ascii "/srv/a")) (ascii "/srv")
    localClient.baseUrl
  obtain ⟨written, wrote, transferred, host, reads⟩ := 
    @write_then_read Unit _ _ (ascii "/a") _ _ 0 faithful (.start (.calm (ascii "abc")) [])
      ⟨rfl, rfl, rfl⟩ (serves_local ()) 1 (ascii "hi") writeFits_local (by decide) (by decide)
  obtain ⟨after, read, _, count, contents⟩ := reads { written with buffer := [0, 0] } 0 2 rfl
    rfl readFits_local (by decide) (by decide)
  refine ⟨written, wrote, transferred, ?_, after, read, count, ?_⟩
  · rw [host]
    rfl
  · rw [contents]
    decide

/-- An empty buffer behind the end of the file does not fill the gap. -/
theorem empty_write_leaves_gap :
    let written := httpfsWriteFile localCurl localClient (ascii "/a") 1 []
      (.start (.calm []) [])
    written.1 = some () ∧ written.2.host.contents 0 = [] ∧
      ([] : Bytes) ++ List.replicate 1 0 ≠ [] := by
  decide +kernel

end HttpFs
