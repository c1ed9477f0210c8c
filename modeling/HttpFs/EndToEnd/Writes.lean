import HttpFs.Client.OkDocuments
import HttpFs.Client.WriteEffects
import HttpFs.EndToEnd.Replies
import HttpFs.EndToEnd.WriteServing

namespace HttpFs

open Routine ClientM CProvider Region Json

variable {κ : Type}

def writtenMembers (written : Nat) (digest : Bytes) : Members :=
  .cons [] (ascii "status") [] [] (.string (ascii "ok")) []
    (.cons [] (ascii "bytes_written") [] [] (.primitive (decimal written)) []
      (.cons [] (ascii "content_md5") [] [] (.string digest) [] (.nil [])))

theorem writtenMembers_text (written : Nat) (digest : Bytes) :
    (Value.object (writtenMembers written digest)).text =
      ascii "\x7b\"status\":\"ok\",\"bytes_written\":" ++ decimal written ++
        ascii ",\"content_md5\":\"" ++ digest ++ ascii "\"\x7d" := by
  simp [Value.text, writtenMembers, Members.text, Members.separator, quoted, ascii, byte]

theorem writtenMembers_scannable (written : Nat) {digest : Bytes}
    (valid : httpfsIsValidMd5Hex digest = true) :
    Scannable (.object (writtenMembers written digest)) := by
  have body : isStringBody .plain digest = true := by
    apply isStringBody_plain
    intro c member
    have ordinary := digest_ordinary valid c member
    exact ⟨ordinary.2.2.2.1, ordinary.2.2.2.2.1⟩
  have ok : isStringBody .plain (ascii "ok") = true := by decide
  exact ⟨rfl, by decide, rfl, rfl, ok, rfl, rfl, by decide, rfl, rfl,
    isPrimitiveBody_decimal written, rfl, rfl, by decide, rfl, rfl, body, rfl, rfl⟩

theorem acceptWritten_served {σ : Type} {written : Nat} {digest : Bytes}
    {tokens : List JsmnToken}
    (valid : httpfsIsValidMd5Hex digest = true) (bound : (written : Int) ≤ longMax)
    (placed : Placed (Value.object (writtenMembers written digest)).text tokens
      (.object (writtenMembers written digest)) 0)
    {pre : ClientState σ → Prop} :
    Succeeds pre
      (acceptWritten ⟨(Value.object (writtenMembers written digest)).text, tokens⟩ digest
        written)
      (fun _ => pre) := by
  have scannable := writtenMembers_scannable written valid
  obtain ⟨countToken, countFound, countText⟩ := @findToken_some _ _ _ _
    (ascii "bytes_written") (.primitive (decimal written)) placed scannable (by rfl)
  obtain ⟨digestToken, digestFound, digestText⟩ := @findToken_some _ _ _ _
    (ascii "content_md5") (.string digest) placed scannable (by rfl)
  have count : tokenLong? (Value.object (writtenMembers written digest)).text countToken =
      some written :=
    @tokenLong?_of_text _ _ written countText (by simp only [longMin]; omega) bound
  have short : digest.length < 33 := by
    simp only [httpfsIsValidMd5Hex, Bool.and_eq_true, beq_iff_eq] at valid
    omega
  have copied : tokenToString (Value.object (writtenMembers written digest)).text digestToken
      33 = some digest :=
    tokenToString_of_text digestText short
  unfold acceptWritten
  simp only [countFound, digestFound, Option.bind_some, count, copied,
    Option.filter_some, valid, if_true]
  apply triple_bind_value succeeds_obtainOr
  apply triple_bind_value succeeds_obtainOr
  apply triple_bind (succeeds_require (decide_eq_true rfl))
  intro _
  exact succeeds_require (decide_eq_true rfl)

section Calls

variable {σ : Type} {host reached : σ} {before : ClientState σ} {client : HttpfsClient}
  {curl : Curl σ}

theorem succeeds_requestOk (dependable : Dependable curl host)
    (after : Dependable curl reached) {method : HttpMethod}
    {endpoint statusMessage : Bytes} {body contentType contentMd5 : Option Bytes}
    {request : HttpRequest} {headers chunks : List Bytes} {tokens : List JsmnToken}
    {declared : Nat} (fits : (client.baseUrl ++ endpoint).length < 1024)
    (isRequest : requestFor client method endpoint body contentType contentMd5 = .ok request)
    (performed : curl.easyPerform request host = (.received 200 headers chunks, reached))
    (noNul : 0 ∉ chunks.flatten) (parsed : parseOkResponse chunks.flatten = .ok tokens) :
    Succeeds (Reached before host)
      (requestOk curl client method endpoint body contentType contentMd5 statusMessage
        declared)
      (fun reply after => reply = ⟨chunks.flatten, tokens⟩ ∧ Reached before reached after) := by
  unfold requestOk
  apply triple_bind_value (succeeds_exchange dependable after fits isRequest performed)
  apply triple_bind (succeeds_require (decide_eq_true rfl))
  intro _
  unfold parseOkInto
  simp only [cString_of_noNul noNul, parsed]
  have logged : Succeeds (Reached before reached)
      (modify fun state => { state with
        tokenRuns := state.tokenRuns ++
          [⟨declared, (jsmnParse OK_RESPONSE_TOKENS chunks.flatten).parser.tokens.length⟩] })
      (fun _ => Reached before reached) := by
    apply triple_modify
    rintro state ⟨exchanges, tokenRuns, rfl⟩
    exact ⟨_, _, rfl⟩
  apply triple_bind_value (triple_bind logged fun _ => succeeds_passOn)
  exact triple_pure fun state start => ⟨rfl, start⟩

theorem writtenMembers_noNul (written : Nat) {digest : Bytes}
    (valid : httpfsIsValidMd5Hex digest = true) :
    0 ∉ (Value.object (writtenMembers written digest)).text := by
  rw [writtenMembers_text]
  simp only [List.mem_append, not_or]
  refine ⟨⟨⟨⟨by decide, fun zero => ?_⟩, by decide⟩, fun zero => ?_⟩, by decide⟩
  · exact absurd (isDigit_of_mem_decimal zero) (by decide)
  · exact (digest_ordinary valid 0 zero).2.2.1 rfl

theorem succeeds_writeChunk (dependable : Dependable curl host)
    (after : Dependable curl reached) {path chunk : Bytes} {offset : Int}
    {headers chunks : List Bytes}
    (fits : (client.baseUrl ++ writeEndpoint offset (percentEncode path)).length < 1024)
    (notNegative : 0 ≤ offset) (bound : (chunk.length : Int) ≤ longMax)
    (performed : curl.easyPerform (writeTransfer client path offset chunk) host =
      (.received 200 headers chunks, reached))
    (acknowledged : chunks.flatten =
      (Value.object (writtenMembers chunk.length (sparseMd5 chunk offset))).text) :
    Succeeds (Reached before host) (writeChunk curl client path offset chunk)
      (fun _ => Reached before reached) := by
  have valid := httpfsIsValidMd5Hex_sparseMd5 chunk offset
  have digest : httpfsSparseMd5Hex chunk offset = some (sparseMd5 chunk offset) := by
    rw [httpfsSparseMd5Hex, if_neg (Int.not_lt.mpr notNegative)]
  have short : (writeEndpoint offset (percentEncode path)).length < 1024 := by
    rw [List.length_append] at fits
    omega
  obtain ⟨tokens, parsed, placed⟩ := @parseOkResponse_document _
    (writtenMembers_scannable chunk.length valid) (by rfl)
    (show 7 ≤ OK_RESPONSE_TOKENS by decide) [] [] rfl rfl
  rw [List.nil_append, List.append_nil] at parsed placed
  have noNul := writtenMembers_noNul chunk.length valid
  rw [← acknowledged] at parsed noNul
  unfold writeChunk
  apply triple_bind_value (succeeds_buildEndpoint dependable short)
  apply triple_bind_value succeeds_obtainOr
  rw [digest]
  apply triple_bind_value succeeds_obtainOr
  apply triple_bind (succeeds_requestOk dependable after fits
    (requestFor_write client path offset chunk) performed noNul parsed)
  intro reply
  apply triple_assuming
  intro isReply
  rw [isReply, acknowledged]
  exact acceptWritten_served valid bound placed

end Calls

def WriteFits (client : HttpfsClient) (path : Bytes) (offset : Int) (size : Nat) : Prop :=
  ∀ k, k * HTTPFS_WRITE_CHUNK_SIZE < size →
    (client.baseUrl ++ writeEndpoint (writeOffset offset k) (percentEncode path)).length <
      1024

section Writing

variable {kernel : Kernel κ} {rootDir path : Bytes} {client : HttpfsClient}
  {curl : Curl (Host κ)} {offset : Int} {file : Nat} {host : Host κ}

/-- One turn of a write to a file the provider serves. -/
theorem writeChunk_served (faithful : FaithfulTransport kernel rootDir client.baseUrl curl)
    (calm : Calm host) (served : Opens kernel .readWrite rootDir path file host.names)
    {chunk : Bytes}
    (fits : (client.baseUrl ++ writeEndpoint offset (percentEncode path)).length < 1024)
    (notNegative : 0 ≤ offset) (offsetBound : offset ≤ longMax)
    (bound : (chunk.length : Int) ≤ longMax) (before : ClientState (Host κ)) :
    Succeeds (Reached before host) (writeChunk curl client path offset chunk)
      (fun _ => Reached before
        (host.setContents file (overwrite 0 (host.contents file) offset.toNat chunk))) := by
  have short : (writeEndpoint offset (percentEncode path)).length < 1024 := by
    rw [List.length_append] at fits
    omega
  obtain ⟨chunks, whole, performed⟩ := faithful.performed
    (requestFor_write client path offset chunk) (sendable_write client path offset chunk)
    fun lines carries =>
      processRequestBuffer_write calm served carries short notNegative offsetBound bound
  have digest := length_sparseMd5 chunk offset
  have payload : writtenPayload chunk.length (sparseMd5 chunk offset) =
      (Value.object (writtenMembers chunk.length (sparseMd5 chunk offset))).text := by
    rw [writtenMembers_text]
    exact writtenPayload_eq (by simp only [longMax] at bound; omega) digest
  exact succeeds_writeChunk (faithful.dependable host) (faithful.dependable _) fits
    notNegative bound performed (whole.trans payload)

theorem httpfsWriteFile_opened
    (faithful : FaithfulTransport kernel rootDir client.baseUrl curl) (calm : Calm host)
    (served : Opens kernel .readWrite rootDir path file host.names) {buffer : Bytes}
    (fits : WriteFits client path offset buffer.length) (notNegative : 0 ≤ offset)
    (bound : offset + buffer.length ≤ longMax) (before : ClientState (Host κ)) :
    Succeeds (fun state => state = { before with host })
      (httpfsWriteFile curl client path offset buffer)
      (fun _ after => Reached { before with transferred := buffer.length }
        (host.setContents file (overwrite 0 (host.contents file) offset.toNat buffer))
        after) := by
  have turns := @httpfsWriteFile_rule _ curl client path buffer offset
    (fun state => state = { before with host })
    (fun k => Reached { before with transferred := 0 }
      (host.setContents file
        (overwrite 0 (host.contents file) offset.toNat (sentBefore buffer k))))
    (fun _ => False) ?_ ?_
  · refine triple_consequence turns (fun _ start => start) ?_ fun _ failed => failed
    rintro _ after ⟨count, state, beyond, ⟨exchanges, tokenRuns, rfl⟩, rfl⟩
    rw [sentBefore_all beyond]
    exact ⟨exchanges, tokenRuns, rfl⟩
  · rintro state rfl
    rw [sentBefore_zero, overwrite_nil, setContents_same]
    exact ⟨_, _, rfl⟩
  · intro k inside
    have length := length_chunkOf buffer k
    have natural : (writeOffset offset k).toNat =
        offset.toNat + (sentBefore buffer k).length := by
      rw [length_sentBefore, Nat.min_eq_right (Nat.le_of_lt inside), writeOffset]
      omega
    have position : 0 ≤ writeOffset offset k ∧ writeOffset offset k ≤ longMax := by
      rw [writeOffset]
      omega
    have chunkBound : ((chunkOf buffer k).length : Int) ≤ longMax := by omega
    have turn := writeChunk_served faithful (calm.setContents file
      (overwrite 0 (host.contents file) offset.toNat (sentBefore buffer k))) served
      (fits k inside) position.1 position.2 chunkBound { before with transferred := 0 }
    rw [setContents_setContents] at turn
    simp only [Host.setContents, if_true] at turn
    rw [natural, overwrite_append, sentBefore_succ] at turn
    exact turn

theorem httpfsWriteFile_served
    (faithful : FaithfulTransport kernel rootDir client.baseUrl curl) (calm : Calm host)
    (serves : Serves kernel rootDir path file host.names) {buffer : Bytes}
    (fits : WriteFits client path offset buffer.length) (notNegative : 0 ≤ offset)
    (bound : offset + buffer.length ≤ longMax) (before : ClientState (Host κ)) :
    Succeeds (fun state => state = { before with host })
      (httpfsWriteFile curl client path offset buffer)
      (fun _ after => Reached { before with transferred := buffer.length }
        (host.setContents file (overwrite 0 (host.contents file) offset.toNat buffer))
        after) :=
  httpfsWriteFile_opened faithful calm (serves.opensAs .readWrite) fits notNegative bound before

end Writing

end HttpFs
