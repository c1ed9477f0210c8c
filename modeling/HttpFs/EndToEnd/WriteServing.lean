import HttpFs.EndToEnd.Serving
import HttpFs.Client.Transfer
import HttpFs.Provider.CalmWrite

namespace HttpFs

open CProvider Region

variable {κ : Type}

def writeTransfer (client : HttpfsClient) (path : Bytes) (offset : Int) (chunk : Bytes) :
    HttpRequest :=
  ⟨client.baseUrl ++ writeEndpoint offset (percentEncode path), client.timeoutMs,
    client.verbose,
    some ⟨[ascii "Content-Type: application/octet-stream",
      HTTPFS_CONTENT_MD5_HEADER ++ ascii ": " ++ sparseMd5 chunk offset, ascii "Expect:"],
      chunk⟩⟩

theorem requestFor_write (client : HttpfsClient) (path : Bytes) (offset : Int) (chunk : Bytes) :
    requestFor client .post (writeEndpoint offset (percentEncode path)) (some chunk)
      (some (ascii "application/octet-stream")) (some (sparseMd5 chunk offset)) =
        .ok (writeTransfer client path offset chunk) := by
  have digest := length_sparseMd5 chunk offset
  have short : ¬ (HTTPFS_CONTENT_MD5_HEADER ++ ascii ": " ++ sparseMd5 chunk offset).length ≥
      128 := by
    simp only [List.length_append, digest]
    decide
  simp only [requestFor, postOptions, headerEntry, if_neg short]
  rfl

theorem digest_ordinary {digest : Bytes} (valid : httpfsIsValidMd5Hex digest = true) :
    ∀ c ∈ digest, c ≠ byte 'C' ∧ c ≠ byte '\r' ∧ c ≠ 0 ∧ c ≠ byte '"' ∧ c ≠ byte '\\' ∧
      isHeaderBlank c = false := by
  simp only [httpfsIsValidMd5Hex, Bool.and_eq_true, List.all_eq_true] at valid
  intro c member
  have row := of_table (p := fun c => !isLowerHex c || (c != byte 'C' && (c != byte '\r' &&
    (c != 0 && (c != byte '"' && (c != byte '\\' && !isHeaderBlank c)))))) (by decide +kernel) c
  simpa [valid.2 c member] using row

theorem md5Line_sendable {digest : Bytes} (valid : httpfsIsValidMd5Hex digest = true) :
    PlainLine (HTTPFS_CONTENT_MD5_HEADER ++ ascii ": " ++ digest) ∧
      containsText contentLengthName (HTTPFS_CONTENT_MD5_HEADER ++ ascii ": " ++ digest) =
        false := by
  have ordinary := digest_ordinary valid
  refine ⟨⟨by simp [HTTPFS_CONTENT_MD5_HEADER, ascii], ?_, ?_⟩, ?_⟩
  · simp only [List.mem_append, not_or]
    exact ⟨by decide, fun zero => (ordinary 0 zero).2.2.1 rfl⟩
  · simp only [List.mem_append, not_or]
    exact ⟨by decide, fun cr => (ordinary _ cr).2.1 rfl⟩
  · have parts : HTTPFS_CONTENT_MD5_HEADER ++ ascii ": " ++ digest =
        ascii "X-HTTPFS-" ++ (byte 'C' :: (ascii "ontent-MD5: " ++ digest)) := rfl
    have start : Avoids contentLengthName (ascii "X-HTTPFS-")
        (byte 'C' :: (ascii "ontent-MD5: " ++ digest)) :=
      avoids_of_not_mem (by decide)
    have rest : Avoids contentLengthName (ascii "ontent-MD5: " ++ digest) [] := by
      apply avoids_of_not_mem
      simp only [List.mem_append, not_or]
      exact ⟨by decide, fun letter => (ordinary _ letter).1 rfl⟩
    have differs : ¬ contentLengthName <+: byte 'C' :: (ascii "ontent-MD5: " ++ digest) := by
      intro occurs
      have short : ascii "Content-L" <+: ascii "Content-M" ++ (ascii "D5: " ++ digest) :=
        (show ascii "Content-L" <+: contentLengthName by decide).trans occurs
      have equal := List.prefix_of_prefix_length_le short (List.prefix_append _ _) (by decide)
      exact absurd equal (by decide)
    have absent := strstr_append rest
    rw [List.append_nil] at absent
    rw [containsText, parts, strstr_append start, strstr, if_neg differs, absent]
    decide

theorem sendable_write (client : HttpfsClient) (path : Bytes) (offset : Int) (chunk : Bytes) :
    Sendable (writeTransfer client path offset chunk) := by
  intro line member
  simp only [writeTransfer, HttpRequest.headers, List.mem_cons, List.not_mem_nil,
    or_false] at member
  obtain rfl | rfl | rfl := member
  · exact ⟨⟨by decide, by decide, by decide⟩, by decide⟩
  · exact md5Line_sendable (httpfsIsValidMd5Hex_sparseMd5 chunk offset)
  · exact ⟨⟨by decide, by decide, by decide⟩, by decide⟩

def writeRequest (rootDir path : Bytes) (offset : Int) (chunk : Bytes) : RequestContext where
  method := ascii "POST"
  path := ascii "/v1/write"
  query := joinQuery (writeParameters path offset)
  contentMd5 := sparseMd5 chunk offset
  body := chunk
  rootDir

theorem extractHeaderValue_md5 {lines : List Bytes} {digest : Bytes}
    (valid : httpfsIsValidMd5Hex digest = true)
    (only : lines.filter (isHeaderLine md5HeaderName) =
      [HTTPFS_CONTENT_MD5_HEADER ++ ascii ": " ++ digest]) :
    extractHeaderValue lines md5HeaderName 33 = some digest := by
  have ordinary := digest_ordinary valid
  have length : digest.length = 32 := by
    simp only [httpfsIsValidMd5Hex, Bool.and_eq_true, beq_iff_eq] at valid
    exact valid.1
  have value : ((HTTPFS_CONTENT_MD5_HEADER ++ ascii ": " ++ digest).drop
      (md5HeaderName.length + 1)).dropWhile isHeaderBlank = digest := by
    change (byte ' ' :: digest).dropWhile isHeaderBlank = digest
    rw [List.dropWhile_cons_of_pos (by decide)]
    cases digest with
    | nil => rfl
    | cons c rest => rw [List.dropWhile_cons_of_neg (by simp [ordinary c])]
  rw [extractHeaderValue, ← List.head?_filter, only]
  simp only [List.head?_cons, Option.bind_some, value]
  rw [if_neg (by omega)]

theorem requestContext_write {client : HttpfsClient} {rootDir path chunk : Bytes}
    {offset : Int} {lines : List Bytes}
    (carries : Carries (writeTransfer client path offset chunk) lines)
    (fits : (writeEndpoint offset (percentEncode path)).length < 1024)
    (bound : (chunk.length : Int) ≤ longMax) :
    requestContext rootDir (requestMessage (ascii "POST")
      (writeEndpoint offset (percentEncode path)) lines chunk) =
        .ok (writeRequest rootDir path offset chunk) := by
  have valid := httpfsIsValidMd5Hex_sparseMd5 chunk offset
  have isMd5 : isHeaderLine md5HeaderName
      (HTTPFS_CONTENT_MD5_HEADER ++ ascii ": " ++ sparseMd5 chunk offset) = true := by
    have long : (HTTPFS_CONTENT_MD5_HEADER ++ ascii ": " ++ sparseMd5 chunk offset).length >
        md5HeaderName.length := by
      simp only [List.length_append, length_sparseMd5]
      decide
    have start : startsWithIgnoringCase
        (HTTPFS_CONTENT_MD5_HEADER ++ ascii ": " ++ sparseMd5 chunk offset) md5HeaderName =
          true := rfl
    rw [isHeaderLine, decide_eq_true long, start]
    rfl
  have only : lines.filter (isHeaderLine md5HeaderName) =
      [HTTPFS_CONTENT_MD5_HEADER ++ ascii ": " ++ sparseMd5 chunk offset] := by
    have notType : isHeaderLine md5HeaderName
        (ascii "Content-Type: application/octet-stream") = false := by
      decide
    have notExpect : isHeaderLine md5HeaderName (ascii "Expect:") = false := by decide
    rw [carries.digest]
    simp only [writeTransfer, HttpRequest.headers, List.filter_cons, List.filter_nil, isMd5,
      notType, notExpect, if_true]
    rfl
  have target : Word 2047 (ascii "/v1/write" ++ byte '?' ::
      joinQuery (writeParameters path offset)) := by
    rw [← writeEndpoint_eq]
    apply word_of_target (by simp [writeEndpoint, ascii]) ?_ fits
    simp only [writeEndpoint, List.all_append,
      isTargetByte_of_encoded (isEncoded_percentEncode path),
      isTargetByte_of_encoded (isEncoded_signedDecimal offset)]
    decide
  have context := @requestContext_message rootDir (ascii "POST") (ascii "/v1/write")
    (joinQuery (writeParameters path offset)) chunk lines
    ⟨by decide, by decide, by decide, by decide⟩ target (by decide) carries.plain
    (by simpa [HttpRequest.body, writeTransfer] using carries.length) bound
  rw [extractHeaderValue_md5 valid only] at context
  simpa [writeEndpoint_eq, writeRequest] using context

theorem writeTarget_write {kernel : Kernel κ} {rootDir path chunk : Bytes} {offset : Int}
    {file : Nat} {names : κ} (served : Opens kernel .readWrite rootDir path file names)
    (fits : (writeEndpoint offset (percentEncode path)).length < 1024)
    (notNegative : 0 ≤ offset) (offsetBound : offset ≤ longMax) :
    ∃ localPath, kernel.openFile names localPath .readWrite = .ok file ∧
      writeTarget (writeRequest rootDir path offset chunk) =
        .ok ⟨localPath, offset, sparseMd5 chunk offset⟩ := by
  obtain ⟨localPath, resolved, opened⟩ := served.opens
  refine ⟨localPath, opened, ?_⟩
  have short : (percentEncode path).length < 2048 := by
    simp only [writeEndpoint, List.length_append] at fits
    omega
  have pathLength := length_le_percentEncode path
  have hasPath : queryValue (joinQuery (writeParameters path offset)) (ascii "path") 2048 =
      some path :=
    queryValue_encoded (parameters_write path offset) (by rfl) served.noNul (by omega) short
  obtain ⟨offsetText, hasOffset, isOffset⟩ := @queryValue_number _ (ascii "offset") offset
    (parameters_write path offset) (by rfl) (by simp only [longMin]; omega) offsetBound
  have valid := httpfsIsValidMd5Hex_sparseMd5 chunk offset
  simp only [writeTarget, writeRequest, hasPath, hasOffset, resolved, isOffset, valid,
    httpfsSparseMd5Hex, Option.bind_eq_bind, Option.bind_some, Option.pure_def,
    if_neg (Int.not_lt.mpr notNegative)]
  simp

/-- One turn of the client's write, on a machine whose calls succeed. -/
theorem processRequestBuffer_write {kernel : Kernel κ} {client : HttpfsClient}
    {rootDir path chunk : Bytes} {offset : Int} {file : Nat} {lines : List Bytes}
    {host : Host κ} (calm : Calm host)
    (served : Opens kernel .readWrite rootDir path file host.names)
    (carries : Carries (writeTransfer client path offset chunk) lines)
    (fits : (writeEndpoint offset (percentEncode path)).length < 1024)
    (notNegative : 0 ≤ offset) (offsetBound : offset ≤ longMax)
    (bound : (chunk.length : Int) ≤ longMax) :
    processRequestBuffer kernel rootDir (requestMessage (ascii "POST")
        (writeEndpoint offset (percentEncode path)) lines chunk) host =
      (sendOk (writtenPayload chunk.length (sparseMd5 chunk offset)),
        host.setContents file (overwrite 0 (host.contents file) offset.toNat chunk)) := by
  obtain ⟨localPath, opened, checked⟩ :=
    @writeTarget_write _ kernel rootDir path chunk offset file host.names served fits
      notNegative offsetBound
  rw [processRequestBuffer, requestContext_write carries fits bound]
  change handleWrite kernel (writeRequest rootDir path offset chunk) host = _
  have handled := handleWrite_calm calm checked opened
  exact handled

end HttpFs
