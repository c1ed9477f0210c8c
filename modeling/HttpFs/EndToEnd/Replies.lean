import HttpFs.Client.Transfer
import HttpFs.EndToEnd.Transport

namespace HttpFs

open CProvider

theorem headerCallback_other {metadata : ResponseMetadata} {header : Bytes}
    (notType : startsWithIgnoringCase header (contentTypeHeader ++ ascii ":") = false)
    (notMd5 : startsWithIgnoringCase header (HTTPFS_CONTENT_MD5_HEADER ++ ascii ":") = false) :
    headerCallback metadata header = metadata := by
  simp [headerCallback, hasHeader, notType, notMd5]

theorem headerCallback_type {metadata : ResponseMetadata} {value : Bytes}
    (present : hasHeader (contentTypeHeader ++ ascii ":")
      (ascii "Content-Type: " ++ value ++ crlf) = true)
    (isValue : headerField 128 (headerValue (contentTypeHeader ++ ascii ":")
      (ascii "Content-Type: " ++ value ++ crlf)) = value) :
    headerCallback metadata (ascii "Content-Type: " ++ value ++ crlf) =
      { metadata with contentType := value } := by
  simp only [headerCallback, present, if_true, isValue]

/-- A digest reaches the client as the provider has written it. -/
theorem headerCallback_md5 {metadata : ResponseMetadata} {digest : Bytes}
    (valid : httpfsIsValidMd5Hex digest = true) :
    headerCallback metadata (ascii "X-HTTPFS-Content-MD5: " ++ digest ++ crlf) =
      { metadata with contentMd5 := digest } := by
  simp only [httpfsIsValidMd5Hex, Bool.and_eq_true, beq_iff_eq, List.all_eq_true] at valid
  obtain ⟨length, digits⟩ := valid
  have ordinary : ∀ c ∈ digest, isHeaderTrail c = false ∧ isHeaderBlank c = false ∧ c ≠ 0 := by
    intro c member
    have row := of_table (p := fun c => !isLowerHex c ||
      (!isHeaderTrail c && !isHeaderBlank c && c != 0)) (by decide +kernel) c
    simpa [digits c member, and_assoc] using row
  have notType : hasHeader (contentTypeHeader ++ ascii ":")
      (ascii "X-HTTPFS-Content-MD5: " ++ digest ++ crlf) = false := by
    have differs : startsWithIgnoringCase (ascii "X-HTTPFS-Content-MD5: " ++ digest ++ crlf)
        (contentTypeHeader ++ ascii ":") = false := rfl
    rw [hasHeader, differs, Bool.and_false]
  have isMd5 : hasHeader (HTTPFS_CONTENT_MD5_HEADER ++ ascii ":")
      (ascii "X-HTTPFS-Content-MD5: " ++ digest ++ crlf) = true := by
    have equals : startsWithIgnoringCase (ascii "X-HTTPFS-Content-MD5: " ++ digest ++ crlf)
        (HTTPFS_CONTENT_MD5_HEADER ++ ascii ":") = true := rfl
    rw [hasHeader, equals, Bool.and_true]
    simp [ascii, HTTPFS_CONTENT_MD5_HEADER, length]
  have value : headerValue (HTTPFS_CONTENT_MD5_HEADER ++ ascii ":")
      (ascii "X-HTTPFS-Content-MD5: " ++ digest ++ crlf) = digest := by
    have dropped : (ascii "X-HTTPFS-Content-MD5: " ++ digest ++ crlf).drop
        (HTTPFS_CONTENT_MD5_HEADER ++ ascii ":").length = byte ' ' :: (digest ++ crlf) := rfl
    have start : (byte ' ' :: (digest ++ crlf)).dropWhile isHeaderBlank = digest ++ crlf := by
      rw [List.dropWhile_cons_of_pos (by decide)]
      cases digest with
      | nil => rfl
      | cons c rest =>
          rw [List.cons_append, List.dropWhile_cons_of_neg (by simp [ordinary c])]
    have stop : (crlf.reverse ++ digest.reverse).dropWhile isHeaderTrail = digest.reverse := by
      rw [List.dropWhile_append_of_pos (by decide)]
      cases shape : digest.reverse with
      | nil => rfl
      | cons c rest =>
          have member : c ∈ digest := List.mem_reverse.mp (by simp [shape])
          rw [List.dropWhile_cons_of_neg (by simp [ordinary c member])]
    rw [headerValue, dropped, start, List.reverse_append, stop, List.reverse_reverse]
  have field : headerField 33 digest = digest := by
    rw [headerField, List.take_of_length_le (by omega)]
    exact cString_of_noNul fun zero => (ordinary 0 zero).2.2 rfl
  simp only [headerCallback, notType, isMd5, value, field, if_true]
  rfl

private theorem headerCallback_status (metadata : ResponseMetadata) :
    headerCallback metadata (ascii "HTTP/1.1 " ++ signedDecimal 200 ++ ascii " OK" ++ crlf) =
      metadata :=
  headerCallback_other (by decide) (by decide)

private theorem headerCallback_length (metadata : ResponseMetadata) (n : Nat) :
    headerCallback metadata (ascii "Content-Length: " ++ decimal n ++ crlf) = metadata :=
  headerCallback_other rfl rfl

private theorem headerCallback_close (metadata : ResponseMetadata) :
    headerCallback metadata (ascii "Connection: close" ++ crlf) = metadata :=
  headerCallback_other (by decide) (by decide)

private theorem headerCallback_blank (metadata : ResponseMetadata) :
    headerCallback metadata crlf = metadata :=
  headerCallback_other (by decide) (by decide)

theorem received_sendBinary {body digest : Bytes} (valid : httpfsIsValidMd5Hex digest = true) :
    (sendBinary body digest).received =
      ⟨200, body, ⟨ascii "application/octet-stream", digest⟩⟩ := by
  have line : ascii "Content-Type: application/octet-stream" =
      ascii "Content-Type: " ++ ascii "application/octet-stream" := by
    decide +kernel
  have type : ∀ metadata, headerCallback metadata
      (ascii "Content-Type: " ++ ascii "application/octet-stream" ++ crlf) =
        { metadata with contentType := ascii "application/octet-stream" } :=
    fun _ => headerCallback_type (by decide +kernel) (by decide +kernel)
  simp only [HttpReply.received, sendBinary, headerLines, List.map_cons, List.map_nil,
    List.cons_append, List.nil_append, List.foldl_cons, List.foldl_nil, line, type,
    headerCallback_length, headerCallback_status, headerCallback_close, headerCallback_blank,
    headerCallback_md5 valid]

theorem received_sendJson (body : Bytes) :
    (sendJson 200 body).received =
      ⟨200, body, ⟨ascii "application/json; charset=utf-8", []⟩⟩ := by
  have line : ascii "Content-Type: application/json; charset=utf-8" =
      ascii "Content-Type: " ++ ascii "application/json; charset=utf-8" := by
    decide +kernel
  have type : ∀ metadata, headerCallback metadata
      (ascii "Content-Type: " ++ ascii "application/json; charset=utf-8" ++ crlf) =
        { metadata with contentType := ascii "application/json; charset=utf-8" } :=
    fun _ => headerCallback_type (by decide +kernel) (by decide +kernel)
  simp only [HttpReply.received, sendJson, headerLines, List.map_cons, List.map_nil,
    List.cons_append, List.nil_append, List.foldl_cons, List.foldl_nil, line, type,
    headerCallback_length, headerCallback_status, headerCallback_close, headerCallback_blank]

end HttpFs
