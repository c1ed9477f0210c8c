import HttpFs.Client.Replies
import HttpFs.HashUtils

namespace HttpFs

open Routine ClientM

variable {σ : Type}

def HTTPFS_READ_CHUNK_SIZE : Nat := 1024 * 1024

def HTTPFS_WRITE_CHUNK_SIZE : Nat := 1024 * 1024

def storeAt (start : Nat) (contents : Bytes) : ClientM σ Unit :=
  modify fun state =>
    { state with
      buffer := copyInto state.buffer start contents
      stores := state.stores ++ [⟨start, contents.length⟩] }

def setTransferred (count : Nat) : ClientM σ Unit :=
  modify fun state => { state with transferred := count }

def acceptChunk (reply : HttpResponse) (offset : Int) (chunkSize : Nat) :
    Except HttpfsError Bytes :=
  if reply.statusCode ≠ 200 then
    .error ⟨Errno.EIO, ascii "Read request returned a non-200 status"⟩
  else if isContentTypeJson reply.metadata.contentType then
    match parseErrorResponse (cString reply.response) with
    | .error error => .error error
    | .ok () =>
        .error ⟨Errno.EIO, ascii "Read request returned an unexpected JSON success response"⟩
  else if !isContentTypeOctetStream reply.metadata.contentType then
    .error ⟨Errno.EIO, ascii "Read response returned an unexpected Content-Type"⟩
  else if !httpfsIsValidMd5Hex reply.metadata.contentMd5 then
    .error ⟨Errno.EIO, ascii "Read response is missing a valid content MD5"⟩
  else if reply.response.length > chunkSize then
    .error ⟨Errno.EIO, ascii "Read response exceeded the requested chunk size"⟩
  else
    match httpfsSparseMd5Hex reply.response offset with
    | none => .error ⟨Errno.EIO, ascii "Failed to compute read content MD5"⟩
    | some expectedMd5 =>
        if expectedMd5 ≠ reply.metadata.contentMd5 then
          .error ⟨Errno.EIO, ascii "Read content MD5 verification failed"⟩
        else
          .ok reply.response

def readChunk (curl : Curl σ) (client : HttpfsClient) (path : Bytes) (offset : Int)
    (totalRead chunkSize : Nat) : ClientM σ Bytes := do
  let endpoint ← buildReadEndpoint curl path (offset + totalRead) chunkSize
  let endpoint ← obtainOr Errno.ENAMETOOLONG (ascii "Failed to build read request") endpoint
  let reply ← httpRequestEx curl client .get endpoint none none none
  let response ← passOn (acceptChunk reply (offset + totalRead) chunkSize)
  if response.length > 0 then storeAt totalRead response
  return response

/-- The loop of `httpfs_read_file`; its result is `total_read` at the end. -/
def readFileLoop (curl : Curl σ) (client : HttpfsClient) (path : Bytes) (offset : Int)
    (size totalRead : Nat) : ClientM σ Nat :=
  if totalRead < size then do
    let chunkSize := min (size - totalRead) HTTPFS_READ_CHUNK_SIZE
    let response ← readChunk curl client path offset totalRead chunkSize
    if response.length < min (size - totalRead) HTTPFS_READ_CHUNK_SIZE then
      return totalRead + response.length
    else
      readFileLoop curl client path offset size (totalRead + response.length)
  else
    return totalRead
termination_by size - totalRead
decreasing_by
  have positive : 0 < HTTPFS_READ_CHUNK_SIZE := by decide
  omega

/-- Its result stands for the return value 0; `*bytes_read` is in the state. -/
def httpfsReadFile (curl : Curl σ) (client : HttpfsClient) (path : Bytes) (offset : Int)
    (size : Nat) : ClientM σ Unit := do
  setTransferred 0
  if size = 0 then
    return ()
  else
    let totalRead ← readFileLoop curl client path offset size 0
    setTransferred totalRead

def acceptWritten (reply : OkReply) (expectedMd5 : Bytes) (chunkSize : Nat) :
    ClientM σ Unit := do
  let serverBytesWritten ← obtainOr Errno.EIO
    (ascii "Write response is missing bytes_written")
    ((findToken reply.json reply.tokens 0 (ascii "bytes_written")).bind
      (tokenLong? reply.json))
  let responseMd5 ← obtainOr Errno.EIO
    (ascii "Write response is missing a valid content MD5")
    (((findToken reply.json reply.tokens 0 (ascii "content_md5")).bind
      (tokenToString reply.json · 33)).filter httpfsIsValidMd5Hex)
  require (serverBytesWritten = chunkSize) Errno.EIO
    (ascii "Write response returned an invalid bytes_written value")
  require (expectedMd5 = responseMd5) Errno.EIO
    (ascii "Write content MD5 verification failed")

def writeChunk (curl : Curl σ) (client : HttpfsClient) (path : Bytes) (offset : Int)
    (chunk : Bytes) : ClientM σ Unit := do
  let endpoint ← buildWriteEndpoint curl path offset
  let endpoint ← obtainOr Errno.ENAMETOOLONG (ascii "Failed to build write request") endpoint
  let expectedMd5 ← obtainOr Errno.EIO (ascii "Failed to compute write content MD5")
    (httpfsSparseMd5Hex chunk offset)
  let reply ← requestOk curl client .post endpoint (some chunk)
    (some (ascii "application/octet-stream")) (some expectedMd5)
    (ascii "Write request returned a non-200 status") 256
  acceptWritten reply expectedMd5 chunk.length

/-- The loop of `httpfs_write_file`; its result is `total_written` at the end. -/
def writeFileLoop (curl : Curl σ) (client : HttpfsClient) (path : Bytes) (offset : Int)
    (buffer : Bytes) (totalWritten : Nat) : ClientM σ Nat :=
  if totalWritten < buffer.length then do
    let chunkSize := min (buffer.length - totalWritten) HTTPFS_WRITE_CHUNK_SIZE
    writeChunk curl client path (offset + totalWritten)
      ((buffer.drop totalWritten).take chunkSize)
    writeFileLoop curl client path offset buffer
      (totalWritten + min (buffer.length - totalWritten) HTTPFS_WRITE_CHUNK_SIZE)
  else
    return totalWritten
termination_by buffer.length - totalWritten
decreasing_by
  have positive : 0 < HTTPFS_WRITE_CHUNK_SIZE := by decide
  omega

def httpfsWriteFile (curl : Curl σ) (client : HttpfsClient) (path : Bytes) (offset : Int)
    (buffer : Bytes) : ClientM σ Unit := do
  setTransferred 0
  if buffer.length = 0 then
    return ()
  else
    let totalWritten ← writeFileLoop curl client path offset buffer 0
    setTransferred totalWritten

end HttpFs
