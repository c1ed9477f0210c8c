import HttpFs.Provider.Decode
import HttpFs.Provider.Host
import HttpFs.Provider.ResolvePath

namespace HttpFs.CProvider

structure RequestContext where
  method : Bytes
  path : Bytes
  query : Bytes
  contentMd5 : Bytes
  body : Bytes
  rootDir : Bytes
  deriving Repr, DecidableEq

variable {κ : Type}

def isDirectory (status : Stat) : Bool := status.mode &&& 0o170000 == 0o040000

/-- The path of a request that is answered about a path alone, as its client wrote it
and as it is resolved. -/
def queryPath (request : RequestContext) : Option (Bytes × Bytes) := do
  let path ← queryValue request.query (ascii "path") 2048
  let localPath ← resolvePath request.rootDir path 4096
  return (path, localPath)

def statToJson (path : Bytes) (status : Stat) (outputSize : Nat) : Bytes :=
  let type := if isDirectory status then ascii "dir" else ascii "file"
  snprintf outputSize
    (ascii "\x7b\"status\":\"ok\",\"meta\":\x7b\"path\":\"" ++ path ++
      ascii "\",\"type\":\"" ++ type ++
      ascii "\",\"mode\":" ++ decimal status.mode.toNat ++
      ascii ",\"size\":" ++ signedDecimal status.size.toInt ++
      ascii ",\"uid\":" ++ decimal status.uid.toNat ++
      ascii ",\"gid\":" ++ decimal status.gid.toNat ++
      ascii ",\"nlink\":" ++ decimal status.nlink.toNat ++
      ascii ",\"atime\":" ++ signedDecimal status.atime.toInt ++
      ascii ",\"mtime\":" ++ signedDecimal status.mtime.toInt ++
      ascii ",\"ctime\":" ++ signedDecimal status.ctime.toInt ++ ascii "\x7d\x7d")

def handleMeta (kernel : Kernel κ) (request : RequestContext) (host : Host κ) :
    HttpReply × Host κ :=
  match queryPath request with
  | none => (sendErrorJson Errno.EINVAL (ascii "invalid path"), host)
  | some (path, localPath) =>
      match kernel.lstat host.names host.contents localPath with
      | .error errnoValue => (sendErrno kernel errnoValue, host)
      | .ok status =>
          let (allocated, host) := host.malloc
          if allocated then
            (sendOk (statToJson path status (path.length + 256)), host)
          else
            (sendErrorJson Errno.ENOMEM (ascii "memory allocation failed"), host)

def SERVER_LIST_PAYLOAD_SIZE : Nat := 262144

def entryType (kernel : Kernel κ) (host : Host κ) (entryPath : Bytes) : Bytes :=
  match kernel.lstat host.names host.contents entryPath with
  | .ok status => if isDirectory status then ascii "dir" else ascii "file"
  | .error _ => ascii "file"

def entryText (first : Bool) (escaped type : Bytes) : Bytes :=
  (if first then [] else ascii ",") ++ ascii "\x7b\"name\":\"" ++ escaped ++
    ascii "\",\"type\":\"" ++ type ++ ascii "\"\x7d"

/-- The loop of `handle_list`, with the text in `payload` and the position `pos`. -/
def listPayload (kernel : Kernel κ) (host : Host κ) (localPath : Bytes) :
    Bool → List Bytes → Bytes → Nat → Except HttpfsError Bytes
  | _, [], payload, pos =>
      .ok (payload ++ snprintf (SERVER_LIST_PAYLOAD_SIZE - pos) (ascii "]\x7d"))
  | first, name :: names, payload, pos =>
      let entryPath := localPath ++ ascii "/" ++ name
      if entryPath.length ≥ 4096 then
        .error ⟨Errno.ENAMETOOLONG, ascii "entry path too long"⟩
      else
        match jsonEscapeString name 512 with
        | none => .error ⟨Errno.EIO, ascii "entry name escape failed"⟩
        | some escaped =>
            let entry := entryText first escaped (entryType kernel host entryPath)
            if pos + entry.length + 64 ≥ SERVER_LIST_PAYLOAD_SIZE then
              .error ⟨Errno.ENOBUFS, ascii "too many entries"⟩
            else
              listPayload kernel host localPath false names
                (payload ++ snprintf (SERVER_LIST_PAYLOAD_SIZE - pos) entry)
                (pos + entry.length)

theorem listPayload_cons {kernel : Kernel κ} {host : Host κ} {localPath name payload whole : Bytes}
    {first : Bool} {names : List Bytes} {pos : Nat}
    (listed : listPayload kernel host localPath first (name :: names) payload pos = .ok whole) :
    ∃ escaped, jsonEscapeString name 512 = some escaped ∧
      let entry := entryText first escaped
        (entryType kernel host (localPath ++ ascii "/" ++ name))
      pos + entry.length + 64 < SERVER_LIST_PAYLOAD_SIZE ∧
        listPayload kernel host localPath false names
          (payload ++ snprintf (SERVER_LIST_PAYLOAD_SIZE - pos) entry) (pos + entry.length) =
            .ok whole := by
  simp only [listPayload] at listed
  split at listed
  · contradiction
  split at listed
  · contradiction
  next escaped isEscaped =>
  split at listed
  · contradiction
  next room => exact ⟨escaped, isEscaped, Nat.lt_of_not_le room, listed⟩

def listHead : Bytes := ascii "\x7b\"status\":\"ok\",\"entries\":["

def handleList (kernel : Kernel κ) (request : RequestContext) (host : Host κ) :
    HttpReply × Host κ :=
  match queryPath request with
  | none => (sendErrorJson Errno.EINVAL (ascii "invalid path"), host)
  | some (_, localPath) =>
      match kernel.opendir host.names localPath with
      | .error errnoValue => (sendErrno kernel errnoValue, host)
      | .ok names =>
          match listPayload kernel host localPath true names listHead listHead.length with
          | .error error => (sendErrorJson error.errnoValue error.message, host)
          | .ok payload => (sendOk payload, host)

structure ReadRange where
  localPath : Bytes
  offset : Int
  size : Int

/-- The checks `handle_read` makes before it opens the file. -/
def readRange (request : RequestContext) : Except HttpfsError ReadRange :=
  let decoded : Option ReadRange := do
    let path ← queryValue request.query (ascii "path") 2048
    let offsetText ← queryValue request.query (ascii "offset") 64
    let sizeText ← queryValue request.query (ascii "size") 64
    let localPath ← resolvePath request.rootDir path 4096
    return ⟨localPath, (strtol offsetText).value, (strtol sizeText).value⟩
  match decoded with
  | none => .error ⟨Errno.EINVAL, ascii "invalid read query"⟩
  | some range =>
      if range.offset < 0 ∨ range.size < 0 then
        .error ⟨Errno.EINVAL, ascii "invalid offset or size"⟩
      else
        .ok range

def handleRead (kernel : Kernel κ) (request : RequestContext) (host : Host κ) :
    HttpReply × Host κ :=
  match readRange request with
  | .error error => (sendErrorJson error.errnoValue error.message, host)
  | .ok range =>
      match kernel.openFile host.names range.localPath .readOnly with
      | .error errnoValue => (sendErrno kernel errnoValue, host)
      | .ok file =>
          let (allocated, host) := host.malloc
          if allocated then
            match host.pread file range.size.toNat range.offset.toNat with
            | (.error errnoValue, host) => (sendErrno kernel errnoValue, host)
            | (.ok buffer, host) =>
                match httpfsSparseMd5Hex buffer range.offset with
                | none =>
                    (sendErrorJson Errno.EIO
                      (ascii "failed to compute read content md5"), host)
                | some contentMd5 => (sendBinary buffer contentMd5, host)
          else
            (sendErrorJson Errno.ENOMEM (ascii "memory allocation failed"), host)

structure WriteTarget where
  localPath : Bytes
  offset : Int
  expectedMd5 : Bytes

/-- The checks `handle_write` makes before it opens the file. -/
def writeTarget (request : RequestContext) : Except HttpfsError WriteTarget :=
  let decoded : Option (Bytes × Bytes) := do
    let path ← queryValue request.query (ascii "path") 2048
    let offsetText ← queryValue request.query (ascii "offset") 64
    let localPath ← resolvePath request.rootDir path 4096
    return (offsetText, localPath)
  match decoded with
  | none => .error ⟨Errno.EINVAL, ascii "invalid write body"⟩
  | some (offsetText, localPath) =>
      let offset := (strtol offsetText).value
      if offset < 0 then
        .error ⟨Errno.EINVAL, ascii "invalid write offset"⟩
      else if !httpfsIsValidMd5Hex request.contentMd5 then
        .error ⟨Errno.EINVAL, ascii "missing or invalid content md5"⟩
      else
        match httpfsSparseMd5Hex request.body offset with
        | none => .error ⟨Errno.EIO, ascii "failed to compute write content md5"⟩
        | some expectedMd5 =>
            if expectedMd5 ≠ request.contentMd5 then
              .error ⟨Errno.EIO, ascii "write content md5 verification failed"⟩
            else
              .ok ⟨localPath, offset, expectedMd5⟩

def writtenPayload (written : Nat) (actualMd5 : Bytes) : Bytes :=
  snprintf 256
    (ascii "\x7b\"status\":\"ok\",\"bytes_written\":" ++ decimal written ++
      ascii ",\"content_md5\":\"" ++ actualMd5 ++ ascii "\"\x7d")

/-- The part of `handle_write` that reads the stored bytes back. -/
def verifyStored (kernel : Kernel κ) (target : WriteTarget) (body : Bytes) (file : Nat)
    (host : Host κ) : HttpReply × Host κ :=
  let (allocated, host) := host.malloc
  if allocated then
    match host.preadFull file body.length target.offset.toNat with
    | (.error errnoValue, host) => (sendErrno kernel errnoValue, host)
    | (.ok verifyBuffer, host) =>
        let failed := (sendErrorJson Errno.EIO
          (ascii "stored content md5 verification failed"), host)
        if verifyBuffer.length ≠ body.length then
          failed
        else
          match httpfsSparseMd5Hex verifyBuffer target.offset with
          | none => failed
          | some actualMd5 =>
              if actualMd5 ≠ target.expectedMd5 then
                failed
              else
                (sendOk (writtenPayload body.length actualMd5), host)
  else
    (sendErrorJson Errno.ENOMEM (ascii "memory allocation failed"), host)

def handleWrite (kernel : Kernel κ) (request : RequestContext) (host : Host κ) :
    HttpReply × Host κ :=
  match writeTarget request with
  | .error error => (sendErrorJson error.errnoValue error.message, host)
  | .ok target =>
      match kernel.openFile host.names target.localPath .readWrite with
      | .error errnoValue => (sendErrno kernel errnoValue, host)
      | .ok file =>
          match host.pwriteFull file request.body target.offset.toNat with
          | (.error errnoValue, host) => (sendErrno kernel errnoValue, host)
          | (.ok written, host) =>
              if written ≠ request.body.length then
                (sendErrorJson Errno.EIO (ascii "short write"), host)
              else
                verifyStored kernel target request.body file host

/-! The handlers of the other `POST` endpoints decode a body into one change, and
report a body they cannot decode with a text of their own. -/

def handleChange (kernel : Kernel κ) (decoded : Option Change) (invalid : Bytes)
    (host : Host κ) : HttpReply × Host κ :=
  match decoded with
  | none => (sendErrorJson Errno.EINVAL invalid, host)
  | some change =>
      match kernel.change change host.names host.contents with
      | .error errnoValue => (sendErrno kernel errnoValue, host)
      | .ok (names, contents) =>
          (sendOk (ascii "\x7b\"status\":\"ok\"\x7d"), { host with names, contents })

def handleCreateFile (kernel : Kernel κ) (request : RequestContext) :
    Host κ → HttpReply × Host κ :=
  handleChange kernel
    (do
      let (path, mode) ← decodePathLong (ascii "mode") request.body
      let localPath ← resolvePath request.rootDir path 4096
      return .createFile localPath (.ofInt mode))
    (ascii "invalid create-file body")

def handleCreateDir (kernel : Kernel κ) (request : RequestContext) :
    Host κ → HttpReply × Host κ :=
  handleChange kernel
    (do
      let (path, mode) ← decodePathLong (ascii "mode") request.body
      let localPath ← resolvePath request.rootDir path 4096
      return .mkdir localPath (.ofInt mode))
    (ascii "invalid create-dir body")

def handleRemoveFile (kernel : Kernel κ) (request : RequestContext) :
    Host κ → HttpReply × Host κ :=
  handleChange kernel
    (do
      let path ← decodePath request.body
      let localPath ← resolvePath request.rootDir path 4096
      return .unlink localPath)
    (ascii "invalid remove-file body")

def handleRemoveDir (kernel : Kernel κ) (request : RequestContext) :
    Host κ → HttpReply × Host κ :=
  handleChange kernel
    (do
      let path ← decodePath request.body
      let localPath ← resolvePath request.rootDir path 4096
      return .rmdir localPath)
    (ascii "invalid remove-dir body")

def handleRename (kernel : Kernel κ) (request : RequestContext) :
    Host κ → HttpReply × Host κ :=
  handleChange kernel
    (do
      let (oldPath, newPath) ← decodeRename request.body
      let localOld ← resolvePath request.rootDir oldPath 4096
      let localNew ← resolvePath request.rootDir newPath 4096
      return .rename localOld localNew)
    (ascii "invalid rename body")

def handleTruncate (kernel : Kernel κ) (request : RequestContext) :
    Host κ → HttpReply × Host κ :=
  handleChange kernel
    (do
      let (path, size) ← decodePathLong (ascii "size") request.body
      let localPath ← resolvePath request.rootDir path 4096
      return .truncate localPath (.ofInt size))
    (ascii "invalid truncate body")

def handleUtimens (kernel : Kernel κ) (request : RequestContext) :
    Host κ → HttpReply × Host κ :=
  handleChange kernel
    (do
      let (path, atime, mtime) ← decodeUtimens request.body
      let localPath ← resolvePath request.rootDir path 4096
      return .utimens localPath atime mtime)
    (ascii "invalid utimens body")

def dispatchRequest (kernel : Kernel κ) (request : RequestContext) (host : Host κ) :
    HttpReply × Host κ :=
  let asks (method path : String) : Bool :=
    request.method == ascii method && request.path == ascii path
  if asks "GET" "/v1/meta" then handleMeta kernel request host
  else if asks "GET" "/v1/list" then handleList kernel request host
  else if asks "GET" "/v1/read" then handleRead kernel request host
  else if asks "POST" "/v1/write" then handleWrite kernel request host
  else if asks "POST" "/v1/create-file" then handleCreateFile kernel request host
  else if asks "POST" "/v1/create-dir" then handleCreateDir kernel request host
  else if asks "POST" "/v1/remove-file" then handleRemoveFile kernel request host
  else if asks "POST" "/v1/remove-dir" then handleRemoveDir kernel request host
  else if asks "POST" "/v1/rename" then handleRename kernel request host
  else if asks "POST" "/v1/truncate" then handleTruncate kernel request host
  else if asks "POST" "/v1/utimens" then handleUtimens kernel request host
  else (sendErrorJson Errno.ENOSYS (ascii "unknown endpoint"), host)

end HttpFs.CProvider
