import HttpFs.Client.Replies
import HttpFs.JsonUtils

namespace HttpFs

open Routine ClientM

variable {σ : Type}

def httpfsGetMeta (curl : Curl σ) (client : HttpfsClient) (path : Bytes) :
    ClientM σ HttpfsMeta := do
  let endpoint ← buildSimpleGetEndpoint curl (ascii "/v1/meta") path
  let endpoint ← obtainOr Errno.ENAMETOOLONG (ascii "Failed to build meta request") endpoint
  let reply ← requestOk curl client .get endpoint none none none
    (ascii "Meta request returned a non-200 status") 512
  obtainOr Errno.EIO (ascii "Meta response is missing valid metadata")
    ((findObjectValue reply.json reply.tokens 0 (ascii "meta")).bind
      (parseMetaObject reply.json reply.tokens))

def dirEntry (json : Bytes) (tokens : List JsmnToken) (i : Nat) :
    Option HttpfsDirEntry := do
  let nameToken ← findToken json tokens i (ascii "name")
  let typeToken ← findToken json tokens i (ascii "type")
  let name ← tokenToString json nameToken 256
  let type ← tokenToString json typeToken 8
  return ⟨name, type⟩

/-- The loop of `httpfs_list_dir` at index `i`, on the tokens from there on, of which
the next `skip` have been passed over, with the entries stored so far. -/
def listEntries (json : Bytes) (tokens : List JsmnToken) (entriesIndex : Nat)
    (arrayEnd : Option Nat) (maxEntries : Nat) :
    List JsmnToken → Nat → Nat → List HttpfsDirEntry →
      Except HttpfsError (List HttpfsDirEntry)
  | [], _, _, entries => .ok entries
  | _ :: rest, skip + 1, i, entries =>
      listEntries json tokens entriesIndex arrayEnd maxEntries rest skip (i + 1) entries
  | token :: rest, 0, i, entries =>
      if !startsBefore arrayEnd token then
        .ok entries
      else if token.parent ≠ some entriesIndex ∨ token.type ≠ .object then
        listEntries json tokens entriesIndex arrayEnd maxEntries rest 0 (i + 1) entries
      else if entries.length ≥ maxEntries then
        .error ⟨Errno.ENOBUFS, ascii "Directory entry buffer is too small"⟩
      else
        match dirEntry json tokens i with
        | none => .error ⟨Errno.EIO, ascii "Failed to parse directory entry"⟩
        | some entry =>
            listEntries json tokens entriesIndex arrayEnd maxEntries rest
              (nextTokenIndex tokens i - (i + 1)) (i + 1) (entries ++ [entry])

/-- `httpfs_list_dir` on the tokens of its reply. -/
def parseEntries (json : Bytes) (tokens : List JsmnToken) (maxEntries : Nat) :
    Except HttpfsError (List HttpfsDirEntry) :=
  let missing : HttpfsError :=
    ⟨Errno.EIO, ascii "List response is missing the entries array"⟩
  match findObjectValue json tokens 0 (ascii "entries") with
  | none => .error missing
  | some entriesIndex =>
      match tokens[entriesIndex]? with
      | none => .error missing
      | some array =>
          if array.type ≠ .array then
            .error missing
          else
            listEntries json tokens entriesIndex array.stop maxEntries
              (tokens.drop (entriesIndex + 1)) 0 (entriesIndex + 1) []

def httpfsListDir (curl : Curl σ) (client : HttpfsClient) (path : Bytes)
    (maxEntries : Nat) : ClientM σ (List HttpfsDirEntry) := do
  let endpoint ← buildSimpleGetEndpoint curl (ascii "/v1/list") path
  let endpoint ← obtainOr Errno.ENAMETOOLONG (ascii "Failed to build list request") endpoint
  let reply ← requestOk curl client .get endpoint none none none
    (ascii "List request returned a non-200 status") 1024
  passOn (parseEntries reply.json reply.tokens maxEntries)

def jsonContentType : Bytes := ascii "application/json; charset=utf-8"

/-- The last steps of every operation that posts a JSON body. -/
def postBody (curl : Curl σ) (client : HttpfsClient) (endpoint body statusMessage : Bytes) :
    ClientM σ Unit := do
  let _ ← requestOk curl client .post endpoint (some body) (some jsonContentType) none
    statusMessage 128
  return ()

def pathBody (escapedPath : Bytes) : Bytes :=
  snprintf (HTTPFS_MAX_PATH * 2 + 64)
    (ascii "\x7b\"path\":\"" ++ escapedPath ++ ascii "\"\x7d")

def pathModeBody (escapedPath : Bytes) (mode : Int) : Bytes :=
  snprintf (HTTPFS_MAX_PATH * 2 + 64)
    (ascii "\x7b\"path\":\"" ++ escapedPath ++ ascii "\",\"mode\":" ++
      signedDecimal mode ++ ascii "\x7d")

def renameBody (escapedOld escapedNew : Bytes) : Bytes :=
  snprintf (HTTPFS_MAX_PATH * 4 + 64)
    (ascii "\x7b\"old_path\":\"" ++ escapedOld ++ ascii "\",\"new_path\":\"" ++
      escapedNew ++ ascii "\"\x7d")

def truncateBody (escapedPath : Bytes) (size : Int64) : Bytes :=
  snprintf (HTTPFS_MAX_PATH * 2 + 64)
    (ascii "\x7b\"path\":\"" ++ escapedPath ++ ascii "\",\"size\":" ++
      signedDecimal size.toInt ++ ascii "\x7d")

def utimensBody (escapedPath : Bytes) (atime mtime : Timespec) : Bytes :=
  snprintf (HTTPFS_MAX_PATH * 2 + 256)
    (ascii "\x7b\"path\":\"" ++ escapedPath ++
      ascii "\",\"atime_sec\":" ++ signedDecimal atime.tvSec.toInt ++
      ascii ",\"atime_nsec\":" ++ signedDecimal atime.tvNsec.toInt ++
      ascii ",\"mtime_sec\":" ++ signedDecimal mtime.tvSec.toInt ++
      ascii ",\"mtime_nsec\":" ++ signedDecimal mtime.tvNsec.toInt ++ ascii "\x7d")

def escapePath (path : Bytes) : Option Bytes :=
  jsonEscapeString path (HTTPFS_MAX_PATH * 2)

/-- `post_path_only`; `mode` is `none` without `with_mode`. -/
def postPathOnly (curl : Curl σ) (client : HttpfsClient) (endpoint path : Bytes)
    (mode : Option Int) : ClientM σ Unit := do
  let escapedPath ← obtainOr Errno.EINVAL (ascii "Failed to escape request path")
    (escapePath path)
  let body := match mode with
    | some mode => pathModeBody escapedPath mode
    | none => pathBody escapedPath
  postBody curl client endpoint body (ascii "Request returned a non-200 status")

def httpfsCreateFile (curl : Curl σ) (client : HttpfsClient) (path : Bytes)
    (mode : UInt32) : ClientM σ Unit :=
  postPathOnly curl client (ascii "/v1/create-file") path (some mode.toNat)

def httpfsCreateDir (curl : Curl σ) (client : HttpfsClient) (path : Bytes)
    (mode : UInt32) : ClientM σ Unit :=
  postPathOnly curl client (ascii "/v1/create-dir") path (some mode.toNat)

def httpfsRemoveFile (curl : Curl σ) (client : HttpfsClient) (path : Bytes) :
    ClientM σ Unit :=
  postPathOnly curl client (ascii "/v1/remove-file") path none

def httpfsRemoveDir (curl : Curl σ) (client : HttpfsClient) (path : Bytes) :
    ClientM σ Unit :=
  postPathOnly curl client (ascii "/v1/remove-dir") path none

def httpfsRenamePath (curl : Curl σ) (client : HttpfsClient) (oldPath newPath : Bytes) :
    ClientM σ Unit := do
  let message := ascii "Failed to escape rename request path"
  let escapedOld ← obtainOr Errno.EINVAL message (escapePath oldPath)
  let escapedNew ← obtainOr Errno.EINVAL message (escapePath newPath)
  postBody curl client (ascii "/v1/rename") (renameBody escapedOld escapedNew)
    (ascii "Rename request returned a non-200 status")

def httpfsTruncateFile (curl : Curl σ) (client : HttpfsClient) (path : Bytes)
    (size : Int64) : ClientM σ Unit := do
  let escapedPath ← obtainOr Errno.EINVAL
    (ascii "Failed to escape truncate request path") (escapePath path)
  postBody curl client (ascii "/v1/truncate") (truncateBody escapedPath size)
    (ascii "Truncate request returned a non-200 status")

/-- `times` is `none` for a NULL array, else its two elements. -/
def httpfsUpdateTimes (curl : Curl σ) (client : HttpfsClient) (path : Bytes)
    (times : Option (Timespec × Timespec)) : ClientM σ Unit := do
  let (atime, mtime) ← obtainOr Errno.EINVAL (ascii "Missing timespec array") times
  let escapedPath ← obtainOr Errno.EINVAL
    (ascii "Failed to escape utimens request path") (escapePath path)
  postBody curl client (ascii "/v1/utimens") (utimensBody escapedPath atime mtime)
    (ascii "Utimens request returned a non-200 status")

end HttpFs
