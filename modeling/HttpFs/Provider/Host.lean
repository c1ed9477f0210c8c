import HttpFs.Foundation.FullTransfer
import HttpFs.Foundation.Numeral
import HttpFs.Foundation.Region
import HttpFs.JsonUtils
import HttpFs.Protocol

namespace HttpFs.CProvider

open Region

inductive Change where
  | createFile (path : Bytes) (mode : UInt32)
  | mkdir (path : Bytes) (mode : UInt32)
  | unlink (path : Bytes)
  | rmdir (path : Bytes)
  | rename (oldPath newPath : Bytes)
  | truncate (path : Bytes) (size : Int64)
  | utimens (path : Bytes) (atime mtime : Timespec)

inductive OpenFlags where
  | readOnly
  | readWrite
  deriving Repr, DecidableEq

abbrev Contents := Nat → Bytes

/-- The system calls on a name space `κ`, whose files have numbers and contents. -/
structure Kernel (κ : Type) where
  openFile : κ → Bytes → OpenFlags → Except Int Nat
  lstat : κ → Contents → Bytes → Except Int Stat
  opendir : κ → Bytes → Except Int (List Bytes)
  change : Change → κ → Contents → Except Int (κ × Contents)
  strerror : Int → Bytes

abbrev SysReturn := FullTransfer.Return Int

/-- The machine a provider runs on: its files, and how the next calls of `malloc`,
`pread` and `pwrite` end. Calls past the end of these lists succeed in full. -/
structure Host (κ : Type) where
  names : κ
  contents : Contents
  mallocs : List Bool
  preads : List SysReturn
  pwrites : List SysReturn

/-- A name space with a single path, whose file has the number 0. -/
def Kernel.single (path : Bytes) : Kernel Unit where
  openFile := fun _ asked _ => if asked = path then .ok 0 else .error Errno.ENOENT
  lstat := fun _ _ _ => .error Errno.ENOENT
  opendir := fun _ _ => .error Errno.ENOENT
  change := fun _ _ _ => .error Errno.ENOENT
  strerror := fun _ => ascii "No such file or directory"

def Host.calm (contents : Bytes) : Host Unit := ⟨(), fun _ => contents, [], [], []⟩

variable {κ : Type}

namespace Host

def malloc (host : Host κ) : Bool × Host κ :=
  (host.mallocs.head?.getD true, { host with mallocs := host.mallocs.tail })

def setContents (host : Host κ) (file : Nat) (contents : Bytes) : Host κ :=
  { host with
    contents := fun other => if other = file then contents else host.contents other }

/-- How many bytes of a file a `pread` can deliver. -/
def available (host : Host κ) (file size offset : Nat) : Nat :=
  min size ((host.contents file).length - offset)

def pread (host : Host κ) (file size offset : Nat) : Except Int Bytes × Host κ :=
  let (result, preads) := FullTransfer.once (host.available file size offset) host.preads
  (result.map (slice (host.contents file) offset), { host with preads })

def isEintr (errnoValue : Int) : Bool := errnoValue == Errno.EINTR

/-- `pread_full`: its result, or the bytes in the buffer up to it. -/
def preadFull (host : Host κ) (file length offset : Nat) : Except Int Bytes × Host κ :=
  let outcome := FullTransfer.run isEintr length
    (fun total => host.available file (length - total) (offset + total))
    (fun total n buffer => buffer ++ slice (host.contents file) (offset + total) n)
    host.preads 0 []
  (outcome.result.map fun total => outcome.state.take total,
    { host with preads := outcome.returns })

def pwriteFull (host : Host κ) (file : Nat) (buffer : Bytes) (offset : Nat) :
    Except Int Nat × Host κ :=
  let outcome := FullTransfer.run isEintr buffer.length
    (fun total => buffer.length - total)
    (fun total n contents => overwrite 0 contents (offset + total) (slice buffer total n))
    host.pwrites 0 (host.contents file)
  (outcome.result, { host.setContents file outcome.state with pwrites := outcome.returns })

end Host

/-- A reply as it is sent: the status line, the header lines and the empty line,
each with its line end, and the body. -/
structure HttpReply where
  statusCode : Int
  headers : List Bytes
  body : Bytes
  deriving Repr, DecidableEq

def crlf : Bytes := ascii "\r\n"

/-- The buffers of the two functions that send a header have room for it. -/
def headerLines (statusCode : Int) (lines : List Bytes) : List Bytes :=
  ([ascii "HTTP/1.1 " ++ signedDecimal statusCode ++ ascii " OK"] ++ lines ++
    [ascii "Connection: close", []]).map fun line => line ++ crlf

def sendJson (statusCode : Int) (body : Bytes) : HttpReply :=
  ⟨statusCode,
    headerLines statusCode
      [ascii "Content-Type: application/json; charset=utf-8",
        ascii "Content-Length: " ++ decimal body.length],
    body⟩

def sendOk (payload : Bytes) : HttpReply := sendJson 200 payload

def sendBinary (body contentMd5 : Bytes) : HttpReply :=
  ⟨200,
    headerLines 200
      [ascii "Content-Type: application/octet-stream",
        ascii "X-HTTPFS-Content-MD5: " ++ contentMd5,
        ascii "Content-Length: " ++ decimal body.length],
    body⟩

def errorPayload (errnoValue : Int) (message : Bytes) : Bytes :=
  let escaped := (jsonEscapeString message 1024).getD (ascii "internal error")
  snprintf 1400 (ascii "\x7b\"status\":\"error\",\"errno\":" ++ signedDecimal errnoValue ++
    ascii ",\"message\":\"" ++ escaped ++ ascii "\"\x7d")

def sendErrorJson (errnoValue : Int) (message : Bytes) : HttpReply :=
  sendJson 200 (errorPayload errnoValue message)

/-- `send_error_json(fd, errno, strerror(errno))`. -/
def sendErrno (kernel : Kernel κ) (errnoValue : Int) : HttpReply :=
  sendErrorJson errnoValue (kernel.strerror errnoValue)

end HttpFs.CProvider
