import HttpFs.Client.Operations
import HttpFs.Client.Transfer

namespace HttpFs

variable {σ α : Type}

def toInt32 (value : Int) : Int := value.bmod (2 ^ 32)

/-- The negation of an `int`; that of the least one is undefined. -/
def negateInt32 (value : Int) : Option Int :=
  if value = -(2 ^ 31) then none else some (-value)

/-- `-(int) error.errno_value`; there is no such value when nothing has been written
to the record. -/
def negatedErrno (state : ClientState σ) : Option Int :=
  state.error.bind fun error => negateInt32 (toInt32 error.errnoValue)

/-- A call of the kernel: whether the client call under it has returned -1, the value
returned to the kernel and the state that is left. -/
structure FuseCall (σ : Type) where
  clientFailed : Bool
  value : Option Int
  state : ClientState σ

/-- A client call on a fresh error record, whose failure is answered with its
`errno`. -/
def fuseCall (operation : ClientM σ α) (start : ClientState σ)
    (answer : α → ClientState σ → Int) : FuseCall σ :=
  match operation start with
  | (some result, state) => ⟨false, some (answer result state), state⟩
  | (none, state) => ⟨true, negatedErrno state, state⟩

def httpfsGetattr (curl : Curl σ) (client : HttpfsClient) (host : σ) (path : Bytes) :
    Stat × FuseCall σ :=
  let start := ClientState.start host []
  let stbuf : Stat := match (httpfsGetMeta curl client path start).1 with
    | none => ⟨0, 0, 0, 0, 0, 0, 0, 0⟩
    | some found =>
        { mode := found.mode
          nlink := found.nlink
          size := found.size
          uid := found.uid
          gid := found.gid
          atime := found.atime
          mtime := found.mtime
          ctime := found.ctime }
  (stbuf, fuseCall (httpfsGetMeta curl client path) start fun _ _ => 0)

/-- The loop of `httpfs_readdir_impl`: the names `filler` has taken, and the value
returned; `filler names name` holds when `name` does not fit after `names`. -/
def fillNames (filler : List Bytes → Bytes → Bool) :
    List HttpfsDirEntry → List Bytes → List Bytes × Int
  | [], names => (names, 0)
  | entry :: rest, names =>
      if filler names entry.name then
        (names, -Errno.ENOMEM)
      else
        fillNames filler rest (names ++ [entry.name])

def httpfsReaddir (curl : Curl σ) (client : HttpfsClient) (host : σ) (path : Bytes)
    (filler : List Bytes → Bytes → Bool) : List Bytes × FuseCall σ :=
  let start := ClientState.start host []
  let names := match (httpfsListDir curl client path 512 start).1 with
    | none => []
    | some entries => (fillNames filler entries []).1
  (names, fuseCall (httpfsListDir curl client path 512) start
    fun entries _ => (fillNames filler entries []).2)

def httpfsOpen (curl : Curl σ) (client : HttpfsClient) (host : σ) (path : Bytes) :
    FuseCall σ :=
  fuseCall (httpfsGetMeta curl client path) (ClientState.start host []) fun _ _ => 0

/-- `buf` is what the kernel's buffer of `size` bytes holds before the call. -/
def httpfsRead (curl : Curl σ) (client : HttpfsClient) (host : σ) (path buf : Bytes)
    (offset : Int) : FuseCall σ :=
  fuseCall (httpfsReadFile curl client path offset buf.length) (ClientState.start host buf)
    fun _ state => toInt32 state.transferred

def httpfsWrite (curl : Curl σ) (client : HttpfsClient) (host : σ) (path buf : Bytes)
    (offset : Int) : FuseCall σ :=
  fuseCall (httpfsWriteFile curl client path offset buf) (ClientState.start host [])
    fun _ state => toInt32 state.transferred

/-- The functions that answer 0 when the client call succeeds. -/
def fuseStatus (operation : ClientM σ Unit) (host : σ) : FuseCall σ :=
  fuseCall operation (ClientState.start host []) fun _ _ => 0

def httpfsCreate (curl : Curl σ) (client : HttpfsClient) (host : σ) (path : Bytes)
    (mode : UInt32) : FuseCall σ :=
  fuseStatus (httpfsCreateFile curl client path mode) host

def httpfsMkdir (curl : Curl σ) (client : HttpfsClient) (host : σ) (path : Bytes)
    (mode : UInt32) : FuseCall σ :=
  fuseStatus (httpfsCreateDir curl client path mode) host

def httpfsUnlink (curl : Curl σ) (client : HttpfsClient) (host : σ) (path : Bytes) :
    FuseCall σ :=
  fuseStatus (httpfsRemoveFile curl client path) host

def httpfsRmdir (curl : Curl σ) (client : HttpfsClient) (host : σ) (path : Bytes) :
    FuseCall σ :=
  fuseStatus (httpfsRemoveDir curl client path) host

/-- With nonzero flags no client call is made. -/
def httpfsRename (curl : Curl σ) (client : HttpfsClient) (host : σ) (source target : Bytes)
    (flags : UInt32) : FuseCall σ :=
  if flags ≠ 0 then
    ⟨false, some (-Errno.EINVAL), ClientState.start host []⟩
  else
    fuseStatus (httpfsRenamePath curl client source target) host

def httpfsTruncateOp (curl : Curl σ) (client : HttpfsClient) (host : σ) (path : Bytes)
    (size : Int64) : FuseCall σ :=
  fuseStatus (httpfsTruncateFile curl client path size) host

def httpfsUtimens (curl : Curl σ) (client : HttpfsClient) (host : σ) (path : Bytes)
    (tv : Option (Timespec × Timespec)) : FuseCall σ :=
  fuseStatus (httpfsUpdateTimes curl client path tv) host

inductive FuseOperation where
  | getattr (path : Bytes)
  | readdir (path : Bytes) (filler : List Bytes → Bytes → Bool)
  | open (path : Bytes)
  | read (path buf : Bytes) (offset : Int)
  | write (path buf : Bytes) (offset : Int)
  | create (path : Bytes) (mode : UInt32)
  | mkdir (path : Bytes) (mode : UInt32)
  | unlink (path : Bytes)
  | rmdir (path : Bytes)
  | rename (source target : Bytes) (flags : UInt32)
  | truncate (path : Bytes) (size : Int64)
  | utimens (path : Bytes) (tv : Option (Timespec × Timespec))

def FuseOperation.run (curl : Curl σ) (client : HttpfsClient) (host : σ) :
    FuseOperation → FuseCall σ
  | .getattr path => (httpfsGetattr curl client host path).2
  | .readdir path filler => (httpfsReaddir curl client host path filler).2
  | .open path => httpfsOpen curl client host path
  | .read path buf offset => httpfsRead curl client host path buf offset
  | .write path buf offset => httpfsWrite curl client host path buf offset
  | .create path mode => httpfsCreate curl client host path mode
  | .mkdir path mode => httpfsMkdir curl client host path mode
  | .unlink path => httpfsUnlink curl client host path
  | .rmdir path => httpfsRmdir curl client host path
  | .rename source target flags => httpfsRename curl client host source target flags
  | .truncate path size => httpfsTruncateOp curl client host path size
  | .utimens path tv => httpfsUtimens curl client host path tv

end HttpFs
