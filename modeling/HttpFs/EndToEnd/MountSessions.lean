import HttpFs.EndToEnd.Changes
import HttpFs.EndToEnd.Transfers
import HttpFs.Foundation.Sessions

namespace HttpFs

open CProvider

variable {σ κ : Type}

/-! The mounted directory over a whole session. -/

/-- What the kernel sees of a call: the value returned, and what has been filled in. -/
structure Answer where
  value : Option Int
  stat : Option Stat
  names : List Bytes
  data : Bytes
  deriving DecidableEq

def Answer.status (value : Option Int) : Answer := ⟨value, none, [], []⟩

namespace FuseOperation

/-- The answer to a call; of the buffer of a read, the bytes that the call counts. -/
def answer (curl : Curl σ) (client : HttpfsClient) (operation : FuseOperation) (host : σ) :
    Answer × σ :=
  match operation with
  | .getattr path =>
      let (stbuf, call) := httpfsGetattr curl client host path
      (⟨call.value, some stbuf, [], []⟩, call.state.host)
  | .readdir path filler =>
      let (names, call) := httpfsReaddir curl client host path filler
      (⟨call.value, none, names, []⟩, call.state.host)
  | .read path buf offset =>
      let call := httpfsRead curl client host path buf offset
      (⟨call.value, none, [], call.state.buffer.take (call.value.getD 0).toNat⟩,
        call.state.host)
  | operation =>
      let call := operation.run curl client host
      (.status call.value, call.state.host)

/-- The request that a call posts; some calls are invalid before anything is sent. -/
def posted : FuseOperation → Option PostRequest
  | .create path mode => some (.createFile path mode)
  | .mkdir path mode => some (.createDir path mode)
  | .unlink path => some (.removeFile path)
  | .rmdir path => some (.removeDir path)
  | .rename source target flags => if flags = 0 then some (.rename source target) else none
  | .truncate path size => some (.truncate path size)
  | .utimens path (some (atime, mtime)) => some (.utimens path atime mtime)
  | _ => none

end FuseOperation

/-- The loop of a listing, on the names alone. -/
def fillDirectory (filler : List Bytes → Bytes → Bool) :
    List Bytes → List Bytes → List Bytes × Int
  | [], names => (names, 0)
  | name :: rest, names =>
      if filler names name then (names, -Errno.ENOMEM)
      else fillDirectory filler rest (names ++ [name])

namespace Direct

def zeroStat : Stat := ⟨0, 0, 0, 0, 0, 0, 0, 0⟩

/-- The answer that a call on the machine of the provider gives. An open looks its file
up, and leaves the rest to the reads and writes. -/
def answer (kernel : Kernel κ) (rootDir : Bytes) (operation : FuseOperation) (host : Host κ) :
    Answer × Host κ :=
  match operation with
  | .getattr path =>
      let found := lstat kernel rootDir path host
      (⟨some (returned (fun _ => 0) found), some (found.toOption.getD zeroStat), [], []⟩, host)
  | .readdir path filler =>
      let found := opendir kernel rootDir path host
      (⟨some (returned (fun names => (fillDirectory filler names []).2) found), none,
        (fillDirectory filler (found.toOption.getD []) []).1, []⟩, host)
  | .open path => (.status (some (returned (fun _ => 0) (lstat kernel rootDir path host))), host)
  | .read path buf offset =>
      let read := pread kernel rootDir path offset.toNat buf.length host
      (⟨some (returned (fun data => data.length) read), none, [], read.toOption.getD []⟩, host)
  | .write path buf offset =>
      let (written, after) := pwrite kernel rootDir path offset.toNat buf host
      (.status (some (returned (fun count : Nat => count) written)), after)
  | operation =>
      match operation.posted with
      | none => (.status (some (-Errno.EINVAL)), host)
      | some request =>
          let (result, after) := post kernel rootDir request host
          (.status (some (returned (fun _ => 0) result)), after)

end Direct

/-- The calls that the mounted directory can carry: their paths and numbers fit into a
request, and what the machine says about a path fits into a reply. -/
def Allowed (kernel : Kernel κ) (rootDir : Bytes) (client : HttpfsClient)
    (operation : FuseOperation) (host : Host κ) : Prop :=
  match operation with
  | .getattr path | .open path =>
      0 ∉ path ∧
        (client.baseUrl ++ PathRequest.getMeta.format (percentEncode path)).length < 1024 ∧
        ∀ status, Direct.lstat kernel rootDir path host = .ok status → Carried path status
  | .readdir path _ =>
      0 ∉ path ∧
        (client.baseUrl ++ PathRequest.listDir.format (percentEncode path)).length < 1024 ∧
        ∀ localPath names, resolvePath rootDir path 4096 = some localPath →
          kernel.opendir host.names localPath = .ok names → Listable localPath names
  | .read path buf offset =>
      0 ∉ path ∧ ReadFits client path offset buf.length ∧ 0 ≤ offset ∧
        offset + buf.length ≤ longMax ∧ buf.length < 2 ^ 31
  | .write path buf offset =>
      0 ∉ path ∧ WriteFits client path offset buf.length ∧ 0 ≤ offset ∧
        offset + buf.length ≤ longMax ∧ buf.length < 2 ^ 31
  | operation =>
      ∀ request, operation.posted = some request →
        (∀ path ∈ request.paths, 0 ∉ path) ∧
          (client.baseUrl ++ request.endpoint.path).length < 1024

section Steps

variable {kernel : Kernel κ} {rootDir : Bytes} {client : HttpfsClient} {curl : Curl (Host κ)}
  {host : Host κ}

end Steps

end HttpFs
