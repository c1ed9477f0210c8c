import HttpFs.Client.Effects
import HttpFs.Client.Operations
import HttpFs.Client.Transfer

namespace HttpFs

open Routine ClientM

variable {σ : Type}

/-- What `parse_ok_response` has to respect for an assertion to hold throughout an
operation whose token array has `declared` elements, and for `failed` to hold at
its error exits. -/
structure OkInvariant (declared : Nat) (inv failed : ClientState σ → Prop) : Prop where
  moved : ∀ {before after}, inv before → HostOnly before after → inv after
  counted : ∀ {before} count, inv before → inv { before with transferred := count }
  accepted : ∀ {before after json tokens}, inv before →
    parseOkResponse json = .ok tokens → Parsed declared before json after → inv after
  refused : ∀ {before after}, inv before → NotOk declared before after → failed after
  reports : ∀ {before errnoValue} message, inv before → LocalErrno errnoValue →
    failed (reported errnoValue message before)

variable {declared : Nat} {inv failed : ClientState σ → Prop}

theorem OkInvariant.obtainOr {α : Type} (invariant : OkInvariant declared inv failed)
    {errnoValue : Int} (isLocal : LocalErrno errnoValue) (message : Bytes)
    (result : Option α) :
    Triple inv (obtainOr errnoValue message result) (fun _ => inv) failed :=
  triple_obtainOr (fun _ _ _ holds => holds)
    fun _ _ holds => invariant.reports message holds isLocal

theorem OkInvariant.require (invariant : OkInvariant declared inv failed)
    {errnoValue : Int} (isLocal : LocalErrno errnoValue) (message : Bytes)
    (condition : Bool) :
    Triple inv (require condition errnoValue message) (fun _ => inv) failed :=
  triple_require (fun _ _ holds => holds)
    fun _ _ holds => invariant.reports message holds isLocal

theorem OkInvariant.setTransferred (invariant : OkInvariant declared inv failed)
    (count : Nat) : Triple inv (setTransferred count) (fun _ => inv) failed :=
  triple_modify fun _ holds => invariant.counted count holds

theorem OkInvariant.buildEndpoint (invariant : OkInvariant declared inv failed)
    (curl : Curl σ) (path : Bytes) (format : Bytes → Bytes) (endpointSize : Nat) :
    Triple inv (buildEndpoint curl path format endpointSize) (fun _ => inv) failed := by
  intro before holds
  exact triple_consequence triple_buildEndpoint (fun _ start => start)
    (fun _ _ reached => invariant.moved holds reached.1) (fun _ reached => reached)
    before (HostOnly.refl before)

theorem OkInvariant.requestOk (invariant : OkInvariant declared inv failed)
    (curl : Curl σ) (client : HttpfsClient) (method : HttpMethod) (endpoint : Bytes)
    (body contentType contentMd5 : Option Bytes) (statusMessage : Bytes) :
    Triple inv
      (requestOk curl client method endpoint body contentType contentMd5 statusMessage
        declared)
      (fun _ => inv) failed := by
  intro before holds
  exact triple_consequence
    (requestOk_effect curl client method endpoint body contentType contentMd5 statusMessage
      declared before)
    (fun _ start => start)
    (fun _ _ reached => invariant.accepted holds reached.1 reached.2)
    (fun _ reached => invariant.refused holds reached)
    before (HostOnly.refl before)

inductive OkOperation where
  | getMeta (path : Bytes)
  | listDir (path : Bytes) (maxEntries : Nat)
  | writeFile (path : Bytes) (offset : Int) (buffer : Bytes)
  | createFile (path : Bytes) (mode : UInt32)
  | createDir (path : Bytes) (mode : UInt32)
  | removeFile (path : Bytes)
  | removeDir (path : Bytes)
  | renamePath (oldPath newPath : Bytes)
  | truncateFile (path : Bytes) (size : Int64)
  | updateTimes (path : Bytes) (times : Option (Timespec × Timespec))

def OkOperation.tokenArray : OkOperation → Nat
  | .getMeta .. => 512
  | .listDir .. => 1024
  | .writeFile .. => 256
  | _ => 128

def OkOperation.run (curl : Curl σ) (client : HttpfsClient) : OkOperation → ClientM σ Unit
  | .getMeta path => do let _ ← httpfsGetMeta curl client path
  | .listDir path maxEntries => do let _ ← httpfsListDir curl client path maxEntries
  | .writeFile path offset buffer => httpfsWriteFile curl client path offset buffer
  | .createFile path mode => httpfsCreateFile curl client path mode
  | .createDir path mode => httpfsCreateDir curl client path mode
  | .removeFile path => httpfsRemoveFile curl client path
  | .removeDir path => httpfsRemoveDir curl client path
  | .renamePath oldPath newPath => httpfsRenamePath curl client oldPath newPath
  | .truncateFile path size => httpfsTruncateFile curl client path size
  | .updateTimes path times => httpfsUpdateTimes curl client path times

theorem OkInvariant.getMeta (invariant : OkInvariant 512 inv failed) (curl : Curl σ)
    (client : HttpfsClient) (path : Bytes) :
    Triple inv (httpfsGetMeta curl client path) (fun _ => inv) failed := by
  apply triple_bind (invariant.buildEndpoint curl path _ _)
  intro endpoint
  apply triple_bind (invariant.obtainOr (by decide) _ endpoint)
  intro endpoint
  apply triple_bind (invariant.requestOk curl client _ endpoint _ _ _ _)
  intro reply
  exact invariant.obtainOr (by decide) _ _

theorem localErrno_listEntries {json : Bytes} {tokens remaining : List JsmnToken}
    {entriesIndex maxEntries skip i : Nat} {arrayEnd : Option Nat}
    {entries : List HttpfsDirEntry} {error : HttpfsError}
    (rejected : listEntries json tokens entriesIndex arrayEnd maxEntries remaining skip i
      entries = .error error) : LocalErrno error.errnoValue := by
  induction remaining generalizing skip i entries with
  | nil => simp [listEntries] at rejected
  | cons token rest induction =>
      cases skip with
      | succ skip => exact induction rejected
      | zero =>
          simp only [listEntries] at rejected
          split at rejected
          · contradiction
          · split at rejected
            · exact induction rejected
            · split at rejected
              · cases rejected
                exact (show LocalErrno Errno.ENOBUFS by decide)
              · split at rejected
                · cases rejected
                  exact (show LocalErrno Errno.EIO by decide)
                · exact induction rejected

theorem localErrno_parseEntries {json : Bytes} {tokens : List JsmnToken}
    {maxEntries : Nat} {error : HttpfsError}
    (rejected : parseEntries json tokens maxEntries = .error error) :
    LocalErrno error.errnoValue := by
  simp only [parseEntries] at rejected
  split at rejected
  · cases rejected
    exact (show LocalErrno Errno.EIO by decide)
  · split at rejected
    · cases rejected
      exact (show LocalErrno Errno.EIO by decide)
    · split at rejected
      · cases rejected
        exact (show LocalErrno Errno.EIO by decide)
      · exact localErrno_listEntries rejected

theorem OkInvariant.listDir (invariant : OkInvariant 1024 inv failed) (curl : Curl σ)
    (client : HttpfsClient) (path : Bytes) (maxEntries : Nat) :
    Triple inv (httpfsListDir curl client path maxEntries) (fun _ => inv) failed := by
  apply triple_bind (invariant.buildEndpoint curl path _ _)
  intro endpoint
  apply triple_bind (invariant.obtainOr (by decide) _ endpoint)
  intro endpoint
  apply triple_bind (invariant.requestOk curl client _ endpoint _ _ _ _)
  intro reply
  exact triple_passOn (fun _ _ _ holds => holds)
    fun _ rejected _ holds => invariant.reports _ holds (localErrno_parseEntries rejected)

theorem OkInvariant.postBody (invariant : OkInvariant 128 inv failed) (curl : Curl σ)
    (client : HttpfsClient) (endpoint body statusMessage : Bytes) :
    Triple inv (postBody curl client endpoint body statusMessage) (fun _ => inv)
      failed := by
  apply triple_bind (invariant.requestOk curl client _ endpoint _ _ _ _)
  intro _
  exact triple_pure fun _ holds => holds

theorem OkInvariant.postPathOnly (invariant : OkInvariant 128 inv failed) (curl : Curl σ)
    (client : HttpfsClient) (endpoint path : Bytes) (mode : Option Int) :
    Triple inv (postPathOnly curl client endpoint path mode) (fun _ => inv) failed := by
  apply triple_bind (invariant.obtainOr (by decide) _ _)
  intro escapedPath
  exact invariant.postBody curl client endpoint _ _

theorem OkInvariant.renamePath (invariant : OkInvariant 128 inv failed) (curl : Curl σ)
    (client : HttpfsClient) (oldPath newPath : Bytes) :
    Triple inv (httpfsRenamePath curl client oldPath newPath) (fun _ => inv) failed := by
  apply triple_bind (invariant.obtainOr (by decide) _ _)
  intro escapedOld
  apply triple_bind (invariant.obtainOr (by decide) _ _)
  intro escapedNew
  exact invariant.postBody curl client _ _ _

theorem OkInvariant.truncateFile (invariant : OkInvariant 128 inv failed) (curl : Curl σ)
    (client : HttpfsClient) (path : Bytes) (size : Int64) :
    Triple inv (httpfsTruncateFile curl client path size) (fun _ => inv) failed := by
  apply triple_bind (invariant.obtainOr (by decide) _ _)
  intro escapedPath
  exact invariant.postBody curl client _ _ _

theorem OkInvariant.updateTimes (invariant : OkInvariant 128 inv failed) (curl : Curl σ)
    (client : HttpfsClient) (path : Bytes) (times : Option (Timespec × Timespec)) :
    Triple inv (httpfsUpdateTimes curl client path times) (fun _ => inv) failed := by
  apply triple_bind (invariant.obtainOr (by decide) _ _)
  intro times
  apply triple_bind (invariant.obtainOr (by decide) _ _)
  intro escapedPath
  exact invariant.postBody curl client _ _ _

theorem OkInvariant.acceptWritten (invariant : OkInvariant declared inv failed)
    (reply : OkReply) (expectedMd5 : Bytes) (chunkSize : Nat) :
    Triple inv (acceptWritten reply expectedMd5 chunkSize) (fun _ => inv) failed := by
  apply triple_bind (invariant.obtainOr (by decide) _ _)
  intro serverBytesWritten
  apply triple_bind (invariant.obtainOr (by decide) _ _)
  intro responseMd5
  apply triple_bind (invariant.require (by decide) _ _)
  intro _
  exact invariant.require (by decide) _ _

theorem OkInvariant.writeChunk (invariant : OkInvariant 256 inv failed) (curl : Curl σ)
    (client : HttpfsClient) (path : Bytes) (offset : Int) (chunk : Bytes) :
    Triple inv (writeChunk curl client path offset chunk) (fun _ => inv) failed := by
  apply triple_bind (invariant.buildEndpoint curl path _ _)
  intro endpoint
  apply triple_bind (invariant.obtainOr (by decide) _ endpoint)
  intro endpoint
  apply triple_bind (invariant.obtainOr (by decide) _ _)
  intro expectedMd5
  apply triple_bind (invariant.requestOk curl client _ endpoint _ _ _ _)
  intro reply
  exact invariant.acceptWritten reply expectedMd5 _

theorem OkInvariant.writeFileLoop (invariant : OkInvariant 256 inv failed)
    (curl : Curl σ) (client : HttpfsClient) (path : Bytes) (offset : Int) (buffer : Bytes)
    (totalWritten : Nat) :
    Triple inv (writeFileLoop curl client path offset buffer totalWritten) (fun _ => inv)
      failed := by
  rw [HttpFs.writeFileLoop]
  apply triple_ite
  · intro more
    apply triple_bind (invariant.writeChunk curl client path _ _)
    intro _
    exact invariant.writeFileLoop curl client path offset buffer _
  · intro _
    exact triple_pure fun _ holds => holds
termination_by buffer.length - totalWritten
decreasing_by
  have positive : 0 < HTTPFS_WRITE_CHUNK_SIZE := by decide
  omega

theorem OkInvariant.writeFile (invariant : OkInvariant 256 inv failed) (curl : Curl σ)
    (client : HttpfsClient) (path : Bytes) (offset : Int) (buffer : Bytes) :
    Triple inv (httpfsWriteFile curl client path offset buffer) (fun _ => inv) failed := by
  apply triple_bind (invariant.setTransferred 0)
  intro _
  apply triple_ite
  · intro _
    exact triple_pure fun _ holds => holds
  · intro _
    apply triple_bind (invariant.writeFileLoop curl client path offset buffer 0)
    intro totalWritten
    exact invariant.setTransferred totalWritten

theorem OkInvariant.operation (operation : OkOperation)
    (invariant : OkInvariant operation.tokenArray inv failed) (curl : Curl σ)
    (client : HttpfsClient) :
    Triple inv (operation.run curl client) (fun _ => inv) failed := by
  cases operation <;> simp only [OkOperation.run, OkOperation.tokenArray] at invariant ⊢
  case getMeta path =>
      apply triple_bind (invariant.getMeta curl client path)
      intro _
      exact triple_pure fun _ holds => holds
  case listDir path maxEntries =>
      apply triple_bind (invariant.listDir curl client path maxEntries)
      intro _
      exact triple_pure fun _ holds => holds
  case writeFile path offset buffer => exact invariant.writeFile curl client path offset buffer
  case createFile path mode => exact invariant.postPathOnly curl client _ path _
  case createDir path mode => exact invariant.postPathOnly curl client _ path _
  case removeFile path => exact invariant.postPathOnly curl client _ path _
  case removeDir path => exact invariant.postPathOnly curl client _ path _
  case renamePath oldPath newPath => exact invariant.renamePath curl client oldPath newPath
  case truncateFile path size => exact invariant.truncateFile curl client path size
  case updateTimes path times => exact invariant.updateTimes curl client path times

end HttpFs
