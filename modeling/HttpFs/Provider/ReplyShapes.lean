import HttpFs.Foundation.HttpMessages
import HttpFs.Provider.GuardedWrite

namespace HttpFs.CProvider

open HttpMessage

variable {κ : Type}

/-! What the handlers send. -/

/-- The error numbers that the handlers choose themselves. -/
def ownErrnos : List Int :=
  [Errno.EINVAL, Errno.EIO, Errno.ENOMEM, Errno.ENAMETOOLONG, Errno.ENOBUFS, Errno.ENOSYS]

/-- Where the error number of a reply comes from: a handler, or a system call that has
failed with it. -/
inductive Failure (kernel : Kernel κ) (host : Host κ) : Int → Prop where
  | own {errnoValue : Int} (member : errnoValue ∈ ownErrnos) : Failure kernel host errnoValue
  | openFile {path : Bytes} {flags : OpenFlags} {errnoValue : Int}
      (failed : kernel.openFile host.names path flags = .error errnoValue) :
      Failure kernel host errnoValue
  | lstat {path : Bytes} {errnoValue : Int}
      (failed : kernel.lstat host.names host.contents path = .error errnoValue) :
      Failure kernel host errnoValue
  | opendir {path : Bytes} {errnoValue : Int}
      (failed : kernel.opendir host.names path = .error errnoValue) :
      Failure kernel host errnoValue
  | change {change : Change} {errnoValue : Int}
      (failed : kernel.change change host.names host.contents = .error errnoValue) :
      Failure kernel host errnoValue
  | pread {errnoValue : Int} (member : .failed errnoValue ∈ host.preads) :
      Failure kernel host errnoValue
  | pwrite {errnoValue : Int} (member : .failed errnoValue ∈ host.pwrites) :
      Failure kernel host errnoValue

/-- The replies that a request can get. -/
inductive Shape (kernel : Kernel κ) (request : RequestContext) (host : Host κ) :
    HttpReply → Prop where
  | failed {errnoValue : Int} (message : Bytes) (failure : Failure kernel host errnoValue) :
      Shape kernel request host (sendErrorJson errnoValue message)
  | described {path localPath : Bytes} (status : Stat)
      (isMeta : request.path = ascii "/v1/meta")
      (queried : queryPath request = some (path, localPath)) :
      Shape kernel request host (sendOk (statToJson path status (path.length + 256)))
  | listed {localPath payload : Bytes} {names : List Bytes}
      (opened : kernel.opendir host.names localPath = .ok names)
      (listed : listPayload kernel host localPath true names listHead listHead.length =
        .ok payload) :
      Shape kernel request host (sendOk payload)
  | read (buffer : Bytes) {offset : Int} (notNegative : 0 ≤ offset) :
      Shape kernel request host (sendBinary buffer (sparseMd5 buffer offset))
  | written {digest : Bytes} (valid : httpfsIsValidMd5Hex digest = true) :
      Shape kernel request host (sendOk (writtenPayload request.body.length digest))
  | changed : Shape kernel request host (sendOk (ascii "\x7b\"status\":\"ok\"\x7d"))

section Handlers

variable {kernel : Kernel κ} {request : RequestContext} {host : Host κ}

theorem Shape.own {errnoValue : Int} (message : Bytes) (member : errnoValue ∈ ownErrnos) :
    Shape kernel request host (sendErrorJson errnoValue message) :=
  .failed message (.own member)

theorem handleMeta_shape (isMeta : request.path = ascii "/v1/meta") :
    Shape kernel request host (handleMeta kernel request host).1 := by
  rw [handleMeta]
  cases queried : queryPath request with
  | none => exact .own _ (by decide)
  | some paths =>
      obtain ⟨path, localPath⟩ := paths
      simp only
      cases found : kernel.lstat host.names host.contents localPath with
      | error errnoValue => exact .failed _ (.lstat found)
      | ok status =>
          simp only
          split
          · exact .described status isMeta queried
          · exact .own _ (by decide)

theorem listPayload_error {localPath payload : Bytes} {first : Bool} {names : List Bytes}
    {pos : Nat} {error : HttpfsError}
    (failed : listPayload kernel host localPath first names payload pos = .error error) :
    error.errnoValue ∈ ownErrnos := by
  induction names generalizing first payload pos with
  | nil => contradiction
  | cons name names induction =>
      simp only [listPayload] at failed
      split at failed
      · cases failed
        decide
      split at failed
      · cases failed
        decide
      split at failed
      · cases failed
        decide
      · exact induction failed

theorem handleList_shape : Shape kernel request host (handleList kernel request host).1 := by
  rw [handleList]
  cases queryPath request with
  | none => exact .own _ (by decide)
  | some paths =>
      obtain ⟨path, localPath⟩ := paths
      simp only
      cases opened : kernel.opendir host.names localPath with
      | error errnoValue => exact .failed _ (.opendir opened)
      | ok names =>
          simp only
          cases listed : listPayload kernel host localPath true names listHead
            listHead.length with
          | error error => exact .own _ (listPayload_error listed)
          | ok payload => exact .listed opened listed

theorem readRange_error {error : HttpfsError} (failed : readRange request = .error error) :
    error.errnoValue ∈ ownErrnos := by
  simp only [readRange] at failed
  split at failed
  · cases failed
    decide
  · split at failed
    · cases failed
      decide
    · contradiction

theorem handleRead_shape : Shape kernel request host (handleRead kernel request host).1 := by
  rw [handleRead]
  cases checked : readRange request with
  | error error => exact .own _ (readRange_error checked)
  | ok range =>
      simp only
      cases opened : kernel.openFile host.names range.localPath .readOnly with
      | error errnoValue => exact .failed _ (.openFile opened)
      | ok file =>
          simp only
          split
          · simp only [Host.pread]
            cases returned : FullTransfer.once (host.malloc.2.available file
                range.size.toNat range.offset.toNat) host.malloc.2.preads with
            | mk result preads =>
            cases result with
            | error errnoValue =>
                exact .failed _ (.pread (FullTransfer.once_error returned))
            | ok count =>
                obtain ⟨_, _, _, notNegative, _⟩ := readRange_ok checked
                simp only [Except.map, httpfsSparseMd5Hex, if_neg (Int.not_lt.mpr notNegative)]
                exact .read _ notNegative
          · exact .own _ (by decide)

theorem writeTarget_error {error : HttpfsError} (failed : writeTarget request = .error error) :
    error.errnoValue ∈ ownErrnos := by
  simp only [writeTarget] at failed
  split at failed
  · cases failed
    decide
  split at failed
  · cases failed
    decide
  split at failed
  · cases failed
    decide
  split at failed
  · cases failed
    decide
  split at failed
  · cases failed
    decide
  · contradiction

theorem verifyStored_shape {target : WriteTarget} {file : Nat} {after : Host κ}
    (preads : after.preads = host.preads)
    (valid : httpfsIsValidMd5Hex target.expectedMd5 = true) :
    Shape kernel request host (verifyStored kernel target request.body file after).1 := by
  simp only [verifyStored]
  split
  · cases read : after.malloc.2.preadFull file request.body.length target.offset.toNat with
    | mk result reached =>
    cases result with
    | error errnoValue =>
        have failed := congrArg Prod.fst read
        simp only [Host.preadFull, Except.map] at failed
        split at failed
        · next found isError =>
          cases failed
          have inPreads : .failed errnoValue ∈ after.preads := FullTransfer.run_error isError
          exact .failed _ (.pread (preads ▸ inPreads))
        · contradiction
    | ok verifyBuffer =>
        simp only
        split
        · exact .own _ (by decide)
        split
        · exact .own _ (by decide)
        next actualMd5 computed =>
        split
        · exact .own _ (by decide)
        next same => exact .written (Decidable.not_not.mp same ▸ valid)
  · exact .own _ (by decide)

theorem handleWrite_shape : Shape kernel request host (handleWrite kernel request host).1 := by
  rw [handleWrite]
  cases checked : writeTarget request with
  | error error => exact .own _ (writeTarget_error checked)
  | ok target =>
      simp only
      cases opened : kernel.openFile host.names target.localPath .readWrite with
      | error errnoValue => exact .failed _ (.openFile opened)
      | ok file =>
          simp only
          cases written : host.pwriteFull file request.body target.offset.toNat with
          | mk result after =>
          cases result with
          | error errnoValue =>
              have failed := congrArg Prod.fst written
              exact .failed _ (.pwrite (FullTransfer.run_error failed))
          | ok count =>
              simp only
              split
              · exact .own _ (by decide)
              · obtain ⟨pwrites, _, rfl⟩ := Host.pwriteFull_eq written
                obtain ⟨_, _, isDigest, ⟨valid, _⟩, _⟩ := writeTarget_ok checked
                exact verifyStored_shape rfl (isDigest ▸ valid)

theorem handleChange_shape (decoded : Option Change) (invalid : Bytes) :
    Shape kernel request host (handleChange kernel decoded invalid host).1 := by
  unfold handleChange
  cases decoded with
  | none => exact .own _ (by decide)
  | some change =>
      simp only
      cases changed : kernel.change change host.names host.contents with
      | error errnoValue => exact .failed _ (.change changed)
      | ok files => exact .changed

theorem shape_ite {method path : String} {answer otherwise : HttpReply × Host κ}
    (first : request.path = ascii path → Shape kernel request host answer.1)
    (rest : Shape kernel request host otherwise.1) :
    Shape kernel request host
      (if request.method == ascii method && request.path == ascii path then answer
        else otherwise).1 := by
  split
  · next asked =>
    simp only [Bool.and_eq_true, beq_iff_eq] at asked
    exact first asked.2
  · exact rest

/-- Whatever a request asks for, its reply is one of a few kinds. -/
theorem dispatchRequest_shape :
    Shape kernel request host (dispatchRequest kernel request host).1 := by
  apply shape_ite handleMeta_shape
  apply shape_ite fun _ => handleList_shape
  apply shape_ite fun _ => handleRead_shape
  apply shape_ite fun _ => handleWrite_shape
  apply shape_ite fun _ => handleChange_shape _ _
  apply shape_ite fun _ => handleChange_shape _ _
  apply shape_ite fun _ => handleChange_shape _ _
  apply shape_ite fun _ => handleChange_shape _ _
  apply shape_ite fun _ => handleChange_shape _ _
  apply shape_ite fun _ => handleChange_shape _ _
  apply shape_ite fun _ => handleChange_shape _ _
  exact .own _ (by decide)

end Handlers

end HttpFs.CProvider
