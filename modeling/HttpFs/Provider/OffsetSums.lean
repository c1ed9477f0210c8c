import HttpFs.Foundation.Logged
import HttpFs.Provider.GuardedWrite

namespace HttpFs

open Logged

/-! The sums of an offset and a position that a write request makes the C provider
evaluate. -/

/-- `sparseMd5Update` with the sums `base_offset + (off_t) i`. -/
def sparseMd5UpdateLogged : Md5Context → Int → Bytes → Logged Int Md5Context
  | ctx, _, [] => return ctx
  | ctx, position, b :: rest => do
      note position
      sparseMd5UpdateLogged (if position % 10 = 0 then md5Update ctx [b] else ctx)
        (position + 1) rest

theorem sparseMd5UpdateLogged_value (ctx : Md5Context) (position : Int) (data : Bytes) :
    (sparseMd5UpdateLogged ctx position data).value = sparseMd5Update ctx position data := by
  induction data generalizing ctx position with
  | nil => rfl
  | cons b rest induction =>
      rw [sparseMd5UpdateLogged, sparseMd5Update, value_bind]
      exact induction _ _

theorem mem_sparseMd5UpdateLogged {ctx : Md5Context} {position sum : Int} {data : Bytes} :
    sum ∈ (sparseMd5UpdateLogged ctx position data).log ↔
      position ≤ sum ∧ sum < position + data.length := by
  induction data generalizing ctx position with
  | nil =>
      simp only [sparseMd5UpdateLogged, log_pure, List.not_mem_nil, List.length_nil, false_iff]
      omega
  | cons b rest induction =>
      simp only [sparseMd5UpdateLogged, log_bind, log_note, List.mem_append, List.mem_singleton,
        induction, List.length_cons]
      omega

def httpfsSparseMd5HexLogged (data : Bytes) (baseOffset : Int) : Logged Int (Option Bytes) :=
  if baseOffset < 0 then
    return none
  else do
    let ctx ← sparseMd5UpdateLogged md5Init baseOffset data
    return some ((md5Final ctx).flatMap fun (b : UInt8) =>
      [hexDigit (b >>> 4), hexDigit (b &&& 0x0f)])

theorem httpfsSparseMd5HexLogged_value (data : Bytes) (baseOffset : Int) :
    (httpfsSparseMd5HexLogged data baseOffset).value = httpfsSparseMd5Hex data baseOffset := by
  simp only [httpfsSparseMd5HexLogged, httpfsSparseMd5Hex]
  split
  · rfl
  · rw [value_bind, sparseMd5UpdateLogged_value]
    rfl

theorem mem_httpfsSparseMd5HexLogged {data : Bytes} {baseOffset sum : Int} :
    sum ∈ (httpfsSparseMd5HexLogged data baseOffset).log ↔
      0 ≤ baseOffset ∧ baseOffset ≤ sum ∧ sum < baseOffset + data.length := by
  simp only [httpfsSparseMd5HexLogged]
  split
  · next negative =>
    simp only [log_pure, List.not_mem_nil, false_iff]
    omega
  · next notNegative =>
    simp only [log_bind, log_pure, List.append_nil, mem_sparseMd5UpdateLogged]
    omega

namespace CProvider

variable {κ : Type}

namespace Host

def preadFullLogged (host : Host κ) (file length offset : Nat) :
    Logged Int (Except Int Bytes × Host κ) := do
  let outcome ← (FullTransfer.runLogged isEintr length
    (fun total => host.available file (length - total) (offset + total))
    (fun total n buffer => buffer ++ Region.slice (host.contents file) (offset + total) n)
    host.preads 0 []).relabel fun total : Nat => (offset : Int) + total
  return (outcome.result.map fun total => outcome.state.take total,
    { host with preads := outcome.returns })

def pwriteFullLogged (host : Host κ) (file : Nat) (buffer : Bytes) (offset : Nat) :
    Logged Int (Except Int Nat × Host κ) := do
  let outcome ← (FullTransfer.runLogged isEintr buffer.length
    (fun total => buffer.length - total)
    (fun total n contents =>
      Region.overwrite 0 contents (offset + total) (Region.slice buffer total n))
    host.pwrites 0 (host.contents file)).relabel fun total : Nat => (offset : Int) + total
  return (outcome.result, { host.setContents file outcome.state with pwrites := outcome.returns })

theorem preadFullLogged_value (host : Host κ) (file length offset : Nat) :
    (host.preadFullLogged file length offset).value = host.preadFull file length offset := by
  simp only [preadFullLogged, value_bind, value_relabel, FullTransfer.runLogged_value]
  rfl

theorem pwriteFullLogged_value (host : Host κ) (file : Nat) (buffer : Bytes) (offset : Nat) :
    (host.pwriteFullLogged file buffer offset).value = host.pwriteFull file buffer offset := by
  simp only [pwriteFullLogged, value_bind, value_relabel, FullTransfer.runLogged_value]
  rfl

theorem preadFullLogged_sums (host : Host κ) (file length offset : Nat) :
    ∀ sum ∈ (host.preadFullLogged file length offset).log,
      (offset : Int) ≤ sum ∧ sum < offset + length := by
  simp only [preadFullLogged, log_bind, log_relabel, log_pure, List.append_nil,
    List.forall_mem_map]
  intro total isCall
  have bound := FullTransfer.runLogged_lt _ _ _ total isCall
  omega

theorem pwriteFullLogged_sums (host : Host κ) (file : Nat) (buffer : Bytes) (offset : Nat) :
    ∀ sum ∈ (host.pwriteFullLogged file buffer offset).log,
      (offset : Int) ≤ sum ∧ sum < offset + buffer.length := by
  simp only [pwriteFullLogged, log_bind, log_relabel, log_pure, List.append_nil,
    List.forall_mem_map]
  intro total isCall
  have bound := FullTransfer.runLogged_lt _ _ _ total isCall
  omega

end Host

def writeTargetLogged (request : RequestContext) : Logged Int (Except HttpfsError WriteTarget) :=
  let decoded : Option (Bytes × Bytes) := do
    let path ← queryValue request.query (ascii "path") 2048
    let offsetText ← queryValue request.query (ascii "offset") 64
    let localPath ← resolvePath request.rootDir path 4096
    return (offsetText, localPath)
  match decoded with
  | none => return .error ⟨Errno.EINVAL, ascii "invalid write body"⟩
  | some (offsetText, localPath) =>
      let offset := (strtol offsetText).value
      if offset < 0 then
        return .error ⟨Errno.EINVAL, ascii "invalid write offset"⟩
      else if !httpfsIsValidMd5Hex request.contentMd5 then
        return .error ⟨Errno.EINVAL, ascii "missing or invalid content md5"⟩
      else do
        match ← httpfsSparseMd5HexLogged request.body offset with
        | none => return .error ⟨Errno.EIO, ascii "failed to compute write content md5"⟩
        | some expectedMd5 =>
            if expectedMd5 ≠ request.contentMd5 then
              return .error ⟨Errno.EIO, ascii "write content md5 verification failed"⟩
            else
              return .ok ⟨localPath, offset, expectedMd5⟩

def verifyStoredLogged (kernel : Kernel κ) (target : WriteTarget) (body : Bytes) (file : Nat)
    (host : Host κ) : Logged Int (HttpReply × Host κ) :=
  let (allocated, host) := host.malloc
  if allocated then do
    match ← host.preadFullLogged file body.length target.offset.toNat with
    | (.error errnoValue, host) => return (sendErrno kernel errnoValue, host)
    | (.ok verifyBuffer, host) =>
        let failed := (sendErrorJson Errno.EIO
          (ascii "stored content md5 verification failed"), host)
        if verifyBuffer.length ≠ body.length then
          return failed
        else
          match ← httpfsSparseMd5HexLogged verifyBuffer target.offset with
          | none => return failed
          | some actualMd5 =>
              if actualMd5 ≠ target.expectedMd5 then
                return failed
              else
                return (sendOk (writtenPayload body.length actualMd5), host)
  else
    return (sendErrorJson Errno.ENOMEM (ascii "memory allocation failed"), host)

/-- `handleWrite` with the sums evaluated on the way. -/
def handleWriteLogged (kernel : Kernel κ) (request : RequestContext) (host : Host κ) :
    Logged Int (HttpReply × Host κ) := do
  match ← writeTargetLogged request with
  | .error error => return (sendErrorJson error.errnoValue error.message, host)
  | .ok target =>
      match kernel.openFile host.names target.localPath .readWrite with
      | .error errnoValue => return (sendErrno kernel errnoValue, host)
      | .ok file =>
          match ← host.pwriteFullLogged file request.body target.offset.toNat with
          | (.error errnoValue, host) => return (sendErrno kernel errnoValue, host)
          | (.ok written, host) =>
              if written ≠ request.body.length then
                return (sendErrorJson Errno.EIO (ascii "short write"), host)
              else
                verifyStoredLogged kernel target request.body file host

theorem writeTargetLogged_value (request : RequestContext) :
    (writeTargetLogged request).value = writeTarget request := by
  simp only [writeTargetLogged, writeTarget]
  cases queryValue request.query (ascii "path") 2048 with
  | none => rfl
  | some path =>
      cases queryValue request.query (ascii "offset") 64 with
      | none => rfl
      | some offsetText =>
          simp only [Option.bind_eq_bind, Option.bind_some, Option.pure_def]
          cases resolvePath request.rootDir path 4096 with
          | none => rfl
          | some localPath =>
              simp only [Option.bind_some]
              split
              · rfl
              · split
                · rfl
                · rw [value_bind, httpfsSparseMd5HexLogged_value]
                  cases httpfsSparseMd5Hex request.body (strtol offsetText).value with
                  | none => rfl
                  | some expectedMd5 =>
                      simp only
                      split <;> rfl

theorem verifyStoredLogged_value (kernel : Kernel κ) (target : WriteTarget) (body : Bytes)
    (file : Nat) (host : Host κ) :
    (verifyStoredLogged kernel target body file host).value =
      verifyStored kernel target body file host := by
  simp only [verifyStoredLogged, verifyStored]
  split
  · rw [value_bind, Host.preadFullLogged_value]
    obtain ⟨result, after⟩ :=
      host.malloc.2.preadFull file body.length target.offset.toNat
    cases result with
    | error errnoValue => rfl
    | ok verifyBuffer =>
        simp only
        split
        · rfl
        · rw [value_bind, httpfsSparseMd5HexLogged_value]
          cases httpfsSparseMd5Hex verifyBuffer target.offset with
          | none => rfl
          | some actualMd5 =>
              simp only
              split <;> rfl
  · rfl

theorem handleWriteLogged_value (kernel : Kernel κ) (request : RequestContext) (host : Host κ) :
    (handleWriteLogged kernel request host).value = handleWrite kernel request host := by
  rw [handleWriteLogged, value_bind, writeTargetLogged_value, handleWrite]
  cases writeTarget request with
  | error error => rfl
  | ok target =>
      simp only
      cases kernel.openFile host.names target.localPath .readWrite with
      | error errnoValue => rfl
      | ok file =>
          simp only
          rw [value_bind, Host.pwriteFullLogged_value]
          obtain ⟨result, after⟩ := host.pwriteFull file request.body target.offset.toNat
          cases result with
          | error errnoValue => rfl
          | ok written =>
              simp only
              split
              · rfl
              · exact verifyStoredLogged_value ..

structure ReachesDigest (request : RequestContext) (offset : Int) : Prop where
  path : (queryPath request).isSome
  isOffset : requestOffset request = some offset
  notNegative : 0 ≤ offset
  digest : httpfsIsValidMd5Hex request.contentMd5 = true

section Sums

variable {request : RequestContext} {offset : Int}

theorem writeTargetLogged_log (reaches : ReachesDigest request offset) :
    (writeTargetLogged request).log = (httpfsSparseMd5HexLogged request.body offset).log := by
  obtain ⟨⟨path, localPath⟩, hasPath⟩ := Option.isSome_iff_exists.mp reaches.path
  obtain ⟨queried, resolved⟩ := queryPath_eq_some.mp hasPath
  obtain ⟨text, hasText, isOffset⟩ := Option.map_eq_some_iff.mp reaches.isOffset
  have notNegative : ¬ offset < 0 := Int.not_lt.mpr reaches.notNegative
  simp only [writeTargetLogged, queried, hasText, resolved, isOffset, notNegative,
    reaches.digest, Option.bind_eq_bind, Option.bind_some, Option.pure_def, Bool.not_true,
    Bool.false_eq_true, if_false, log_bind]
  split
  · simp
  · split <;> simp

theorem verifyStoredLogged_sums {kernel : Kernel κ} {target : WriteTarget} {body : Bytes}
    {file : Nat} {host : Host κ} (notNegative : 0 ≤ target.offset) :
    ∀ sum ∈ (verifyStoredLogged kernel target body file host).log,
      target.offset ≤ sum ∧ sum < target.offset + body.length := by
  have isOffset : (target.offset.toNat : Int) = target.offset := Int.toNat_of_nonneg notNegative
  simp only [verifyStoredLogged]
  split
  · have reading := host.malloc.2.preadFullLogged_sums file body.length target.offset.toNat
    rw [isOffset] at reading
    rw [log_bind]
    apply List.forall_mem_append.mpr ⟨reading, ?_⟩
    split
    · simp
    · split
      · simp
      · next buffer _ _ whole =>
        rw [log_bind]
        refine List.forall_mem_append.mpr ⟨?_, ?_⟩
        · intro sum isSum
          obtain ⟨_, lower, upper⟩ := mem_httpfsSparseMd5HexLogged.mp isSum
          rw [Decidable.not_not.mp whole] at upper
          exact ⟨lower, upper⟩
        · split
          · simp
          · split <;> simp
  · simp

/-- A request that reaches the computation of its digest has exactly the positions of its
body evaluated, whatever happens after that. -/
theorem mem_handleWriteLogged (kernel : Kernel κ) (host : Host κ)
    (reaches : ReachesDigest request offset) {sum : Int} :
    sum ∈ (handleWriteLogged kernel request host).log ↔
      offset ≤ sum ∧ sum < offset + request.body.length := by
  rw [handleWriteLogged, log_bind, writeTargetLogged_log reaches, List.mem_append,
    mem_httpfsSparseMd5HexLogged]
  constructor
  · rintro (⟨_, bounds⟩ | later)
    · exact bounds
    · rw [writeTargetLogged_value] at later
      split at later
      · simp at later
      · next target passed =>
        obtain ⟨isOffset, notNegative, _⟩ := writeTarget_ok passed
        obtain rfl : target.offset = offset :=
          Option.some.inj (isOffset.symm.trans reaches.isOffset)
        have toNat : (target.offset.toNat : Int) = target.offset :=
          Int.toNat_of_nonneg notNegative
        split at later
        · simp at later
        · next file _ =>
          have writing := host.pwriteFullLogged_sums file request.body target.offset.toNat
          rw [toNat] at writing
          rw [log_bind, List.mem_append] at later
          obtain inWrite | later := later
          · exact writing sum inWrite
          · split at later
            · simp at later
            · split at later
              · simp at later
              · exact verifyStoredLogged_sums notNegative sum later
  · exact fun bounds => .inl ⟨reaches.notNegative, bounds⟩

/-- The sums stay in the range of `off_t` if and only if the last byte of the body does. -/
theorem handleWriteLogged_inRange_iff (kernel : Kernel κ) (host : Host κ)
    (reaches : ReachesDigest request offset) :
    (handleWriteLogged kernel request host).value = handleWrite kernel request host ∧
      ((∀ sum ∈ (handleWriteLogged kernel request host).log,
          longMin ≤ sum ∧ sum ≤ longMax) ↔
        request.body = [] ∨ offset + request.body.length ≤ 2 ^ 63) := by
  refine ⟨handleWriteLogged_value kernel request host, ?_⟩
  have notNegative := reaches.notNegative
  simp only [mem_handleWriteLogged kernel host reaches, longMin, longMax]
  constructor
  · intro inRange
    by_cases empty : request.body = []
    · exact .inl empty
    · right
      have positive := List.length_pos_iff.mpr empty
      have last := inRange (offset + request.body.length - 1) (by omega)
      omega
  · rintro (empty | bound) sum ⟨lower, upper⟩
    · rw [empty] at upper
      simp only [List.length_nil] at upper
      omega
    · omega

end Sums

def lastOffsetRequest : RequestContext where
  method := ascii "POST"
  path := ascii "/v1/write"
  query := ascii "path=/a&offset=9223372036854775807"
  contentMd5 := ascii "d41d8cd98f00b204e9800998ecf8427e"
  body := ascii "xy"
  rootDir := ascii "/srv"

theorem reachesDigest_lastOffset : ReachesDigest lastOffsetRequest 9223372036854775807 :=
  ⟨by decide +kernel, by decide +kernel, by decide, by decide +kernel⟩

theorem reachesDigest_twoByte : ReachesDigest twoByteRequest 4 :=
  ⟨by decide +kernel, by decide +kernel, by decide, by decide +kernel⟩

theorem handleWriteLogged_twoByte :
    twoByteRequest.body.length = 2 ∧
      ∀ sum ∈ (handleWriteLogged (Kernel.single (ascii "/srv/a")) twoByteRequest
        (Host.calm (ascii "abc"))).log, longMin ≤ sum ∧ sum ≤ longMax :=
  ⟨rfl, (handleWriteLogged_inRange_iff _ _ reachesDigest_twoByte).2.mpr (.inr (by decide))⟩

theorem handleWriteLogged_lastOffset :
    ¬ ∀ (request : RequestContext) (offset : Int), ReachesDigest request offset →
      ∀ (kernel : Kernel Unit) (host : Host Unit),
        ∀ sum ∈ (handleWriteLogged kernel request host).log, longMin ≤ sum ∧ sum ≤ longMax := by
  intro inRange
  have evaluated : (2 ^ 63 : Int) ∈ (handleWriteLogged (Kernel.single (ascii "/srv/a"))
      lastOffsetRequest (Host.calm [])).log :=
    (mem_handleWriteLogged _ _ reachesDigest_lastOffset).mpr (by decide)
  have bound := (inRange lastOffsetRequest _ reachesDigest_lastOffset _ _ _ evaluated).2
  exact absurd bound (by decide)

end CProvider

end HttpFs
