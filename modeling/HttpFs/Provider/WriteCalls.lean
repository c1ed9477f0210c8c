import HttpFs.Foundation.Patches
import HttpFs.Provider.CalmWrite
import Mathlib.Logic.Function.Iterate

namespace HttpFs.CProvider

open Region

variable {κ : Type}

/-! `handle_write` as the calls that it makes, one after the other. -/

/-- One `pwrite` of a buffer. -/
def Host.pwrite (host : Host κ) (file : Nat) (buffer : Bytes) (offset : Nat) :
    Except Int Nat × Host κ :=
  let (result, pwrites) := FullTransfer.once buffer.length host.pwrites
  match result with
  | .error errnoValue => (.error errnoValue, { host with pwrites })
  | .ok n =>
      (.ok n,
        { host.setContents file (overwrite 0 (host.contents file) offset (buffer.take n)) with
          pwrites })

/-- Where a worker is in `handle_write`: in front of its calls on the file, in the loop of
`pwrite_full`, in that of `pread_full`, or behind them. -/
inductive CallPhase where
  | arrived
  | writing (target : WriteTarget) (file totalWritten : Nat)
  | verifying (target : WriteTarget) (file : Nat) (verifyBuffer : Bytes)
  | replied (reply : HttpReply)

def CallPhase.reply : CallPhase → Option HttpReply
  | .replied reply => some reply
  | .arrived | .writing .. | .verifying .. => none

theorem CallPhase.of_reply {phase : CallPhase} {reply : HttpReply}
    (isReply : phase.reply = some reply) : phase = .replied reply := by
  cases phase with
  | replied other => exact congrArg _ (Option.some.inj isReply)
  | arrived | writing | verifying => contradiction

def verificationFailed : HttpReply :=
  sendErrorJson Errno.EIO (ascii "stored content md5 verification failed")

def callStep (kernel : Kernel κ) (request : RequestContext) :
    CallPhase → Host κ → CallPhase × Host κ
  | .arrived, host =>
      match writeTarget request with
      | .error error => (.replied (sendErrorJson error.errnoValue error.message), host)
      | .ok target =>
          match kernel.openFile host.names target.localPath .readWrite with
          | .error errnoValue => (.replied (sendErrno kernel errnoValue), host)
          | .ok file => (.writing target file 0, host)
  | .writing target file totalWritten, host =>
      if totalWritten < request.body.length then
        match host.pwrite file (request.body.drop totalWritten)
          (target.offset.toNat + totalWritten) with
        | (.error errnoValue, host) =>
            if Host.isEintr errnoValue then (.writing target file totalWritten, host)
            else (.replied (sendErrno kernel errnoValue), host)
        | (.ok written, host) =>
            if written = 0 then
              (.replied (sendErrorJson Errno.EIO (ascii "short write")), host)
            else
              (.writing target file (totalWritten + written), host)
      else
        let (allocated, host) := host.malloc
        if allocated then (.verifying target file [], host)
        else (.replied (sendErrorJson Errno.ENOMEM (ascii "memory allocation failed")), host)
  | .verifying target file verifyBuffer, host =>
      if verifyBuffer.length < request.body.length then
        match host.pread file (request.body.length - verifyBuffer.length)
          (target.offset.toNat + verifyBuffer.length) with
        | (.error errnoValue, host) =>
            if Host.isEintr errnoValue then (.verifying target file verifyBuffer, host)
            else (.replied (sendErrno kernel errnoValue), host)
        | (.ok bytes, host) =>
            if bytes = [] then (.replied verificationFailed, host)
            else (.verifying target file (verifyBuffer ++ bytes), host)
      else
        (.replied (storedReply target request.body verifyBuffer), host)
  | .replied reply, host => (.replied reply, host)

section Alone

variable (kernel : Kernel κ) (request : RequestContext)

/-- The calls of a worker that is left alone lead from one point to another. -/
def Leads (start finish : CallPhase × Host κ) : Prop :=
  ∃ n, (fun state : CallPhase × Host κ => callStep kernel request state.1 state.2)^[n] start =
    finish

variable {kernel request} {start middle finish : CallPhase × Host κ}

theorem Leads.refl : Leads kernel request start start := ⟨0, rfl⟩

theorem Leads.trans (first : Leads kernel request start middle)
    (second : Leads kernel request middle finish) : Leads kernel request start finish := by
  obtain ⟨n, rfl⟩ := first
  obtain ⟨m, rfl⟩ := second
  exact ⟨m + n, Function.iterate_add_apply _ m n start⟩

theorem Leads.step (rest : Leads kernel request (callStep kernel request start.1 start.2)
    finish) : Leads kernel request start finish := by
  obtain ⟨n, rfl⟩ := rest
  exact ⟨n + 1, rfl⟩

variable {target : WriteTarget} {file : Nat}

/-- The end of the loop of `pwrite_full`. -/
def afterPwriteFull (kernel : Kernel κ) (request : RequestContext) (target : WriteTarget)
    (file : Nat) (host : Host κ) : Except Int Nat → CallPhase × Host κ
  | .error errnoValue => (.replied (sendErrno kernel errnoValue), host)
  | .ok written =>
      if written ≠ request.body.length then
        (.replied (sendErrorJson Errno.EIO (ascii "short write")), host)
      else
        (.writing target file written, host)

/-- A host whose file has been written up to some point, with the returns that are left. -/
def written (host : Host κ) (file : Nat) (contents : Bytes) (pwrites : List SysReturn) :
    Host κ :=
  { host.setContents file contents with pwrites }

theorem pwrite_written (host : Host κ) (file : Nat) (contents buffer : Bytes) (offset : Nat)
    (pwrites : List SysReturn) :
    (written host file contents pwrites).pwrite file buffer offset =
      match FullTransfer.once buffer.length pwrites with
      | (.error errnoValue, rest) => (.error errnoValue, written host file contents rest)
      | (.ok n, rest) =>
          (.ok n, written host file (overwrite 0 contents offset (buffer.take n)) rest) := by
  have here : (written host file contents pwrites).contents file = contents := by
    simp [written, Host.setContents]
  have again (other : Bytes) (rest : List SysReturn) :
      { (written host file contents pwrites).setContents file other with pwrites := rest } =
        written host file other rest := by
    simp only [written, Host.setContents]
    congr 1
    funext another
    split <;> rfl
  have returns : (written host file contents pwrites).pwrites = pwrites := rfl
  simp only [Host.pwrite, here, returns]
  cases FullTransfer.once buffer.length pwrites with
  | mk result rest =>
      cases result with
      | error errnoValue => rfl
      | ok n => exact congrArg (Prod.mk (Except.ok n)) (again _ rest)

theorem leads_pwriteFull {host : Host κ} :
    Leads kernel request (.writing target file 0, host)
      (afterPwriteFull kernel request target file
        (host.pwriteFull file request.body target.offset.toNat).2
        (host.pwriteFull file request.body target.offset.toNat).1) := by
  have calls := @FullTransfer.run_calls Int Bytes Host.isEintr request.body.length
    (fun total => request.body.length - total)
    (fun total n contents => overwrite 0 contents (target.offset.toNat + total)
      (slice request.body total n))
    (fun returns total contents outcome => total ≤ request.body.length →
      Leads kernel request (.writing target file total, written host file contents returns)
        (afterPwriteFull kernel request target file
          (written host file outcome.state outcome.returns) outcome.result))
    ?_ ?_ ?_ ?_ ?_ ?_ ?_ host.pwrites 0 (host.contents file) (Nat.zero_le _)
  · have same : written host file (host.contents file) host.pwrites = host := by
      rw [written, setContents_same]
    rw [same] at calls
    exact calls
  · intro total
    omega
  · intro total contents
    simp [slice_zero]
  · intro returns total contents all within
    have whole : total = request.body.length := by omega
    rw [afterPwriteFull, if_neg (by omega)]
    exact Leads.refl
  · intro returns rest total contents errnoValue more returned notRetried within
    apply Leads.step
    rw [← List.length_drop] at returned
    simp only [callStep, if_pos more, pwrite_written, returned, notRetried]
    exact Leads.refl
  · intro returns rest total contents errnoValue outcome more returned isRetried later within
    apply Leads.step
    rw [← List.length_drop] at returned
    simp only [callStep, if_pos more, pwrite_written, returned, isRetried, if_true]
    exact later within
  · intro returns rest total contents more returned within
    apply Leads.step
    rw [← List.length_drop] at returned
    rw [afterPwriteFull, if_pos (by omega)]
    simp only [callStep, if_pos more, pwrite_written, returned, if_true, List.take_zero,
      overwrite_nil]
    exact Leads.refl
  · intro returns rest total contents n outcome more returned something later within
    have bound := (FullTransfer.once_le returned)
    apply Leads.step
    rw [← List.length_drop] at returned
    simp only [callStep, if_pos more, pwrite_written, returned, if_neg (Nat.ne_of_gt something)]
    exact later (by omega)

theorem pread_preads (host : Host κ) (file size offset : Nat) (preads : List SysReturn) :
    ({ host with preads } : Host κ).pread file size offset =
      match FullTransfer.once (host.available file size offset) preads with
      | (.error errnoValue, rest) => (.error errnoValue, { host with preads := rest })
      | (.ok n, rest) =>
          (.ok (slice (host.contents file) offset n), { host with preads := rest }) := by
  have limit : ({ host with preads } : Host κ).available file size offset =
      host.available file size offset := rfl
  simp only [Host.pread, limit]
  cases FullTransfer.once (host.available file size offset) preads with
  | mk result rest => cases result <;> rfl

/-- The end of the loop of `pread_full`. -/
def afterPreadFull (kernel : Kernel κ) (request : RequestContext) (target : WriteTarget)
    (host : Host κ) : Except Int Bytes → CallPhase × Host κ
  | .error errnoValue => (.replied (sendErrno kernel errnoValue), host)
  | .ok verifyBuffer =>
      if verifyBuffer.length ≠ request.body.length then
        (.replied verificationFailed, host)
      else
        (.replied (storedReply target request.body verifyBuffer), host)

theorem leads_preadFull {host : Host κ} :
    Leads kernel request (.verifying target file [], host)
      (afterPreadFull kernel request target
        (host.preadFull file request.body.length target.offset.toNat).2
        (host.preadFull file request.body.length target.offset.toNat).1) := by
  refine @FullTransfer.run_calls Int Bytes Host.isEintr request.body.length
    (fun total => host.available file (request.body.length - total)
      (target.offset.toNat + total))
    (fun total n buffer => buffer ++ slice (host.contents file) (target.offset.toNat + total) n)
    (fun returns total buffer outcome => buffer.length = total → total ≤ request.body.length →
      Leads kernel request (.verifying target file buffer, { host with preads := returns })
        (afterPreadFull kernel request target { host with preads := outcome.returns }
          (outcome.result.map fun total => outcome.state.take total)))
    ?_ ?_ ?_ ?_ ?_ ?_ ?_ host.preads 0 [] rfl (Nat.zero_le _)
  · intro total
    simp only [Host.available]
    omega
  · intro total buffer
    rw [slice_zero, List.append_nil]
  · rintro returns _ buffer all rfl within
    apply Leads.step
    simp only [callStep, if_neg all, Except.map, afterPreadFull, List.take_length]
    rw [if_neg (by omega)]
    exact Leads.refl
  · rintro returns rest _ buffer errnoValue more returned notRetried rfl within
    apply Leads.step
    simp only [callStep, if_pos more, pread_preads, returned, notRetried]
    exact Leads.refl
  · rintro returns rest _ buffer errnoValue outcome more returned isRetried later rfl within
    apply Leads.step
    simp only [callStep, if_pos more, pread_preads, returned, isRetried, if_true]
    exact later rfl within
  · rintro returns rest _ buffer more returned rfl within
    apply Leads.step
    simp only [callStep, if_pos more, pread_preads, returned, slice_zero, if_true, Except.map,
      afterPreadFull, List.take_length]
    rw [if_pos (by omega)]
    exact Leads.refl
  · rintro returns rest _ buffer n outcome more returned something later rfl within
    have bound := FullTransfer.once_le returned
    simp only [Host.available] at bound
    have length : (slice (host.contents file) (target.offset.toNat + buffer.length) n).length =
        n := by
      rw [length_slice]
      omega
    have nonempty : slice (host.contents file) (target.offset.toNat + buffer.length) n ≠ [] := by
      intro empty
      rw [empty] at length
      exact absurd length (Nat.ne_of_lt something)
    apply Leads.step
    simp only [callStep, if_pos more, pread_preads, returned, if_neg nonempty]
    exact later (by rw [List.length_append, length]) (by omega)

theorem verifyStored_eq {host : Host κ} :
    (.replied (verifyStored kernel target request.body file host).1,
        (verifyStored kernel target request.body file host).2) =
      if host.malloc.1 then
        afterPreadFull kernel request target
          (host.malloc.2.preadFull file request.body.length target.offset.toNat).2
          (host.malloc.2.preadFull file request.body.length target.offset.toNat).1
      else
        (.replied (sendErrorJson Errno.ENOMEM (ascii "memory allocation failed")),
          host.malloc.2) := by
  simp only [verifyStored]
  split
  · cases host.malloc.2.preadFull file request.body.length target.offset.toNat with
    | mk result after =>
        cases result with
        | error errnoValue => rfl
        | ok verifyBuffer =>
            simp only [afterPreadFull]
            split
            · rfl
            · simp only [storedReply]
              cases httpfsSparseMd5Hex verifyBuffer target.offset with
              | none => rfl
              | some actualMd5 =>
                  by_cases same : actualMd5 = target.expectedMd5
                  · simp [same]
                  · simp [same]
  · rfl

/-- A worker that is left alone does what `handle_write` does. -/
theorem leads_handleWrite (kernel : Kernel κ) (request : RequestContext) (host : Host κ) :
    Leads kernel request (.arrived, host)
      (.replied (handleWrite kernel request host).1, (handleWrite kernel request host).2) := by
  apply Leads.step
  cases checked : writeTarget request with
  | error error =>
      simp only [callStep, handleWrite, checked]
      exact Leads.refl
  | ok target =>
      cases opened : kernel.openFile host.names target.localPath .readWrite with
      | error errnoValue =>
          simp only [callStep, handleWrite, checked, opened]
          exact Leads.refl
      | ok file =>
          simp only [callStep, handleWrite, checked, opened]
          refine Leads.trans leads_pwriteFull ?_
          cases host.pwriteFull file request.body target.offset.toNat with
          | mk result after =>
              cases result with
              | error errnoValue => exact Leads.refl
              | ok total =>
                  simp only [afterPwriteFull]
                  split
                  · exact Leads.refl
                  · next whole =>
                    rw [verifyStored_eq]
                    apply Leads.step
                    have all : ¬ total < request.body.length := by omega
                    simp only [callStep, if_neg all]
                    split
                    · exact leads_preadFull
                    · exact Leads.refl

end Alone

end HttpFs.CProvider
