import HttpFs.Provider.GuardedWrite

namespace HttpFs.CProvider

open Region

variable {κ : Type}

theorem setContents_same (host : Host κ) (file : Nat) :
    host.setContents file (host.contents file) = host := by
  have same : (fun other => if other = file then host.contents file else host.contents other) =
      host.contents := by
    funext other
    split
    · next isFile => rw [isFile]
    · rfl
  rw [Host.setContents, same]

theorem setContents_setContents (host : Host κ) (file : Nat) (first second : Bytes) :
    (host.setContents file first).setContents file second = host.setContents file second := by
  simp only [Host.setContents]
  congr 1
  funext other
  split <;> rfl

/-- All calls of the machine succeed in full. -/
structure Calm (host : Host κ) : Prop where
  mallocs : host.mallocs = []
  preads : host.preads = []
  pwrites : host.pwrites = []

theorem Calm.setContents {host : Host κ} (calm : Calm host) (file : Nat) (contents : Bytes) :
    Calm (host.setContents file contents) :=
  ⟨calm.mallocs, calm.preads, calm.pwrites⟩

theorem Calm.malloc {host : Host κ} (calm : Calm host) : host.malloc = (true, host) := by
  obtain ⟨mallocs, _, _⟩ := calm
  cases host
  cases mallocs
  rfl

theorem Calm.pwriteFull {host : Host κ} (calm : Calm host) (file : Nat) (buffer : Bytes)
    (offset : Nat) : host.pwriteFull file buffer offset =
      (.ok buffer.length,
        host.setContents file (overwrite 0 (host.contents file) offset buffer)) := by
  obtain ⟨_, _, pwrites⟩ := calm
  cases host with
  | mk names contents mallocs preads script =>
      cases pwrites
      simp only [Host.pwriteFull, FullTransfer.run]
      split
      · simp [Host.setContents, slice]
      · next nothing =>
        have empty : buffer = [] := List.eq_nil_of_length_eq_zero (by omega)
        simp [empty, Host.setContents]

theorem Calm.preadFull {host : Host κ} (calm : Calm host) {file length offset : Nat}
    (inFile : offset + length ≤ (host.contents file).length) :
    host.preadFull file length offset =
      (.ok (slice (host.contents file) offset length), host) := by
  obtain ⟨_, preads, _⟩ := calm
  cases host with
  | mk names contents mallocs script pwrites =>
      cases preads
      simp only [Host.preadFull, FullTransfer.run]
      split
      · have all : Host.available (⟨names, contents, mallocs, [], pwrites⟩ : Host κ) file
            (length - 0) offset = length := by
          simp only [Host.available] at inFile ⊢
          omega
        simp only [all, List.nil_append, Nat.add_zero, Nat.zero_add, Except.map]
        rw [List.take_of_length_le (by rw [length_slice]; omega)]
      · next nothing =>
        obtain rfl : length = 0 := by omega
        simp [slice_zero, Except.map]

theorem Calm.preadFull_back {host : Host κ} (calm : Calm host) {file offset : Nat}
    {body : Bytes} (inFile : body = [] ∨ offset + body.length ≤ (host.contents file).length) :
    host.preadFull file body.length offset =
      (.ok (slice (host.contents file) offset body.length), host) := by
  rcases inFile with rfl | inFile
  · obtain ⟨_, preads, _⟩ := calm
    cases host with
    | mk names contents mallocs script pwrites =>
        cases preads
        simp [Host.preadFull, FullTransfer.run, slice_zero, Except.map]
  · exact calm.preadFull inFile

def storedReply (target : WriteTarget) (body stored : Bytes) : HttpReply :=
  if httpfsSparseMd5Hex stored target.offset = some target.expectedMd5 then
    sendOk (writtenPayload body.length target.expectedMd5)
  else
    sendErrorJson Errno.EIO (ascii "stored content md5 verification failed")

theorem verifyStored_calm {kernel : Kernel κ} {host : Host κ} {target : WriteTarget}
    {body : Bytes} {file : Nat} (calm : Calm host)
    (inFile : body = [] ∨
      target.offset.toNat + body.length ≤ (host.contents file).length) :
    verifyStored kernel target body file host =
      (storedReply target body (slice (host.contents file) target.offset.toNat body.length),
        host) := by
  have length : (slice (host.contents file) target.offset.toNat body.length).length =
      body.length := by
    rw [length_slice]
    rcases inFile with rfl | inFile
    · simp
    · omega
  simp only [verifyStored, calm.malloc, if_true, calm.preadFull_back inFile, length,
    ne_eq, not_true_eq_false, if_false, storedReply]
  cases digest : httpfsSparseMd5Hex
    (slice (host.contents file) target.offset.toNat body.length) target.offset with
  | none => rfl
  | some actualMd5 =>
      by_cases same : actualMd5 = target.expectedMd5
      · simp [same]
      · simp [same]

theorem inFile_overwrite (contents : Bytes) (offset : Nat) (body : Bytes) :
    body = [] ∨ offset + body.length ≤ (overwrite 0 contents offset body).length := by
  by_cases empty : body = []
  · exact .inl empty
  · refine .inr ?_
    rw [length_overwrite empty]
    omega

theorem storedReply_body {request : RequestContext} {target : WriteTarget}
    (checked : writeTarget request = .ok target) :
    storedReply target request.body request.body =
      sendOk (writtenPayload request.body.length target.expectedMd5) := by
  obtain ⟨isOffset, _, isMd5, ⟨_, offset, isAsked, digest⟩, _⟩ := writeTarget_ok checked
  obtain rfl : target.offset = offset := Option.some.inj (isOffset.symm.trans isAsked)
  rw [storedReply, if_pos (isMd5 ▸ digest)]

theorem handleWrite_calm {kernel : Kernel κ} {request : RequestContext} {host : Host κ}
    {target : WriteTarget} {file : Nat} (calm : Calm host)
    (checked : writeTarget request = .ok target)
    (opened : kernel.openFile host.names target.localPath .readWrite = .ok file) :
    handleWrite kernel request host =
      (sendOk (writtenPayload request.body.length target.expectedMd5),
        host.setContents file
          (overwrite 0 (host.contents file) target.offset.toNat request.body)) := by
  have written : (host.setContents file
      (overwrite 0 (host.contents file) target.offset.toNat request.body)).contents file =
        overwrite 0 (host.contents file) target.offset.toNat request.body := by
    simp [Host.setContents]
  have verified := @verifyStored_calm _ kernel _ target request.body file
    (calm.setContents file (overwrite 0 (host.contents file) target.offset.toNat request.body))
    (by rw [written]; exact inFile_overwrite ..)
  rw [written, slice_overwrite, storedReply_body checked] at verified
  simp only [handleWrite, checked, opened, calm.pwriteFull]
  simpa using verified

end HttpFs.CProvider
