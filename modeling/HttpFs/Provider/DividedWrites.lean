import HttpFs.Provider.WriteCalls
import Mathlib.Data.List.Induction

namespace HttpFs.CProvider

open Region

variable {κ ι : Type}

/-! Workers in `handle_write` at the same time, whose calls come in any order. -/

/-- The workers, with the part of its body that each of them has put into the file. -/
structure CallWriters (κ ι : Type) where
  host : Host κ
  phase : ι → CallPhase
  written : ι → Bytes

namespace CallWriters

def start (host : Host κ) : CallWriters κ ι := ⟨host, fun _ => .arrived, fun _ => []⟩

variable [DecidableEq ι]

def step (kernel : Kernel κ) (requests : ι → RequestContext) (writers : CallWriters κ ι)
    (who : ι) : CallWriters κ ι :=
  let (phase, host) := callStep kernel (requests who) (writers.phase who) writers.host
  { host
    phase := Function.update writers.phase who phase
    written :=
      match phase with
      | .writing _ _ totalWritten =>
          Function.update writers.written who ((requests who).body.take totalWritten)
      | _ => writers.written }

def run (kernel : Kernel κ) (requests : ι → RequestContext) (host : Host κ)
    (schedule : List ι) : CallWriters κ ι :=
  schedule.foldl (step kernel requests) (start host)

end CallWriters

def offsets (targets : ι → WriteTarget) (who : ι) : Nat := (targets who).offset.toNat

def bodies (requests : ι → RequestContext) (who : ι) : Bytes := (requests who).body

/-- Write requests that pass the checks and are for parts of one file that have no byte in
common. -/
structure SharedWrites (kernel : Kernel κ) (requests : ι → RequestContext)
    (targets : ι → WriteTarget) (names : κ) (file : Nat) : Prop where
  checked : ∀ who, writeTarget (requests who) = .ok (targets who)
  opened : ∀ who, kernel.openFile names (targets who).localPath .readWrite = .ok file
  apart : Apart (offsets targets) (bodies requests)

/-- No call of the machine stands in the way of a write: memory is given, and calls on
files make some progress or are interrupted. -/
structure Helpful (host : Host κ) : Prop where
  mallocs : ∀ given ∈ host.mallocs, given = true
  preads : ∀ call ∈ host.preads, call.GoesOn Host.isEintr
  pwrites : ∀ call ∈ host.pwrites, call.GoesOn Host.isEintr

theorem Helpful.malloc {host : Host κ} (helpful : Helpful host) :
    host.malloc.1 = true ∧ Helpful host.malloc.2 := by
  obtain ⟨mallocs, preads, pwrites⟩ := helpful
  refine ⟨?_, fun given later => mallocs given (List.mem_of_mem_tail later), preads, pwrites⟩
  cases isList : host.mallocs with
  | nil => simp [Host.malloc, isList]
  | cons first rest =>
      have given := mallocs first (by simp [isList])
      simp [Host.malloc, isList, given]

def success (requests : ι → RequestContext) (targets : ι → WriteTarget) (who : ι) :
    HttpReply :=
  sendOk (writtenPayload (requests who).body.length (targets who).expectedMd5)

def IsRefusal (reply : HttpReply) : Prop :=
  ∃ errnoValue message, reply = sendErrorJson errnoValue message

section

variable (requests : ι → RequestContext) (targets : ι → WriteTarget) (origin : Host κ)
  (file : Nat)

/-- What is known of a worker from its phase. -/
def CallWriters.Place (origin : Host κ) (who : ι) (written : Bytes) : CallPhase → Prop
  | .arrived => written = []
  | .writing target opened totalWritten =>
      target = targets who ∧ opened = file ∧ totalWritten ≤ (requests who).body.length ∧
        written = (requests who).body.take totalWritten
  | .verifying target opened verifyBuffer =>
      target = targets who ∧ opened = file ∧ written = (requests who).body ∧
        verifyBuffer <+: (requests who).body
  | .replied reply =>
      (reply = success requests targets who ∧ written = (requests who).body) ∨
        (¬ Helpful origin ∧ IsRefusal reply ∧ written <+: (requests who).body)

/-- The file is what the parts that have been written make of it, and nothing else has
changed. -/
structure CallWriters.Traced (writers : CallWriters κ ι) : Prop where
  helpful : Helpful origin → Helpful writers.host
  names : writers.host.names = origin.names
  others : ∀ other, other ≠ file → writers.host.contents other = origin.contents other
  patched : Patched 0 (origin.contents file) (writers.host.contents file) (offsets targets)
    writers.written
  place : ∀ who,
    CallWriters.Place requests targets file origin who (writers.written who)
      (writers.phase who)

end

namespace CallWriters

variable {kernel : Kernel κ} {requests : ι → RequestContext} {targets : ι → WriteTarget}
  {origin : Host κ} {file : Nat} {writers : CallWriters κ ι}

theorem Place.isPrefix {who : ι} {written : Bytes} {phase : CallPhase}
    (place : Place requests targets file origin who written phase) :
    written <+: (requests who).body := by
  cases phase with
  | arrived =>
      rw [show written = [] from place]
      exact List.nil_prefix
  | writing target opened totalWritten =>
      obtain ⟨_, _, _, isPart⟩ := place
      rw [isPart]
      exact List.take_prefix _ _
  | verifying target opened verifyBuffer =>
      obtain ⟨_, _, isWhole, _⟩ := place
      exact isWhole ▸ List.prefix_rfl
  | replied reply =>
      obtain ⟨_, isWhole⟩ | ⟨_, _, isPart⟩ := place
      · exact isWhole ▸ List.prefix_rfl
      · exact isPart

theorem start_traced : (start origin : CallWriters κ ι).Traced requests targets origin file :=
  ⟨id, rfl, fun _ _ => rfl, Patched.start, fun _ => rfl⟩

variable [DecidableEq ι]

/-- A step that leaves the file alone. -/
theorem Traced.keep (traced : writers.Traced requests targets origin file) {who : ι}
    {phase : CallPhase} {host : Host κ} (helpful : Helpful writers.host → Helpful host)
    (names : host.names = writers.host.names) (contents : host.contents = writers.host.contents)
    (place : Place requests targets file origin who (writers.written who) phase) :
    Traced requests targets origin file
      ⟨host, Function.update writers.phase who phase, writers.written⟩ := by
  obtain ⟨wasHelpful, sameNames, others, patched, places⟩ := traced
  refine ⟨helpful ∘ wasHelpful, names.trans sameNames, ?_, ?_, ?_⟩
  · rw [contents]
    exact others
  · rw [contents]
    exact patched
  · intro another
    change Place requests targets file origin another (writers.written another)
      (Function.update writers.phase who phase another)
    by_cases same : another = who
    · subst same
      rw [Function.update_self]
      exact place
    · rw [Function.update_of_ne same]
      exact places another

/-- A worker puts more of its body into the file. -/
theorem Traced.store (traced : writers.Traced requests targets origin file)
    (shared : SharedWrites kernel requests targets origin.names file) {who : ι}
    {totalWritten n : Nat} {host : Host κ}
    (isWritten : writers.written who = (requests who).body.take totalWritten)
    (within : totalWritten + n ≤ (requests who).body.length)
    (helpful : Helpful writers.host → Helpful host) (names : host.names = writers.host.names)
    (contents : host.contents = (writers.host.setContents file
      (overwrite 0 (writers.host.contents file) ((targets who).offset.toNat + totalWritten)
        (((requests who).body.drop totalWritten).take n))).contents) :
    Traced requests targets origin file
      ⟨host, Function.update writers.phase who (.writing (targets who) file (totalWritten + n)),
        Function.update writers.written who ((requests who).body.take (totalWritten + n))⟩ := by
  obtain ⟨wasHelpful, sameNames, others, patched, places⟩ := traced
  have more : writers.written who ++ ((requests who).body.drop totalWritten).take n =
      (requests who).body.take (totalWritten + n) := by
    rw [isWritten, List.take_add]
  have length : (writers.written who).length = totalWritten := by
    rw [isWritten, List.length_take]
    omega
  have apart : Apart (offsets targets) (Function.update writers.written who
      (writers.written who ++ ((requests who).body.drop totalWritten).take n)) := by
    refine Apart.of_prefix shared.apart fun another => ?_
    by_cases same : another = who
    · subst same
      rw [Function.update_self, more]
      exact List.take_prefix _ _
    · rw [Function.update_of_ne same]
      exact (places another).isPrefix
  have stored := patched.store who _ apart
  rw [length, more] at stored
  refine ⟨helpful ∘ wasHelpful, names.trans sameNames, ?_, ?_, ?_⟩
  · intro other different
    rw [contents]
    simp only [Host.setContents, if_neg different]
    exact others other different
  · rw [contents]
    simp only [Host.setContents, if_true]
    exact stored
  · intro another
    change Place requests targets file origin another
      (Function.update writers.written who ((requests who).body.take (totalWritten + n)) another)
      (Function.update writers.phase who (.writing (targets who) file (totalWritten + n)) another)
    by_cases same : another = who
    · subst same
      rw [Function.update_self, Function.update_self]
      exact ⟨rfl, rfl, within, rfl⟩
    · rw [Function.update_of_ne same, Function.update_of_ne same]
      exact places another

theorem step_eq {who : ι} {phase : CallPhase} {host : Host κ}
    (stepped : callStep kernel (requests who) (writers.phase who) writers.host = (phase, host))
    (notWriting : ∀ target file totalWritten, phase ≠ .writing target file totalWritten) :
    writers.step kernel requests who =
      ⟨host, Function.update writers.phase who phase, writers.written⟩ := by
  simp only [CallWriters.step, stepped]

theorem step_writing {who : ι} {target : WriteTarget} {opened totalWritten : Nat}
    {host : Host κ}
    (stepped : callStep kernel (requests who) (writers.phase who) writers.host =
      (.writing target opened totalWritten, host)) :
    writers.step kernel requests who =
      ⟨host, Function.update writers.phase who (.writing target opened totalWritten),
        Function.update writers.written who ((requests who).body.take totalWritten)⟩ := by
  simp only [CallWriters.step, stepped]

omit [DecidableEq ι] in
theorem refusal_place {who : ι} {written : Bytes} {reply : HttpReply}
    (notHelpful : ¬ Helpful origin) (isRefusal : IsRefusal reply)
    (isPart : written <+: (requests who).body) :
    Place requests targets file origin who written (.replied reply) :=
  .inr ⟨notHelpful, isRefusal, isPart⟩

theorem Traced.step_pwrite (traced : writers.Traced requests targets origin file)
    (shared : SharedWrites kernel requests targets origin.names file) {who : ι}
    {totalWritten : Nat} (isAt : writers.phase who = .writing (targets who) file totalWritten)
    (more : totalWritten < (requests who).body.length)
    (isWritten : writers.written who = (requests who).body.take totalWritten) :
    (writers.step kernel requests who).Traced requests targets origin file := by
  have isPart := (traced.place who).isPrefix
  cases returned : FullTransfer.once ((requests who).body.drop totalWritten).length
      writers.host.pwrites with
  | mk result rest =>
      have helpful : Helpful writers.host → Helpful { writers.host with pwrites := rest } :=
        fun helpful => { helpful with
          pwrites := (FullTransfer.once_goesOn helpful.pwrites returned).1 }
      cases result with
      | error errnoValue =>
          by_cases retried : Host.isEintr errnoValue = true
          · have stepped : callStep kernel (requests who) (writers.phase who) writers.host =
                (.writing (targets who) file totalWritten,
                  { writers.host with pwrites := rest }) := by
              simp only [isAt, callStep, if_pos more, Host.pwrite, returned, retried, if_true]
            rw [step_writing stepped, ← isWritten, Function.update_eq_self]
            exact traced.keep helpful rfl rfl ⟨rfl, rfl, Nat.le_of_lt more, isWritten⟩
          · have stepped : callStep kernel (requests who) (writers.phase who) writers.host =
                (.replied (sendErrno kernel errnoValue),
                  { writers.host with pwrites := rest }) := by
              simp only [isAt, callStep, if_pos more, Host.pwrite, returned, retried,
                Bool.false_eq_true, if_false]
            have notHelpful : ¬ Helpful origin := fun given => retried
              ((FullTransfer.once_goesOn (traced.helpful given).pwrites returned).2.1 _ rfl)
            rw [step_eq stepped (by simp)]
            exact traced.keep helpful rfl rfl (refusal_place notHelpful ⟨_, _, rfl⟩ isPart)
      | ok n =>
          have bound := FullTransfer.once_le returned
          rw [List.length_drop] at bound
          by_cases nothing : n = 0
          · subst nothing
            have stepped : callStep kernel (requests who) (writers.phase who) writers.host =
                (.replied (sendErrorJson Errno.EIO (ascii "short write")),
                  { writers.host with pwrites := rest }) := by
              simp only [isAt, callStep, if_pos more, Host.pwrite, returned, if_true,
                List.take_zero, overwrite_nil, setContents_same]
            have notHelpful : ¬ Helpful origin := by
              intro given
              have none := (FullTransfer.once_goesOn (traced.helpful given).pwrites
                returned).2.2 rfl
              rw [List.length_drop] at none
              omega
            rw [step_eq stepped (by simp)]
            exact traced.keep helpful rfl rfl (refusal_place notHelpful ⟨_, _, rfl⟩ isPart)
          · have stepped : callStep kernel (requests who) (writers.phase who) writers.host =
                (.writing (targets who) file (totalWritten + n),
                  { writers.host.setContents file (overwrite 0 (writers.host.contents file)
                      ((targets who).offset.toNat + totalWritten)
                      (((requests who).body.drop totalWritten).take n)) with
                    pwrites := rest }) := by
              simp only [isAt, callStep, if_pos more, Host.pwrite, returned, if_neg nothing]
            rw [step_writing stepped]
            exact traced.store shared isWritten (by omega)
              (fun given => ⟨given.mallocs, given.preads, (helpful given).pwrites⟩) rfl rfl

theorem Traced.step_malloc (traced : writers.Traced requests targets origin file) {who : ι}
    {totalWritten : Nat} (isAt : writers.phase who = .writing (targets who) file totalWritten)
    (all : ¬ totalWritten < (requests who).body.length)
    (within : totalWritten ≤ (requests who).body.length)
    (isWritten : writers.written who = (requests who).body.take totalWritten) :
    (writers.step kernel requests who).Traced requests targets origin file := by
  have isWhole : writers.written who = (requests who).body := by
    rw [isWritten, List.take_of_length_le (by omega)]
  have helpful : Helpful writers.host → Helpful writers.host.malloc.2 := fun helpful =>
    helpful.malloc.2
  by_cases given : writers.host.malloc.1 = true
  · have stepped : callStep kernel (requests who) (writers.phase who) writers.host =
        (.verifying (targets who) file [], writers.host.malloc.2) := by
      simp only [isAt, callStep, if_neg all, given, if_true]
    rw [step_eq stepped (by simp)]
    exact traced.keep helpful rfl rfl ⟨rfl, rfl, isWhole, List.nil_prefix⟩
  · have stepped : callStep kernel (requests who) (writers.phase who) writers.host =
        (.replied (sendErrorJson Errno.ENOMEM (ascii "memory allocation failed")),
          writers.host.malloc.2) := by
      simp only [isAt, callStep, if_neg all, given, Bool.false_eq_true,
        if_false]
    rw [step_eq stepped (by simp)]
    exact traced.keep helpful rfl rfl (refusal_place
      (fun isHelpful => given (traced.helpful isHelpful).malloc.1) ⟨_, _, rfl⟩
      (isWhole ▸ List.prefix_rfl))

/-- Nobody else has written into the part of a worker that reads it back. -/
theorem Traced.step_pread (traced : writers.Traced requests targets origin file) {who : ι}
    {verifyBuffer : Bytes}
    (isAt : writers.phase who = .verifying (targets who) file verifyBuffer)
    (more : verifyBuffer.length < (requests who).body.length)
    (isWhole : writers.written who = (requests who).body)
    (isRead : verifyBuffer <+: (requests who).body) :
    (writers.step kernel requests who).Traced requests targets origin file := by
  have isPart : writers.written who <+: (requests who).body := isWhole ▸ List.prefix_rfl
  have read := pread_preads writers.host file
    ((requests who).body.length - verifyBuffer.length)
    ((targets who).offset.toNat + verifyBuffer.length) writers.host.preads
  change writers.host.pread _ _ _ = _ at read
  cases returned : FullTransfer.once (writers.host.available file
      ((requests who).body.length - verifyBuffer.length)
      ((targets who).offset.toNat + verifyBuffer.length)) writers.host.preads with
  | mk result rest =>
      simp only [returned] at read
      have helpful : Helpful writers.host → Helpful { writers.host with preads := rest } :=
        fun helpful => { helpful with
          preads := (FullTransfer.once_goesOn helpful.preads returned).1 }
      cases result with
      | error errnoValue =>
          by_cases retried : Host.isEintr errnoValue = true
          · have stepped : callStep kernel (requests who) (writers.phase who) writers.host =
                (.verifying (targets who) file verifyBuffer,
                  { writers.host with preads := rest }) := by
              simp only [isAt, callStep, if_pos more, read, retried, if_true]
            rw [step_eq stepped (by simp)]
            exact traced.keep helpful rfl rfl ⟨rfl, rfl, isWhole, isRead⟩
          · have stepped : callStep kernel (requests who) (writers.phase who) writers.host =
                (.replied (sendErrno kernel errnoValue),
                  { writers.host with preads := rest }) := by
              simp only [isAt, callStep, if_pos more, read, retried, Bool.false_eq_true,
                if_false]
            have notHelpful : ¬ Helpful origin := fun given => retried
              ((FullTransfer.once_goesOn (traced.helpful given).preads returned).2.1 _ rfl)
            rw [step_eq stepped (by simp)]
            exact traced.keep helpful rfl rfl (refusal_place notHelpful ⟨_, _, rfl⟩ isPart)
      | ok n =>
          have bound := FullTransfer.once_le returned
          simp only [Host.available] at bound
          have own : slice (writers.host.contents file)
              ((targets who).offset.toNat + verifyBuffer.length) n =
                slice (requests who).body verifyBuffer.length n := by
            rw [← isWhole]
            exact traced.patched.slice_own who (by rw [isWhole]; omega)
          dsimp only at read
          rw [own] at read
          by_cases nothing : slice (requests who).body verifyBuffer.length n = []
          · have stepped : callStep kernel (requests who) (writers.phase who) writers.host =
                (.replied verificationFailed, { writers.host with preads := rest }) := by
              simp only [isAt, callStep, if_pos more, read, nothing, if_true]
            have notHelpful : ¬ Helpful origin := by
              intro given
              have something : writers.written who ≠ [] := by
                rw [isWhole]
                exact List.length_pos_iff.mp (by omega)
              have stop := traced.patched.stop_le something
              rw [isWhole, offsets] at stop
              have isZero : n = 0 := by
                have length := congrArg List.length nothing
                rw [length_slice, List.length_nil] at length
                omega
              subst isZero
              have none := (FullTransfer.once_goesOn (traced.helpful given).preads
                returned).2.2 rfl
              simp only [Host.available] at none
              omega
            rw [step_eq stepped (by simp)]
            exact traced.keep helpful rfl rfl (refusal_place notHelpful ⟨_, _, rfl⟩ isPart)
          · have stepped : callStep kernel (requests who) (writers.phase who) writers.host =
                (.verifying (targets who) file
                  (verifyBuffer ++ slice (requests who).body verifyBuffer.length n),
                  { writers.host with preads := rest }) := by
              simp only [isAt, callStep, if_pos more, read, if_neg nothing]
            have further : verifyBuffer ++ slice (requests who).body verifyBuffer.length n <+:
                (requests who).body := by
              have sofar := List.prefix_iff_eq_take.mp isRead
              have joined : verifyBuffer ++ slice (requests who).body verifyBuffer.length n =
                  (requests who).body.take (verifyBuffer.length + n) := by
                rw [List.take_add, ← sofar]
                rfl
              rw [joined]
              exact List.take_prefix _ _
            rw [step_eq stepped (by simp)]
            exact traced.keep helpful rfl rfl ⟨rfl, rfl, isWhole, further⟩

theorem Traced.step (traced : writers.Traced requests targets origin file)
    (shared : SharedWrites kernel requests targets origin.names file) (who : ι) :
    (writers.step kernel requests who).Traced requests targets origin file := by
  have place := traced.place who
  have isPart := place.isPrefix
  cases isAt : writers.phase who with
  | arrived =>
      rw [isAt] at place
      have stepped : callStep kernel (requests who) (writers.phase who) writers.host =
          (.writing (targets who) file 0, writers.host) := by
        simp only [isAt, callStep, shared.checked who, traced.names, shared.opened who]
      have nothing : writers.written who = (requests who).body.take 0 := place
      rw [step_writing stepped, ← nothing, Function.update_eq_self]
      exact traced.keep id rfl rfl ⟨rfl, rfl, Nat.zero_le _, nothing⟩
  | writing target opened totalWritten =>
      rw [isAt] at place
      obtain ⟨rfl, rfl, within, isWritten⟩ := place
      by_cases more : totalWritten < (requests who).body.length
      · exact traced.step_pwrite shared isAt more isWritten
      · exact traced.step_malloc isAt more within isWritten
  | verifying target opened verifyBuffer =>
      rw [isAt] at place
      obtain ⟨rfl, rfl, isWhole, isRead⟩ := place
      by_cases more : verifyBuffer.length < (requests who).body.length
      · exact traced.step_pread isAt more isWhole isRead
      · have read : verifyBuffer = (requests who).body :=
          isRead.eq_of_length_le (Nat.not_lt.mp more)
        have stepped : callStep kernel (requests who) (writers.phase who) writers.host =
            (.replied (success requests targets who), writers.host) := by
          simp only [isAt, callStep, read, Nat.lt_irrefl, if_false,
            storedReply_body (shared.checked who), success]
        rw [step_eq stepped (by simp)]
        exact traced.keep id rfl rfl (.inl ⟨rfl, isWhole⟩)
  | replied reply =>
      have stepped : callStep kernel (requests who) (writers.phase who) writers.host =
          (.replied reply, writers.host) := by
        rw [isAt, callStep]
      rw [step_eq stepped (by simp)]
      rw [isAt] at place
      exact traced.keep id rfl rfl place

theorem run_traced (shared : SharedWrites kernel requests targets origin.names file)
    (schedule : List ι) :
    (run kernel requests origin schedule).Traced requests targets origin file := by
  induction schedule using List.reverseRecOn with
  | nil => exact start_traced
  | append_singleton schedule who induction =>
      rw [run, List.foldl_append]
      exact induction.step shared who

end CallWriters

section Outcome

variable [DecidableEq ι] {kernel : Kernel κ} {requests : ι → RequestContext}
  {targets : ι → WriteTarget} {origin : Host κ} {file : Nat}

/-- Whatever calls fail or are cut short, and in whatever order they come: the file is made
of what it was and of a first part of every body, and whoever is told of success has all
of its body in the file, from then on. -/
theorem dividedWrites_outcome
    (shared : SharedWrites kernel requests targets origin.names file) (schedule : List ι) :
    let writers := CallWriters.run kernel requests origin schedule
    Patched 0 (origin.contents file) (writers.host.contents file) (offsets targets)
        writers.written ∧
      (∀ who, writers.written who <+: (requests who).body) ∧
      (∀ other, other ≠ file → writers.host.contents other = origin.contents other) ∧
      ∀ who reply, writers.phase who = .replied reply → okHead <+: reply.body →
        reply = success requests targets who ∧
          slice (writers.host.contents file) (offsets targets who) (requests who).body.length =
            (requests who).body := by
  intro writers
  have traced : writers.Traced requests targets origin file :=
    CallWriters.run_traced shared schedule
  refine ⟨traced.patched, fun who => (traced.place who).isPrefix, traced.others, ?_⟩
  intro who reply isReplied isOk
  have place := traced.place who
  rw [isReplied] at place
  obtain ⟨isSuccess, isWhole⟩ | ⟨_, ⟨errnoValue, message, isRefusal⟩, _⟩ := place
  · refine ⟨isSuccess, ?_⟩
    have own := @Patched.slice_own _ _ _ _ _ _ _ traced.patched who 0
      (requests who).body.length (by rw [isWhole]; omega)
    rw [Nat.add_zero, isWhole] at own
    rw [own]
    simp [slice]
  · rw [isRefusal] at isOk
    exact absurd isOk (not_okHead_error errnoValue message)

/-- A worker for each half of a file of four bytes. -/
def halves (who : Bool) : RequestContext where
  method := ascii "POST"
  path := ascii "/v1/write"
  query := bif who then ascii "path=/a&offset=2" else ascii "path=/a&offset=0"
  contentMd5 := bif who then sparseMd5 (ascii "yo") 2 else sparseMd5 (ascii "hi") 0
  body := bif who then ascii "yo" else ascii "hi"
  rootDir := ascii "/srv"

def halvesTargets (who : Bool) : WriteTarget where
  localPath := ascii "/srv/a"
  offset := bif who then 2 else 0
  expectedMd5 := (halves who).contentMd5

theorem halves_shared :
    SharedWrites (.single (ascii "/srv/a")) halves halvesTargets () 0 where
  checked who := by
    have decoded : (writeTarget (halves who)).toOption.map
        (fun target => (target.localPath, target.offset, target.expectedMd5)) =
          some (ascii "/srv/a", (halvesTargets who).offset, (halves who).contentMd5) := by
      cases who <;> decide +kernel
    cases checked : writeTarget (halves who) with
    | error error => simp [checked, Except.toOption] at decoded
    | ok target =>
        simp only [checked, Except.toOption, Option.map_some, Option.some.injEq,
          Prod.mk.injEq] at decoded
        obtain ⟨localPath, offset, expectedMd5⟩ := target
        obtain ⟨rfl, rfl, rfl⟩ := decoded
        rfl
  opened _ := rfl
  apart := by
    have lengths : ∀ who, (bodies halves who).length = 2 := by decide
    have starts : offsets halvesTargets false = 0 ∧ offsets halvesTargets true = 2 := by decide
    intro first second i inFirst inSecond
    simp only [Covers, lengths] at inFirst inSecond
    cases first <;> cases second <;> simp only [starts] at inFirst inSecond <;>
      first | rfl | omega

/-- Two calls of `pwrite` are cut short, and one between them is interrupted. -/
def interruptedHost : Host Unit :=
  { Host.calm (ascii "abcd") with
    pwrites := [.count 1, .failed Errno.EINTR, .count 1] }

def halvesSchedule : List Bool :=
  [false, true, false, true, true, false, true, true, false, false, true, false, true, false]

theorem dividedWrites_outcome_halves :
    let writers := CallWriters.run (.single (ascii "/srv/a")) halves interruptedHost
      (halvesSchedule.take 4)
    Patched 0 (ascii "abcd") (writers.host.contents 0) (offsets halvesTargets)
        writers.written ∧
      writers.host.contents 0 = ascii "hbcd" :=
  have outcome := @dividedWrites_outcome _ _ _ _ _ _ interruptedHost _ halves_shared
    (halvesSchedule.take 4)
  ⟨outcome.1, by decide +kernel⟩

/-- When no call stands in the way, all succeed, and the file is the one that comes of the
writes one after the other, in every order. -/
theorem dividedWrites_serial
    (shared : SharedWrites kernel requests targets origin.names file) (helpful : Helpful origin)
    {schedule : List ι}
    (done : ∀ who, ∃ reply,
      (CallWriters.run kernel requests origin schedule).phase who = .replied reply)
    {order : List ι} (once : order.Nodup) (all : ∀ who, who ∈ order) :
    (∀ who, (CallWriters.run kernel requests origin schedule).phase who =
        .replied (success requests targets who)) ∧
      (CallWriters.run kernel requests origin schedule).host.contents file =
        order.foldl (fun contents who =>
          overwrite 0 contents (offsets targets who) (requests who).body)
          (origin.contents file) := by
  have traced : (CallWriters.run kernel requests origin schedule).Traced requests targets origin
    file := CallWriters.run_traced shared schedule
  have successes : ∀ who, (CallWriters.run kernel requests origin schedule).phase who =
        .replied (success requests targets who) ∧
      (CallWriters.run kernel requests origin schedule).written who = (requests who).body := by
    intro who
    obtain ⟨reply, isReplied⟩ := done who
    have place := traced.place who
    rw [isReplied] at place
    obtain ⟨rfl, isWhole⟩ | ⟨notHelpful, _⟩ := place
    · exact ⟨isReplied, isWhole⟩
    · exact absurd helpful notHelpful
  refine ⟨fun who => (successes who).1, ?_⟩
  have whole : (CallWriters.run kernel requests origin schedule).written =
      fun who => if who ∈ order then bodies requests who else [] := by
    funext who
    rw [if_pos (all who)]
    exact (successes who).2
  have patched := traced.patched
  rw [whole] at patched
  exact patched.unique (Patched.serial shared.apart once)

end Outcome

theorem helpful_interruptedHost : Helpful interruptedHost where
  mallocs := by simp [interruptedHost, Host.calm]
  preads := by simp [interruptedHost, Host.calm]
  pwrites := by
    simp only [interruptedHost, List.forall_mem_cons, List.not_mem_nil, false_implies,
      implies_true, and_true, FullTransfer.Return.GoesOn]
    decide

theorem dividedWrites_serial_halves :
    (CallWriters.run (.single (ascii "/srv/a")) halves interruptedHost
      halvesSchedule).host.contents 0 = ascii "hiyo" := by
  have done : ∀ who, ∃ reply, (CallWriters.run (.single (ascii "/srv/a")) halves interruptedHost
      halvesSchedule).phase who = .replied reply := by
    intro who
    have replied : ((CallWriters.run (.single (ascii "/srv/a")) halves interruptedHost
        halvesSchedule).phase who).reply.isSome = true := by
      cases who <;> decide +kernel
    obtain ⟨reply, isReply⟩ := Option.isSome_iff_exists.mp replied
    exact ⟨reply, CallPhase.of_reply isReply⟩
  have once : [true, false].Nodup := by decide
  exact (dividedWrites_serial halves_shared helpful_interruptedHost done once
    (by decide)).2.trans (by decide)

end HttpFs.CProvider
