import HttpFs.Provider.CalmWrite
import Mathlib.Data.List.Induction
import Mathlib.Logic.Function.Iterate

namespace HttpFs.CProvider

open Region

variable {κ ι : Type}

/-- How far a worker is in `handle_write`: in front of the calls on the file, between
them, or behind them. -/
inductive WritePhase where
  | arrived
  | opened (target : WriteTarget) (file : Nat)
  | stored (target : WriteTarget) (file : Nat)
  | replied (reply : HttpReply)

def WritePhase.reply : WritePhase → Option HttpReply
  | .replied reply => some reply
  | .arrived | .opened _ _ | .stored _ _ => none

theorem WritePhase.of_reply {phase : WritePhase} {reply : HttpReply}
    (isReply : phase.reply = some reply) : phase = .replied reply := by
  cases phase with
  | replied other => exact congrArg _ (Option.some.inj isReply)
  | arrived | opened | stored => contradiction

def writeStep (kernel : Kernel κ) (request : RequestContext) :
    WritePhase → Host κ → WritePhase × Host κ
  | .arrived, host =>
      match writeTarget request with
      | .error error => (.replied (sendErrorJson error.errnoValue error.message), host)
      | .ok target =>
          match kernel.openFile host.names target.localPath .readWrite with
          | .error errnoValue => (.replied (sendErrno kernel errnoValue), host)
          | .ok file => (.opened target file, host)
  | .opened target file, host =>
      match host.pwriteFull file request.body target.offset.toNat with
      | (.error errnoValue, host) => (.replied (sendErrno kernel errnoValue), host)
      | (.ok written, host) =>
          if written ≠ request.body.length then
            (.replied (sendErrorJson Errno.EIO (ascii "short write")), host)
          else
            (.stored target file, host)
  | .stored target file, host =>
      let (reply, host) := verifyStored kernel target request.body file host
      (.replied reply, host)
  | .replied reply, host => (.replied reply, host)

/-- A handler that nobody interrupts is `handle_write`. -/
theorem writeStep_alone (kernel : Kernel κ) (request : RequestContext) (host : Host κ) :
    (fun state : WritePhase × Host κ => writeStep kernel request state.1 state.2)^[3]
        (.arrived, host) =
      (.replied (handleWrite kernel request host).1, (handleWrite kernel request host).2) := by
  simp only [Function.iterate_succ, Function.comp_apply, Function.iterate_zero, id]
  cases checked : writeTarget request with
  | error error => simp [writeStep, handleWrite, checked]
  | ok target =>
      cases opened : kernel.openFile host.names target.localPath .readWrite with
      | error errnoValue => simp [writeStep, handleWrite, checked, opened]
      | ok file =>
          obtain ⟨result, after, wrote⟩ : ∃ result after,
            host.pwriteFull file request.body target.offset.toNat = (result, after) :=
              ⟨_, _, rfl⟩
          cases result with
          | error errnoValue => simp [writeStep, handleWrite, checked, opened, wrote]
          | ok written =>
              by_cases whole : written = request.body.length
              · simp [writeStep, handleWrite, checked, opened, wrote, whole]
              · simp [writeStep, handleWrite, checked, opened, wrote, whole]

/-- Workers that write at the same time, with the order in which they have stored, and
what of it each one has seen when it read its bytes back. -/
structure Writers (κ ι : Type) where
  host : Host κ
  phase : ι → WritePhase
  stores : List ι
  seen : ι → List ι

namespace Writers

def start (host : Host κ) : Writers κ ι := ⟨host, fun _ => .arrived, [], fun _ => []⟩

variable [DecidableEq ι]

def step (kernel : Kernel κ) (requests : ι → RequestContext) (writers : Writers κ ι)
    (who : ι) : Writers κ ι :=
  let (phase, host) := writeStep kernel (requests who) (writers.phase who) writers.host
  { host
    phase := Function.update writers.phase who phase
    stores :=
      match writers.phase who with
      | .opened _ _ => writers.stores ++ [who]
      | _ => writers.stores
    seen :=
      match writers.phase who with
      | .stored _ _ => Function.update writers.seen who writers.stores
      | _ => writers.seen }

def run (kernel : Kernel κ) (requests : ι → RequestContext) (host : Host κ)
    (schedule : List ι) : Writers κ ι :=
  schedule.foldl (step kernel requests) (start host)

end Writers

/-- Write requests that pass the checks and are for one file, on a machine whose calls
succeed. -/
structure ValidWrites (kernel : Kernel κ) (requests : ι → RequestContext)
    (targets : ι → WriteTarget) (host : Host κ) (file : Nat) : Prop where
  calm : Calm host
  checked : ∀ who, writeTarget (requests who) = .ok (targets who)
  opened : ∀ who, kernel.openFile host.names (targets who).localPath .readWrite = .ok file

section

variable (requests : ι → RequestContext) (targets : ι → WriteTarget) (host : Host κ)
  (file : Nat)

def storeOne (host : Host κ) (who : ι) : Host κ :=
  host.setContents file
    (overwrite 0 (host.contents file) (targets who).offset.toNat (requests who).body)

def storeAll (order : List ι) : Host κ := order.foldl (storeOne requests targets file) host

theorem storeAll_append (order : List ι) (who : ι) :
    storeAll requests targets host file (order ++ [who]) =
      storeOne requests targets file (storeAll requests targets host file order) who := by
  simp [storeAll]

theorem storeOne_contents (host : Host κ) (who : ι) :
    (storeOne requests targets file host who).contents file =
      overwrite 0 (host.contents file) (targets who).offset.toNat (requests who).body := by
  simp [storeOne, Host.setContents]

theorem storeAll_names (order : List ι) :
    (storeAll requests targets host file order).names = host.names := by
  induction order using List.reverseRecOn with
  | nil => rfl
  | append_singleton order who induction =>
      rw [storeAll_append]
      exact induction

theorem storeAll_calm (calm : Calm host) (order : List ι) :
    Calm (storeAll requests targets host file order) := by
  induction order using List.reverseRecOn with
  | nil => exact calm
  | append_singleton order who induction =>
      rw [storeAll_append]
      exact induction.setContents file _

theorem storeAll_inFile {order : List ι} {who : ι} (stored : who ∈ order) :
    (requests who).body = [] ∨ (targets who).offset.toNat + (requests who).body.length ≤
      ((storeAll requests targets host file order).contents file).length := by
  induction order using List.reverseRecOn with
  | nil => cases stored
  | append_singleton order last induction =>
      rw [storeAll_append, storeOne_contents]
      rcases List.mem_append.mp stored with earlier | isLast
      · exact (induction earlier).imp_right fun inFile =>
          Nat.le_trans inFile length_le_overwrite
      · obtain rfl := List.mem_singleton.mp isLast
        exact inFile_overwrite ..

/-- What is known of a worker from its phase. -/
def Writers.Place (writers : Writers κ ι) (who : ι) : WritePhase → Prop
  | .arrived => who ∉ writers.stores
  | .opened target opened => target = targets who ∧ opened = file ∧ who ∉ writers.stores
  | .stored target opened => target = targets who ∧ opened = file ∧ who ∈ writers.stores
  | .replied reply =>
      who ∈ writers.seen who ∧ writers.seen who <+: writers.stores ∧
        reply = storedReply (targets who) (requests who).body
          (slice ((storeAll requests targets host file (writers.seen who)).contents file)
            (targets who).offset.toNat (requests who).body.length)

/-- The file is that of the stores one after the other, and a worker that is done has
replied by what it has seen of them. -/
structure Writers.Traced (writers : Writers κ ι) : Prop where
  stored : writers.host = storeAll requests targets host file writers.stores
  once : writers.stores.Nodup
  place : ∀ who, writers.Place requests targets host file who (writers.phase who)

end

namespace Writers

variable {requests : ι → RequestContext} {targets : ι → WriteTarget} {host : Host κ}
  {file : Nat} {kernel : Kernel κ} {writers : Writers κ ι} {who : ι}

theorem start_traced : (start host : Writers κ ι).Traced requests targets host file :=
  ⟨rfl, List.nodup_nil, fun _ => List.not_mem_nil⟩

variable [DecidableEq ι]

private theorem place_others
    (place : ∀ who, writers.Place requests targets host file who (writers.phase who))
    {after : Writers κ ι} {phase : WritePhase}
    (phases : after.phase = Function.update writers.phase who phase)
    (stores : after.stores = writers.stores ∨ after.stores = writers.stores ++ [who])
    (seen : ∀ other, other ≠ who → after.seen other = writers.seen other)
    (own : after.Place requests targets host file who phase) (other : ι) :
    after.Place requests targets host file other (after.phase other) := by
  rw [phases]
  by_cases same : other = who
  · subst same
    rw [Function.update_self]
    exact own
  · rw [Function.update_of_ne same]
    have place := place other
    have mem_iff : other ∈ after.stores ↔ other ∈ writers.stores := by
      rcases stores with stores | stores <;> simp [stores, same]
    have grows : writers.stores <+: after.stores := by
      rcases stores with stores | stores <;> simp [stores]
    cases isAt : writers.phase other with
    | arrived =>
        rw [isAt] at place
        exact mt mem_iff.mp place
    | opened target opened =>
        rw [isAt] at place
        exact ⟨place.1, place.2.1, mt mem_iff.mp place.2.2⟩
    | stored target opened =>
        rw [isAt] at place
        exact ⟨place.1, place.2.1, mem_iff.mpr place.2.2⟩
    | replied reply =>
        rw [isAt] at place
        obtain ⟨hasSeen, isPrefix, isReply⟩ := place
        rw [← seen other same] at hasSeen isPrefix isReply
        exact ⟨hasSeen, isPrefix.trans grows, isReply⟩

theorem Traced.step (traced : writers.Traced requests targets host file)
    (valid : ValidWrites kernel requests targets host file) (who : ι) :
    (writers.step kernel requests who).Traced requests targets host file := by
  obtain ⟨isHost, once, place⟩ := traced
  have calm : Calm writers.host := isHost ▸ storeAll_calm requests targets host file valid.calm _
  have own := place who
  cases isAt : writers.phase who with
  | arrived =>
      rw [isAt] at own
      have names : writers.host.names = host.names := by rw [isHost, storeAll_names]
      have stepped : writers.step kernel requests who =
          { writers with
            phase := Function.update writers.phase who (.opened (targets who) file) } := by
        simp [Writers.step, writeStep, isAt, valid.checked who, names, valid.opened who]
      rw [stepped]
      exact ⟨isHost, once, place_others place rfl (.inl rfl) (fun _ _ => rfl)
        ⟨rfl, rfl, own⟩⟩
  | opened target opened =>
      rw [isAt] at own
      obtain ⟨rfl, rfl, notStored⟩ := own
      have stepped : writers.step kernel requests who =
          { writers with
            host := storeOne requests targets opened writers.host who
            phase := Function.update writers.phase who (.stored (targets who) opened)
            stores := writers.stores ++ [who] } := by
        simp [Writers.step, writeStep, isAt, calm.pwriteFull, storeOne]
      rw [stepped]
      refine ⟨?_, ?_, place_others place rfl (.inr rfl) (fun _ _ => rfl)
        ⟨rfl, rfl, by simp⟩⟩
      · rw [storeAll_append, ← isHost]
      · rw [List.nodup_append]
        refine ⟨once, by simp, fun other member last isLast => ?_⟩
        rintro rfl
        exact notStored (List.mem_singleton.mp isLast ▸ member)
  | stored target opened =>
      rw [isAt] at own
      obtain ⟨rfl, rfl, stored⟩ := own
      have inFile := storeAll_inFile requests targets host opened stored
      rw [← isHost] at inFile
      have stepped : writers.step kernel requests who =
          { writers with
            phase := Function.update writers.phase who
              (.replied (storedReply (targets who) (requests who).body
                (slice (writers.host.contents opened) (targets who).offset.toNat
                  (requests who).body.length)))
            seen := Function.update writers.seen who writers.stores } := by
        simp [Writers.step, writeStep, isAt, verifyStored_calm calm inFile]
      rw [stepped]
      refine ⟨isHost, once, place_others place rfl (.inl rfl)
        (fun other different => Function.update_of_ne different _ _) ?_⟩
      refine ⟨?_, ?_, ?_⟩ <;> simp only [Function.update_self]
      · exact stored
      · exact List.prefix_rfl
      · rw [isHost]
  | replied reply =>
      have stepped : writers.step kernel requests who = writers := by
        have same : Function.update writers.phase who (.replied reply) = writers.phase := by
          rw [← isAt, Function.update_eq_self]
        simp [Writers.step, writeStep, isAt, same]
      rw [stepped]
      exact ⟨isHost, once, place⟩

theorem run_traced (valid : ValidWrites kernel requests targets host file)
    (schedule : List ι) :
    (run kernel requests host schedule).Traced requests targets host file := by
  induction schedule using List.reverseRecOn with
  | nil => exact start_traced
  | append_singleton schedule who induction =>
      rw [run, List.foldl_append]
      exact induction.step valid who

end Writers

theorem eq_pair_of_nodup {order : List Bool} (once : order.Nodup) (all : ∀ who, who ∈ order) :
    ∃ early, order = [early, !early] := by
  match order with
  | [] => exact absurd (all true) List.not_mem_nil
  | [only] =>
      have other := all !only
      simp at other
  | first :: second :: rest =>
      simp only [List.nodup_cons, List.mem_cons, not_or] at once
      have isOther : second = !first := by
        cases first <;> cases second <;> simp_all
      cases rest with
      | nil => exact ⟨first, by rw [isOther]⟩
      | cons third rest =>
          simp only [List.mem_cons, not_or] at once
          cases first <;> cases second <;> cases third <;> simp_all

theorem eq_of_prefix_pair {seen : List Bool} {early : Bool} (isPrefix : seen <+: [early, !early])
    (nonempty : seen ≠ []) : seen = [early] ∨ seen = [early, !early] := by
  obtain ⟨rest, split⟩ := isPrefix
  match seen with
  | [] => exact absurd rfl nonempty
  | [only] =>
      rw [List.singleton_append, List.cons.injEq] at split
      exact .inl (by rw [split.1])
  | [first, second] =>
      simp only [List.cons_append, List.nil_append, List.cons.injEq] at split
      exact .inr (by rw [split.1, split.2.1])
  | _ :: _ :: _ :: _ => simp at split

def storedVerificationFailed : HttpReply :=
  sendErrorJson Errno.EIO (ascii "stored content md5 verification failed")

/-- Two write requests for one file, whatever the order of the steps: the file is as after
the two handlers one behind the other, in the order of their stores. So are the replies,
but for a handler that reads back when the other one has stored over what its digest
covers. -/
theorem concurrentWrites_outcome {kernel : Kernel κ} {requests : Bool → RequestContext}
    {targets : Bool → WriteTarget} {host : Host κ} {file : Nat}
    (valid : ValidWrites kernel requests targets host file) (schedule : List Bool)
    (finished : ∀ who, ∃ reply,
      (Writers.run kernel requests host schedule).phase who = .replied reply) :
    let after := Writers.run kernel requests host schedule
    ∃ early,
      let first := handleWrite kernel (requests early) host
      let second := handleWrite kernel (requests !early) first.2
      after.stores = [early, !early] ∧ after.host = second.2 ∧
        after.phase (!early) = .replied second.1 ∧
        after.phase early = .replied
          (if (!early) ∈ after.seen early ∧
              httpfsSparseMd5Hex (slice (after.host.contents file)
                (targets early).offset.toNat (requests early).body.length)
                (targets early).offset ≠ some (targets early).expectedMd5 then
            storedVerificationFailed
          else
            first.1) := by
  intro after
  obtain ⟨stored, once, place⟩ := Writers.run_traced valid schedule
  have replied (who : Bool) : ∃ reply, after.phase who = .replied reply ∧
      who ∈ after.seen who ∧ after.seen who <+: after.stores ∧
        reply = storedReply (targets who) (requests who).body
          (slice ((storeAll requests targets host file (after.seen who)).contents file)
            (targets who).offset.toNat (requests who).body.length) := by
    obtain ⟨reply, isReplied⟩ := finished who
    have known := place who
    rw [isReplied] at known
    exact ⟨reply, isReplied, known⟩
  have all (who : Bool) : who ∈ after.stores := by
    obtain ⟨_, _, hasSeen, isPrefix, _⟩ := replied who
    exact isPrefix.subset hasSeen
  obtain ⟨early, order⟩ := eq_pair_of_nodup once all
  have alone (who : Bool) (host : Host κ) (calm : Calm host)
      (opened : kernel.openFile host.names (targets who).localPath .readWrite = .ok file) :
      handleWrite kernel (requests who) host =
        (storedReply (targets who) (requests who).body (requests who).body,
          storeOne requests targets file host who) := by
    rw [handleWrite_calm calm (valid.checked who) opened, storedReply_body (valid.checked who)]
    rfl
  have first := alone early host valid.calm (valid.opened early)
  have calmFirst : Calm (storeOne requests targets file host early) :=
    valid.calm.setContents file _
  have second := alone (!early) (storeOne requests targets file host early) calmFirst
    (valid.opened !early)
  have final : after.host = storeOne requests targets file
      (storeOne requests targets file host early) (!early) := by
    change after.host = storeAll requests targets host file after.stores at stored
    rw [stored, order]
    rfl
  have ownBytes (who : Bool) (host : Host κ) :
      slice ((storeOne requests targets file host who).contents file)
        (targets who).offset.toNat (requests who).body.length = (requests who).body := by
    rw [storeOne_contents, slice_overwrite]
  refine ⟨early, order, ?_, ?_, ?_⟩
  · rw [first, second, final]
  · obtain ⟨reply, isReplied, hasSeen, isPrefix, isReply⟩ := replied !early
    have seen : after.seen (!early) = [early, !early] := by
      rcases eq_of_prefix_pair (order ▸ isPrefix) (List.ne_nil_of_mem hasSeen) with seen | seen
      · simp [seen] at hasSeen
      · exact seen
    rw [isReplied, isReply, first, second, seen]
    exact congrArg WritePhase.replied (congrArg _ (ownBytes (!early) _))
  · obtain ⟨reply, isReplied, hasSeen, isPrefix, isReply⟩ := replied early
    rw [isReplied, isReply, first]
    congr 1
    rcases eq_of_prefix_pair (order ▸ isPrefix) (List.ne_nil_of_mem hasSeen) with seen | seen
    · rw [if_neg (by simp [seen]), seen]
      exact congrArg _ (ownBytes early host)
    · have sees : storeAll requests targets host file [early, !early] = after.host := final.symm
      rw [seen, sees, storedReply]
      split
      · next same =>
        rw [if_neg fun changed => changed.2 same, storedReply_body (valid.checked early)]
      · next changed =>
        rw [if_pos ⟨by simp, changed⟩]
        rfl

/-- The replies and the file are those of the two handlers one behind the other. -/
def Serialised (kernel : Kernel κ) (requests : Bool → RequestContext) (host : Host κ)
    (after : Writers κ Bool) : Prop :=
  ∃ early,
    let first := handleWrite kernel (requests early) host
    let second := handleWrite kernel (requests !early) first.2
    after.host = second.2 ∧ after.phase early = .replied first.1 ∧
      after.phase (!early) = .replied second.1

def sameByte (who : Bool) : RequestContext where
  method := ascii "POST"
  path := ascii "/v1/write"
  query := ascii "path=/a&offset=0"
  contentMd5 := bif who then ascii "415290769594460e2e485922904f345d"
    else ascii "9dd4e461268c8034f5c8564e155c67a6"
  body := bif who then ascii "y" else ascii "x"
  rootDir := ascii "/srv"

theorem sameByte_valid : ValidWrites (.single (ascii "/srv/a")) sameByte
    (fun who => ⟨ascii "/srv/a", 0, (sameByte who).contentMd5⟩) (.calm (ascii "abc")) 0 where
  calm := ⟨rfl, rfl, rfl⟩
  checked who := by
    have decoded : (writeTarget (sameByte who)).toOption.map
        (fun target => (target.localPath, target.offset, target.expectedMd5)) =
          some (ascii "/srv/a", 0, (sameByte who).contentMd5) := by
      cases who <;> decide +kernel
    cases checked : writeTarget (sameByte who) with
    | error error => simp [checked, Except.toOption] at decoded
    | ok target =>
        simp only [checked, Except.toOption, Option.map_some, Option.some.injEq,
          Prod.mk.injEq] at decoded
        obtain ⟨localPath, offset, expectedMd5⟩ := target
        obtain ⟨rfl, rfl, rfl⟩ := decoded
        rfl
  opened _ := rfl

def sameByteRun : Writers Unit Bool :=
  Writers.run (.single (ascii "/srv/a")) sameByte (.calm (ascii "abc"))
    [false, false, true, true, false, true]

theorem sameByteRun_replies :
    sameByteRun.phase false = .replied storedVerificationFailed ∧
      sameByteRun.phase true =
        .replied (sendOk (writtenPayload 1 (ascii "415290769594460e2e485922904f345d"))) := by
  have replies : ((sameByteRun.phase false).reply, (sameByteRun.phase true).reply) =
      (some storedVerificationFailed,
        some (sendOk (writtenPayload 1 (ascii "415290769594460e2e485922904f345d")))) := by
    decide +kernel
  rw [Prod.mk.injEq] at replies
  exact ⟨WritePhase.of_reply replies.1, WritePhase.of_reply replies.2⟩

theorem sameByteRun_finished (who : Bool) : ∃ reply, sameByteRun.phase who = .replied reply := by
  cases who with
  | false => exact ⟨_, sameByteRun_replies.1⟩
  | true => exact ⟨_, sameByteRun_replies.2⟩

theorem sameByteRun_notSerialised :
    (∀ who, ∃ reply, sameByteRun.phase who = .replied reply) ∧
      ¬ Serialised (.single (ascii "/srv/a")) sameByte (.calm (ascii "abc")) sameByteRun := by
  refine ⟨sameByteRun_finished, ?_⟩
  have failed := sameByteRun_replies.1
  have written : sendOk (writtenPayload 1 (ascii "9dd4e461268c8034f5c8564e155c67a6")) ≠
      storedVerificationFailed := by
    decide +kernel
  have alone {host : Host Unit} (calm : Calm host) :
      (handleWrite (.single (ascii "/srv/a")) (sameByte false) host).1 =
        sendOk (writtenPayload 1 (ascii "9dd4e461268c8034f5c8564e155c67a6")) := by
    rw [handleWrite_calm calm (sameByte_valid.checked false) (sameByte_valid.opened false)]
    rfl
  rintro ⟨early, _, first, second⟩
  cases early with
  | false =>
      rw [failed, WritePhase.replied.injEq, alone sameByte_valid.calm] at first
      exact written first.symm
  | true =>
      have calm : Calm (handleWrite (.single (ascii "/srv/a")) (sameByte true)
          (.calm (ascii "abc"))).2 := by
        rw [handleWrite_calm sameByte_valid.calm (sameByte_valid.checked true)
          (sameByte_valid.opened true)]
        exact sameByte_valid.calm.setContents 0 _
      rw [Bool.not_true, failed, WritePhase.replied.injEq, alone calm] at second
      exact written second.symm

theorem concurrentWrites_outcome_sameByte : ∃ early,
    sameByteRun.stores = [early, !early] ∧
      sameByteRun.host = (handleWrite (.single (ascii "/srv/a")) (sameByte !early)
        (handleWrite (.single (ascii "/srv/a")) (sameByte early)
          (.calm (ascii "abc"))).2).2 := by
  have finished := sameByteRun_finished
  unfold sameByteRun at finished ⊢
  obtain ⟨early, order, final, _⟩ := concurrentWrites_outcome sameByte_valid _ finished
  exact ⟨early, order, final⟩

end HttpFs.CProvider
