import HttpFs.Client.OkOperations
import HttpFs.Client.ReadEffects
import HttpFs.Fuse.Operations

namespace HttpFs

open Routine ClientM

variable {σ : Type}

def errorReplyErrno (limit : Nat) (json : Bytes) : Option Int :=
  match parseResponseTokens json limit with
  | .error _ => none
  | .ok tokens =>
      match findToken json tokens 0 (ascii "status") with
      | none => none
      | some status =>
          if tokenEquals json status (ascii "error") then
            some (replyErrno json tokens)
          else
            none

/-- An `errno` whose negated `int` the kernel does not take for an error. -/
def Misleading (errnoValue : Int) : Prop := toInt32 errnoValue ≤ 0

def MisleadingBody (limit : Nat) (body : Bytes) : Prop :=
  ∃ errnoValue, errorReplyErrno limit (cString body) = some errnoValue ∧
    Misleading errnoValue

/-- The exchange brought such a body, and with what lets the operation read it as an
error reply: status 200, and for `read` a JSON content type. -/
def FuseOperation.Misled (operation : FuseOperation) (exchange : Exchange) : Prop :=
  ∃ reply, exchange.outcome.reply = some reply ∧ reply.statusCode = 200 ∧
    match operation with
    | .read .. => isContentTypeJson reply.metadata.contentType = true ∧
        MisleadingBody 256 reply.response
    | _ => MisleadingBody OK_RESPONSE_TOKENS reply.response

/-- The error record has been written and the value for the kernel is negative. -/
def ReportsError (state : ClientState σ) : Prop :=
  state.error.isSome = true ∧ ∃ value, negatedErrno state = some value ∧ value < 0

theorem toInt32_bounds (value : Int) :
    -(2 ^ 31) ≤ toInt32 value ∧ toInt32 value < 2 ^ 31 := by
  constructor
  · exact Int.le_bmod (by decide)
  · exact Int.bmod_lt (by decide)

theorem reportsError_reported (errnoValue : Int) (message : Bytes)
    (state : ClientState σ) :
    ReportsError (reported errnoValue message state) ↔ ¬ Misleading errnoValue := by
  have bounds := toInt32_bounds errnoValue
  simp only [ReportsError, reported, Option.isSome_some, true_and, negatedErrno,
    Option.bind_some, negateInt32, Misleading]
  constructor
  · intro reports
    obtain ⟨value, negated, negative⟩ := reports
    split at negated
    · contradiction
    · simp only [Option.some.injEq] at negated
      omega
  · intro honest
    refine ⟨-toInt32 errnoValue, ?_, by omega⟩
    rw [if_neg (by omega)]

theorem not_misleading_of_local {errnoValue : Int} (isLocal : LocalErrno errnoValue) :
    ¬ Misleading errnoValue := by
  have same : toInt32 errnoValue = errnoValue := by
    obtain ⟨positive, small⟩ := isLocal
    simp only [toInt32]
    exact Int.bmod_eq_of_le (by omega) (by omega)
  rw [Misleading, same]
  exact Int.not_le.mpr isLocal.1

theorem localErrno_parseResponseTokens {json : Bytes} {limit : Nat} {error : HttpfsError}
    (rejected : parseResponseTokens json limit = .error error) :
    LocalErrno error.errnoValue := by
  have isEio : error.errnoValue = Errno.EIO := by
    simp only [parseResponseTokens] at rejected
    split at rejected
    · cases rejected
      rfl
    · split at rejected
      · cases rejected
        rfl
      · split at rejected
        · contradiction
        · cases rejected
          rfl
  rw [isEio]
  decide

/-- A reply read to the end brings either no error reply's `errno`, or the one that
ends up in the error record. -/
theorem parseStatusOrError_errno {json : Bytes} {tokens : List JsmnToken} {limit : Nat}
    (parsed : parseResponseTokens json limit = .ok tokens) :
    match parseStatusOrError json tokens with
    | .ok () => errorReplyErrno limit json = none
    | .error error =>
        errorReplyErrno limit json = some error.errnoValue ∨
          errorReplyErrno limit json = none ∧ LocalErrno error.errnoValue := by
  simp only [parseStatusOrError, errorReplyErrno, parsed]
  cases status : findToken json tokens 0 (ascii "status") with
  | none => exact .inr ⟨rfl, (by decide : LocalErrno Errno.EIO)⟩
  | some token =>
      by_cases isOk : tokenEquals json token (ascii "ok") = true
      · have text : tokenText json token = some (ascii "ok") := by
          simpa [tokenEquals] using isOk
        have notError : tokenEquals json token (ascii "error") = false := by
          rw [tokenEquals, text]
          decide
        simp [isOk, notError]
      · by_cases isError : tokenEquals json token (ascii "error") = true
        · simp [isOk, isError]
        · simp only [isOk, isError]
          exact .inr ⟨rfl, (by decide : LocalErrno Errno.EIO)⟩

/-- None of the exchanges so far is misleading. -/
def Honest (misled : Exchange → Prop) (state : ClientState σ) : Prop :=
  ∀ exchange ∈ state.exchanges, ¬ misled exchange

/-- At an error exit the error is reported, unless an exchange was misleading. -/
def FailsHonestly (misled : Exchange → Prop) (state : ClientState σ) : Prop :=
  ReportsError state ↔ Honest misled state

theorem failsHonestly_local {misled : Exchange → Prop} {state : ClientState σ}
    {errnoValue : Int} (message : Bytes) (honest : Honest misled state)
    (isLocal : LocalErrno errnoValue) :
    FailsHonestly misled (reported errnoValue message state) := by
  have reports := (reportsError_reported errnoValue message state).mpr
    (not_misleading_of_local isLocal)
  exact ⟨fun _ => honest, fun _ => reports⟩

theorem failsHonestly_gaveUp {misled unread : Exchange → Prop}
    {before after : ClientState σ} (harmless : ∀ exchange, unread exchange → ¬ misled exchange)
    (honest : Honest misled before) (gaveUp : GaveUp unread before after) :
    FailsHonestly misled after := by
  obtain ⟨errnoValue, message, added, isLocal, _, isUnread, host, rfl⟩ := gaveUp
  have extended : Honest misled { before with
      exchanges := before.exchanges ++ added } := by
    intro exchange member
    obtain old | new := List.mem_append.mp member
    · exact honest exchange old
    · exact harmless exchange (isUnread exchange new)
  exact failsHonestly_local message extended isLocal

theorem honest_append {misled : Exchange → Prop} {state : ClientState σ}
    {exchange : Exchange} (honest : Honest misled state) :
    Honest misled { state with exchanges := state.exchanges ++ [exchange] } ↔
      ¬ misled exchange := by
  constructor
  · intro extended
    exact extended exchange (by simp)
  · intro harmless found member
    obtain old | new := List.mem_append.mp member
    · exact honest found old
    · exact List.mem_singleton.mp new ▸ harmless

theorem failsHonestly_error {misled : Exchange → Prop} {state : ClientState σ}
    {exchange : Exchange} {limit : Nat} {body : Bytes} {error : HttpfsError}
    (isMisled : misled exchange ↔ MisleadingBody limit body)
    (errnoOf : errorReplyErrno limit (cString body) = some error.errnoValue ∨
      errorReplyErrno limit (cString body) = none ∧ LocalErrno error.errnoValue)
    (honest : Honest misled state) :
    FailsHonestly misled (reported error.errnoValue error.message
      { state with exchanges := state.exchanges ++ [exchange] }) := by
  rw [FailsHonestly, reportsError_reported]
  change ¬ Misleading error.errnoValue ↔
    Honest misled { state with exchanges := state.exchanges ++ [exchange] }
  rw [honest_append honest, isMisled, MisleadingBody]
  obtain served | ⟨absent, isLocal⟩ := errnoOf
  · simp [served]
  · simp [absent, not_misleading_of_local isLocal]

theorem parseOkResponse_errno (json : Bytes) :
    match parseOkResponse json with
    | .ok _ => errorReplyErrno OK_RESPONSE_TOKENS json = none
    | .error error =>
        errorReplyErrno OK_RESPONSE_TOKENS json = some error.errnoValue ∨
          errorReplyErrno OK_RESPONSE_TOKENS json = none ∧ LocalErrno error.errnoValue := by
  cases parsed : parseResponseTokens json OK_RESPONSE_TOKENS with
  | error error =>
      have result : parseOkResponse json = .error error := by
        rw [parseOkResponse, parsed]
        rfl
      rw [result]
      exact .inr ⟨by rw [errorReplyErrno, parsed], localErrno_parseResponseTokens parsed⟩
  | ok tokens =>
      have result : parseOkResponse json =
          (parseStatusOrError json tokens).map fun _ => tokens := by
        rw [parseOkResponse, parsed]
        rfl
      have status := parseStatusOrError_errno parsed
      rw [result]
      cases outcome : parseStatusOrError json tokens with
      | ok => simpa [outcome, Except.map] using status
      | error error => simpa [outcome, Except.map] using status

theorem parseErrorResponse_errno (json : Bytes) :
    match parseErrorResponse json with
    | .ok () => errorReplyErrno 256 json = none
    | .error error =>
        errorReplyErrno 256 json = some error.errnoValue ∨
          errorReplyErrno 256 json = none ∧ LocalErrno error.errnoValue := by
  cases parsed : parseResponseTokens json 256 with
  | error error =>
      have result : parseErrorResponse json = .error error := by
        rw [parseErrorResponse, parsed]
        rfl
      rw [result]
      exact .inr ⟨by rw [errorReplyErrno, parsed], localErrno_parseResponseTokens parsed⟩
  | ok tokens =>
      have result : parseErrorResponse json = parseStatusOrError json tokens := by
        rw [parseErrorResponse, parsed]
        rfl
      rw [result]
      exact parseStatusOrError_errno parsed

/-- The exchange brought an error reply with a misleading `errno` to an operation
that reads its replies with `parse_ok_response`. -/
def OkMisled (exchange : Exchange) : Prop :=
  ∃ reply, exchange.outcome.reply = some reply ∧ reply.statusCode = 200 ∧
    MisleadingBody OK_RESPONSE_TOKENS reply.response

theorem errorReplyErrno_nil (limit : Nat) : errorReplyErrno limit [] = none := by
  simp [errorReplyErrno, parseResponseTokens, jsmnParse, jsmnLoop, jsmnInit, innermostOpen]

theorem unparsed_harmless {exchange : Exchange} (unparsed : Unparsed exchange) :
    ¬ OkMisled exchange := by
  intro misled
  obtain ⟨reply, outcome, isOk, errnoValue, served, _⟩ := misled
  obtain notOk | empty := unparsed reply outcome
  · exact notOk isOk
  · simp [empty, cString, errorReplyErrno_nil] at served

theorem okMisled_iff {exchange : Exchange} {reply : HttpResponse}
    (outcome : exchange.outcome.reply = some reply) (isOk : reply.statusCode = 200) :
    OkMisled exchange ↔ MisleadingBody OK_RESPONSE_TOKENS reply.response := by
  simp [OkMisled, outcome, isOk]

theorem honest_okInvariant (declared : Nat) :
    OkInvariant declared (@Honest σ OkMisled) (FailsHonestly OkMisled) where
  moved := by
    intro before after honest same
    obtain ⟨host, rfl⟩ := same
    exact honest
  counted := fun _ honest => honest
  accepted := by
    intro before after json tokens honest isOk parsed
    obtain ⟨exchange, reply, outcome, status, rfl, host, rfl⟩ := parsed
    have noErrno := parseOkResponse_errno (cString reply.response)
    rw [isOk] at noErrno
    have harmless : ¬ OkMisled exchange := by
      rw [okMisled_iff outcome status, MisleadingBody, noErrno]
      simp
    exact (honest_append honest).mpr harmless
  refused := by
    intro before after honest notOk
    obtain gaveUp | ⟨json, error, state, rejected, parsed, rfl⟩ := notOk
    · exact failsHonestly_gaveUp (fun _ => unparsed_harmless) honest gaveUp
    · obtain ⟨exchange, reply, outcome, status, rfl, host, rfl⟩ := parsed
      have errnoOf := parseOkResponse_errno (cString reply.response)
      rw [rejected] at errnoOf
      exact failsHonestly_error (okMisled_iff outcome status) errnoOf honest
  reports := fun message honest isLocal => failsHonestly_local message honest isLocal

/-- The same for `httpfs_read_file`, which reads error replies with
`parse_error_response`. -/
def ReadMisled (exchange : Exchange) : Prop :=
  ∃ reply, exchange.outcome.reply = some reply ∧ reply.statusCode = 200 ∧
    isContentTypeJson reply.metadata.contentType = true ∧
    MisleadingBody 256 reply.response

theorem acceptChunk_ok_harmless {exchange : Exchange} {reply : HttpResponse}
    {offset : Int} {chunkSize : Nat} {response : Bytes}
    (outcome : exchange.outcome.reply = some reply)
    (accepted : acceptChunk reply offset chunkSize = .ok response) :
    ¬ ReadMisled exchange := by
  intro misled
  obtain ⟨found, outcome', isOk, isJson, _⟩ := misled
  obtain rfl : reply = found := Option.some.inj (outcome.symm.trans outcome')
  simp only [acceptChunk, isOk, isJson, ne_eq, not_true_eq_false, if_false, if_true]
    at accepted
  split at accepted <;> contradiction

theorem acceptChunk_error {reply : HttpResponse} {offset : Int} {chunkSize : Nat}
    {error : HttpfsError} (rejected : acceptChunk reply offset chunkSize = .error error) :
    (reply.statusCode = 200 ∧ isContentTypeJson reply.metadata.contentType = true ∧
      (errorReplyErrno 256 (cString reply.response) = some error.errnoValue ∨
        errorReplyErrno 256 (cString reply.response) = none ∧
          LocalErrno error.errnoValue)) ∨
    (¬ (reply.statusCode = 200 ∧ isContentTypeJson reply.metadata.contentType = true) ∧
      LocalErrno error.errnoValue) := by
  have isLocal : LocalErrno Errno.EIO := by decide
  simp only [acceptChunk] at rejected
  split at rejected
  · next notOk =>
    cases rejected
    exact .inr ⟨fun both => notOk both.1, isLocal⟩
  next isOk =>
  have isOk : reply.statusCode = 200 := Decidable.not_not.mp isOk
  split at rejected
  · next isJson =>
    left
    refine ⟨isOk, isJson, ?_⟩
    have errnoOf := parseErrorResponse_errno (cString reply.response)
    split at rejected
    · next error' failed =>
      cases rejected
      rwa [failed] at errnoOf
    · next passed =>
      cases rejected
      rw [passed] at errnoOf
      exact .inr ⟨errnoOf, isLocal⟩
  next notJson =>
  refine .inr ⟨fun both => notJson both.2, ?_⟩
  have isEio : error.errnoValue = Errno.EIO := by
    repeat' split at rejected
    all_goals first | contradiction | (cases rejected; rfl)
  rw [isEio]
  exact isLocal

theorem readMisled_iff {exchange : Exchange} {reply : HttpResponse}
    (outcome : exchange.outcome.reply = some reply) :
    ReadMisled exchange ↔ reply.statusCode = 200 ∧
      isContentTypeJson reply.metadata.contentType = true ∧
      MisleadingBody 256 reply.response := by
  simp [ReadMisled, outcome]

theorem failsHonestly_chunk {client : HttpfsClient} {offset : Int}
    {totalRead chunkSize : Nat} {before after : ClientState σ}
    (honest : Honest ReadMisled before)
    (failed : ChunkFailed client offset totalRead chunkSize before after) :
    FailsHonestly ReadMisled after := by
  obtain gaveUp | ⟨exchange, reply, error, state, _, outcome, rejected, ⟨host, rfl⟩, rfl⟩ :=
    failed
  · apply failsHonestly_gaveUp _ honest gaveUp
    intro exchange unread misled
    obtain ⟨reply, outcome, _, _, errnoValue, served, _⟩ := misled
    simp [unread.2 reply outcome, cString, errorReplyErrno_nil] at served
  · obtain ⟨isOk, isJson, errnoOf⟩ | ⟨notErrorReply, isLocal⟩ := acceptChunk_error rejected
    · have isMisled : ReadMisled exchange ↔ MisleadingBody 256 reply.response := by
        rw [readMisled_iff outcome]
        simp [isOk, isJson]
      exact failsHonestly_error isMisled errnoOf honest
    · have harmless : ¬ ReadMisled exchange := by
        rw [readMisled_iff outcome]
        exact fun misled => notErrorReply ⟨misled.1, misled.2.1⟩
      exact failsHonestly_local _ ((honest_append honest).mpr harmless) isLocal

theorem honest_chunk {client : HttpfsClient} {offset : Int} {totalRead chunkSize : Nat}
    {before after : ClientState σ} {response : Bytes} (honest : Honest ReadMisled before)
    (read : ChunkRead client offset totalRead chunkSize before response after) :
    Honest ReadMisled after := by
  obtain ⟨exchange, reply, _, outcome, accepted, host, rfl⟩ := read
  have extended := (honest_append honest).mpr (acceptChunk_ok_harmless outcome accepted)
  simp only [storedAt]
  split <;> exact extended

theorem readFile_honest (curl : Curl σ) (client : HttpfsClient) (path : Bytes)
    (offset : Int) (size : Nat) :
    Triple (Honest ReadMisled) (httpfsReadFile curl client path offset size)
      (fun _ => Honest ReadMisled) (FailsHonestly ReadMisled) := by
  have loop : Triple (Honest ReadMisled) (readFileLoop curl client path offset size 0)
      (fun _ => Honest ReadMisled) (FailsHonestly ReadMisled) :=
    @readFileLoop_rule σ curl client path offset size (fun _ => Honest ReadMisled)
      (fun _ => Honest ReadMisled) (FailsHonestly ReadMisled)
      (fun _ _ _ _ _ honest read _ => honest_chunk honest read)
      (fun _ _ _ _ _ honest read _ => honest_chunk honest read)
      (fun _ _ _ _ honest failed => failsHonestly_chunk honest failed)
      (fun _ _ _ honest => honest) 0
  have counted : ∀ count, Triple (Honest ReadMisled) (setTransferred count)
      (fun _ => @Honest σ ReadMisled) (FailsHonestly ReadMisled) :=
    fun count => triple_modify fun _ honest => honest
  apply triple_bind (counted 0)
  intro _
  apply triple_ite
  · intro _
    exact triple_pure fun _ honest => honest
  · intro _
    exact triple_bind loop fun totalRead => counted totalRead

def FuseCall.ShowsFailure (call : FuseCall σ) : Prop :=
  call.clientFailed = true →
    call.state.error.isSome = true ∧ ∃ value, call.value = some value ∧ value < 0

theorem showsFailure_iff {α : Type} {misled : Exchange → Prop} {operation : ClientM σ α}
    {host : σ} {buffer : Bytes} {answer : α → ClientState σ → Int}
    (triple : Triple (Honest misled) operation (fun _ => Honest misled)
      (FailsHonestly misled)) :
    let call := fuseCall operation (ClientState.start host buffer) answer
    call.ShowsFailure ↔ ∀ exchange ∈ call.state.exchanges, ¬ misled exchange := by
  intro call
  have reached := triple (ClientState.start host buffer) (by simp [Honest, ClientState.start])
  cases run : operation (ClientState.start host buffer) with
  | mk result state =>
      rw [run] at reached
      cases result with
      | some result =>
          have shape : call = ⟨false, some (answer result state), state⟩ := by
            simp only [call, fuseCall, run]
          simp only [shape, FuseCall.ShowsFailure, Bool.false_eq_true, false_implies,
            true_iff]
          exact reached
      | none =>
          have shape : call = ⟨true, negatedErrno state, state⟩ := by
            simp only [call, fuseCall, run]
          simp only [shape, FuseCall.ShowsFailure, true_implies]
          exact reached

/-- Whatever the server answers, an operation of the kernel shows the failure of its
client call exactly when no reply in the course of the call is an error reply whose
`errno`, as an `int`, is zero or negative. -/
theorem fuse_shows_failure_iff (curl : Curl σ) (client : HttpfsClient) (host : σ)
    (operation : FuseOperation) :
    let call := operation.run curl client host
    call.ShowsFailure ↔
      ∀ exchange ∈ call.state.exchanges, ¬ operation.Misled exchange := by
  cases operation with
  | getattr path =>
      exact showsFailure_iff ((honest_okInvariant 512).getMeta curl client path)
  | readdir path filler =>
      exact showsFailure_iff ((honest_okInvariant 1024).listDir curl client path 512)
  | «open» path =>
      exact showsFailure_iff ((honest_okInvariant 512).getMeta curl client path)
  | read path buf offset =>
      exact showsFailure_iff (readFile_honest curl client path offset buf.length)
  | write path buf offset =>
      exact showsFailure_iff ((honest_okInvariant 256).writeFile curl client path offset buf)
  | create path mode =>
      exact showsFailure_iff ((honest_okInvariant 128).postPathOnly curl client _ path _)
  | mkdir path mode =>
      exact showsFailure_iff ((honest_okInvariant 128).postPathOnly curl client _ path _)
  | unlink path =>
      exact showsFailure_iff ((honest_okInvariant 128).postPathOnly curl client _ path _)
  | rmdir path =>
      exact showsFailure_iff ((honest_okInvariant 128).postPathOnly curl client _ path _)
  | rename source target flags =>
      simp only [FuseOperation.run, httpfsRename]
      split
      · simp [FuseCall.ShowsFailure, ClientState.start]
      · exact showsFailure_iff ((honest_okInvariant 128).renamePath curl client source target)
  | truncate path size =>
      exact showsFailure_iff ((honest_okInvariant 128).truncateFile curl client path size)
  | utimens path tv =>
      exact showsFailure_iff ((honest_okInvariant 128).updateTimes curl client path tv)

/-- A server refuses `unlink` with `errno` 0. -/
def deniedUnlink : FuseCall Unit :=
  httpfsUnlink
    (Curl.answering (.received 200 []
      [ascii "\x7b\"status\":\"error\",\"errno\":0,\"message\":\"denied\"\x7d"]))
    ⟨ascii "http://127.0.0.1:8080", 1000, false⟩ () (ascii "/a")

theorem unlink_failure_shown_as_success :
    deniedUnlink.clientFailed = true ∧ deniedUnlink.value = some 0 ∧
      ¬ deniedUnlink.ShowsFailure := by
  have failed : deniedUnlink.clientFailed = true := by decide +kernel
  have zero : deniedUnlink.value = some 0 := by decide +kernel
  refine ⟨failed, zero, ?_⟩
  intro shows
  obtain ⟨value, isValue, negative⟩ := (shows failed).2
  rw [zero, Option.some.injEq] at isValue
  omega

end HttpFs
