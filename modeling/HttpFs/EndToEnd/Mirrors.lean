import HttpFs.EndToEnd.ErrorReplies
import HttpFs.Fuse.Operations

namespace HttpFs

open Routine ClientM CProvider

variable {κ α : Type}

/-! Calls of the client, against calls on the machine of the provider. -/

/-- An error number as system calls leave it in `errno`. -/
def IsErrno (errnoValue : Int) : Prop := 0 < errnoValue ∧ errnoValue < 2 ^ 31

theorem isErrno_EINVAL : IsErrno Errno.EINVAL := by unfold IsErrno; decide

/-- System calls fail with error numbers. -/
structure CProvider.Kernel.Documented (kernel : Kernel κ) : Prop where
  openFile : ∀ {names path flags errnoValue},
    kernel.openFile names path flags = .error errnoValue → IsErrno errnoValue
  lstat : ∀ {names contents path errnoValue},
    kernel.lstat names contents path = .error errnoValue → IsErrno errnoValue
  opendir : ∀ {names path errnoValue},
    kernel.opendir names path = .error errnoValue → IsErrno errnoValue
  change : ∀ {change names contents errnoValue},
    kernel.change change names contents = .error errnoValue → IsErrno errnoValue

namespace IsErrno

variable {errnoValue : Int}

theorem long (isErrno : IsErrno errnoValue) : ∃ number : Int64, number.toInt = errnoValue := by
  obtain ⟨lower, upper⟩ := isErrno
  refine ⟨.ofInt errnoValue, Int64.toInt_ofInt_of_le ?_ ?_⟩ <;> omega

theorem negated {σ : Type} {message : Bytes} {state : ClientState σ}
    (isErrno : IsErrno errnoValue) (isError : state.error = some ⟨errnoValue, message⟩) :
    negatedErrno state = some (-errnoValue) := by
  obtain ⟨lower, upper⟩ := isErrno
  have narrow : toInt32 errnoValue = errnoValue := by
    rw [toInt32, Int.bmod_eq_of_le] <;> omega
  rw [negatedErrno, isError, Option.bind_some, narrow, negateInt32, if_neg (by omega)]

end IsErrno

/-- What a system call with a result returns, or the negation of its `errno`. -/
def returned (answer : α → Int) : Except Int α → Int
  | .ok value => answer value
  | .error errnoValue => -errnoValue

section Calls

variable {kernel : Kernel κ} {rootDir : Bytes} {client : HttpfsClient}
  {curl : Curl (Host κ)} {host after : Host κ} {before : ClientState (Host κ)}

/-- How a call of the client stands to a call on the machine: it succeeds or fails with
it, leaves the machine as it does, and reports its error number. -/
def Mirrors (before : ClientState (Host κ)) (direct : Except Int α × Host κ) (host : Host κ)
    (routine : ClientM (Host κ) α) : Prop :=
  match direct with
  | (.ok value, after) =>
      Succeeds (Reached before host) routine fun found state =>
        found = value ∧ Reached before after state
  | (.error errnoValue, after) =>
      Triple (Reached before host) routine (fun _ _ => False)
        fun state => ∃ message, Refused before after ⟨errnoValue, message⟩ state

/-- What the kernel is told is the outcome on the machine. -/
theorem fuseCall_mirrors {routine : ClientM (Host κ) α} {result : Except Int α}
    (mirrors : Mirrors (.start host []) (result, after) host routine)
    (documented : ∀ errnoValue, result = .error errnoValue → IsErrno errnoValue)
    (answer : α → Int) :
    (routine (.start host [])).1 = result.toOption ∧
      (fuseCall routine (.start host []) fun value _ => answer value).value =
        some (returned answer result) ∧
      (fuseCall routine (.start host []) fun value _ => answer value).state.host = after := by
  have start := Reached.refl (ClientState.start host [])
  cases result with
  | ok value =>
      have outcome := mirrors _ start
      cases run : routine (.start host []) with
      | mk found state =>
          rw [run] at outcome
          cases found with
          | none => exact outcome.elim
          | some found =>
              obtain ⟨rfl, exchanges, tokenRuns, rfl⟩ := outcome
              simp only [fuseCall, run, returned, Except.toOption, and_self]
  | error errnoValue =>
      have outcome := mirrors _ start
      cases run : routine (.start host []) with
      | mk found state =>
          rw [run] at outcome
          cases found with
          | some => exact outcome.elim
          | none =>
              obtain ⟨message, exchanges, tokenRuns, rfl⟩ := outcome
              simp only [fuseCall, run]
              exact ⟨rfl, (documented errnoValue rfl).negated rfl, rfl⟩

variable {method : HttpMethod} {endpoint statusMessage : Bytes}
  {body contentType contentMd5 : Option Bytes} {request : HttpRequest} {declared : Nat}

/-- A library that takes a request from a machine to the provider and its reply back, each
as a whole. -/
def Delivers (kernel : Kernel κ) (rootDir endpoint : Bytes) (curl : Curl (Host κ))
    (request : HttpRequest) (host : Host κ) : Prop :=
  ∃ lines chunks reply after, Carries request lines ∧
    processRequestBuffer kernel rootDir
      (requestMessage request.method endpoint lines request.body) host = (reply, after) ∧
    chunks.flatten = reply.body ∧
    curl.easyPerform request host = (.received reply.statusCode reply.headers chunks, after)

theorem FaithfulTransport.delivers
    (faithful : FaithfulTransport kernel rootDir client.baseUrl curl)
    (isRequest : requestFor client method endpoint body contentType contentMd5 = .ok request)
    (sendable : Sendable request) (host : Host κ) :
    Delivers kernel rootDir endpoint curl request host :=
  faithful.easyPerform request endpoint host (requestFor_url isRequest) sendable

theorem Delivers.performed {reply : HttpReply}
    (delivers : Delivers kernel rootDir endpoint curl request host)
    (answer : ∀ lines, Carries request lines →
      processRequestBuffer kernel rootDir
        (requestMessage request.method endpoint lines request.body) host = (reply, after)) :
    ∃ chunks, chunks.flatten = reply.body ∧
      curl.easyPerform request host =
        (.received reply.statusCode reply.headers chunks, after) := by
  obtain ⟨lines, chunks, sent, reached, carries, processed, whole, performed⟩ := delivers
  rw [answer lines carries, Prod.mk.injEq] at processed
  obtain ⟨rfl, rfl⟩ := processed
  exact ⟨chunks, whole, performed⟩

/-- The provider's error reaches the caller of the client. -/
theorem refused_delivered (dependable : ∀ host, Dependable curl host)
    (fits : (client.baseUrl ++ endpoint).length < 1024)
    (isRequest : requestFor client method endpoint body contentType contentMd5 = .ok request)
    (delivers : Delivers kernel rootDir endpoint curl request host) {errnoValue : Int}
    {message : Bytes} (isErrno : IsErrno errnoValue)
    (answer : ∀ lines, Carries request lines →
      processRequestBuffer kernel rootDir
        (requestMessage request.method endpoint lines request.body) host =
          (sendErrorJson errnoValue message, after)) :
    Triple (Reached before host)
      (requestOk curl client method endpoint body contentType contentMd5 statusMessage
        declared)
      (fun _ _ => False) fun state => ∃ text, Refused before after ⟨errnoValue, text⟩ state := by
  obtain ⟨number, rfl⟩ := isErrno.long
  obtain ⟨chunks, whole, performed⟩ := delivers.performed answer
  have payload : chunks.flatten = errorPayload number.toInt message := whole
  refine triple_failed (refused_requestOk (dependable host) (dependable after) fits isRequest
    performed (payload ▸ zero_not_mem_errorPayload number message)
    (payload ▸ parseOkResponse_reported number message)) fun state reported => ?_
  exact ⟨reportedMessage (errorText message), reported⟩

theorem succeeds_delivered (dependable : ∀ host, Dependable curl host)
    (fits : (client.baseUrl ++ endpoint).length < 1024)
    (isRequest : requestFor client method endpoint body contentType contentMd5 = .ok request)
    (delivers : Delivers kernel rootDir endpoint curl request host) {payload : Bytes}
    {tokens : List JsmnToken} (noNul : 0 ∉ payload)
    (parsed : parseOkResponse payload = .ok tokens)
    (answer : ∀ lines, Carries request lines →
      processRequestBuffer kernel rootDir
        (requestMessage request.method endpoint lines request.body) host =
          (sendOk payload, after)) :
    Succeeds (Reached before host)
      (requestOk curl client method endpoint body contentType contentMd5 statusMessage
        declared)
      (fun reply state => reply = ⟨payload, tokens⟩ ∧ Reached before after state) := by
  obtain ⟨chunks, whole, performed⟩ := delivers.performed answer
  obtain rfl : chunks.flatten = payload := whole
  exact succeeds_requestOk (dependable host) (dependable after) fits isRequest performed noNul
    parsed

end Calls

end HttpFs
