import HttpFs.EndToEnd.ReplyDocuments
import HttpFs.EndToEnd.WireSessions
import HttpFs.Provider.PartialRequests

namespace HttpFs

open Routine ClientM CProvider HttpMessage Json

variable {κ : Type}

/-! Changes of the mounted directory over a network that may fail at any point. -/

/-- What the library makes of a transfer that breaks off: a failure, or a reply without a
body. -/
inductive BrokenOff : PerformOutcome → Prop where
  | failed (message : Bytes) : BrokenOff (.failed message)
  | empty (status : Int) (headers : List Bytes) : BrokenOff (.received status headers [])

/-- Any part of a request may arrive, in any pieces, before the connection fails, and any
part of a reply may be received. -/
structure Network.Faulty (network : Network κ) (baseUrl : Bytes) : Prop where
  arrives : ∀ request endpoint host, request.url = baseUrl ++ endpoint → Sendable request →
    isModest baseUrl request = true →
    ∃ lines, Carries request lines ∧
      (lines.map fun line => line ++ crlf).flatten.length ≤ 65536 ∧
      arrived (network.turns request host) <+:
        requestMessage request.method endpoint lines request.body
  receives : ∀ reply head body, Framed reply → Printable reply.body →
    head <+: reply.headers.flatten → body <+: reply.body →
    (∃ chunks, chunks.flatten = reply.body ∧
      network.receive (head ++ body) = .received 200 reply.headers chunks) ∨
    BrokenOff (network.receive (head ++ body))
  closed : BrokenOff (network.receive [])

/-- How a request ends that may get lost, as its reply may: the provider handles it once or
not at all. -/
inductive Conveyed (kernel : Kernel κ) (rootDir endpoint : Bytes) (request : HttpRequest)
    (host : Host κ) : PerformOutcome × Host κ → Prop where
  | delivered {lines chunks : List Bytes} {reply : HttpReply} {after : Host κ}
      (carries : Carries request lines)
      (processed : processRequestBuffer kernel rootDir
        (requestMessage request.method endpoint lines request.body) host = (reply, after))
      (whole : chunks.flatten = reply.body) :
      Conveyed kernel rootDir endpoint request host
        (.received reply.statusCode reply.headers chunks, after)
  | unanswered {lines : List Bytes} {outcome : PerformOutcome} (brokenOff : BrokenOff outcome)
      (carries : Carries request lines) :
      Conveyed kernel rootDir endpoint request host
        (outcome, (processRequestBuffer kernel rootDir
          (requestMessage request.method endpoint lines request.body) host).2)
  | refused {chunks : List Bytes} (whole : chunks.flatten = requestTooLarge.body) :
      Conveyed kernel rootDir endpoint request host
        (.received 200 requestTooLarge.headers chunks, host)
  | lost {outcome : PerformOutcome} (brokenOff : BrokenOff outcome) :
      Conveyed kernel rootDir endpoint request host (outcome, host)

section Exchanges

variable {kernel : Kernel κ} {rootDir baseUrl endpoint : Bytes} {network : Network κ}
  {request : HttpRequest}

theorem isErrno_EIO : IsErrno Errno.EIO := by unfold IsErrno; decide

theorem isErrno_ENOBUFS : IsErrno Errno.ENOBUFS := by unfold IsErrno; decide

theorem printable_error {errnoValue : Int} (isErrno : IsErrno errnoValue) (message : Bytes) :
    Printable (sendErrorJson errnoValue message).body := by
  obtain ⟨number, rfl⟩ := isErrno.long
  change Printable (errorPayload number.toInt message)
  rw [errorPayload_text]
  exact (reportMembers_compact number.toInt message).printable

theorem conveyed_faulty (faulty : network.Faulty baseUrl)
    (isUrl : request.url = baseUrl ++ endpoint) (sendable : Sendable request)
    (modest : isModest baseUrl request = true) {host : Host κ}
    (printable : ∀ lines, Carries request lines → Printable (processRequestBuffer kernel rootDir
      (requestMessage request.method endpoint lines request.body) host).1.body) :
    Conveyed kernel rootDir endpoint request host
      (exchange kernel rootDir network request host) := by
  obtain ⟨lines, carries, room, isPart⟩ := faulty.arrives request endpoint host isUrl sendable
    modest
  have isRequest := isRequest_modest isUrl modest carries room
  rw [requestMessage_split] at isPart
  have interrupted := interrupted_turns isRequest (Partial.start isRequest) isPart
  unfold exchange
  cases served : serveConnection .start (network.turns request host) with
  | waiting conn => exact .lost faulty.closed
  | closed => exact .lost faulty.closed
  | refused reply =>
      rw [served] at interrupted
      cases interrupted
      obtain ⟨head, body, inHead, inBody, sent⟩ :=
        requestTooLarge.sent_parts (network.sends request host)
      simp only [sent]
      obtain ⟨chunks, whole, received⟩ | brokenOff := faulty.receives requestTooLarge
        head body (framed_sendJson _) (printable_error isErrno_ENOBUFS _) inHead inBody
      · rw [received]
        exact .refused whole
      · exact .lost brokenOff
  | dispatched conn =>
      rw [served] at interrupted
      cases interrupted with
      | dispatched isBuffer =>
          rw [← requestMessage_split] at isBuffer
          have framed := framed_processRequestBuffer kernel rootDir conn.buffer host
          have isPrintable := printable lines carries
          rw [← isBuffer] at isPrintable
          cases processed : processRequestBuffer kernel rootDir conn.buffer host with
          | mk reply after =>
              rw [processed] at framed isPrintable
              obtain ⟨head, body, inHead, inBody, sent⟩ :=
                reply.sent_parts (network.sends request host)
              simp only [processed, sent]
              rw [isBuffer] at processed
              obtain ⟨chunks, whole, received⟩ | brokenOff :=
                faulty.receives reply head body framed isPrintable inHead inBody
              · have isOk : reply.statusCode = 200 := framed.ok
                rw [received, ← isOk]
                exact .delivered carries processed whole
              · have unanswered := @Conveyed.unanswered _ kernel rootDir endpoint request host
                  lines _ brokenOff carries
                rw [processed] at unanswered
                exact unanswered

end Exchanges

section Changes

variable {kernel : Kernel κ} {rootDir : Bytes} {client : HttpfsClient}
  {curl : Curl (Host κ)} {host reached : Host κ} {before : ClientState (Host κ)}

theorem refused_brokenOff (dependable : ∀ host, Dependable curl host) {method : HttpMethod}
    {endpoint statusMessage : Bytes} {body contentType contentMd5 : Option Bytes}
    {request : HttpRequest} {declared : Nat} {outcome : PerformOutcome}
    (fits : (client.baseUrl ++ endpoint).length < 1024)
    (isRequest : requestFor client method endpoint body contentType contentMd5 = .ok request)
    (performed : curl.easyPerform request host = (outcome, reached))
    (brokenOff : BrokenOff outcome) :
    Triple (Reached before host)
      (requestOk curl client method endpoint body contentType contentMd5 statusMessage
        declared)
      (fun _ _ => False) fun state => ∃ text, Refused before reached ⟨Errno.EIO, text⟩ state := by
  have refusal {α : Type} {routine : ClientM (Host κ) α} {host : Host κ} {message : Bytes}
      (refused : Triple (Reached before host) routine (fun _ _ => False)
        (Refused before reached ⟨Errno.EIO, message⟩)) :
      Triple (Reached before host) routine (fun _ _ => False)
        fun state => ∃ text, Refused before reached ⟨Errno.EIO, text⟩ state :=
    triple_failed refused fun _ reported => ⟨message, reported⟩
  unfold requestOk
  cases brokenOff with
  | failed message =>
      apply triple_bind_fails
      unfold httpRequestEx
      apply triple_bind (succeeds_require (decide_eq_true fits)).triple
      intro _
      apply triple_bind_value (succeeds_ask (dependable host).easyInit).triple
      apply triple_bind (succeeds_require rfl).triple
      intro _
      rw [isRequest]
      apply triple_bind_value succeeds_passOn.triple
      have perform : Succeeds (Reached before host) (easyPerform curl request)
          (fun outcome after => outcome = .failed message ∧ Reached before reached after) := by
        apply triple_call
        rintro state ⟨exchanges, tokenRuns, rfl⟩
        simp only [performed]
        exact ⟨trivial, _, _, rfl⟩
      exact triple_bind_value perform.triple (refusal refused_raise)
  | empty status headers =>
      apply triple_bind_value
        (succeeds_exchange (dependable host) (dependable reached) fits isRequest performed).triple
      by_cases isOk : status = 200
      · have invalid : parseOkResponse (cString [].flatten) =
            .error ⟨Errno.EIO, ascii "Server returned an invalid response format"⟩ := by decide
        apply triple_bind (succeeds_require (decide_eq_true isOk)).triple
        intro _
        exact triple_bind_fails (refusal (refused_parseOkInto invalid))
      · simp only [require, decide_eq_false isOk, Bool.false_eq_true, if_false]
        exact triple_bind_fails (refusal refused_raise)

theorem handleChange_after (decoded : Option Change) (invalid : Bytes) :
    (handleChange kernel decoded invalid host).2 = (Direct.change kernel decoded host).2 := by
  cases decoded with
  | none => rfl
  | some change =>
      simp only [handleChange, Direct.change]
      cases kernel.change change host.names host.contents <;> rfl

theorem printable_handleChange (documented : kernel.Documented) (decoded : Option Change)
    (invalid : Bytes) : Printable (handleChange kernel decoded invalid host).1.body := by
  unfold handleChange
  cases decoded with
  | none => exact printable_error isErrno_EINVAL invalid
  | some change =>
      simp only
      split
      · next failed => exact printable_error (documented.change failed) _
      · exact (show Printable (ascii "\x7b\"status\":\"ok\"\x7d") by unfold Printable; decide)

/-- The answer of a failed call is its error, and no acceptance. -/
theorem fuseStatus_refused {routine : ClientM (Host κ) Unit} {errnoValue : Int}
    (isErrno : IsErrno errnoValue)
    (refused : Triple (Reached (.start host []) host) routine (fun _ _ => False)
      fun state => ∃ text, Refused (.start host []) reached ⟨errnoValue, text⟩ state) :
    (fuseStatus routine host).value = some (-errnoValue) ∧
      (fuseStatus routine host).state.host = reached := by
  have outcome := refused _ (Reached.refl (ClientState.start host []))
  unfold fuseStatus
  cases run : routine (.start host []) with
  | mk found state =>
      rw [run] at outcome
      cases found with
      | some => exact outcome.elim
      | none =>
          obtain ⟨text, exchanges, tokenRuns, rfl⟩ := outcome
          simp only [fuseCall, run]
          exact ⟨isErrno.negated rfl, rfl⟩

end Changes

/-- A change of the mounted directory, and the same change on the machine of the provider. -/
def mountedChange {σ : Type} (curl : Curl σ) (client : HttpfsClient) (request : PostRequest)
    (host : σ) : Option Int × σ :=
  let call := request.fuse.run curl client host
  (call.value, call.state.host)

def directChange (kernel : Kernel κ) (rootDir : Bytes) (request : PostRequest)
    (host : Host κ) : Option Int × Host κ :=
  let (result, after) := Direct.post kernel rootDir request host
  (some (returned (fun _ => 0) result), after)

section Attempts

variable {kernel : Kernel κ} {rootDir : Bytes} {client : HttpfsClient} {network : Network κ}

theorem attempts_mountedChange (documented : kernel.Documented)
    (faulty : network.Faulty client.baseUrl) (request : PostRequest)
    (noNul : ∀ path ∈ request.paths, 0 ∉ path)
    (fits : (client.baseUrl ++ request.endpoint.path).length < 1024) (host : Host κ) :
    Session.Attempts (fun answer => answer = some 0)
      (mountedChange (wireCurl kernel rootDir network) client) (directChange kernel rootDir)
      request host := by
  have dependable (host : Host κ) : Dependable (wireCurl kernel rootDir network) host :=
    ⟨rfl, fun _ => rfl, fun _ => rfl⟩
  have direct (delivers : ∀ text, request.body = some text →
      Delivers kernel rootDir request.endpoint.path (wireCurl kernel rootDir network)
        (postTransfer client request.endpoint text) host) :
      mountedChange (wireCurl kernel rootDir network) client request host =
        directChange kernel rootDir request host := by
    have mirrors := fuseCall_mirrors (mirrors_delivered documented dependable request noNul fits
      delivers) (fun errnoValue failed =>
        Direct.post_documented documented (Prod.ext failed rfl)) fun _ => 0
    rw [mountedChange, request.run_fuse, directChange]
    exact Prod.ext mirrors.2.1 mirrors.2.2
  cases built : request.body with
  | none =>
      left
      apply direct
      intro text isBuilt
      rw [built] at isBuilt
      contradiction
  | some text =>
      obtain ⟨statusMessage, posts⟩ :=
        PostRequest.operation_eq (wireCurl kernel rootDir network) client built
      have short := PostRequest.length_body built
      have bound : (text.length : Int) ≤ longMax := by
        simp only [longMax]
        omega
      have target : request.endpoint.path ≠ [] ∧
          request.endpoint.path.all isTargetByte = true ∧
          request.endpoint.path.length < 1024 := by
        cases request.endpoint <;> decide
      have isRequest := requestFor_post client request.endpoint text
      have processed (lines : List Bytes)
          (carries : Carries (postTransfer client request.endpoint text) lines) :
          processRequestBuffer kernel rootDir
              (requestMessage (postTransfer client request.endpoint text).method
                request.endpoint.path lines (postTransfer client request.endpoint text).body)
              host =
            handleChange kernel ((request.endpoint.decode text).bind fun decoded =>
              decoded.change rootDir) request.endpoint.invalid host :=
        processRequestBuffer_post carries bound host
      have afterwards : (Direct.post kernel rootDir request host).2 =
          (handleChange kernel ((request.endpoint.decode text).bind fun decoded =>
            decoded.change rootDir) request.endpoint.invalid host).2 := by
        rw [Direct.post_decoded noNul, ← PostRequest.body_eq built, handleChange_after]
      have conveyed := conveyed_faulty faulty (requestFor_url isRequest)
        (sendable_post client request.endpoint text)
        (modest_post target.1 target.2.1 target.2.2
          (by simp only [HTTPFS_WRITE_CHUNK_SIZE]; omega) _ isRequest)
        (fun lines carries => (processed lines carries) ▸
          printable_handleChange documented _ request.endpoint.invalid)
      have refusal {errnoValue : Int} {reached : Host κ} (isErrno : IsErrno errnoValue)
          (outcome : reached = host ∨ reached = (Direct.post kernel rootDir request host).2)
          (refused : Triple (Reached (.start host []) host)
            (requestOk (wireCurl kernel rootDir network) client .post request.endpoint.path
              (some text) (some jsonContentType) none statusMessage 128)
            (fun _ _ => False)
            fun state => ∃ text, Refused (.start host []) reached ⟨errnoValue, text⟩ state) :
          Session.Attempts (fun answer => answer = some 0)
            (mountedChange (wireCurl kernel rootDir network) client)
            (directChange kernel rootDir) request host := by
        have fails : Triple (Reached (.start host []) host)
            (request.operation (wireCurl kernel rootDir network) client) (fun _ _ => False)
            fun state => ∃ text, Refused (.start host []) reached ⟨errnoValue, text⟩ state := by
          rw [posts]
          exact triple_bind_fails refused
        obtain ⟨value, isHost⟩ := fuseStatus_refused isErrno fails
        refine .inr ⟨?_, ?_⟩
        · simp only [mountedChange, request.run_fuse, value, Option.some.injEq]
          have positive := isErrno.1
          omega
        · simp only [mountedChange, request.run_fuse, isHost]
          exact outcome
      generalize isOutcome : exchange kernel rootDir network
        (postTransfer client request.endpoint text) host = outcome at conveyed
      cases conveyed with
      | delivered carries processed whole =>
          left
          apply direct
          intro other isBuilt
          rw [built] at isBuilt
          cases isBuilt
          exact ⟨_, _, _, _, carries, processed, whole, isOutcome⟩
      | unanswered brokenOff carries =>
          refine refusal isErrno_EIO (.inr ?_) (refused_brokenOff dependable fits isRequest
            isOutcome brokenOff)
          rw [processed _ carries, afterwards]
      | refused whole =>
          have noNul : 0 ∉ requestTooLarge.body :=
            zero_not_mem_errorPayload (.ofInt Errno.ENOBUFS) (ascii "request too large")
          have reports : parseOkResponse requestTooLarge.body =
              .error (reportedError Errno.ENOBUFS (ascii "request too large")) :=
            parseOkResponse_reported (.ofInt Errno.ENOBUFS) (ascii "request too large")
          rw [← whole] at noNul reports
          have fails := @refused_requestOk _ host host (.start host []) client
            (wireCurl kernel rootDir network) (dependable host) (dependable host) .post
            request.endpoint.path statusMessage (some text) (some jsonContentType) none _ _ _ _
            128 fits isRequest isOutcome noNul reports
          exact refusal isErrno_ENOBUFS (.inl rfl)
            (triple_failed fails fun _ reported => ⟨_, reported⟩)
      | lost brokenOff =>
          exact refusal isErrno_EIO (.inl rfl) (refused_brokenOff dependable fits isRequest
            isOutcome brokenOff)

/-- Over a network that may fail at any point, some of the changes are made, each of them
once and in their order, and among them all that are answered with 0. -/
theorem mountedChanges_faulty (documented : kernel.Documented)
    (faulty : network.Faulty client.baseUrl) {requests : List PostRequest}
    (noNul : ∀ request ∈ requests, ∀ path ∈ request.paths, 0 ∉ path)
    (fits : ∀ request ∈ requests,
      (client.baseUrl ++ request.endpoint.path).length < 1024) (host : Host κ) :
    (∃ marks,
      (Session.run (mountedChange (wireCurl kernel rootDir network) client) requests host).2 =
          (Session.run (directChange kernel rootDir) (Session.marked marks requests) host).2 ∧
        List.Forall₂ (fun answer mark => answer = some 0 → mark = true)
          (Session.run (mountedChange (wireCurl kernel rootDir network) client) requests host).1
          marks) ∧
      ((∀ answer ∈ (Session.run (mountedChange (wireCurl kernel rootDir network) client)
          requests host).1, answer = some 0) →
        Session.run (mountedChange (wireCurl kernel rootDir network) client) requests host =
          Session.run (directChange kernel rootDir) requests host) := by
  have attempts : ∀ request ∈ requests, ∀ host, Session.Attempts (fun answer => answer = some 0)
      (mountedChange (wireCurl kernel rootDir network) client) (directChange kernel rootDir)
      request host :=
    fun request member => attempts_mountedChange documented faulty request
      (noNul request member) (fits request member)
  exact ⟨Session.run_attempts attempts host, Session.run_accepted attempts⟩

end Attempts

/-! A network on which a part of a request arrives and the calls of `send` end in any way. -/

theorem readMessage_parts {reply : HttpReply} {head body : Bytes} (framed : Framed reply)
    (printable : Printable reply.body) (inHead : head <+: reply.headers.flatten)
    (inBody : body <+: reply.body) :
    (∃ chunks, chunks.flatten = reply.body ∧
      readMessage (head ++ body) = .received 200 reply.headers chunks) ∨
    BrokenOff (readMessage (head ++ body)) := by
  obtain ⟨lines, isHead, _, _, areLines, declares⟩ := framed.message
  by_cases wholeHead : head = reply.headers.flatten
  · by_cases wholeBody : body = reply.body
    · rw [wholeHead, wholeBody]
      exact .inl (receives_readMessage reply framed)
    · right
      rw [wholeHead, isHead, readMessage, read_cut areLines declares inBody wholeBody]
      exact .failed _
  · right
    have noLf : byte '\n' ∉ body := fun member =>
      absurd (printable _ (inBody.subset member)) (by decide)
    rw [isHead] at inHead wholeHead
    rw [readMessage, read_incomplete areLines inHead wholeHead noLf]
    exact .failed _

def failingNetwork (baseUrl : Bytes) (arriving : HttpRequest → Host κ → Nat)
    (sends : HttpRequest → Host κ → List SysReturn) : Network κ where
  turns := fun request host =>
    ((requestMessage request.method (request.url.drop baseUrl.length) (directLines request)
      request.body).take (arriving request host)).map fun b => .bringing [b]
  sends := sends
  receive := readMessage

theorem faulty_failingNetwork (baseUrl : Bytes) (arriving : HttpRequest → Host κ → Nat)
    (sends : HttpRequest → Host κ → List SysReturn) :
    (failingNetwork baseUrl arriving sends).Faulty baseUrl where
  arrives := by
    intro request endpoint host isUrl sendable modest
    refine ⟨directLines request, carries_directLines sendable, directLines_short modest, ?_⟩
    have endpoint_eq : request.url.drop baseUrl.length = endpoint := by
      rw [isUrl, List.drop_left]
    simp only [failingNetwork, arrived_bytes, endpoint_eq]
    exact List.take_prefix _ _
  receives := fun _ _ _ => readMessage_parts
  closed := .failed _

/-- The replies stop within their first line. -/
theorem mountedChanges_faulty_once :
    ∃ marks, (Session.run (mountedChange (wireCurl onceKernel (ascii "/srv")
        (failingNetwork localClient.baseUrl (fun _ _ => 1000)
          fun _ _ => [.count 5, .failed Errno.EIO])) localClient)
        [.removeFile (ascii "/a"), .removeFile (ascii "/a")]
        ⟨true, fun _ => [], [], [], []⟩).2 =
      (Session.run (directChange onceKernel (ascii "/srv")) (Session.marked marks
        [.removeFile (ascii "/a"), .removeFile (ascii "/a")])
        ⟨true, fun _ => [], [], [], []⟩).2 := by
  have noNul : ∀ request ∈ [PostRequest.removeFile (ascii "/a"), .removeFile (ascii "/a")],
      ∀ path ∈ request.paths, 0 ∉ path := by decide
  have fits : ∀ request ∈ [PostRequest.removeFile (ascii "/a"), .removeFile (ascii "/a")],
      (localClient.baseUrl ++ request.endpoint.path).length < 1024 := by decide
  have outcome := @mountedChanges_faulty _ onceKernel (ascii "/srv") localClient
    (failingNetwork localClient.baseUrl (fun _ _ => 1000)
      fun _ _ => [.count 5, .failed Errno.EIO]) documented_onceKernel
    (faulty_failingNetwork _ _ _) _ noNul fits ⟨true, fun _ => [], [], [], []⟩
  obtain ⟨marks, final, _⟩ := outcome.1
  exact ⟨marks, final⟩

end HttpFs
