import HttpFs.Client.Replies

namespace HttpFs

open Routine

namespace ClientM

variable {σ α : Type} {pre : ClientState σ → Prop} {post : α → ClientState σ → Prop}
  {failed : ClientState σ → Prop}

theorem triple_ask {answer : σ → α × σ}
    (holds : ∀ state value host, pre state → post value { state with host }) :
    Triple pre (ask answer) post failed :=
  triple_call fun state start => holds state _ _ start

def reported (errnoValue : Int) (message : Bytes) (state : ClientState σ) : ClientState σ :=
  { state with error := some ⟨errnoValue, snprintf HTTPFS_MAX_MESSAGE message⟩ }

theorem triple_raise {errnoValue : Int} {message : Bytes}
    (holds : ∀ state, pre state → failed (reported errnoValue message state)) :
    Triple pre (raise errnoValue message : ClientM σ α) post failed := by
  have set : Triple pre (setError errnoValue message) (fun _ => failed) failed :=
    triple_modify holds
  exact triple_bind set fun _ => triple_fail fun state reached => reached

theorem triple_require {condition : Bool} {errnoValue : Int} {message : Bytes}
    {after : ClientState σ → Prop}
    (whenTrue : condition = true → ∀ state, pre state → after state)
    (whenFalse : condition = false → ∀ state, pre state →
      failed (reported errnoValue message state)) :
    Triple pre (require condition errnoValue message) (fun _ => after) failed := by
  cases condition with
  | true => exact triple_pure (whenTrue rfl)
  | false => exact triple_raise (whenFalse rfl)

theorem triple_obtainOr {result : Option α} {errnoValue : Int} {message : Bytes}
    (whenSome : ∀ value, result = some value → ∀ state, pre state → post value state)
    (whenNone : result = none → ∀ state, pre state →
      failed (reported errnoValue message state)) :
    Triple pre (obtainOr errnoValue message result) post failed := by
  cases result with
  | some value => exact triple_pure (whenSome value rfl)
  | none => exact triple_raise (whenNone rfl)

theorem triple_passOn {result : Except HttpfsError α}
    (whenOk : ∀ value, result = .ok value → ∀ state, pre state → post value state)
    (whenError : ∀ error, result = .error error → ∀ state, pre state →
      failed (reported error.errnoValue error.message state)) :
    Triple pre (passOn result) post failed := by
  cases result with
  | ok value => exact triple_pure (whenOk value rfl)
  | error error => exact triple_raise (whenError error rfl)

end ClientM

open ClientM

variable {σ : Type}

def HostOnly (before after : ClientState σ) : Prop := ∃ host, after = { before with host }

theorem HostOnly.refl (state : ClientState σ) : HostOnly state state := ⟨state.host, rfl⟩

theorem triple_ask_hostOnly {α : Type} {answer : σ → α × σ} {before : ClientState σ}
    {failed : ClientState σ → Prop} :
    Triple (HostOnly before) (ask answer) (fun _ => HostOnly before) failed := by
  apply triple_ask
  intro state _ host same
  obtain ⟨_, rfl⟩ := same
  exact ⟨host, rfl⟩

theorem triple_easyPerform {curl : Curl σ} {request : HttpRequest}
    {before : ClientState σ} {failed : ClientState σ → Prop} :
    Triple (HostOnly before) (easyPerform curl request)
      (fun outcome => HostOnly { before with
        exchanges := before.exchanges ++ [⟨request, outcome⟩] }) failed := by
  apply triple_call
  intro state same
  obtain ⟨_, rfl⟩ := same
  exact ⟨_, rfl⟩

/-- An `errno` the client reports on its own account fits an `int` and is positive. -/
def LocalErrno (errnoValue : Int) : Prop := 0 < errnoValue ∧ errnoValue < 2 ^ 31

instance (errnoValue : Int) : Decidable (LocalErrno errnoValue) :=
  inferInstanceAs (Decidable (_ ∧ _))

/-- The client has given up with an error of its own, after at most one more
exchange, and has changed nothing else that its caller or its trace can see. -/
def GaveUp (unread : Exchange → Prop) (before after : ClientState σ) : Prop :=
  ∃ errnoValue message added,
    LocalErrno errnoValue ∧ added.length ≤ 1 ∧ (∀ exchange ∈ added, unread exchange) ∧
    HostOnly (reported errnoValue message
      { before with exchanges := before.exchanges ++ added }) after

theorem GaveUp.of_hostOnly {unread : Exchange → Prop} {before state : ClientState σ}
    (same : HostOnly before state) {errnoValue : Int} (isLocal : LocalErrno errnoValue)
    (message : Bytes) : GaveUp unread before (reported errnoValue message state) := by
  obtain ⟨host, rfl⟩ := same
  exact ⟨errnoValue, message, [], isLocal, by simp, by simp, host, by simp [reported]⟩

theorem GaveUp.of_exchange {unread : Exchange → Prop} {before state : ClientState σ}
    {exchange : Exchange} (isUnread : unread exchange)
    (same : HostOnly { before with exchanges := before.exchanges ++ [exchange] } state)
    {errnoValue : Int} (isLocal : LocalErrno errnoValue) (message : Bytes) :
    GaveUp unread before (reported errnoValue message state) := by
  obtain ⟨host, rfl⟩ := same
  exact ⟨errnoValue, message, [exchange], isLocal, by simp, by simpa using isUnread, host, rfl⟩

theorem GaveUp.mono {unread unread' : Exchange → Prop} {before after : ClientState σ}
    (weaker : ∀ exchange, unread exchange → unread' exchange)
    (gaveUp : GaveUp unread before after) : GaveUp unread' before after := by
  obtain ⟨errnoValue, message, added, isLocal, single, isUnread, same⟩ := gaveUp
  exact ⟨errnoValue, message, added, isLocal, single,
    fun exchange member => weaker exchange (isUnread exchange member), same⟩

theorem triple_buildEndpoint {curl : Curl σ} {path : Bytes} {format : Bytes → Bytes}
    {endpointSize : Nat} {before : ClientState σ} {failed : ClientState σ → Prop} :
    Triple (HostOnly before) (buildEndpoint curl path format endpointSize)
      (fun endpoint after => HostOnly before after ∧
        ∀ text, endpoint = some text → ∃ escapedPath, text = format escapedPath)
      failed := by
  apply triple_bind triple_ask_hostOnly
  intro initialised
  apply triple_ite
  · intro _
    apply triple_bind triple_ask_hostOnly
    intro escapedPath
    cases escapedPath with
    | none => exact triple_pure fun state same => ⟨same, by simp⟩
    | some escapedPath =>
        apply triple_pure
        intro state same
        refine ⟨same, ?_⟩
        intro text built
        split at built
        · exact ⟨escapedPath, (Option.some.inj built).symm⟩
        · contradiction
  · intro _
    exact triple_pure fun state same => ⟨same, by simp⟩

theorem Except.bind_eq_error {ε α β : Type} {first : Except ε α} {next : α → Except ε β}
    {error : ε} (failed : (first >>= next) = .error error) :
    first = .error error ∨ ∃ value, first = .ok value ∧ next value = .error error := by
  cases first with
  | error found =>
      cases failed
      exact .inl rfl
  | ok value => exact .inr ⟨value, rfl, failed⟩

theorem localErrno_headerEntry {name tooLong : Bytes} {value : Option Bytes}
    {error : HttpfsError} (long : headerEntry name tooLong value = .error error) :
    LocalErrno error.errnoValue := by
  cases value with
  | none => simp [headerEntry] at long
  | some value =>
      simp only [headerEntry] at long
      split at long
      · cases long
        exact (show LocalErrno Errno.EINVAL by decide)
      · contradiction

theorem localErrno_requestFor {client : HttpfsClient} {method : HttpMethod}
    {endpoint : Bytes} {body contentType contentMd5 : Option Bytes} {error : HttpfsError}
    (refused : requestFor client method endpoint body contentType contentMd5 =
      .error error) : LocalErrno error.errnoValue := by
  cases method with
  | get => simp [requestFor] at refused
  | post =>
      cases options : postOptions body contentType contentMd5 with
      | ok post => simp [requestFor, options, Except.map] at refused
      | error found =>
          obtain rfl : found = error := by
            simpa [requestFor, options, Except.map] using refused
          obtain typeLong | ⟨_, _, rest⟩ := Except.bind_eq_error options
          · exact localErrno_headerEntry typeLong
          · obtain md5Long | ⟨_, _, impossible⟩ := Except.bind_eq_error rest
            · exact localErrno_headerEntry md5Long
            · cases impossible

def Empty (exchange : Exchange) : Prop :=
  ∀ reply, exchange.outcome.reply = some reply → reply.response = []

def Asks (client : HttpfsClient) (method : HttpMethod) (endpoint : Bytes)
    (body contentType contentMd5 : Option Bytes) (exchange : Exchange) : Prop :=
  requestFor client method endpoint body contentType contentMd5 = .ok exchange.request

def Answered (client : HttpfsClient) (method : HttpMethod) (endpoint : Bytes)
    (body contentType contentMd5 : Option Bytes) (before : ClientState σ)
    (reply : HttpResponse) (after : ClientState σ) : Prop :=
  ∃ exchange,
    Asks client method endpoint body contentType contentMd5 exchange ∧
    exchange.outcome.reply = some reply ∧
    HostOnly { before with exchanges := before.exchanges ++ [exchange] } after

theorem httpRequestEx_effect (curl : Curl σ) (client : HttpfsClient) (method : HttpMethod)
    (endpoint : Bytes) (body contentType contentMd5 : Option Bytes)
    (before : ClientState σ) :
    Triple (HostOnly before)
      (httpRequestEx curl client method endpoint body contentType contentMd5)
      (Answered client method endpoint body contentType contentMd5 before)
      (GaveUp (fun exchange =>
        Asks client method endpoint body contentType contentMd5 exchange ∧
          Empty exchange) before) := by
  unfold httpRequestEx
  apply triple_bind (triple_require (fun _ _ same => same) fun _ _ same =>
    GaveUp.of_hostOnly same (by decide) _)
  intro _
  apply triple_bind triple_ask_hostOnly
  intro initialised
  apply triple_bind (triple_require (fun _ _ same => same) fun _ _ same =>
    GaveUp.of_hostOnly same (by decide) _)
  intro _
  have prepared : Triple (HostOnly before)
      (passOn (requestFor client method endpoint body contentType contentMd5))
      (fun request after =>
        requestFor client method endpoint body contentType contentMd5 = .ok request ∧
          HostOnly before after)
      (GaveUp (fun exchange =>
        Asks client method endpoint body contentType contentMd5 exchange ∧
          Empty exchange) before) :=
    triple_passOn (fun request isRequest _ same => ⟨isRequest, same⟩)
      fun error refused _ same =>
        GaveUp.of_hostOnly same (localErrno_requestFor refused) _
  apply triple_bind prepared
  intro request
  apply triple_assuming
  intro isRequest
  have asks : ∀ outcome,
      Asks client method endpoint body contentType contentMd5 ⟨request, outcome⟩ :=
    fun _ => isRequest
  apply triple_bind triple_easyPerform
  intro outcome
  cases outcome with
  | failed message =>
      apply triple_raise
      intro state same
      exact GaveUp.of_exchange ⟨asks _, by simp [Empty, PerformOutcome.reply]⟩ same
        (by decide) _
  | received statusCode headers chunks =>
      simp only [foldl_writeCallback]
      by_cases silent : chunks = []
      · simp only [silent, if_true]
        apply triple_bind triple_ask_hostOnly
        intro allocated
        have checked : Triple
            (HostOnly { before with exchanges := before.exchanges ++
              [⟨request, .received statusCode headers []⟩] })
            (require allocated Errno.ENOMEM (ascii "Failed to allocate response buffer"))
            (fun _ => HostOnly { before with exchanges := before.exchanges ++
              [⟨request, .received statusCode headers []⟩] })
            (GaveUp (fun exchange =>
              Asks client method endpoint body contentType contentMd5 exchange ∧
                Empty exchange) before) :=
          triple_require (fun _ _ same => same) fun _ _ same =>
            GaveUp.of_exchange ⟨asks _, by simp [Empty, PerformOutcome.reply]⟩ same
              (by decide) _
        apply triple_bind checked
        intro _
        exact triple_pure fun state same => ⟨_, asks _, rfl, same⟩
      · simp only [silent, if_false]
        exact triple_pure fun state same => ⟨_, asks _, rfl, same⟩

/-- An exchange whose reply `parse_ok_response` does not get to see, or sees empty. -/
def Unparsed (exchange : Exchange) : Prop :=
  ∀ reply, exchange.outcome.reply = some reply →
    reply.statusCode ≠ 200 ∨ reply.response = []

/-- The reply of an exchange is parsed, in a caller whose array has `declared`
elements. -/
def Parsed (declared : Nat) (before : ClientState σ) (json : Bytes)
    (after : ClientState σ) : Prop :=
  ∃ exchange reply,
    exchange.outcome.reply = some reply ∧ reply.statusCode = 200 ∧
    json = cString reply.response ∧
    HostOnly { before with
      exchanges := before.exchanges ++ [exchange]
      tokenRuns := before.tokenRuns ++
        [⟨declared, (jsmnParse OK_RESPONSE_TOKENS json).parser.tokens.length⟩] } after

/-- The error exits of the common part: before `parse_ok_response` or in it. -/
def NotOk (declared : Nat) (before after : ClientState σ) : Prop :=
  GaveUp Unparsed before after ∨
    ∃ json error state, parseOkResponse json = .error error ∧
      Parsed declared before json state ∧
      after = reported error.errnoValue error.message state

def ParsedFor (asked : Exchange → Prop) (declared : Nat) (before : ClientState σ)
    (json : Bytes) (after : ClientState σ) : Prop :=
  ∃ exchange reply, asked exchange ∧
    exchange.outcome.reply = some reply ∧ reply.statusCode = 200 ∧
    json = cString reply.response ∧
    HostOnly { before with
      exchanges := before.exchanges ++ [exchange]
      tokenRuns := before.tokenRuns ++
        [⟨declared, (jsmnParse OK_RESPONSE_TOKENS json).parser.tokens.length⟩] } after

theorem ParsedFor.parsed {asked : Exchange → Prop} {declared : Nat}
    {before after : ClientState σ} {json : Bytes}
    (parsed : ParsedFor asked declared before json after) :
    Parsed declared before json after := by
  obtain ⟨exchange, reply, _, outcome⟩ := parsed
  exact ⟨exchange, reply, outcome⟩

def NotOkFor (asked : Exchange → Prop) (declared : Nat) (before after : ClientState σ) :
    Prop :=
  GaveUp (fun exchange => asked exchange ∧ Unparsed exchange) before after ∨
    ∃ json error state, parseOkResponse json = .error error ∧
      ParsedFor asked declared before json state ∧
      after = reported error.errnoValue error.message state

theorem NotOkFor.notOk {asked : Exchange → Prop} {declared : Nat}
    {before after : ClientState σ} (notOk : NotOkFor asked declared before after) :
    NotOk declared before after := by
  obtain gaveUp | ⟨json, error, state, rejected, parsed, isAfter⟩ := notOk
  · exact .inl (gaveUp.mono fun _ unread => unread.2)
  · exact .inr ⟨json, error, state, rejected, parsed.parsed, isAfter⟩

theorem requestOk_asks (curl : Curl σ) (client : HttpfsClient) (method : HttpMethod)
    (endpoint : Bytes) (body contentType contentMd5 : Option Bytes)
    (statusMessage : Bytes) (declared : Nat) (before : ClientState σ) :
    Triple (HostOnly before)
      (requestOk curl client method endpoint body contentType contentMd5 statusMessage
        declared)
      (fun reply after => parseOkResponse reply.json = .ok reply.tokens ∧
        ParsedFor (Asks client method endpoint body contentType contentMd5) declared before
          reply.json after)
      (NotOkFor (Asks client method endpoint body contentType contentMd5) declared
        before) := by
  unfold requestOk
  generalize isAsked : Asks client method endpoint body contentType contentMd5 = asked
  have answered : Triple (HostOnly before)
      (httpRequestEx curl client method endpoint body contentType contentMd5)
      (Answered client method endpoint body contentType contentMd5 before)
      (NotOkFor asked declared before) := by
    apply triple_failed (httpRequestEx_effect curl client method endpoint body contentType
      contentMd5 before)
    intro after gaveUp
    apply Or.inl
    rw [isAsked] at gaveUp
    exact gaveUp.mono fun exchange unread =>
      ⟨unread.1, fun reply found => .inr (unread.2 reply found)⟩
  apply triple_bind answered
  intro reply
  have checked : Triple
      (Answered client method endpoint body contentType contentMd5 before reply)
      (require (reply.statusCode = 200) Errno.EIO statusMessage)
      (fun _ after => reply.statusCode = 200 ∧
        Answered client method endpoint body contentType contentMd5 before reply after)
      (NotOkFor asked declared before) := by
    apply triple_require
    · intro isOk state reached
      exact ⟨by simpa using isOk, reached⟩
    · intro notOk state reached
      obtain ⟨exchange, asks, outcome, same⟩ := reached
      rw [isAsked] at asks
      have unparsed : Unparsed exchange := by
        intro found foundReply
        obtain rfl : reply = found := Option.some.inj (outcome.symm.trans foundReply)
        exact .inl (by simpa using notOk)
      exact .inl (GaveUp.of_exchange ⟨asks, unparsed⟩ same (by decide) _)
  apply triple_bind checked
  intro _
  apply triple_assuming
  intro isOk
  unfold parseOkInto
  have logged : Triple
      (Answered client method endpoint body contentType contentMd5 before reply)
      (modify fun state => { state with
        tokenRuns := state.tokenRuns ++
          [⟨declared, (jsmnParse OK_RESPONSE_TOKENS
            (cString reply.response)).parser.tokens.length⟩] })
      (fun _ => ParsedFor asked declared before (cString reply.response))
      (NotOkFor asked declared before) := by
    apply triple_modify
    intro state reached
    obtain ⟨exchange, asks, outcome, host, rfl⟩ := reached
    rw [isAsked] at asks
    exact ⟨exchange, reply, asks, outcome, isOk, rfl, host, rfl⟩
  have parsed : Triple (ParsedFor asked declared before (cString reply.response))
      (passOn (parseOkResponse (cString reply.response)))
      (fun tokens after => parseOkResponse (cString reply.response) = .ok tokens ∧
        ParsedFor asked declared before (cString reply.response) after)
      (NotOkFor asked declared before) := by
    apply triple_passOn
    · intro tokens ok state reached
      exact ⟨ok, reached⟩
    · intro error rejected state reached
      exact .inr ⟨_, error, state, rejected, reached, rfl⟩
  apply triple_bind (triple_bind logged fun _ => parsed)
  intro tokens
  exact triple_pure fun state reached => reached

theorem requestOk_effect (curl : Curl σ) (client : HttpfsClient) (method : HttpMethod)
    (endpoint : Bytes) (body contentType contentMd5 : Option Bytes)
    (statusMessage : Bytes) (declared : Nat) (before : ClientState σ) :
    Triple (HostOnly before)
      (requestOk curl client method endpoint body contentType contentMd5 statusMessage
        declared)
      (fun reply after => parseOkResponse reply.json = .ok reply.tokens ∧
        Parsed declared before reply.json after)
      (NotOk declared before) :=
  triple_consequence
    (requestOk_asks curl client method endpoint body contentType contentMd5 statusMessage
      declared before)
    (fun _ start => start) (fun _ _ reached => ⟨reached.1, reached.2.parsed⟩)
    fun _ notOk => notOk.notOk

end HttpFs
