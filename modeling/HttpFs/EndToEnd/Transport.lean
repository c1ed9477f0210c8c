import HttpFs.Client.Effects
import HttpFs.Provider.Queries
import HttpFs.Provider.Requests

namespace HttpFs

open Routine ClientM CProvider

variable {κ : Type}

namespace HttpRequest

def method (request : HttpRequest) : Bytes :=
  match request.post with
  | none => ascii "GET"
  | some _ => ascii "POST"

def headers (request : HttpRequest) : List Bytes :=
  match request.post with
  | none => []
  | some post => post.headers

def body (request : HttpRequest) : Bytes :=
  match request.post with
  | none => []
  | some post => post.fields

end HttpRequest

/-- The header lines that carry a request: lines of the library's own, and those the
request adds. -/
structure Carries (request : HttpRequest) (lines : List Bytes) : Prop where
  plain : ∀ line ∈ lines, PlainLine line
  length : DeclaresLength lines request.body
  digest : lines.filter (isHeaderLine md5HeaderName) =
    request.headers.filter (isHeaderLine md5HeaderName)

/-- The headers of a request can be sent as they are, and declare no length. -/
def Sendable (request : HttpRequest) : Prop :=
  ∀ line ∈ request.headers,
    PlainLine line ∧ containsText contentLengthName line = false

/-- A library that succeeds in every call and takes a request to the provider and its
reply back, each as a whole. -/
structure FaithfulTransport (kernel : Kernel κ) (rootDir baseUrl : Bytes)
    (curl : Curl (Host κ)) : Prop where
  easyInit : ∀ host, curl.easyInit host = (true, host)
  malloc : ∀ size host, curl.malloc size host = (true, host)
  easyEscape : ∀ text host, curl.easyEscape text host = (some (percentEncode text), host)
  easyPerform : ∀ request endpoint host, request.url = baseUrl ++ endpoint →
    Sendable request →
    ∃ lines chunks reply after, Carries request lines ∧
      processRequestBuffer kernel rootDir
        (requestMessage request.method endpoint lines request.body) host = (reply, after) ∧
      chunks.flatten = reply.body ∧
      curl.easyPerform request host =
        (.received reply.statusCode reply.headers chunks, after)

def directLines (request : HttpRequest) : List Bytes :=
  [ascii "Host: localhost"] ++ request.headers.filter (fun line => line != ascii "Expect:") ++
    match request.post with
    | none => []
    | some post => [contentLengthName ++ ascii " " ++ decimal post.fields.length]

def directCurl (kernel : Kernel κ) (rootDir baseUrl : Bytes) : Curl (Host κ) where
  easyInit := fun host => (true, host)
  malloc := fun _ host => (true, host)
  easyEscape := fun text host => (some (percentEncode text), host)
  easyPerform := fun request host =>
    let (reply, after) := processRequestBuffer kernel rootDir
      (requestMessage request.method (request.url.drop baseUrl.length) (directLines request)
        request.body) host
    (.received reply.statusCode reply.headers [reply.body], after)

private theorem plain_lengthLine (n : Nat) :
    PlainLine (contentLengthName ++ ascii " " ++ decimal n) := by
  have digit : ∀ c, c ∈ decimal n → isDigit c = true := fun c => isDigit_of_mem_decimal
  refine ⟨by simp [contentLengthName, ascii], ?_, ?_⟩
  all_goals
    simp only [List.mem_append, not_or]
    refine ⟨by decide, fun member => ?_⟩
    exact absurd (digit _ member) (by decide)

theorem carries_directLines {request : HttpRequest} (sendable : Sendable request) :
    Carries request (directLines request) := by
  have length : ∀ post, request.post = some post →
      containsText contentLengthName (contentLengthName ++ ascii " " ++
        decimal post.fields.length) = true := by
    intro post _
    rw [containsText, List.append_assoc, strstr_leading (List.prefix_append _ _)]
    rfl
  have noLength : (request.headers.filter (fun line => line != ascii "Expect:")).filter
      (containsText contentLengthName) = [] := by
    rw [List.filter_eq_nil_iff]
    intro line member
    have absent := (sendable line (List.mem_filter.mp member).1).2
    simp [absent]
  have md5Only : (request.headers.filter (fun line => line != ascii "Expect:")).filter
      (isHeaderLine md5HeaderName) = request.headers.filter (isHeaderLine md5HeaderName) := by
    rw [List.filter_filter]
    apply List.filter_congr
    intro line _
    by_cases expect : line = ascii "Expect:"
    · rw [expect]
      decide
    · simp [expect]
  have host : containsText contentLengthName (ascii "Host: localhost") = false := by decide
  have hostMd5 : isHeaderLine md5HeaderName (ascii "Host: localhost") = false := by decide
  constructor
  · intro line member
    simp only [directLines, List.mem_append, List.mem_singleton] at member
    obtain (rfl | inside) | last := member
    · exact ⟨by decide, by decide, by decide⟩
    · exact (sendable line (List.mem_filter.mp inside).1).1
    · split at last
      · cases last
      · obtain rfl := List.mem_singleton.mp last
        exact plain_lengthLine _
  · cases post : request.post with
    | none =>
        right
        simp [directLines, post, HttpRequest.body, noLength, host]
    | some fields =>
        left
        simp only [directLines, post, HttpRequest.body, List.filter_append, noLength,
          List.filter_cons, List.filter_nil, host, length fields post]
        rfl
  · cases post : request.post with
    | none => simp [directLines, post, md5Only, hostMd5]
    | some fields =>
        have notMd5 : isHeaderLine md5HeaderName (contentLengthName ++ (ascii " " ++
            decimal fields.fields.length)) = false := by
          have differs : startsWithIgnoringCase (contentLengthName ++ (ascii " " ++
              decimal fields.fields.length)) md5HeaderName = false := rfl
          rw [isHeaderLine, differs, Bool.and_false, Bool.false_and]
        simp [directLines, post, md5Only, hostMd5, notMd5]

theorem faithful_directCurl (kernel : Kernel κ) (rootDir baseUrl : Bytes) :
    FaithfulTransport kernel rootDir baseUrl (directCurl kernel rootDir baseUrl) := by
  refine ⟨fun _ => rfl, fun _ _ => rfl, fun _ _ => rfl, ?_⟩
  intro request endpoint host isUrl sendable
  obtain ⟨reply, after, processed⟩ : ∃ reply after, processRequestBuffer kernel rootDir
      (requestMessage request.method endpoint (directLines request) request.body) host =
        (reply, after) := ⟨_, _, rfl⟩
  refine ⟨directLines request, [reply.body], reply, after, carries_directLines sendable,
    processed, List.flatten_singleton, ?_⟩
  simp only [directCurl, isUrl, List.drop_left, processed]

def localClient : HttpfsClient := ⟨ascii "http://localhost:8080", 30000, false⟩

def localCurl : Curl (Host Unit) :=
  directCurl (.single (ascii "/srv/a")) (ascii "/srv") localClient.baseUrl

/-- The calls so far have taken the surroundings to `host` and have left alone what the
caller sees through its pointers. -/
def Reached {σ : Type} (before : ClientState σ) (host : σ) (after : ClientState σ) : Prop :=
  ∃ exchanges tokenRuns, after = { before with host, exchanges, tokenRuns }

theorem Reached.refl {σ : Type} (state : ClientState σ) : Reached state state.host state :=
  ⟨_, _, rfl⟩

abbrev Succeeds {σ α : Type} (pre : ClientState σ → Prop) (routine : ClientM σ α)
    (post : α → ClientState σ → Prop) : Prop :=
  Triple pre routine post fun _ => False

theorem Succeeds.triple {σ α : Type} {pre : ClientState σ → Prop} {routine : ClientM σ α}
    {post : α → ClientState σ → Prop} {failed : ClientState σ → Prop}
    (succeeds : Succeeds pre routine post) : Triple pre routine post failed :=
  triple_failed succeeds fun _ impossible => impossible.elim

variable {σ : Type} {host reached : σ} {before : ClientState σ}

theorem succeeds_ask {α : Type} {answer : σ → α × σ} {value : α}
    (answers : answer host = (value, host)) :
    Succeeds (Reached before host) (ask answer)
      (fun found after => found = value ∧ Reached before host after) := by
  apply triple_call
  rintro state ⟨exchanges, tokenRuns, rfl⟩
  simp only [answers]
  exact ⟨trivial, exchanges, tokenRuns, rfl⟩

theorem succeeds_require {condition : Bool} {errnoValue : Int} {message : Bytes}
    {pre : ClientState σ → Prop} (isTrue : condition = true) :
    Succeeds pre (require condition errnoValue message) (fun _ => pre) := by
  apply triple_require
  · intro _ state start
    exact start
  · intro isFalse
    rw [isTrue] at isFalse
    contradiction

theorem succeeds_passOn {α : Type} {value : α} {pre : ClientState σ → Prop} :
    Succeeds pre (passOn (.ok value)) (fun found after => found = value ∧ pre after) :=
  triple_pure fun _ start => ⟨rfl, start⟩

theorem succeeds_obtainOr {α : Type} {value : α} {errnoValue : Int} {message : Bytes}
    {pre : ClientState σ → Prop} :
    Succeeds pre (obtainOr errnoValue message (some value))
      (fun found after => found = value ∧ pre after) :=
  triple_pure fun _ start => ⟨rfl, start⟩

/-- The calls that do not leave the client's machine succeed and leave it alone. -/
structure Dependable (curl : Curl σ) (host : σ) : Prop where
  easyInit : curl.easyInit host = (true, host)
  malloc : ∀ size, curl.malloc size host = (true, host)
  easyEscape : ∀ text, curl.easyEscape text host = (some (percentEncode text), host)

theorem FaithfulTransport.dependable {kernel : Kernel κ} {rootDir baseUrl : Bytes}
    {curl : Curl (Host κ)} (faithful : FaithfulTransport kernel rootDir baseUrl curl)
    (host : Host κ) : Dependable curl host :=
  ⟨faithful.easyInit host, fun size => faithful.malloc size host,
    fun text => faithful.easyEscape text host⟩

section Calls

variable {client : HttpfsClient} {curl : Curl σ} {method : HttpMethod}
  {endpoint : Bytes} {body contentType contentMd5 : Option Bytes} {request : HttpRequest}

theorem succeeds_buildEndpoint (dependable : Dependable curl host) {path : Bytes}
    {format : Bytes → Bytes} {endpointSize : Nat}
    (fits : (format (percentEncode path)).length < endpointSize) :
    Succeeds (Reached before host) (buildEndpoint curl path format endpointSize)
      (fun endpoint after => endpoint = some (format (percentEncode path)) ∧
        Reached before host after) := by
  unfold buildEndpoint
  apply triple_bind_value (succeeds_ask dependable.easyInit)
  rw [if_pos rfl]
  apply triple_bind_value (succeeds_ask (dependable.easyEscape path))
  apply triple_pure
  intro state reached
  exact ⟨if_pos fits, reached⟩

theorem succeeds_exchange (dependable : Dependable curl host)
    (after : Dependable curl reached) {statusCode : Int} {headers chunks : List Bytes}
    (fits : (client.baseUrl ++ endpoint).length < 1024)
    (isRequest : requestFor client method endpoint body contentType contentMd5 = .ok request)
    (performed : curl.easyPerform request host =
      (.received statusCode headers chunks, reached)) :
    Succeeds (Reached before host)
      (httpRequestEx curl client method endpoint body contentType contentMd5)
      (fun response after =>
        response = ⟨statusCode, chunks.flatten, headers.foldl headerCallback ⟨[], []⟩⟩ ∧
          Reached before reached after) := by
  unfold httpRequestEx
  apply triple_bind (succeeds_require (decide_eq_true fits))
  intro _
  apply triple_bind_value (succeeds_ask dependable.easyInit)
  apply triple_bind (succeeds_require rfl)
  intro _
  rw [isRequest]
  apply triple_bind_value succeeds_passOn
  have perform : Succeeds (Reached before host) (easyPerform curl request)
      (fun outcome after => outcome = .received statusCode headers chunks ∧
        Reached before reached after) := by
    apply triple_call
    rintro state ⟨exchanges, tokenRuns, rfl⟩
    simp only [performed]
    exact ⟨trivial, _, _, rfl⟩
  apply triple_bind_value perform
  simp only [foldl_writeCallback]
  by_cases silent : chunks = []
  · simp only [silent, if_true]
    apply triple_bind_value (succeeds_ask (after.malloc 1))
    apply triple_bind (succeeds_require rfl)
    intro _
    exact triple_pure fun state arrived => ⟨rfl, arrived⟩
  · simp only [silent, if_false]
    exact triple_pure fun state arrived => ⟨rfl, arrived⟩

end Calls

def CProvider.HttpReply.received (reply : HttpReply) : HttpResponse :=
  ⟨reply.statusCode, reply.body, reply.headers.foldl headerCallback ⟨[], []⟩⟩

theorem FaithfulTransport.performed {kernel : Kernel κ} {rootDir : Bytes}
    {client : HttpfsClient} {curl : Curl (Host κ)}
    (faithful : FaithfulTransport kernel rootDir client.baseUrl curl)
    {method : HttpMethod} {endpoint : Bytes} {body contentType contentMd5 : Option Bytes}
    {request : HttpRequest} {reply : HttpReply} {host reached : Host κ}
    (isRequest : requestFor client method endpoint body contentType contentMd5 = .ok request)
    (sendable : Sendable request)
    (answer : ∀ lines, Carries request lines →
      processRequestBuffer kernel rootDir
        (requestMessage request.method endpoint lines request.body) host = (reply, reached)) :
    ∃ chunks, chunks.flatten = reply.body ∧
      curl.easyPerform request host =
        (.received reply.statusCode reply.headers chunks, reached) := by
  obtain ⟨lines, chunks, sent, after, carries, processed, whole, performed⟩ :=
    faithful.easyPerform request endpoint host (requestFor_url isRequest) sendable
  rw [answer lines carries, Prod.mk.injEq] at processed
  obtain ⟨rfl, rfl⟩ := processed
  exact ⟨chunks, whole, performed⟩

theorem succeeds_httpRequestEx {kernel : Kernel κ} {rootDir : Bytes}
    {client : HttpfsClient} {curl : Curl (Host κ)}
    (faithful : FaithfulTransport kernel rootDir client.baseUrl curl)
    {method : HttpMethod} {endpoint : Bytes} {body contentType contentMd5 : Option Bytes}
    {request : HttpRequest} {reply : HttpReply} {host reached : Host κ}
    (fits : (client.baseUrl ++ endpoint).length < 1024)
    (isRequest : requestFor client method endpoint body contentType contentMd5 = .ok request)
    (sendable : Sendable request)
    (answer : ∀ lines, Carries request lines →
      processRequestBuffer kernel rootDir
        (requestMessage request.method endpoint lines request.body) host = (reply, reached))
    (before : ClientState (Host κ)) :
    Succeeds (Reached before host)
      (httpRequestEx curl client method endpoint body contentType contentMd5)
      (fun response after => response = reply.received ∧ Reached before reached after) := by
  obtain ⟨chunks, whole, performed⟩ := faithful.performed isRequest sendable answer
  simp only [HttpReply.received, ← whole]
  exact succeeds_exchange (faithful.dependable host) (faithful.dependable reached) fits
    isRequest performed

end HttpFs
