import HttpFs.Foundation.Numeral
import HttpFs.Foundation.Routine
import HttpFs.Protocol

namespace HttpFs

open Routine

structure HttpfsClient where
  baseUrl : Bytes
  timeoutMs : Int
  verbose : Bool

/-- What the options of a `POST` add to a request. -/
structure PostOptions where
  headers : List Bytes
  fields : Bytes
  deriving Repr, DecidableEq

structure HttpRequest where
  url : Bytes
  timeoutMs : Int
  verbose : Bool
  post : Option PostOptions
  deriving Repr, DecidableEq

/-- A transfer ends with an error text, or with a status, the header lines handed
to `header_callback` and the pieces handed to `write_callback`. -/
inductive PerformOutcome where
  | failed (message : Bytes)
  | received (status : Int) (headers chunks : List Bytes)
  deriving Repr, DecidableEq

/-- The library calls of the client, answered by surroundings in a state `σ`. -/
structure Curl (σ : Type) where
  easyInit : σ → Bool × σ
  easyEscape : Bytes → σ → Option Bytes × σ
  easyPerform : HttpRequest → σ → PerformOutcome × σ
  malloc : Nat → σ → Bool × σ

/-- Surroundings in which every call succeeds, no byte needs an escape and every
transfer ends in the same way. -/
def Curl.answering (outcome : PerformOutcome) : Curl Unit where
  easyInit := fun _ => (true, ())
  easyEscape := fun text _ => (some text, ())
  easyPerform := fun _ _ => (outcome, ())
  malloc := fun _ _ => (true, ())

structure Exchange where
  request : HttpRequest
  outcome : PerformOutcome
  deriving Repr, DecidableEq

/-- One run of the tokenizer: the length of the array it was given and the number
of tokens it stored. -/
structure TokenRun where
  declared : Nat
  stored : Nat
  deriving Repr, DecidableEq

structure Store where
  start : Nat
  length : Nat
  deriving Repr, DecidableEq

/-- The surroundings, what the caller sees through its pointers (the error record,
the transferred count and the read buffer), and what the calls so far have done. -/
structure ClientState (σ : Type) where
  host : σ
  error : Option HttpfsError
  transferred : Nat
  buffer : Bytes
  exchanges : List Exchange
  tokenRuns : List TokenRun
  stores : List Store

def ClientState.start {σ : Type} (host : σ) (buffer : Bytes) : ClientState σ :=
  ⟨host, none, 0, buffer, [], [], []⟩

abbrev ClientM (σ : Type) := Routine (ClientState σ)

namespace ClientM

variable {σ α : Type}

def ask (answer : σ → α × σ) : ClientM σ α :=
  call fun state =>
    let (value, host) := answer state.host
    (value, { state with host })

def setError (errnoValue : Int) (message : Bytes) : ClientM σ Unit :=
  modify fun state =>
    { state with error := some ⟨errnoValue, snprintf HTTPFS_MAX_MESSAGE message⟩ }

/-- `set_error` followed by the error exit. -/
def raise (errnoValue : Int) (message : Bytes) : ClientM σ α := do
  setError errnoValue message
  fail

def require (condition : Bool) (errnoValue : Int) (message : Bytes) : ClientM σ Unit :=
  if condition then pure () else raise errnoValue message

def obtainOr (errnoValue : Int) (message : Bytes) : Option α → ClientM σ α
  | some value => pure value
  | none => raise errnoValue message

def passOn : Except HttpfsError α → ClientM σ α
  | .ok value => pure value
  | .error error => raise error.errnoValue error.message

end ClientM

open ClientM

structure ResponseMetadata where
  contentType : Bytes
  contentMd5 : Bytes
  deriving Repr, DecidableEq

def contentTypeHeader : Bytes := ascii "Content-Type"

def HTTPFS_CONTENT_MD5_HEADER : Bytes := ascii "X-HTTPFS-Content-MD5"

def isHeaderTrail (c : UInt8) : Bool :=
  c == byte '\r' || c == byte '\n' || c == byte ' ' || c == byte '\t'

/-- `value_start .. value_end` of a header line that begins with `name`. -/
def headerValue (name header : Bytes) : Bytes :=
  let value := (header.drop name.length).dropWhile isHeaderBlank
  (value.reverse.dropWhile isHeaderTrail).reverse

/-- What is in a string field of `size` bytes once a header value was copied there. -/
def headerField (size : Nat) (value : Bytes) : Bytes := cString (value.take (size - 1))

def hasHeader (name header : Bytes) : Bool :=
  header.length > name.length && startsWithIgnoringCase header name

def headerCallback (metadata : ResponseMetadata) (header : Bytes) : ResponseMetadata :=
  let typeName := contentTypeHeader ++ ascii ":"
  let md5Name := HTTPFS_CONTENT_MD5_HEADER ++ ascii ":"
  if hasHeader typeName header then
    { metadata with contentType := headerField 128 (headerValue typeName header) }
  else if hasHeader md5Name header then
    { metadata with contentMd5 := headerField 33 (headerValue md5Name header) }
  else
    metadata

/-- `write_callback`; `none` is the NULL pointer of an untouched buffer. -/
def writeCallback (response : Option Bytes) (contents : Bytes) : Option Bytes :=
  some (response.getD [] ++ contents)

inductive HttpMethod where
  | get
  | post
  deriving Repr, DecidableEq

def headerEntry (name tooLong : Bytes) : Option Bytes → Except HttpfsError (List Bytes)
  | none => .ok []
  | some value =>
      let line := name ++ ascii ": " ++ value
      if line.length ≥ 128 then .error ⟨Errno.EINVAL, tooLong⟩ else .ok [line]

def postOptions (body contentType contentMd5 : Option Bytes) :
    Except HttpfsError PostOptions := do
  let typeLines ← headerEntry contentTypeHeader
    (ascii "Content-Type header is too long") contentType
  let md5Lines ← headerEntry HTTPFS_CONTENT_MD5_HEADER
    (ascii "Content MD5 header is too long") contentMd5
  return ⟨typeLines ++ md5Lines ++ [ascii "Expect:"], body.getD []⟩

def requestFor (client : HttpfsClient) (method : HttpMethod) (endpoint : Bytes)
    (body contentType contentMd5 : Option Bytes) : Except HttpfsError HttpRequest :=
  let request (post : Option PostOptions) : HttpRequest :=
    ⟨client.baseUrl ++ endpoint, client.timeoutMs, client.verbose, post⟩
  match method with
  | .get => .ok (request none)
  | .post => (postOptions body contentType contentMd5).map fun post => request (some post)

theorem requestFor_url {client : HttpfsClient} {method : HttpMethod} {endpoint : Bytes}
    {body contentType contentMd5 : Option Bytes} {request : HttpRequest}
    (isRequest : requestFor client method endpoint body contentType contentMd5 = .ok request) :
    request.url = client.baseUrl ++ endpoint := by
  cases method with
  | get =>
      simp only [requestFor, Except.ok.injEq] at isRequest
      rw [← isRequest]
  | post =>
      cases options : postOptions body contentType contentMd5 with
      | error error => simp [requestFor, options, Except.map] at isRequest
      | ok post =>
          simp only [requestFor, options, Except.map, Except.ok.injEq] at isRequest
          rw [← isRequest]

structure HttpResponse where
  statusCode : Int
  response : Bytes
  metadata : ResponseMetadata
  deriving Repr, DecidableEq

def PerformOutcome.reply : PerformOutcome → Option HttpResponse
  | .failed _ => none
  | .received statusCode headers chunks =>
      some ⟨statusCode, chunks.flatten, headers.foldl headerCallback ⟨[], []⟩⟩

theorem foldl_writeCallback (chunks : List Bytes) (start : Option Bytes) :
    chunks.foldl writeCallback start =
      if chunks = [] then start else some (start.getD [] ++ chunks.flatten) := by
  induction chunks generalizing start with
  | nil => rfl
  | cons head tail induction =>
      rw [List.foldl_cons, induction]
      cases tail <;> simp [writeCallback]

variable {σ : Type}

/-- `curl_easy_perform`, which the trace of exchanges records. -/
def easyPerform (curl : Curl σ) (request : HttpRequest) : ClientM σ PerformOutcome :=
  call fun state =>
    let (outcome, host) := curl.easyPerform request state.host
    (outcome, { state with
      host
      exchanges := state.exchanges ++ [⟨request, outcome⟩] })

def httpRequestEx (curl : Curl σ) (client : HttpfsClient) (method : HttpMethod)
    (endpoint : Bytes) (body contentType contentMd5 : Option Bytes) :
    ClientM σ HttpResponse := do
  require ((client.baseUrl ++ endpoint).length < 1024) Errno.ENAMETOOLONG
    (ascii "Request URL is too long")
  let initialised ← ask curl.easyInit
  require initialised Errno.EIO (ascii "Failed to initialize curl")
  let request ← passOn (requestFor client method endpoint body contentType contentMd5)
  let outcome ← easyPerform curl request
  match outcome with
  | .failed message => raise Errno.EIO message
  | .received statusCode headers chunks =>
      let metadata := headers.foldl headerCallback ⟨[], []⟩
      match chunks.foldl writeCallback none with
      | some response => pure ⟨statusCode, response, metadata⟩
      | none =>
          let allocated ← ask (curl.malloc 1)
          require allocated Errno.ENOMEM (ascii "Failed to allocate response buffer")
          pure ⟨statusCode, [], metadata⟩

/-- The part the three functions that build an endpoint share; `none` is their
return value -1. -/
def buildEndpoint (curl : Curl σ) (path : Bytes) (format : Bytes → Bytes)
    (endpointSize : Nat) : ClientM σ (Option Bytes) := do
  let initialised ← ask curl.easyInit
  if initialised then
    let escapedPath ← ask (curl.easyEscape path)
    match escapedPath with
    | none => pure none
    | some escapedPath =>
        let endpoint := format escapedPath
        pure (if endpoint.length < endpointSize then some endpoint else none)
  else
    pure none

def readEndpoint (offset : Int) (size : Nat) (escapedPath : Bytes) : Bytes :=
  ascii "/v1/read?path=" ++ escapedPath ++ ascii "&offset=" ++ signedDecimal offset ++
    ascii "&size=" ++ decimal size

def writeEndpoint (offset : Int) (escapedPath : Bytes) : Bytes :=
  ascii "/v1/write?path=" ++ escapedPath ++ ascii "&offset=" ++ signedDecimal offset

def simpleGetEndpoint (endpointPrefix escapedPath : Bytes) : Bytes :=
  endpointPrefix ++ ascii "?path=" ++ escapedPath

def buildReadEndpoint (curl : Curl σ) (path : Bytes) (offset : Int) (size : Nat) :
    ClientM σ (Option Bytes) :=
  buildEndpoint curl path (readEndpoint offset size) 1024

def buildWriteEndpoint (curl : Curl σ) (path : Bytes) (offset : Int) :
    ClientM σ (Option Bytes) :=
  buildEndpoint curl path (writeEndpoint offset) 1024

def buildSimpleGetEndpoint (curl : Curl σ) (endpointPrefix path : Bytes) :
    ClientM σ (Option Bytes) :=
  buildEndpoint curl path (simpleGetEndpoint endpointPrefix) 1024

end HttpFs
