import HttpFs.Client.Tokens
import HttpFs.Client.Transport

namespace HttpFs

open Routine ClientM

/-! The functions that read a reply get the C string at the start of its body. -/

def parseResponseTokens (json : Bytes) (maxTokens : Nat) :
    Except HttpfsError (List JsmnToken) :=
  let run := jsmnParse maxTokens json
  if run.error.isSome then
    .error ⟨Errno.EIO, ascii "Server returned invalid JSON"⟩
  else
    match run.parser.tokens.head? with
    | none => .error ⟨Errno.EIO, ascii "Server returned an invalid response format"⟩
    | some root =>
        if root.type = .object then
          .ok run.parser.tokens
        else
          .error ⟨Errno.EIO, ascii "Server returned an invalid response format"⟩

/-- `errno_value` of an error reply: `EIO` unless the reply has an `errno` member
that `token_to_long` copies, valid or not. -/
def replyErrno (json : Bytes) (tokens : List JsmnToken) : Int :=
  match findToken json tokens 0 (ascii "errno") with
  | none => Errno.EIO
  | some token => (tokenToLong json token Errno.EIO).1

def replyMessage (json : Bytes) (tokens : List JsmnToken) : Bytes :=
  match findToken json tokens 0 (ascii "message") with
  | none => ascii "Server returned an error"
  | some token =>
      (tokenToString json token HTTPFS_MAX_MESSAGE).getD (ascii "Server returned an error")

def parseStatusOrError (json : Bytes) (tokens : List JsmnToken) :
    Except HttpfsError Unit :=
  match findToken json tokens 0 (ascii "status") with
  | none => .error ⟨Errno.EIO, ascii "Server response is missing the status field"⟩
  | some status =>
      if tokenEquals json status (ascii "ok") then
        .ok ()
      else if tokenEquals json status (ascii "error") then
        .error ⟨replyErrno json tokens, replyMessage json tokens⟩
      else
        .error ⟨Errno.EIO, ascii "Server returned an unknown status"⟩

def parseErrorResponse (json : Bytes) : Except HttpfsError Unit := do
  let tokens ← parseResponseTokens json 256
  parseStatusOrError json tokens

/-- The number of tokens `parse_ok_response` lets the tokenizer store. -/
def OK_RESPONSE_TOKENS : Nat := 512

def parseOkResponse (json : Bytes) : Except HttpfsError (List JsmnToken) := do
  let tokens ← parseResponseTokens json OK_RESPONSE_TOKENS
  parseStatusOrError json tokens
  return tokens

def isContentTypeJson (contentType : Bytes) : Bool :=
  startsWithIgnoringCase contentType (ascii "application/json")

def isContentTypeOctetStream (contentType : Bytes) : Bool :=
  startsWithIgnoringCase contentType (ascii "application/octet-stream")

variable {σ : Type}

/-- `parse_ok_response` in a caller whose token array has `declared` elements. -/
def parseOkInto (declared : Nat) (json : Bytes) : ClientM σ (List JsmnToken) := do
  modify fun state =>
    { state with
      tokenRuns := state.tokenRuns ++
        [⟨declared, (jsmnParse OK_RESPONSE_TOKENS json).parser.tokens.length⟩] }
  passOn (parseOkResponse json)

structure OkReply where
  json : Bytes
  tokens : List JsmnToken

/-- The steps every operation with a JSON reply has in common: the request, the
check of the status and `parse_ok_response`. -/
def requestOk (curl : Curl σ) (client : HttpfsClient) (method : HttpMethod)
    (endpoint : Bytes) (body contentType contentMd5 : Option Bytes)
    (statusMessage : Bytes) (declared : Nat) : ClientM σ OkReply := do
  let reply ← httpRequestEx curl client method endpoint body contentType contentMd5
  require (reply.statusCode = 200) Errno.EIO statusMessage
  let json := cString reply.response
  let tokens ← parseOkInto declared json
  return ⟨json, tokens⟩

end HttpFs
