import HttpFs.Client.Listings
import HttpFs.EndToEnd.Writes
import HttpFs.Foundation.Formats
import HttpFs.Provider.PostBodies

namespace HttpFs

open Routine ClientM CProvider Json

/-! Errors on their way from the provider to the caller of the client. -/

/-- The text of a message in an error reply. -/
def errorText (message : Bytes) : Bytes :=
  (jsonEscapeString message 1024).getD (ascii "internal error")

/-- `send_error_json`, for an `errno` that is a `long`. -/
def errorCall (errnoValue : Int64) (message : Bytes) : FormatCall where
  size := 1400
  pieces := [.literal "\x7b\"status\":\"error\",\"errno\":", .long errnoValue,
    .literal ",\"message\":\"", .string (errorText message), .literal "\"\x7d"]

theorem errorPayload_stored (errnoValue : Int64) (message : Bytes) :
    errorPayload errnoValue.toInt message = (errorCall errnoValue message).stored := by
  simp [errorPayload, errorCall, errorText, FormatCall.stored, FormatCall.whole, Piece.print]

theorem length_errorText (message : Bytes) : (errorText message).length < 1024 := by
  unfold errorText
  cases escaped : jsonEscapeString message 1024 with
  | none => decide
  | some text => exact jsonEscapeString_length escaped

theorem errorCall_fits (errnoValue : Int64) (message : Bytes) :
    (errorCall errnoValue message).Fits := by
  have bound := length_errorText message
  apply FormatCall.fits_of_room
  simp [errorCall, FormatCall.fixedRoom, FormatCall.stringsLength, Piece.fixedRoom,
    Piece.stringLength, ascii]
  omega

def reportMembers (errnoValue : Int) (text : Bytes) : Members :=
  .cons [] (ascii "status") [] [] (.string (ascii "error")) []
    (.cons [] (ascii "errno") [] [] (.primitive (signedDecimal errnoValue)) []
      (.cons [] (ascii "message") [] [] (.string text) [] (.nil [])))

theorem errorPayload_text (errnoValue : Int64) (message : Bytes) :
    errorPayload errnoValue.toInt message =
      (Value.object (reportMembers errnoValue.toInt (errorText message))).text := by
  rw [errorPayload_stored, (errorCall_fits errnoValue message).stored_eq]
  simp [errorCall, FormatCall.whole, Piece.print, reportMembers, Value.text, Members.text,
    Members.separator, quoted, ascii, byte]

theorem isStringBody_errorText (message : Bytes) :
    isStringBody .plain (errorText message) = true := by
  unfold errorText
  cases escaped : jsonEscapeString message 1024 with
  | none => decide
  | some text =>
      rw [Option.getD_some, jsonEscapeString_eq escaped]
      exact isStringBody_of_denotes (denotes_escapedText (cString message))

theorem zero_not_mem_errorText (message : Bytes) : 0 ∉ errorText message := by
  unfold errorText
  cases escaped : jsonEscapeString message 1024 with
  | none => decide
  | some text =>
      rw [Option.getD_some, jsonEscapeString_eq escaped]
      exact zero_not_mem_escapedText (zero_not_mem_cString message)

theorem reportMembers_scannable (errnoValue : Int) {text : Bytes}
    (body : isStringBody .plain text = true) :
    Scannable (.object (reportMembers errnoValue text)) := by
  have error : isStringBody .plain (ascii "error") = true := by decide
  exact ⟨rfl, by decide, rfl, rfl, error, rfl, rfl, by decide, rfl, rfl,
    isPrimitiveBody_signedDecimal errnoValue, rfl, rfl, by decide, rfl, rfl, body, rfl, rfl⟩

theorem zero_not_mem_errorPayload (errnoValue : Int64) (message : Bytes) :
    0 ∉ errorPayload errnoValue.toInt message := by
  rw [errorPayload_stored, (errorCall_fits errnoValue message).stored_eq]
  simp only [errorCall, FormatCall.whole, Piece.print, List.flatMap_cons, List.flatMap_nil,
    List.append_nil, List.mem_append, not_or]
  refine ⟨by decide, fun zero => ?_, by decide, zero_not_mem_errorText message, by decide⟩
  obtain digit | minus := mem_signedDecimal zero
  · exact absurd digit (by decide)
  · exact absurd minus (by decide)

/-- The message that the client reports: the text as it stands between the quotes, or a
text of its own when that one is too long for it. -/
def reportedMessage (text : Bytes) : Bytes :=
  if text.length < HTTPFS_MAX_MESSAGE then text else ascii "Server returned an error"

def reportedError (errnoValue : Int) (message : Bytes) : HttpfsError :=
  ⟨errnoValue, reportedMessage (errorText message)⟩

theorem tokenToLong_of_text {json : Bytes} {token : JsmnToken} {value : Int} (start : Int)
    (isText : tokenText json token = some (signedDecimal value))
    (lower : longMin ≤ value) (upper : value ≤ longMax) :
    (tokenToLong json token start).1 = value := by
  have short := length_signedDecimal_le lower upper
  have copied : tokenToString json token 64 = some (signedDecimal value) :=
    tokenToString_of_text isText (by omega)
  have converted := strtol_signedDecimal lower upper (show EndsNumeral [] by simp [EndsNumeral])
  rw [List.append_nil] at converted
  simp only [tokenToLong, copied, converted]

/-- The tokens of an error reply, for every limit that leaves room for them. -/
theorem parseStatusOrError_reported (errnoValue : Int64) (message : Bytes) {limit : Nat}
    (room : 7 ≤ limit) :
    ∃ tokens, parseResponseTokens (errorPayload errnoValue.toInt message) limit = .ok tokens ∧
      parseStatusOrError (errorPayload errnoValue.toInt message) tokens =
        .error (reportedError errnoValue.toInt message) := by
  have scannable := reportMembers_scannable errnoValue.toInt (isStringBody_errorText message)
  obtain ⟨run, parsed, noError, root, placed⟩ := @placed_document limit _ scannable [] []
    rfl rfl room
  rw [List.nil_append, List.append_nil, ← errorPayload_text] at parsed placed
  obtain ⟨statusToken, statusFound, statusText⟩ := @findToken_some _ _ _ _ (ascii "status")
    (.string (ascii "error")) placed scannable rfl
  obtain ⟨errnoToken, errnoFound, errnoText⟩ := @findToken_some _ _ _ _ (ascii "errno")
    (.primitive (signedDecimal errnoValue.toInt)) placed scannable rfl
  obtain ⟨messageToken, messageFound, messageText⟩ := @findToken_some _ _ _ _
    (ascii "message") (.string (errorText message)) placed scannable rfl
  refine ⟨run.parser.tokens, ?_, ?_⟩
  · simp only [parseResponseTokens, parsed, noError, root, Value.root, if_true]
    rfl
  · have notOk : tokenEquals (errorPayload errnoValue.toInt message) statusToken
        (ascii "ok") = false := by
      rw [tokenEquals_of_text statusText]
      decide
    have isError : tokenEquals (errorPayload errnoValue.toInt message) statusToken
        (ascii "error") = true := by
      rw [tokenEquals_of_text statusText]
      decide
    have isErrno : replyErrno (errorPayload errnoValue.toInt message) run.parser.tokens =
        errnoValue.toInt := by
      simp only [replyErrno, errnoFound]
      exact tokenToLong_of_text _ errnoText (int64_long errnoValue).1 (int64_long errnoValue).2
    have isMessage : replyMessage (errorPayload errnoValue.toInt message) run.parser.tokens =
        reportedMessage (errorText message) := by
      simp only [replyMessage, messageFound, reportedMessage]
      by_cases short : (errorText message).length < HTTPFS_MAX_MESSAGE
      · rw [tokenToString_of_text messageText short, if_pos short]
        rfl
      · have long : tokenToString (errorPayload errnoValue.toInt message) messageToken
            HTTPFS_MAX_MESSAGE = none := by
          simp only [tokenToString, messageText]
          exact if_pos (Nat.lt_succ_of_le (Nat.le_of_not_lt short))
        rw [long, if_neg short]
        rfl
    simp only [parseStatusOrError, statusFound, notOk, isError, isErrno, isMessage, if_true,
      Bool.false_eq_true, if_false]
    rfl

theorem parseOkResponse_reported (errnoValue : Int64) (message : Bytes) :
    parseOkResponse (errorPayload errnoValue.toInt message) =
      .error (reportedError errnoValue.toInt message) := by
  obtain ⟨tokens, parsed, reported⟩ := parseStatusOrError_reported errnoValue message
    (show 7 ≤ OK_RESPONSE_TOKENS by decide)
  rw [parseOkResponse, parsed]
  change (parseStatusOrError _ tokens >>= fun _ => pure tokens) = _
  rw [reported]
  rfl

section Refusals

variable {σ : Type} {host reached : σ} {before : ClientState σ} {client : HttpfsClient}
  {curl : Curl σ}

/-- The calls so far have taken the surroundings to `host` and have ended with an error,
which is all that the caller sees of them. -/
def Refused (before : ClientState σ) (host : σ) (error : HttpfsError)
    (after : ClientState σ) : Prop :=
  ∃ exchanges tokenRuns,
    after = reported error.errnoValue error.message { before with host, exchanges, tokenRuns }

theorem refused_raise {α : Type} {errnoValue : Int} {message : Bytes} :
    Triple (Reached before host) (raise errnoValue message : ClientM σ α) (fun _ _ => False)
      (Refused before host ⟨errnoValue, message⟩) := by
  apply triple_raise
  rintro state ⟨exchanges, tokenRuns, rfl⟩
  exact ⟨exchanges, tokenRuns, rfl⟩

theorem refused_parseOkInto {json : Bytes} {error : HttpfsError} {declared : Nat}
    (refused : parseOkResponse json = .error error) :
    Triple (Reached before host) (parseOkInto declared json) (fun _ _ => False)
      (Refused before host error) := by
  have logged : Triple (Reached before host)
      (modify fun state => { state with
        tokenRuns := state.tokenRuns ++
          [⟨declared, (jsmnParse OK_RESPONSE_TOKENS json).parser.tokens.length⟩] })
      (fun _ => Reached before host) (Refused before host error) := by
    apply triple_modify
    rintro state ⟨exchanges, tokenRuns, rfl⟩
    exact ⟨_, _, rfl⟩
  rw [parseOkInto, refused]
  exact triple_bind logged fun _ => refused_raise

/-- A reply that the client does not take for a success is all that comes of a request. -/
theorem refused_requestOk (dependable : Dependable curl host)
    (after : Dependable curl reached) {method : HttpMethod}
    {endpoint statusMessage : Bytes} {body contentType contentMd5 : Option Bytes}
    {request : HttpRequest} {headers chunks : List Bytes} {error : HttpfsError}
    {declared : Nat} (fits : (client.baseUrl ++ endpoint).length < 1024)
    (isRequest : requestFor client method endpoint body contentType contentMd5 = .ok request)
    (performed : curl.easyPerform request host = (.received 200 headers chunks, reached))
    (noNul : 0 ∉ chunks.flatten) (refused : parseOkResponse chunks.flatten = .error error) :
    Triple (Reached before host)
      (requestOk curl client method endpoint body contentType contentMd5 statusMessage
        declared)
      (fun _ _ => False) (Refused before reached error) := by
  unfold requestOk
  apply triple_bind_value (succeeds_exchange dependable after fits isRequest performed).triple
  apply triple_bind (succeeds_require (decide_eq_true rfl)).triple
  intro _
  rw [cString_of_noNul noNul]
  exact triple_bind_fails (refused_parseOkInto refused)

end Refusals

end HttpFs
