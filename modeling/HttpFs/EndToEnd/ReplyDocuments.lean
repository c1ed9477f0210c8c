import HttpFs.EndToEnd.Listings
import HttpFs.EndToEnd.Metadata
import HttpFs.EndToEnd.Mirrors
import HttpFs.EndToEnd.MountSessions
import HttpFs.Foundation.JsonDocuments
import HttpFs.Provider.Framing
import HttpFs.Provider.Wire

namespace HttpFs

open CProvider Json

variable {κ : Type}

/-! The replies of the provider, as JSON. -/

theorem scannable_of_compact {value : Value} (compact : value.Compact) : Scannable value := by
  apply compact.lexical
  · intro raw isString
    obtain ⟨text, denotes⟩ := isString_iff.mp isString
    exact isStringBody_of_denotes denotes
  · intro raw integer
    obtain ⟨nonempty, characters⟩ := characters_of_isInteger integer
    exact isPrimitiveBody_numeral nonempty characters

theorem isString_escapedText (text : Bytes) : isString (escapedText text) = true :=
  isString_iff.mpr ⟨text, denotes_escapedText text⟩

theorem isString_errorText (message : Bytes) : isString (errorText message) = true := by
  unfold errorText
  cases escaped : jsonEscapeString message 1024 with
  | none => exact isString_plain (by decide)
  | some text =>
      rw [Option.getD_some, jsonEscapeString_eq escaped]
      exact isString_escapedText _

section Documents

variable (kernel : Kernel κ) (host : Host κ)

private theorem plainText {text : String}
    (plain : ∀ c ∈ ascii text, 0x20 ≤ c ∧ c ≠ byte '"' ∧ c ≠ byte '\\') :
    isString (ascii text) = true := isString_plain plain

theorem reportMembers_compact (errnoValue : Int) (message : Bytes) :
    (Value.object (reportMembers errnoValue (errorText message))).Compact := by
  refine Members.Compact.field (plainText (by decide)) (plainText (by decide)) ?_
  refine Members.Compact.field (plainText (by decide)) (isInteger_signedDecimal errnoValue) ?_
  exact .last (plainText (by decide)) (isString_errorText message)

end Documents

/-- A reply that says what it is: the contents of a file with their digest, or a JSON
document that the client accepts, or one that it reports. -/
inductive Understood : HttpReply → Prop where
  | contents (content : Bytes) {offset : Int} (notNegative : 0 ≤ offset) :
      Understood (sendBinary content (sparseMd5 content offset))
  | accepted {members : Members} (compact : (Value.object members).Compact)
      (status : members.find (ascii "status") = some (.string (ascii "ok")))
      (accepts : (Value.object members).count ≤ OK_RESPONSE_TOKENS →
        ∃ tokens, parseOkResponse (Value.object members).text = .ok tokens) :
      Understood (sendJson 200 (Value.object members).text)
  | reported {members : Members} (compact : (Value.object members).Compact)
      (status : members.find (ascii "status") = some (.string (ascii "error")))
      {error : HttpfsError} (isErrno : IsErrno error.errnoValue)
      (reports : parseOkResponse (Value.object members).text = .error error) :
      Understood (sendJson 200 (Value.object members).text)

/-- System calls fail with error numbers on a host. -/
def CProvider.Host.Documented (host : Host κ) : Prop :=
  ∀ errnoValue, .failed errnoValue ∈ host.preads ∨ .failed errnoValue ∈ host.pwrites →
    IsErrno errnoValue

section Replies

variable {kernel : Kernel κ} {request : RequestContext} {host : Host κ}

theorem Understood.ok {members : Members} (compact : (Value.object members).Compact)
    (status : members.find (ascii "status") = some (.string (ascii "ok"))) :
    Understood (sendOk (Value.object members).text) := by
  refine .accepted compact status fun room => ?_
  obtain ⟨tokens, parsed, _⟩ := @parseOkResponse_document _ (scannable_of_compact compact)
    status room [] [] rfl rfl
  rw [List.nil_append, List.append_nil] at parsed
  exact ⟨tokens, parsed⟩

theorem isErrno_own {errnoValue : Int} (own : errnoValue ∈ ownErrnos) : IsErrno errnoValue := by
  have small : ∀ value ∈ ownErrnos, 0 < value ∧ value < 2 ^ 31 := by decide
  exact small errnoValue own

theorem Understood.error {errnoValue : Int} (isErrno : IsErrno errnoValue) (message : Bytes) :
    Understood (sendErrorJson errnoValue message) := by
  obtain ⟨number, rfl⟩ := isErrno.long
  have reports := parseOkResponse_reported number message
  unfold sendErrorJson
  rw [errorPayload_text] at reports ⊢
  refine .reported (reportMembers_compact _ message) rfl ?_ reports
  exact isErrno

theorem CProvider.Failure.isErrno (documented : kernel.Documented)
    (hostDocumented : host.Documented) {errnoValue : Int}
    (failure : Failure kernel host errnoValue) : IsErrno errnoValue := by
  cases failure with
  | own member => exact isErrno_own member
  | openFile failed => exact documented.openFile failed
  | lstat failed => exact documented.lstat failed
  | opendir failed => exact documented.opendir failed
  | change failed => exact documented.change failed
  | pread member => exact hostDocumented _ (.inl member)
  | pwrite member => exact hostDocumented _ (.inr member)

end Replies

end HttpFs
