import HttpFs.EndToEnd.ErrorReplies
import HttpFs.EndToEnd.Listings

namespace HttpFs

open Routine ClientM CProvider Json

section Refusal

variable {σ : Type} {host reached : σ} {before : ClientState σ} {client : HttpfsClient}
  {curl : Curl σ}

theorem fails_requestOk (dependable : Dependable curl host)
    (after : Dependable curl reached) {method : HttpMethod}
    {endpoint statusMessage : Bytes} {body contentType contentMd5 : Option Bytes}
    {request : HttpRequest} {headers chunks : List Bytes} {error : HttpfsError}
    {declared : Nat} (fits : (client.baseUrl ++ endpoint).length < 1024)
    (isRequest : requestFor client method endpoint body contentType contentMd5 = .ok request)
    (performed : curl.easyPerform request host = (.received 200 headers chunks, reached))
    (noNul : 0 ∉ chunks.flatten) (refused : parseOkResponse chunks.flatten = .error error) :
    Triple (Reached before host)
      (requestOk curl client method endpoint body contentType contentMd5 statusMessage
        declared)
      (fun _ _ => False)
      (fun state => state.error.map HttpfsError.errnoValue = some error.errnoValue) := by
  apply triple_failed (refused_requestOk dependable after fits isRequest performed noNul refused)
  rintro state ⟨exchanges, tokenRuns, rfl⟩
  rfl

end Refusal

theorem parseOkResponse_crowded {members : Members} {before after : Bytes}
    (scannable : Scannable (.object members)) (beforeGap : isGap before = true)
    (afterGap : isGap after = true)
    (crowded : OK_RESPONSE_TOKENS < (Value.object members).count) :
    parseOkResponse (before ++ ((Value.object members).text ++ after)) =
      .error ⟨Errno.EIO, ascii "Server returned invalid JSON"⟩ := by
  have refused := jsmnParse_crowded scannable beforeGap afterGap crowded
  have isSome : (jsmnParse OK_RESPONSE_TOKENS
      (before ++ ((Value.object members).text ++ after))).error.isSome = true :=
    Option.isSome_iff_ne_none.mpr refused
  simp only [parseOkResponse, parseResponseTokens, isSome, if_true]
  rfl

section Calls

variable {σ : Type} {reached : σ} {curl : Curl σ} {client : HttpfsClient}
  {before : ClientState σ} {path : Bytes} {headers chunks : List Bytes}
  {listing : List EncodedEntry}

theorem httpfsListDir_crowded (document : ListingDocument listing)
    (crowded : OK_RESPONSE_TOKENS < (Value.object document.members).count)
    (dependable : Dependable curl before.host) (after : Dependable curl reached)
    (fits : (client.baseUrl ++ listEndpoint path).length < 1024)
    (performed : curl.easyPerform (listTransfer client path) before.host =
      (.received 200 headers chunks, reached))
    (answered : chunks.flatten = document.text) (maxEntries : Nat) :
    Triple (Reached before before.host) (httpfsListDir curl client path maxEntries)
      (fun _ _ => False)
      (fun state : ClientState σ => state.error.map HttpfsError.errnoValue =
        some Errno.EIO) := by
  have refused := parseOkResponse_crowded document.scannable document.beforeGap
    document.afterGap crowded
  change parseOkResponse document.text = _ at refused
  rw [← answered] at refused
  have noNul : 0 ∉ chunks.flatten := by
    rw [answered]
    exact document.noNul
  have short : (listEndpoint path).length < 1024 := by
    rw [List.length_append] at fits
    omega
  unfold httpfsListDir
  apply triple_bind_value (succeeds_buildEndpoint dependable short).triple
  apply triple_bind_value succeeds_obtainOr.triple
  exact triple_bind_fails
    (fails_requestOk dependable after fits rfl performed noNul refused)

def ListsWithinCapacity (listing : List EncodedEntry) (maxEntries : Nat)
    (outcome : Option (List HttpfsDirEntry) × ClientState σ) : Prop :=
  (listing.length ≤ maxEntries →
    ∃ entries, outcome.1 = some entries ∧ entries.length = listing.length) ∧
  (maxEntries < listing.length → outcome.1 = none ∧
    outcome.2.error.map HttpfsError.errnoValue = some Errno.ENOBUFS)

/-- A listing of plain names is returned whole or refused for want of room in the caller's
array, just when its document is within the limit of the tokenizer. -/
theorem httpfsListDir_capacity_iff (document : ListingDocument listing)
    (plain : ∀ encoded ∈ listing, byte '\\' ∉ encoded.raw)
    (dependable : Dependable curl before.host) (after : Dependable curl reached)
    (fits : (client.baseUrl ++ listEndpoint path).length < 1024)
    (performed : curl.easyPerform (listTransfer client path) before.host =
      (.received 200 headers chunks, reached))
    (answered : chunks.flatten = document.text) (maxEntries : Nat) :
    ListsWithinCapacity listing maxEntries (httpfsListDir curl client path maxEntries before) ↔
      (Value.object document.members).count ≤ OK_RESPONSE_TOKENS := by
  by_cases room : (Value.object document.members).count ≤ OK_RESPONSE_TOKENS
  · refine iff_of_true ?_ room
    have returned := httpfsListDir_received ⟨document, room⟩ dependable after fits performed
      answered maxEntries before (Reached.refl before)
    rw [storeEntries_fitting (Nat.zero_le maxEntries)
      (by
        simp only [List.forall_mem_map]
        exact fun encoded member => EncodedEntry.fits_of_plain (plain encoded member))]
      at returned
    simp only [List.length_nil, Nat.zero_add, List.length_map, List.nil_append] at returned
    cases run : httpfsListDir curl client path maxEntries before with
    | mk result state =>
        rw [run] at returned
        cases result with
        | some entries =>
            simp only at returned
            split at returned
            · next within =>
              obtain rfl := Except.ok.inj returned
              exact ⟨fun _ => ⟨_, rfl, List.length_map _⟩, fun beyond => by omega⟩
            · contradiction
        | none =>
            obtain ⟨error, isError, recorded⟩ := returned
            split at isError
            · contradiction
            · next beyond =>
              obtain rfl := Except.error.inj isError
              exact ⟨fun within => absurd within beyond, fun _ => ⟨rfl, recorded⟩⟩
  · refine iff_of_false ?_ room
    have refused := httpfsListDir_crowded document (Nat.lt_of_not_le room) dependable after
      fits performed answered maxEntries before (Reached.refl before)
    rintro ⟨whole, noRoom⟩
    cases run : httpfsListDir curl client path maxEntries before with
    | mk result state =>
        rw [run] at refused whole noRoom
        cases result with
        | some entries => exact refused
        | none =>
            simp only at refused
            by_cases within : listing.length ≤ maxEntries
            · obtain ⟨_, returned, _⟩ := whole within
              contradiction
            · obtain ⟨_, recorded⟩ := noRoom (Nat.lt_of_not_le within)
              rw [refused] at recorded
              contradiction

end Calls

/-! A directory whose files are numbered from 0. -/

def numberedName (n : Fin 512) : FileName where
  bytes := decimal n
  short := Nat.le_trans (length_decimal_le (Nat.lt_trans n.isLt (by decide)) (by decide))
    (show 3 ≤ 255 by decide)
  noNul := fun member => absurd (isDigit_of_mem_decimal member) (by decide)
  noSlash := fun member => absurd (isDigit_of_mem_decimal member) (by decide)

def numberedNames (count : Nat) : List FileName :=
  ((List.finRange 512).take count).map numberedName

def numberedDocument (count : Nat) : ListingDocument ((numberedNames count).map
    (servedEntry (.single (ascii "/srv")) (.calm []) (ascii "/srv"))) :=
  listingDocument _ _ _ _

def replyingCurl (reply : Bytes) : Curl Unit where
  easyInit := fun _ => (true, ())
  easyEscape := fun text _ => (some (percentEncode text), ())
  easyPerform := fun _ _ => (.received 200 [] [reply], ())
  malloc := fun _ _ => (true, ())

theorem dependable_replyingCurl (reply : Bytes) : Dependable (replyingCurl reply) () :=
  ⟨rfl, fun _ => rfl, fun _ => rfl⟩

theorem performed_replyingCurl (reply : Bytes) (request : HttpRequest) :
    (replyingCurl reply).easyPerform request () = (.received 200 [] [reply], ()) :=
  rfl

/-- 102 files are too many, whatever room the caller has. -/
theorem numbered_tooMany :
    (numberedNames 102).length = 102 ∧
      (httpfsListDir (replyingCurl (numberedDocument 102).text) localClient (ascii "/") 512
        (.start () [])).1 = none ∧
      (httpfsListDir (replyingCurl (numberedDocument 102).text) localClient (ascii "/") 512
        (.start () [])).2.error.map HttpfsError.errnoValue = some Errno.EIO ∧
      Errno.EIO ≠ Errno.ENOBUFS := by
  have count : (numberedNames 102).length = 102 := by simp [numberedNames]
  have crowded : OK_RESPONSE_TOKENS < (Value.object (numberedDocument 102).members).count := by
    rw [numberedDocument, listingDocument_count, count]
    decide
  obtain ⟨text, isText⟩ : ∃ text, text = (numberedDocument 102).text := ⟨_, rfl⟩
  rw [← isText]
  have refused := httpfsListDir_crowded (numberedDocument 102) crowded
    (dependable_replyingCurl text) (dependable_replyingCurl text)
    (show (localClient.baseUrl ++ listEndpoint (ascii "/")).length < 1024 by decide)
    (performed_replyingCurl text _) (List.flatten_singleton.trans isText) 512 (.start () [])
    (Reached.refl _)
  cases run : httpfsListDir (replyingCurl text) localClient (ascii "/") 512 (.start () []) with
  | mk result state =>
      rw [run] at refused
      cases result with
      | some entries => exact absurd refused id
      | none => exact ⟨count, rfl, refused, by decide⟩

theorem httpfsListDir_capacity_iff_numbered :
    ListsWithinCapacity ((numberedNames 2).map
          (servedEntry (.single (ascii "/srv")) (.calm []) (ascii "/srv"))) 512
        (httpfsListDir (replyingCurl (numberedDocument 2).text) localClient (ascii "/") 512
          (.start () [])) ↔
      (Value.object (numberedDocument 2).members).count ≤ OK_RESPONSE_TOKENS :=
  httpfsListDir_capacity_iff (numberedDocument 2) (by decide +kernel)
    (dependable_replyingCurl _) (dependable_replyingCurl _) (by decide)
    (performed_replyingCurl _ _) List.flatten_singleton 512

end HttpFs
