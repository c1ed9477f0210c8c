import HttpFs.Client.Agreement
import HttpFs.EndToEnd.MountSessions
import HttpFs.EndToEnd.Wire

namespace HttpFs

open Routine ClientM CProvider HttpMessage

variable {σ κ α : Type}

/-! Sessions on the mounted directory, over a network. -/

section Calls

variable {asked : HttpRequest → Prop} {first second : Curl σ} {client : HttpfsClient}
  {path : Bytes} {format : Bytes → Bytes} {endpointSize : Nat}

end Calls

section Operations

variable {client : HttpfsClient} {first second : Curl σ} {path : Bytes}

theorem headerEntry_short {name tooLong : Bytes} {value : Option Bytes} {lines : List Bytes}
    (entered : headerEntry name tooLong value = .ok lines) :
    lines.length ≤ 1 ∧ ∀ line ∈ lines, line.length < 128 := by
  cases value with
  | none =>
      cases entered
      exact ⟨Nat.zero_le _, by simp⟩
  | some value =>
      simp only [headerEntry] at entered
      split at entered
      · contradiction
      · next short =>
        cases entered
        exact ⟨Nat.le_refl _, by simpa using short⟩

theorem modest_post {endpoint body : Bytes} {contentType contentMd5 : Option Bytes}
    (nonempty : endpoint ≠ []) (bytes : endpoint.all isTargetByte = true)
    (fits : endpoint.length < 1024) (small : body.length ≤ HTTPFS_WRITE_CHUNK_SIZE) :
    AllWithin (fun request => isModest client.baseUrl request = true) client .post endpoint
      (some body) contentType contentMd5 := by
  intro request isRequest
  have fields : request.url = client.baseUrl ++ endpoint ∧ request.body = body ∧
      request.headers.length ≤ 3 ∧ ∀ line ∈ request.headers, line.length < 128 := by
    simp only [requestFor] at isRequest
    cases options : postOptions (some body) contentType contentMd5 with
    | error error =>
        rw [options] at isRequest
        cases isRequest
    | ok post =>
        rw [options] at isRequest
        cases isRequest
        simp only [postOptions, bind, Except.bind, pure, Except.pure] at options
        split at options
        · contradiction
        next typeLines isType =>
        split at options
        · contradiction
        next md5Lines isMd5 =>
        cases options
        obtain ⟨typeCount, typeShort⟩ := headerEntry_short isType
        obtain ⟨md5Count, md5Short⟩ := headerEntry_short isMd5
        refine ⟨rfl, rfl, ?_, ?_⟩
        · simp only [HttpRequest.headers, List.length_append, List.length_singleton]
          omega
        · simp only [HttpRequest.headers, List.forall_mem_append, List.forall_mem_singleton]
          exact ⟨⟨typeShort, md5Short⟩, by decide⟩
  obtain ⟨isUrl, isBody, count, short⟩ := fields
  simp only [isModest, isUrl, isBody, List.drop_left, bytes]
  simpa [nonempty, fits, small, count] using short

end Operations

section Sessions

variable {kernel : Kernel κ} {rootDir : Bytes} {network : Network κ} {client : HttpfsClient}

end Sessions

end HttpFs
