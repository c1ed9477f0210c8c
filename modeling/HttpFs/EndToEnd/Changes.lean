import HttpFs.EndToEnd.Mirrors
import HttpFs.EndToEnd.PostedChanges

namespace HttpFs

open Routine ClientM CProvider Json

variable {κ : Type}

/-! Calls that change a path of the mounted directory, against the same calls on the
machine of the provider. -/

namespace Direct

/-- A change that is made on the machine itself. A path that the provider does not take
for one of its own is invalid. -/
def change (kernel : Kernel κ) (decoded : Option Change) (host : Host κ) :
    Except Int Unit × Host κ :=
  match decoded with
  | none => (.error Errno.EINVAL, host)
  | some change =>
      match kernel.change change host.names host.contents with
      | .error errnoValue => (.error errnoValue, host)
      | .ok (names, contents) => (.ok (), { host with names, contents })

/-- The call that a request stands for. -/
def post (kernel : Kernel κ) (rootDir : Bytes) (request : PostRequest) :
    Host κ → Except Int Unit × Host κ :=
  change kernel (if ∀ path ∈ request.paths, Posted path then request.change rootDir else none)

end Direct

section Provider

variable {kernel : Kernel κ} {rootDir text : Bytes} {client : HttpfsClient}
  {endpoint : PostEndpoint} {lines : List Bytes}

def postTransfer (client : HttpfsClient) (endpoint : PostEndpoint) (text : Bytes) :
    HttpRequest :=
  ⟨client.baseUrl ++ endpoint.path, client.timeoutMs, client.verbose,
    some ⟨[ascii "Content-Type: application/json; charset=utf-8", ascii "Expect:"], text⟩⟩

theorem requestFor_post (client : HttpfsClient) (endpoint : PostEndpoint) (text : Bytes) :
    requestFor client .post endpoint.path (some text) (some jsonContentType) none =
      .ok (postTransfer client endpoint text) := by
  have line : contentTypeHeader ++ ascii ": " ++ jsonContentType =
      ascii "Content-Type: application/json; charset=utf-8" := by decide +kernel
  simp only [requestFor, postOptions, headerEntry, line]
  rfl

theorem sendable_post (client : HttpfsClient) (endpoint : PostEndpoint) (text : Bytes) :
    Sendable (postTransfer client endpoint text) := by
  intro line member
  simp only [postTransfer, HttpRequest.headers, List.mem_cons, List.not_mem_nil,
    or_false] at member
  obtain rfl | rfl := member
  · exact ⟨⟨by decide, by decide, by decide⟩, by decide +kernel⟩
  · exact ⟨⟨by decide, by decide, by decide⟩, by decide⟩

theorem parseRequestLine_post (endpoint : PostEndpoint) :
    parseRequestLine (ascii "POST" ++ ascii " " ++ endpoint.path ++ ascii " HTTP/1.1") =
      some ⟨ascii "POST", endpoint.path, []⟩ := by
  cases endpoint <;> decide +kernel

theorem word_endpoint (endpoint : PostEndpoint) : Word 2047 endpoint.path := by
  cases endpoint <;> exact ⟨by decide, by decide, by decide, by decide⟩

theorem requestContext_post (carries : Carries (postTransfer client endpoint text) lines)
    (bound : (text.length : Int) ≤ longMax) :
    requestContext rootDir (requestMessage (ascii "POST") endpoint.path lines text) =
      .ok {
        method := ascii "POST"
        path := endpoint.path
        query := []
        contentMd5 := []
        body := text
        rootDir } := by
  have noDigest : extractHeaderValue lines md5HeaderName 33 = none := by
    have notMd5 : (postTransfer client endpoint text).headers.filter
        (isHeaderLine md5HeaderName) = [] := by
      change List.filter (isHeaderLine md5HeaderName)
        [ascii "Content-Type: application/json; charset=utf-8", ascii "Expect:"] = []
      decide +kernel
    rw [extractHeaderValue, ← List.head?_filter, carries.digest, notMd5]
    rfl
  have context := @requestContext_target rootDir (ascii "POST") endpoint.path endpoint.path []
    text lines ⟨by decide, by decide, by decide, by decide⟩ (word_endpoint endpoint)
    (parseRequestLine_post endpoint) carries.plain
    (by simpa [HttpRequest.body, postTransfer] using carries.length) bound
  rw [noDigest] at context
  exact context

theorem processRequestBuffer_post
    (carries : Carries (postTransfer client endpoint text) lines)
    (bound : (text.length : Int) ≤ longMax) (host : Host κ) :
    processRequestBuffer kernel rootDir
        (requestMessage (ascii "POST") endpoint.path lines text) host =
      handleChange kernel
        ((endpoint.decode text).bind fun decoded => decoded.change rootDir)
        endpoint.invalid host := by
  rw [processRequestBuffer, requestContext_post carries bound]
  exact dispatchRequest_post rfl rfl host

def okMembers : Members := .cons [] (ascii "status") [] [] (.string (ascii "ok")) [] (.nil [])

theorem okMembers_text : (Value.object okMembers).text = ascii "\x7b\"status\":\"ok\"\x7d" := by
  decide

theorem parseOkResponse_okMembers :
    ∃ tokens, parseOkResponse (ascii "\x7b\"status\":\"ok\"\x7d") = .ok tokens := by
  have ok : isStringBody .plain (ascii "ok") = true := by decide
  obtain ⟨tokens, parsed, _⟩ := @parseOkResponse_document okMembers
    ⟨rfl, by decide, rfl, rfl, ok, rfl, rfl⟩ rfl (by decide) [] [] rfl rfl
  rw [List.nil_append, List.append_nil, okMembers_text] at parsed
  exact ⟨tokens, parsed⟩

end Provider

section Calls

variable {kernel : Kernel κ} {rootDir text : Bytes} {client : HttpfsClient}
  {curl : Curl (Host κ)} {host after : Host κ} {before : ClientState (Host κ)}

theorem mirrors_change (documented : kernel.Documented)
    (dependable : ∀ host, Dependable curl host) {endpoint : PostEndpoint}
    (delivers : Delivers kernel rootDir endpoint.path curl (postTransfer client endpoint text)
      host)
    {statusMessage : Bytes} (fits : (client.baseUrl ++ endpoint.path).length < 1024)
    (bound : (text.length : Int) ≤ longMax) :
    Mirrors before
      (Direct.change kernel ((endpoint.decode text).bind fun decoded => decoded.change rootDir)
        host) host
      (postBody curl client endpoint.path text statusMessage) := by
  generalize isDecoded : ((endpoint.decode text).bind fun decoded =>
    decoded.change rootDir) = decoded
  have answered (reply : HttpReply) (after : Host κ)
      (handled : handleChange kernel decoded endpoint.invalid host = (reply, after))
      (lines : List Bytes) (carries : Carries (postTransfer client endpoint text) lines) :
      processRequestBuffer kernel rootDir
        (requestMessage (ascii "POST") endpoint.path lines text) host = (reply, after) := by
    rw [← isDecoded] at handled
    exact (processRequestBuffer_post carries bound host).trans handled
  have refused (errnoValue : Int) (message : Bytes) (isErrno : IsErrno errnoValue)
      (handled : handleChange kernel decoded endpoint.invalid host =
        (sendErrorJson errnoValue message, host)) :
      Mirrors before (.error errnoValue, host) host
        (postBody curl client endpoint.path text statusMessage) :=
    triple_bind_fails (refused_delivered dependable fits
      (requestFor_post client endpoint text) delivers isErrno (answered _ _ handled))
  cases decoded with
  | none => exact refused _ _ isErrno_EINVAL rfl
  | some change =>
      cases changed : kernel.change change host.names host.contents with
      | error errnoValue =>
          have direct : Direct.change kernel (some change) host = (.error errnoValue, host) := by
            simp only [Direct.change, changed]
          rw [direct]
          exact refused errnoValue (kernel.strerror errnoValue) (documented.change changed)
            (by simp only [handleChange, changed, sendErrno])
      | ok files =>
          have direct : Direct.change kernel (some change) host =
              (.ok (), { host with names := files.1, contents := files.2 }) := by
            simp only [Direct.change, changed]
          have handled : handleChange kernel (some change) endpoint.invalid host =
              (sendOk (ascii "\x7b\"status\":\"ok\"\x7d"),
                { host with names := files.1, contents := files.2 }) := by
            simp only [handleChange, changed]
          obtain ⟨tokens, parsed⟩ := parseOkResponse_okMembers
          rw [direct]
          unfold Mirrors postBody
          apply triple_bind_value (succeeds_delivered dependable fits
            (requestFor_post client endpoint text) delivers (by decide) parsed
            (answered _ _ handled))
          exact triple_pure fun state reached => ⟨rfl, reached⟩

theorem Direct.post_decoded {request : PostRequest} (noNul : ∀ path ∈ request.paths, 0 ∉ path) :
    Direct.post kernel rootDir request = Direct.change kernel
      ((request.endpoint.decode (objectText request.fields)).bind fun decoded =>
        decoded.change rootDir) := by
  rw [Direct.post, PostRequest.decode_fields noNul]
  split <;> rfl

theorem mirrors_delivered (documented : kernel.Documented)
    (dependable : ∀ host, Dependable curl host) (request : PostRequest)
    (noNul : ∀ path ∈ request.paths, 0 ∉ path)
    (fits : (client.baseUrl ++ request.endpoint.path).length < 1024)
    (delivers : ∀ text, request.body = some text →
      Delivers kernel rootDir request.endpoint.path curl
        (postTransfer client request.endpoint text) host) :
    Mirrors before (Direct.post kernel rootDir request host) host
      (request.operation curl client) := by
  cases built : request.body with
  | none =>
      obtain ⟨message, raises⟩ := PostRequest.operation_unbuilt curl client built
      have notPosted : ¬ ∀ path ∈ request.paths, Posted path := by
        intro posted
        have isBuilt := PostRequest.body_posted posted
        rw [built] at isBuilt
        contradiction
      rw [Direct.post, if_neg notPosted, raises, Direct.change, Mirrors]
      exact triple_failed refused_raise fun state reported => ⟨message, reported⟩
  | some text =>
      obtain ⟨statusMessage, posts⟩ := PostRequest.operation_eq curl client built
      have short := PostRequest.length_body built
      have bound : (text.length : Int) ≤ longMax := by
        simp only [longMax]
        omega
      rw [posts, Direct.post_decoded noNul, ← PostRequest.body_eq built]
      exact mirrors_change documented dependable (delivers text built) fits bound

theorem Direct.post_documented (documented : kernel.Documented) {request : PostRequest}
    {errnoValue : Int}
    (failed : Direct.post kernel rootDir request host = (.error errnoValue, after)) :
    IsErrno errnoValue := by
  simp only [Direct.post, Direct.change] at failed
  split at failed
  · cases failed
    exact isErrno_EINVAL
  · next change _ =>
    split at failed
    · next changed =>
      cases failed
      exact documented.change changed
    · cases failed

end Calls

def PostRequest.fuse : PostRequest → FuseOperation
  | createFile path mode => .create path mode
  | createDir path mode => .mkdir path mode
  | removeFile path => .unlink path
  | removeDir path => .rmdir path
  | rename oldPath newPath => .rename oldPath newPath 0
  | truncate path size => .truncate path size
  | utimens path atime mtime => .utimens path (some (atime, mtime))

theorem PostRequest.run_fuse {σ : Type} (curl : Curl σ) (client : HttpfsClient) (host : σ)
    (request : PostRequest) :
    request.fuse.run curl client host = fuseStatus (request.operation curl client) host := by
  cases request <;> rfl

def onceKernel : Kernel Bool where
  openFile := fun _ _ _ => .error Errno.ENOENT
  lstat := fun _ _ _ => .error Errno.ENOENT
  opendir := fun _ _ => .error Errno.ENOENT
  change := fun change present contents =>
    match change with
    | .unlink path =>
        if present && path == ascii "/srv/a" then .ok (false, contents)
        else .error Errno.ENOENT
    | _ => .error Errno.ENOSYS
  strerror := fun _ => ascii "No such file or directory"

theorem documented_onceKernel : onceKernel.Documented := by
  have isErrno_ENOENT : IsErrno Errno.ENOENT := by unfold IsErrno; decide
  have isErrno_ENOSYS : IsErrno Errno.ENOSYS := by unfold IsErrno; decide
  refine ⟨?_, ?_, ?_, ?_⟩
  · rintro _ _ _ _ ⟨⟩
    exact isErrno_ENOENT
  · rintro _ _ _ _ ⟨⟩
    exact isErrno_ENOENT
  · rintro _ _ _ ⟨⟩
    exact isErrno_ENOENT
  · intro change names contents errnoValue failed
    simp only [onceKernel] at failed
    split at failed
    · split at failed
      · contradiction
      · cases failed
        exact isErrno_ENOENT
    · cases failed
      exact isErrno_ENOSYS

end HttpFs
