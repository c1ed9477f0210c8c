import HttpFs.EndToEnd.UsablePaths

namespace HttpFs

open CProvider Json

/-! The requests that change a path, as the provider decodes and serves them. -/

instance (path : Bytes) : Decidable (Posted path) := inferInstanceAs (Decidable (_ ∧ _))

namespace PostRequest

variable {request : PostRequest}

theorem jsonGetString_posted {member : Bytes × Bytes} (noNul : 0 ∉ member.2)
    (isMember : member ∈ request.pathMembers) :
    jsonGetString (cString (objectText request.fields)) member.1 2048 =
      if Posted member.2 then some member.2 else none := by
  split
  · next posted => exact (jsonGetString_member noNul isMember).mpr ⟨rfl, posted⟩
  · next notPosted =>
    rw [Option.eq_none_iff_forall_ne_some]
    intro found isFound
    exact notPosted ((jsonGetString_member noNul isMember).mp isFound).2

theorem jsonGetLong_posted {key : Bytes} {value : Int} (before after : List Field)
    (shape : request.fields = before ++ ⟨key, .number value⟩ :: after)
    (plain : PlainKey key) (short : key.length < 100)
    (others : ∀ other ∈ before, PlainKey other.key ∧ other.key ≠ key)
    (range : longMin ≤ value ∧ value ≤ longMax) :
    jsonGetLong (cString (objectText request.fields)) key = some value := by
  rw [request.cString_fields]
  exact jsonGetLong_number shape plain short others range.1 range.2

theorem decodePath_posted {path : Bytes} (noNul : 0 ∉ path)
    (isMember : (ascii "path", path) ∈ request.pathMembers) :
    decodePath (objectText request.fields) = if Posted path then some path else none :=
  jsonGetString_posted noNul isMember

theorem decodePathLong_posted {path key : Bytes} {value : Int} (noNul : 0 ∉ path)
    (isMember : (ascii "path", path) ∈ request.pathMembers)
    (shape : request.fields = [pathField path, ⟨key, .number value⟩])
    (plain : PlainKey key) (short : key.length < 100) (notPath : ascii "path" ≠ key)
    (range : longMin ≤ value ∧ value ≤ longMax) :
    decodePathLong key (objectText request.fields) =
      if Posted path then some (path, value) else none := by
  have number : jsonGetLong (cString (objectText request.fields)) key = some value := by
    apply jsonGetLong_posted [pathField path] [] shape plain short
    · simp only [List.mem_singleton, forall_eq, pathField]
      exact ⟨by decide, notPath⟩
    · exact range
  simp only [decodePathLong, decodePath_posted noNul isMember, number]
  split <;> rfl

theorem decodeUtimens_posted {path : Bytes} {atime mtime : Timespec} (noNul : 0 ∉ path) :
    decodeUtimens (objectText (utimens path atime mtime).fields) =
      if Posted path then some (path, atime, mtime) else none := by
  have isPath := @decodePath_posted (utimens path atime mtime) path noNul
    (List.mem_singleton_self _)
  have isAtimeSec : jsonGetLong (cString (objectText (utimens path atime mtime).fields))
      (ascii "atime_sec") = some atime.tvSec.toInt :=
    jsonGetLong_posted [pathField path] _ rfl (by decide) (by decide)
      (by simp only [List.mem_singleton, forall_eq, pathField]; decide)
      (int64_long atime.tvSec)
  have isAtimeNsec : jsonGetLong (cString (objectText (utimens path atime mtime).fields))
      (ascii "atime_nsec") = some atime.tvNsec.toInt :=
    jsonGetLong_posted [pathField path, ⟨ascii "atime_sec", .number atime.tvSec.toInt⟩] _ rfl
      (by decide) (by decide)
      (by simp only [List.mem_cons, List.not_mem_nil, or_false, forall_eq_or_imp, forall_eq,
            pathField]; decide)
      (int64_long atime.tvNsec)
  have isMtimeSec : jsonGetLong (cString (objectText (utimens path atime mtime).fields))
      (ascii "mtime_sec") = some mtime.tvSec.toInt :=
    jsonGetLong_posted
      [pathField path, ⟨ascii "atime_sec", .number atime.tvSec.toInt⟩,
        ⟨ascii "atime_nsec", .number atime.tvNsec.toInt⟩] _ rfl
      (by decide) (by decide)
      (by simp only [List.mem_cons, List.not_mem_nil, or_false, forall_eq_or_imp, forall_eq,
            pathField]; decide)
      (int64_long mtime.tvSec)
  have isMtimeNsec : jsonGetLong (cString (objectText (utimens path atime mtime).fields))
      (ascii "mtime_nsec") = some mtime.tvNsec.toInt :=
    jsonGetLong_posted
      [pathField path, ⟨ascii "atime_sec", .number atime.tvSec.toInt⟩,
        ⟨ascii "atime_nsec", .number atime.tvNsec.toInt⟩,
        ⟨ascii "mtime_sec", .number mtime.tvSec.toInt⟩] _ rfl
      (by decide) (by decide)
      (by simp only [List.mem_cons, List.not_mem_nil, or_false, forall_eq_or_imp, forall_eq,
            pathField]; decide)
      (int64_long mtime.tvNsec)
  simp only [decodeUtimens, isPath, isAtimeSec, isAtimeNsec, isMtimeSec, isMtimeNsec]
  split
  · simp [Int64.ofInt_toInt]
  · rfl

/-- The handler of its endpoint decodes what the client was given, unless a path has a
byte that it cannot read or is too long for it. -/
theorem decode_fields (noNul : ∀ path ∈ request.paths, 0 ∉ path) :
    request.endpoint.decode (objectText request.fields) =
      if ∀ path ∈ request.paths, Posted path then some request else none := by
  have modeBack : ∀ mode : UInt32, UInt32.ofInt (mode.toNat : Int) = mode := by
    intro mode
    have bound := mode.toNat_lt
    have small : (mode.toNat : Int) % 2 ^ 32 = mode.toNat := by omega
    rw [UInt32.ofInt, small, Int.toNat_natCast]
    exact UInt32.ofNat_toNat
  cases request with
  | createFile path mode =>
      have decoded := @decodePathLong_posted (createFile path mode) path (ascii "mode")
        mode.toNat (noNul path (List.mem_singleton_self _)) (List.mem_singleton_self _) rfl
        (by decide) (by decide) (by decide) (uint32_long mode)
      simp only [endpoint, PostEndpoint.decode, decoded, paths, List.mem_singleton, forall_eq]
      split <;> simp [modeBack]
  | createDir path mode =>
      have decoded := @decodePathLong_posted (createDir path mode) path (ascii "mode")
        mode.toNat (noNul path (List.mem_singleton_self _)) (List.mem_singleton_self _) rfl
        (by decide) (by decide) (by decide) (uint32_long mode)
      simp only [endpoint, PostEndpoint.decode, decoded, paths, List.mem_singleton, forall_eq]
      split <;> simp [modeBack]
  | removeFile path =>
      have decoded := @decodePath_posted (removeFile path) path
        (noNul path (List.mem_singleton_self _)) (List.mem_singleton_self _)
      simp only [endpoint, PostEndpoint.decode, decoded, paths, List.mem_singleton, forall_eq]
      split <;> rfl
  | removeDir path =>
      have decoded := @decodePath_posted (removeDir path) path
        (noNul path (List.mem_singleton_self _)) (List.mem_singleton_self _)
      simp only [endpoint, PostEndpoint.decode, decoded, paths, List.mem_singleton, forall_eq]
      split <;> rfl
  | rename oldPath newPath =>
      have isOld := @jsonGetString_posted (rename oldPath newPath) (ascii "old_path", oldPath)
        (noNul oldPath (List.mem_cons_self ..)) (List.mem_cons_self ..)
      have isNew := @jsonGetString_posted (rename oldPath newPath) (ascii "new_path", newPath)
        (noNul newPath (List.mem_cons_of_mem _ (List.mem_singleton_self _)))
        (List.mem_cons_of_mem _ (List.mem_singleton_self _))
      simp only [endpoint, PostEndpoint.decode, decodeRename, isOld, isNew, paths,
        List.mem_cons, List.not_mem_nil, or_false, forall_eq_or_imp, forall_eq]
      by_cases oldPosted : Posted oldPath <;> by_cases newPosted : Posted newPath <;>
        simp [oldPosted, newPosted]
  | truncate path size =>
      have decoded := @decodePathLong_posted (truncate path size) path (ascii "size")
        size.toInt (noNul path (List.mem_singleton_self _)) (List.mem_singleton_self _) rfl
        (by decide) (by decide) (by decide) (int64_long size)
      simp only [endpoint, PostEndpoint.decode, decoded, paths, List.mem_singleton, forall_eq]
      split <;> simp
  | utimens path atime mtime =>
      have decoded := @decodeUtimens_posted path atime mtime
        (noNul path (List.mem_singleton_self _))
      simp only [endpoint, PostEndpoint.decode, decoded, paths, List.mem_singleton, forall_eq]
      split <;> rfl

theorem length_body {text : Bytes} (built : request.body = some text) :
    text.length < 16448 := by
  have short : ∀ {size : Nat} {whole : Bytes}, 0 < size → size ≤ 16448 →
      (snprintf size whole).length < 16448 := by
    intro size whole positive bound
    rw [snprintf, List.length_take]
    omega
  cases request with
  | createFile path mode | createDir path mode | removeFile path | removeDir path
  | truncate path size | utimens path atime mtime =>
      obtain ⟨_, _, rfl⟩ := escaped_of_map built
      exact short (by decide) (by decide)
  | rename oldPath newPath =>
      obtain ⟨_, _, rest⟩ := Option.bind_eq_some_iff.mp built
      obtain ⟨_, _, rfl⟩ := escaped_of_map rest
      exact short (by decide) (by decide)

theorem body_posted (posted : ∀ path ∈ request.paths, Posted path) : request.body.isSome := by
  cases request with
  | createFile path mode | createDir path mode | removeFile path | removeDir path
  | truncate path size | utimens path atime mtime =>
      rw [body, escapePath_posted (posted path (List.mem_singleton_self _))]
      rfl
  | rename oldPath newPath =>
      rw [body, escapePath_posted (posted oldPath (List.mem_cons_self ..)),
        escapePath_posted
          (posted newPath (List.mem_cons_of_mem _ (List.mem_singleton_self _)))]
      rfl

/-- A path that is too long to be escaped is reported as invalid before anything is sent. -/
theorem operation_unbuilt {σ : Type} (curl : Curl σ) (client : HttpfsClient)
    (unbuilt : request.body = none) :
    ∃ message, request.operation curl client = ClientM.raise Errno.EINVAL message := by
  cases request with
  | createFile path mode | createDir path mode | removeFile path | removeDir path =>
      have unescaped := Option.map_eq_none_iff.mp unbuilt
      exists ascii "Failed to escape request path"
      simp only [operation, httpfsCreateFile, httpfsCreateDir, httpfsRemoveFile,
        httpfsRemoveDir, postPathOnly, unescaped]
      rfl
  | rename oldPath newPath =>
      exists ascii "Failed to escape rename request path"
      cases isOld : escapePath oldPath with
      | none =>
          simp only [operation, httpfsRenamePath, isOld]
          rfl
      | some escapedOld =>
          rw [body, isOld, Option.bind_some] at unbuilt
          have unescaped := Option.map_eq_none_iff.mp unbuilt
          simp only [operation, httpfsRenamePath, isOld, unescaped]
          rfl
  | truncate path size =>
      have unescaped := Option.map_eq_none_iff.mp unbuilt
      exists ascii "Failed to escape truncate request path"
      simp only [operation, httpfsTruncateFile, unescaped]
      rfl
  | utimens path atime mtime =>
      have unescaped := Option.map_eq_none_iff.mp unbuilt
      exists ascii "Failed to escape utimens request path"
      simp only [operation, httpfsUpdateTimes, unescaped]
      rfl

/-- The change of the machine's files that a request asks for, if its paths resolve. -/
def change (rootDir : Bytes) : PostRequest → Option Change
  | createFile path mode =>
      (resolvePath rootDir path 4096).map (Change.createFile · mode)
  | createDir path mode => (resolvePath rootDir path 4096).map (Change.mkdir · mode)
  | removeFile path => (resolvePath rootDir path 4096).map Change.unlink
  | removeDir path => (resolvePath rootDir path 4096).map Change.rmdir
  | rename oldPath newPath => do
      let localOld ← resolvePath rootDir oldPath 4096
      let localNew ← resolvePath rootDir newPath 4096
      return .rename localOld localNew
  | truncate path size => (resolvePath rootDir path 4096).map (Change.truncate · size)
  | utimens path atime mtime =>
      (resolvePath rootDir path 4096).map (Change.utimens · atime mtime)

end PostRequest

/-- What the handler of an endpoint says about a body that it refuses. -/
def PostEndpoint.invalid : PostEndpoint → Bytes
  | .createFile => ascii "invalid create-file body"
  | .createDir => ascii "invalid create-dir body"
  | .removeFile => ascii "invalid remove-file body"
  | .removeDir => ascii "invalid remove-dir body"
  | .rename => ascii "invalid rename body"
  | .truncate => ascii "invalid truncate body"
  | .utimens => ascii "invalid utimens body"

variable {κ : Type}

theorem dispatchRequest_post {kernel : Kernel κ} {request : RequestContext}
    {endpoint : PostEndpoint} (isPost : request.method = ascii "POST")
    (isPath : request.path = endpoint.path) (host : Host κ) :
    dispatchRequest kernel request host =
      handleChange kernel
        ((endpoint.decode request.body).bind fun decoded => decoded.change request.rootDir)
        endpoint.invalid host := by
  obtain ⟨method, path, query, contentMd5, body, rootDir⟩ := request
  simp only at isPost isPath
  subst isPost isPath
  cases endpoint with
  | createFile | createDir =>
      refine congrArg (fun decoded => handleChange kernel decoded _ host) ?_
      simp only [PostEndpoint.decode]
      cases decodePathLong (ascii "mode") body with
      | none => rfl
      | some found => exact Option.map_eq_bind.symm
  | removeFile | removeDir =>
      refine congrArg (fun decoded => handleChange kernel decoded _ host) ?_
      simp only [PostEndpoint.decode]
      cases decodePath body with
      | none => rfl
      | some path => exact Option.map_eq_bind.symm
  | rename =>
      refine congrArg (fun decoded => handleChange kernel decoded _ host) ?_
      simp only [PostEndpoint.decode]
      cases decodeRename body <;> rfl
  | truncate =>
      refine congrArg (fun decoded => handleChange kernel decoded _ host) ?_
      simp only [PostEndpoint.decode]
      cases decodePathLong (ascii "size") body with
      | none => rfl
      | some found => exact Option.map_eq_bind.symm
  | utimens =>
      refine congrArg (fun decoded => handleChange kernel decoded _ host) ?_
      simp only [PostEndpoint.decode]
      cases decodeUtimens body with
      | none => rfl
      | some found => exact Option.map_eq_bind.symm

end HttpFs
