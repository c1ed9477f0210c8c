import HttpFs.Provider.Handlers

namespace HttpFs.CProvider

open Region

variable {κ : Type}

def okHead : Bytes := ascii "\x7b\"status\":\"ok\""

def errorHead : Bytes := ascii "\x7b\"status\":\"error\""

theorem errorHead_leads (errnoValue : Int) (message : Bytes) :
    errorHead <+: (sendErrorJson errnoValue message).body := by
  simp only [sendErrorJson, sendJson, errorPayload, snprintf]
  rw [show (1400 - 1 : Nat) = errorHead.length + 1382 by decide]
  simp only [List.append_assoc]
  rw [show ascii "\x7b\"status\":\"error\",\"errno\":" =
    errorHead ++ ascii ",\"errno\":" by decide, List.append_assoc, List.take_length_add_append]
  exact List.prefix_append _ _

theorem not_okHead_error (errnoValue : Int) (message : Bytes) :
    ¬ okHead <+: (sendErrorJson errnoValue message).body := by
  intro ok
  have error := errorHead_leads errnoValue message
  have comparable := List.prefix_of_prefix_length_le ok error (by decide)
  exact absurd comparable (by decide)

namespace Host

theorem malloc_eq (host : Host κ) :
    ∃ allocated mallocs, host.malloc = (allocated, { host with mallocs }) :=
  ⟨_, _, rfl⟩

theorem preadFull_eq (host : Host κ) (file length offset : Nat) :
    ∃ result preads,
      host.preadFull file length offset = (result, { host with preads }) :=
  ⟨_, _, rfl⟩

/-- The calls of `pwrite_full` amount to one write of all they have moved, also when one
of them fails. -/
theorem pwriteFull_moves (host : Host κ) (file offset : Nat) (buffer : Bytes) :
    ∃ result moved pwrites, host.pwriteFull file buffer offset =
        (result, { host.setContents file
          (overwrite 0 (host.contents file) offset (buffer.take moved)) with pwrites }) ∧
      moved ≤ buffer.length ∧ ∀ written, result = .ok written → written = moved := by
  obtain ⟨moved, ⟨within, contents⟩, isMoved⟩ :=
    @FullTransfer.run_invariant _ _ isEintr buffer.length
      (fun total => buffer.length - total)
      (fun total n contents =>
        overwrite 0 contents (offset + total) (slice buffer total n))
      host.pwrites 0 (host.contents file)
      (fun total contents => total ≤ buffer.length ∧
        contents = overwrite 0 (host.contents file) offset (buffer.take total))
      (by
        rintro total n contents more fits ⟨within, rfl⟩
        refine ⟨by omega, ?_⟩
        have joined : buffer.take (total + n) = buffer.take total ++ slice buffer total n := by
          rw [List.take_add, slice]
        have length : (buffer.take total).length = total := List.length_take_of_le within
        rw [joined, ← overwrite_append, length])
      ⟨by omega, by simp⟩
  exact ⟨_, moved, _, by rw [← contents]; rfl, within, isMoved⟩

theorem pwriteFull_eq {host after : Host κ} {file offset written : Nat} {buffer : Bytes}
    (ok : host.pwriteFull file buffer offset = (.ok written, after)) :
    ∃ pwrites, written ≤ buffer.length ∧
      after = { host.setContents file
        (overwrite 0 (host.contents file) offset (buffer.take written)) with pwrites } := by
  obtain ⟨result, moved, pwrites, called, within, isMoved⟩ :=
    host.pwriteFull_moves file offset buffer
  rw [ok, Prod.mk.injEq] at called
  obtain ⟨rfl, rfl⟩ := called
  obtain rfl := isMoved written rfl
  exact ⟨pwrites, within, rfl⟩

end Host

def requestOffset (request : RequestContext) : Option Int :=
  (queryValue request.query (ascii "offset") 64).map fun text => (strtol text).value

def requestSize (request : RequestContext) : Option Int :=
  (queryValue request.query (ascii "size") 64).map fun text => (strtol text).value

/-- The digest a request brings is one, of its body at its offset. -/
def DigestMatches (request : RequestContext) : Prop :=
  httpfsIsValidMd5Hex request.contentMd5 = true ∧
    ∃ offset, requestOffset request = some offset ∧
      httpfsSparseMd5Hex request.body offset = some request.contentMd5

/-- One file has changed, in one range; a gap in front of the range is zero. -/
structure ExactWrite (before after : Contents) (file offset : Nat) (body : Bytes) :
    Prop where
  range : slice (after file) offset body.length = body
  outside : ∀ i, i < offset ∨ offset + body.length ≤ i → i < (after file).length →
    (after file)[i]? = some ((before file)[i]?.getD 0)
  length : (after file).length = if body = [] then (before file).length
    else max (before file).length (offset + body.length)
  others : ∀ other, other ≠ file → after other = before other

theorem exactWrite_overwrite (host : Host κ) (file offset : Nat) (body : Bytes) :
    ExactWrite host.contents
      (host.setContents file (overwrite 0 (host.contents file) offset body)).contents
      file offset body := by
  have written : (host.setContents file
      (overwrite 0 (host.contents file) offset body)).contents file =
        overwrite 0 (host.contents file) offset body := by
    simp [Host.setContents]
  refine ⟨by rw [written]; exact slice_overwrite, ?_, ?_, ?_⟩
  · intro i place inside
    rw [written] at inside ⊢
    by_cases empty : body = []
    · simp only [empty, overwrite_nil] at inside ⊢
      rw [List.getElem?_eq_getElem inside]
      rfl
    · rw [getElem?_overwrite empty]
      rw [length_overwrite empty] at inside
      split
      · rfl
      · split
        · omega
        · have old : i < (host.contents file).length := by omega
          rw [List.getElem?_eq_getElem old]
          rfl
  · rw [written]
    split
    · next empty => rw [empty, overwrite_nil]
    · next nonempty => exact length_overwrite nonempty
  · intro other different
    simp [Host.setContents, different]

theorem writeTarget_ok {request : RequestContext} {target : WriteTarget}
    (passed : writeTarget request = .ok target) :
    requestOffset request = some target.offset ∧ 0 ≤ target.offset ∧
      target.expectedMd5 = request.contentMd5 ∧ DigestMatches request ∧
      ∃ path, queryValue request.query (ascii "path") 2048 = some path ∧
        resolvePath request.rootDir path 4096 = some target.localPath := by
  simp only [writeTarget] at passed
  split at passed
  · contradiction
  next offsetText localPath decoded =>
  simp only [Option.bind_eq_bind, Option.bind_eq_some_iff, Option.pure_def,
    Option.some.injEq, Prod.mk.injEq] at decoded
  obtain ⟨path, hasPath, text, hasOffset, resolved, hasResolved, rfl, rfl⟩ := decoded
  split at passed
  · contradiction
  next notNegative =>
  split at passed
  · contradiction
  next valid =>
  split at passed
  · contradiction
  next expectedMd5 computed =>
  split at passed
  · contradiction
  next same =>
  have equal : expectedMd5 = request.contentMd5 := Decidable.not_not.mp same
  cases passed
  have offset : requestOffset request = some (strtol text).value := by
    simp [requestOffset, hasOffset]
  refine ⟨offset, Int.not_lt.mp notNegative, equal, ⟨by simpa using valid, _, offset, ?_⟩,
    path, hasPath, hasResolved⟩
  rw [computed, equal]

theorem queryPath_eq_some {request : RequestContext} {path localPath : Bytes} :
    queryPath request = some (path, localPath) ↔
      queryValue request.query (ascii "path") 2048 = some path ∧
        resolvePath request.rootDir path 4096 = some localPath := by
  simp only [queryPath, Option.bind_eq_bind, Option.bind_eq_some_iff, Option.pure_def,
    Option.some.injEq, Prod.mk.injEq]
  constructor
  · rintro ⟨_, hasPath, _, resolved, rfl, rfl⟩
    exact ⟨hasPath, resolved⟩
  · rintro ⟨hasPath, resolved⟩
    exact ⟨path, hasPath, localPath, resolved, rfl, rfl⟩

theorem queryPath_of_writeTarget {request : RequestContext} {target : WriteTarget}
    (passed : writeTarget request = .ok target) :
    ∃ path, queryPath request = some (path, target.localPath) := by
  obtain ⟨_, _, _, _, path, hasPath, resolved⟩ := writeTarget_ok passed
  exact ⟨path, queryPath_eq_some.mpr ⟨hasPath, resolved⟩⟩

theorem readRange_ok {request : RequestContext} {range : ReadRange}
    (passed : readRange request = .ok range) :
    (∃ path, queryPath request = some (path, range.localPath)) ∧
      requestOffset request = some range.offset ∧ requestSize request = some range.size ∧
      0 ≤ range.offset ∧ 0 ≤ range.size := by
  simp only [readRange] at passed
  split at passed
  · contradiction
  next decoded =>
  simp only [Option.bind_eq_bind, Option.bind_eq_some_iff, Option.pure_def,
    Option.some.injEq] at decoded
  obtain ⟨path, hasPath, offset, hasOffset, size, hasSize, localPath, resolved, rfl⟩ := decoded
  split at passed
  · contradiction
  next notNegative =>
  cases passed
  simp only [not_or, Int.not_lt] at notNegative
  exact ⟨⟨path, queryPath_eq_some.mpr ⟨hasPath, resolved⟩⟩, by simp [requestOffset, hasOffset],
    by simp [requestSize, hasSize], notNegative⟩

theorem verifyStored_ok {kernel : Kernel κ} {target : WriteTarget} {body : Bytes}
    {file : Nat} {host after : Host κ} {reply : HttpReply}
    (handled : verifyStored kernel target body file host = (reply, after))
    (ok : okHead <+: reply.body) :
    reply = sendOk (writtenPayload body.length target.expectedMd5) ∧
      after.contents = host.contents ∧ after.names = host.names := by
  obtain ⟨allocated, mallocs, malloc⟩ := host.malloc_eq
  simp only [verifyStored, malloc] at handled
  cases allocated with
  | false =>
      cases handled
      exact absurd ok (not_okHead_error _ _)
  | true =>
      simp only [if_true] at handled
      obtain ⟨result, preads, read⟩ := Host.preadFull_eq { host with mallocs } file body.length
        target.offset.toNat
      rw [read] at handled
      cases result with
      | error errnoValue =>
          cases handled
          exact absurd ok (not_okHead_error _ _)
      | ok verifyBuffer =>
          simp only at handled
          split at handled
          · cases handled
            exact absurd ok (not_okHead_error _ _)
          split at handled
          · cases handled
            exact absurd ok (not_okHead_error _ _)
          next actualMd5 computed =>
          split at handled
          · cases handled
            exact absurd ok (not_okHead_error _ _)
          next same =>
          cases handled
          rw [Decidable.not_not.mp same]
          exact ⟨rfl, rfl, rfl⟩

theorem writtenPayload_eq {written : Nat} {actualMd5 : Bytes} (fits : written < 10 ^ 20)
    (digest : actualMd5.length = 32) :
    writtenPayload written actualMd5 =
      ascii "\x7b\"status\":\"ok\",\"bytes_written\":" ++ decimal written ++
        ascii ",\"content_md5\":\"" ++ actualMd5 ++ ascii "\"\x7d" := by
  have digits : (decimal written).length ≤ 20 := length_decimal_le fits (by omega)
  apply snprintf_of_lt
  simp only [List.length_append, digest]
  simp [ascii]
  omega

/-- `handle_write` on any host: a request whose digest is not that of its body is
answered with an error and changes nothing; a request that is answered with `ok` has
changed one range of one file, into its body, and the reply says so. -/
theorem handleWrite_guarded (kernel : Kernel κ) (request : RequestContext) (host : Host κ)
    (inRange : ∀ offset, requestOffset request = some offset →
      offset + request.body.length ≤ longMax) :
    (¬ DigestMatches request →
      errorHead <+: (handleWrite kernel request host).1.body ∧
        (handleWrite kernel request host).2 = host) ∧
    (okHead <+: (handleWrite kernel request host).1.body →
      ∃ path localPath file offset,
        queryValue request.query (ascii "path") 2048 = some path ∧
        resolvePath request.rootDir path 4096 = some localPath ∧
        kernel.openFile host.names localPath .readWrite = .ok file ∧
        requestOffset request = some (Int.ofNat offset) ∧
        ExactWrite host.contents (handleWrite kernel request host).2.contents file offset
          request.body ∧
        (handleWrite kernel request host).2.names = host.names ∧
        (handleWrite kernel request host).1.body =
          ascii "\x7b\"status\":\"ok\",\"bytes_written\":" ++ decimal request.body.length ++
            ascii ",\"content_md5\":\"" ++ request.contentMd5 ++ ascii "\"\x7d") := by
  cases checked : writeTarget request with
  | error error =>
      have refused : handleWrite kernel request host =
          (sendErrorJson error.errnoValue error.message, host) := by
        simp [handleWrite, checked]
      rw [refused]
      exact ⟨fun _ => ⟨errorHead_leads _ _, rfl⟩,
        fun ok => absurd ok (not_okHead_error _ _)⟩
  | ok target =>
      obtain ⟨isOffset, notNegative, isMd5, digest, path, hasPath, resolved⟩ :=
        writeTarget_ok checked
      refine ⟨fun mismatch => absurd digest mismatch, ?_⟩
      intro ok
      obtain ⟨reply, after, handled⟩ :
          ∃ reply after, handleWrite kernel request host = (reply, after) := ⟨_, _, rfl⟩
      rw [handled] at ok ⊢
      simp only [handleWrite, checked] at handled
      split at handled
      · cases handled
        exact absurd ok (not_okHead_error _ _)
      next file opened =>
      split at handled
      · cases handled
        exact absurd ok (not_okHead_error _ _)
      next written stored wrote =>
      split at handled
      · cases handled
        exact absurd ok (not_okHead_error _ _)
      next whole =>
      obtain rfl : written = request.body.length := Decidable.not_not.mp whole
      obtain ⟨pwrites, _, rfl⟩ := Host.pwriteFull_eq wrote
      obtain ⟨rfl, contents, names⟩ := verifyStored_ok handled ok
      refine ⟨path, target.localPath, file, target.offset.toNat, hasPath, resolved, opened,
        ?_, ?_, names, ?_⟩
      · rw [isOffset]
        exact congrArg some (Int.toNat_of_nonneg notNegative).symm
      · rw [contents, List.take_length]
        exact exactWrite_overwrite host file target.offset.toNat request.body
      · rw [isMd5]
        have bound := inRange target.offset isOffset
        simp only [longMax] at bound
        apply writtenPayload_eq (by omega)
        simp only [DigestMatches, httpfsIsValidMd5Hex, Bool.and_eq_true, beq_iff_eq] at digest
        exact digest.1.1

def twoByteRequest : RequestContext where
  method := ascii "POST"
  path := ascii "/v1/write"
  query := ascii "path=/a&offset=4"
  contentMd5 := ascii "d41d8cd98f00b204e9800998ecf8427e"
  body := ascii "xy"
  rootDir := ascii "/srv"

theorem handleWrite_twoByteRequest :
    okHead <+: (handleWrite (.single (ascii "/srv/a")) twoByteRequest
      (.calm (ascii "abc"))).1.body ∧
    ∃ path localPath file offset,
      queryValue twoByteRequest.query (ascii "path") 2048 = some path ∧
      resolvePath twoByteRequest.rootDir path 4096 = some localPath ∧
      (Kernel.single (ascii "/srv/a")).openFile () localPath .readWrite = .ok file ∧
      requestOffset twoByteRequest = some (Int.ofNat offset) ∧
      ExactWrite (fun _ => ascii "abc") (handleWrite (.single (ascii "/srv/a"))
        twoByteRequest (.calm (ascii "abc"))).2.contents file offset (ascii "xy") := by
  have inRange : ∀ offset, requestOffset twoByteRequest = some offset →
      offset + twoByteRequest.body.length ≤ longMax := by
    intro offset asked
    have isFour : requestOffset twoByteRequest = some 4 := by decide +kernel
    rw [isFour] at asked
    cases asked
    decide
  have ok : okHead <+: (handleWrite (.single (ascii "/srv/a")) twoByteRequest
      (.calm (ascii "abc"))).1.body := by
    decide +kernel
  obtain ⟨path, localPath, file, offset, hasPath, resolved, opened, asked, exact, _⟩ :=
    (handleWrite_guarded (.single (ascii "/srv/a")) twoByteRequest (.calm (ascii "abc"))
      inRange).2 ok
  exact ⟨ok, path, localPath, file, offset, hasPath, resolved, opened, asked, exact⟩

end HttpFs.CProvider
