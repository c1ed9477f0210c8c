import HttpFs.EndToEnd.Transport

namespace HttpFs

open CProvider Region

variable {κ : Type}

def isTargetByte (c : UInt8) : Bool :=
  isEncoded c || c == byte '/' || c == byte '?' || c == byte '&' || c == byte '='

theorem word_of_target {target : Bytes} (nonempty : target ≠ [])
    (bytes : target.all isTargetByte = true) (fits : target.length < 1024) :
    Word 2047 target := by
  have ordinary : ∀ c ∈ target, c ≠ 0 ∧ isSpace c = false := by
    intro c member
    have row := of_table (p := fun c => !isTargetByte c || (c != 0 && !isSpace c))
      (by decide +kernel) c
    simpa [List.all_eq_true.mp bytes c member] using row
  exact ⟨nonempty, fun zero => (ordinary 0 zero).1 rfl,
    fun c member => (ordinary c member).2, by omega⟩

theorem isTargetByte_of_encoded {text : Bytes} (encoded : text.all isEncoded = true) :
    text.all isTargetByte = true := by
  rw [List.all_eq_true] at encoded ⊢
  intro c member
  simp [isTargetByte, encoded c member]

def readParameters (path : Bytes) (offset : Int) (size : Nat) : List (Bytes × Bytes) :=
  [(ascii "path", percentEncode path), (ascii "offset", signedDecimal offset),
    (ascii "size", signedDecimal size)]

def writeParameters (path : Bytes) (offset : Int) : List (Bytes × Bytes) :=
  [(ascii "path", percentEncode path), (ascii "offset", signedDecimal offset)]

theorem readEndpoint_eq (path : Bytes) (offset : Int) (size : Nat) :
    readEndpoint offset size (percentEncode path) =
      ascii "/v1/read" ++ byte '?' :: joinQuery (readParameters path offset size) := by
  simp [readEndpoint, joinQuery, readParameters, ascii, List.intercalate, signedDecimal]

theorem writeEndpoint_eq (path : Bytes) (offset : Int) :
    writeEndpoint offset (percentEncode path) =
      ascii "/v1/write" ++ byte '?' :: joinQuery (writeParameters path offset) := by
  simp [writeEndpoint, joinQuery, writeParameters, ascii, List.intercalate]

private theorem parameters_of {parameters : List (Bytes × Bytes)} (nonempty : parameters ≠ [])
    (names : (parameters.all fun parameter =>
      !parameter.1.contains (byte '=') && !parameter.1.contains (byte '&')) = true)
    (values : (parameters.all fun parameter => parameter.2.all isEncoded) = true) :
    Parameters parameters := by
  refine ⟨nonempty, ?_, by simpa using values⟩
  intro parameter member
  have name := List.all_eq_true.mp names parameter member
  simpa using name

theorem parameters_read (path : Bytes) (offset : Int) (size : Nat) :
    Parameters (readParameters path offset size) := by
  apply parameters_of
  · simp [readParameters]
  · rfl
  · simp [readParameters, isEncoded_percentEncode, isEncoded_signedDecimal]

theorem parameters_write (path : Bytes) (offset : Int) :
    Parameters (writeParameters path offset) := by
  apply parameters_of
  · simp [writeParameters]
  · rfl
  · simp [writeParameters, isEncoded_percentEncode, isEncoded_signedDecimal]

structure Serves (kernel : Kernel κ) (rootDir path : Bytes) (file : Nat) (names : κ) :
    Prop where
  noNul : 0 ∉ path
  opens : ∃ localPath, resolvePath rootDir path 4096 = some localPath ∧
    ∀ flags, kernel.openFile names localPath flags = .ok file

/-- The provider finds a file at a path when it opens it in this way. -/
structure Opens (kernel : Kernel κ) (flags : OpenFlags) (rootDir path : Bytes) (file : Nat)
    (names : κ) : Prop where
  noNul : 0 ∉ path
  opens : ∃ localPath, resolvePath rootDir path 4096 = some localPath ∧
    kernel.openFile names localPath flags = .ok file

theorem Serves.opensAs {kernel : Kernel κ} {rootDir path : Bytes} {file : Nat} {names : κ}
    (serves : Serves kernel rootDir path file names) (flags : OpenFlags) :
    Opens kernel flags rootDir path file names := by
  obtain ⟨localPath, resolved, opened⟩ := serves.opens
  exact ⟨serves.noNul, localPath, resolved, opened flags⟩

theorem serves_local (names : Unit) :
    Serves (.single (ascii "/srv/a")) (ascii "/srv") (ascii "/a") 0 names :=
  ⟨by decide, ascii "/srv/a", by decide, fun _ => rfl⟩

/-- What the provider has in hand when it answers the client's read. -/
def readRequest (rootDir path : Bytes) (offset : Int) (size : Nat) : RequestContext where
  method := ascii "GET"
  path := ascii "/v1/read"
  query := joinQuery (readParameters path offset size)
  contentMd5 := []
  body := []
  rootDir

theorem requestContext_read {rootDir path : Bytes} {offset : Int} {size : Nat}
    {request : HttpRequest} {lines : List Bytes} (isGet : request.post = none)
    (carries : Carries request lines)
    (fits : (readEndpoint offset size (percentEncode path)).length < 1024) :
    requestContext rootDir (requestMessage request.method
      (readEndpoint offset size (percentEncode path)) lines request.body) =
        .ok (readRequest rootDir path offset size) := by
  have noDigest : extractHeaderValue lines md5HeaderName 33 = none := by
    rw [extractHeaderValue, ← List.head?_filter, carries.digest, HttpRequest.headers, isGet]
    rfl
  have target : Word 2047 (ascii "/v1/read" ++ byte '?' ::
      joinQuery (readParameters path offset size)) := by
    rw [← readEndpoint_eq]
    apply word_of_target (by simp [readEndpoint, ascii]) ?_ fits
    simp only [readEndpoint, List.all_append,
      isTargetByte_of_encoded (isEncoded_percentEncode path),
      isTargetByte_of_encoded (isEncoded_signedDecimal offset),
      isTargetByte_of_encoded (isEncoded_decimal size)]
    decide
  have context := @requestContext_message rootDir (ascii "GET") (ascii "/v1/read")
    (joinQuery (readParameters path offset size)) [] lines
    ⟨by decide, by decide, by decide, by decide⟩ target (by decide) carries.plain
    (by simpa [HttpRequest.body, isGet] using carries.length) (by decide)
  rw [noDigest] at context
  simpa [HttpRequest.method, HttpRequest.body, isGet, readEndpoint_eq, readRequest]
    using context

def readReply (kernel : Kernel κ) (offset : Int) : Except Int Bytes × Host κ → HttpReply × Host κ
  | (.error errnoValue, host) => (sendErrno kernel errnoValue, host)
  | (.ok buffer, host) => (sendBinary buffer (sparseMd5 buffer offset), host)

theorem processRequestBuffer_read {kernel : Kernel κ} {rootDir path : Bytes} {offset : Int}
    {size file : Nat} {request : HttpRequest} {lines : List Bytes} {host : Host κ}
    (served : Opens kernel .readOnly rootDir path file host.names)
    (calm : host.mallocs = []) (isGet : request.post = none) (carries : Carries request lines)
    (fits : (readEndpoint offset size (percentEncode path)).length < 1024)
    (notNegative : 0 ≤ offset) (offsetBound : offset ≤ longMax)
    (sizeBound : (size : Int) ≤ longMax) :
    processRequestBuffer kernel rootDir (requestMessage request.method
        (readEndpoint offset size (percentEncode path)) lines request.body) host =
      readReply kernel offset (host.pread file size offset.toNat) := by
  obtain ⟨localPath, resolved, opened⟩ := served.opens
  have lower : ∀ value : Int, 0 ≤ value → longMin ≤ value := by
    intro value positive
    simp only [longMin]
    omega
  have short : (percentEncode path).length < 2048 := by
    simp only [readEndpoint, List.length_append] at fits
    omega
  have pathLength := length_le_percentEncode path
  have hasPath : queryValue (joinQuery (readParameters path offset size)) (ascii "path") 2048 =
      some path :=
    queryValue_encoded (parameters_read path offset size) (by rfl) served.noNul (by omega) short
  obtain ⟨offsetText, hasOffset, isOffset⟩ := @queryValue_number _ (ascii "offset") offset
    (parameters_read path offset size) (by rfl) (lower offset notNegative) offsetBound
  obtain ⟨sizeText, hasSize, isSize⟩ := @queryValue_number _ (ascii "size") size
    (parameters_read path offset size) (by rfl) (lower size (by omega)) sizeBound
  have range : readRange (readRequest rootDir path offset size) =
      .ok ⟨localPath, offset, size⟩ := by
    simp only [readRange, readRequest, hasPath, hasOffset, hasSize, resolved, isOffset, isSize,
      Option.bind_eq_bind, Option.bind_some, Option.pure_def]
    rw [if_neg (by omega)]
  have malloc : host.malloc = (true, host) := by
    cases host
    cases calm
    rfl
  rw [processRequestBuffer, requestContext_read isGet carries fits]
  change handleRead kernel (readRequest rootDir path offset size) host = _
  simp only [handleRead, range, opened, malloc, if_true, Int.toNat_natCast]
  cases read : host.pread file size offset.toNat with
  | mk result after =>
      cases result with
      | error errnoValue => rfl
      | ok buffer =>
          simp only [httpfsSparseMd5Hex, if_neg (Int.not_lt.mpr notNegative)]
          rfl

end HttpFs
