import HttpFs.Client.Bodies
import HttpFs.Provider.FieldSearch

namespace HttpFs

inductive PostEndpoint where
  | createFile
  | createDir
  | removeFile
  | removeDir
  | rename
  | truncate
  | utimens
  deriving Repr, DecidableEq

def PostEndpoint.path : PostEndpoint → Bytes
  | .createFile => ascii "/v1/create-file"
  | .createDir => ascii "/v1/create-dir"
  | .removeFile => ascii "/v1/remove-file"
  | .removeDir => ascii "/v1/remove-dir"
  | .rename => ascii "/v1/rename"
  | .truncate => ascii "/v1/truncate"
  | .utimens => ascii "/v1/utimens"

/-- An operation that posts a JSON body, with the arguments it is given. -/
inductive PostRequest where
  | createFile (path : Bytes) (mode : UInt32)
  | createDir (path : Bytes) (mode : UInt32)
  | removeFile (path : Bytes)
  | removeDir (path : Bytes)
  | rename (oldPath newPath : Bytes)
  | truncate (path : Bytes) (size : Int64)
  | utimens (path : Bytes) (atime mtime : Timespec)
  deriving DecidableEq

namespace PostRequest

def endpoint : PostRequest → PostEndpoint
  | createFile .. => .createFile
  | createDir .. => .createDir
  | removeFile .. => .removeFile
  | removeDir .. => .removeDir
  | rename .. => .rename
  | truncate .. => .truncate
  | utimens .. => .utimens

def paths : PostRequest → List Bytes
  | createFile path _ | createDir path _ | removeFile path | removeDir path
  | truncate path _ | utimens path _ _ => [path]
  | rename oldPath newPath => [oldPath, newPath]

def operation {σ : Type} (curl : Curl σ) (client : HttpfsClient) :
    PostRequest → ClientM σ Unit
  | createFile path mode => httpfsCreateFile curl client path mode
  | createDir path mode => httpfsCreateDir curl client path mode
  | removeFile path => httpfsRemoveFile curl client path
  | removeDir path => httpfsRemoveDir curl client path
  | rename oldPath newPath => httpfsRenamePath curl client oldPath newPath
  | truncate path size => httpfsTruncateFile curl client path size
  | utimens path atime mtime => httpfsUpdateTimes curl client path (some (atime, mtime))

def body : PostRequest → Option Bytes
  | createFile path mode | createDir path mode =>
      (escapePath path).map (pathModeBody · mode.toNat)
  | removeFile path | removeDir path => (escapePath path).map pathBody
  | rename oldPath newPath =>
      (escapePath oldPath).bind fun escapedOld =>
        (escapePath newPath).map (renameBody escapedOld)
  | truncate path size => (escapePath path).map (truncateBody · size)
  | utimens path atime mtime => (escapePath path).map (utimensBody · atime mtime)

end PostRequest

theorem PostRequest.operation_eq {σ : Type} (curl : Curl σ) (client : HttpfsClient)
    {request : PostRequest} {text : Bytes} (built : request.body = some text) :
    ∃ statusMessage, request.operation curl client =
      postBody curl client request.endpoint.path text statusMessage := by
  cases request with
  | createFile path mode | createDir path mode =>
      obtain ⟨_, isEscaped, rfl⟩ := escaped_of_map built
      exists ascii "Request returned a non-200 status"
      simp only [operation, httpfsCreateFile, httpfsCreateDir, postPathOnly, isEscaped]
      rfl
  | removeFile path | removeDir path =>
      obtain ⟨_, isEscaped, rfl⟩ := escaped_of_map built
      exists ascii "Request returned a non-200 status"
      simp only [operation, httpfsRemoveFile, httpfsRemoveDir, postPathOnly, isEscaped]
      rfl
  | rename oldPath newPath =>
      obtain ⟨escapedOld, isOld, rest⟩ := Option.bind_eq_some_iff.mp built
      obtain ⟨_, isNew, rfl⟩ := escaped_of_map rest
      exists ascii "Rename request returned a non-200 status"
      simp only [operation, httpfsRenamePath, isOld, isNew]
      rfl
  | truncate path size =>
      obtain ⟨_, isEscaped, rfl⟩ := escaped_of_map built
      exists ascii "Truncate request returned a non-200 status"
      simp only [operation, httpfsTruncateFile, isEscaped]
      rfl
  | utimens path atime mtime =>
      obtain ⟨_, isEscaped, rfl⟩ := escaped_of_map built
      exists ascii "Utimens request returned a non-200 status"
      simp only [operation, httpfsUpdateTimes, isEscaped]
      rfl

def PostEndpoint.decode (body : Bytes) : PostEndpoint → Option PostRequest
  | .createFile => (decodePathLong (ascii "mode") body).map fun (path, mode) =>
      .createFile path (.ofInt mode)
  | .createDir => (decodePathLong (ascii "mode") body).map fun (path, mode) =>
      .createDir path (.ofInt mode)
  | .removeFile => (decodePath body).map .removeFile
  | .removeDir => (decodePath body).map .removeDir
  | .rename => (decodeRename body).map fun (oldPath, newPath) => .rename oldPath newPath
  | .truncate => (decodePathLong (ascii "size") body).map fun (path, size) =>
      .truncate path (.ofInt size)
  | .utimens => (decodeUtimens body).map fun (path, atime, mtime) =>
      .utimens path atime mtime

def pathField (path : Bytes) : Field := ⟨ascii "path", .string (cString path)⟩

def PostRequest.fields : PostRequest → List Field
  | createFile path mode | createDir path mode =>
      [pathField path, ⟨ascii "mode", .number mode.toNat⟩]
  | removeFile path | removeDir path => [pathField path]
  | rename oldPath newPath =>
      [⟨ascii "old_path", .string (cString oldPath)⟩,
        ⟨ascii "new_path", .string (cString newPath)⟩]
  | truncate path size => [pathField path, ⟨ascii "size", .number size.toInt⟩]
  | utimens path atime mtime =>
      [pathField path, ⟨ascii "atime_sec", .number atime.tvSec.toInt⟩,
        ⟨ascii "atime_nsec", .number atime.tvNsec.toInt⟩,
        ⟨ascii "mtime_sec", .number mtime.tvSec.toInt⟩,
        ⟨ascii "mtime_nsec", .number mtime.tvNsec.toInt⟩]

theorem escapePath_eq {path escaped : Bytes} (built : escapePath path = some escaped) :
    escaped = escapedText (cString path) :=
  jsonEscapeString_eq built

theorem pathBody_eq {path escaped : Bytes} (built : escapePath path = some escaped) :
    pathBody escaped = objectText [pathField path] := by
  rw [pathBody_stored, (pathCall_fits built).stored_eq]
  obtain rfl := escapePath_eq built
  simp [pathCall, FormatCall.whole, Piece.print, objectText, fieldsText, Field.text, keyPattern,
    FieldValue.text, ascii, pathField]

theorem pathModeBody_eq {path escaped : Bytes} (built : escapePath path = some escaped)
    (mode : UInt32) :
    pathModeBody escaped mode.toNat =
      objectText [pathField path, ⟨ascii "mode", .number mode.toNat⟩] := by
  have small := mode.toNat_lt
  obtain ⟨long, isLong⟩ : ∃ long : Int64, long.toInt = mode.toNat :=
    ⟨.ofInt mode.toNat, Int64.toInt_ofInt_of_le (by omega) (by omega)⟩
  rw [← isLong, pathModeBody_stored, (pathModeCall_fits built long).stored_eq]
  obtain rfl := escapePath_eq built
  simp [pathModeCall, FormatCall.whole, Piece.print, objectText, fieldsText, Field.text,
    keyPattern, FieldValue.text, ascii, pathField]

theorem truncateBody_eq {path escaped : Bytes} (built : escapePath path = some escaped)
    (size : Int64) :
    truncateBody escaped size =
      objectText [pathField path, ⟨ascii "size", .number size.toInt⟩] := by
  rw [truncateBody_stored, (truncateCall_fits built size).stored_eq]
  obtain rfl := escapePath_eq built
  simp [truncateCall, FormatCall.whole, Piece.print, objectText, fieldsText, Field.text,
    keyPattern, FieldValue.text, ascii, pathField]

theorem renameBody_eq {oldPath newPath escapedOld escapedNew : Bytes}
    (builtOld : escapePath oldPath = some escapedOld)
    (builtNew : escapePath newPath = some escapedNew) :
    renameBody escapedOld escapedNew =
      objectText [⟨ascii "old_path", .string (cString oldPath)⟩,
        ⟨ascii "new_path", .string (cString newPath)⟩] := by
  rw [renameBody_stored, (renameCall_fits builtOld builtNew).stored_eq]
  obtain rfl := escapePath_eq builtOld
  obtain rfl := escapePath_eq builtNew
  simp [renameCall, FormatCall.whole, Piece.print, objectText, fieldsText, Field.text,
    keyPattern, FieldValue.text, ascii]

theorem utimensBody_eq {path escaped : Bytes} (built : escapePath path = some escaped)
    (atime mtime : Timespec) :
    utimensBody escaped atime mtime =
      objectText [pathField path, ⟨ascii "atime_sec", .number atime.tvSec.toInt⟩,
        ⟨ascii "atime_nsec", .number atime.tvNsec.toInt⟩,
        ⟨ascii "mtime_sec", .number mtime.tvSec.toInt⟩,
        ⟨ascii "mtime_nsec", .number mtime.tvNsec.toInt⟩] := by
  rw [utimensBody_stored, (utimensCall_fits built atime mtime).stored_eq]
  obtain rfl := escapePath_eq built
  simp [utimensCall, FormatCall.whole, Piece.print, objectText, fieldsText, Field.text,
    keyPattern, FieldValue.text, ascii, pathField]

/-- `snprintf` never cuts a body short: it is the text of a flat object. -/
theorem PostRequest.body_eq {request : PostRequest} {text : Bytes}
    (built : request.body = some text) : text = objectText request.fields := by
  cases request with
  | createFile path mode =>
      obtain ⟨_, isEscaped, rfl⟩ := escaped_of_map built
      exact pathModeBody_eq isEscaped mode
  | createDir path mode =>
      obtain ⟨_, isEscaped, rfl⟩ := escaped_of_map built
      exact pathModeBody_eq isEscaped mode
  | removeFile path =>
      obtain ⟨_, isEscaped, rfl⟩ := escaped_of_map built
      exact pathBody_eq isEscaped
  | removeDir path =>
      obtain ⟨_, isEscaped, rfl⟩ := escaped_of_map built
      exact pathBody_eq isEscaped
  | rename oldPath newPath =>
      obtain ⟨escapedOld, isOld, rest⟩ := Option.bind_eq_some_iff.mp built
      obtain ⟨_, isNew, rfl⟩ := escaped_of_map rest
      exact renameBody_eq isOld isNew
  | truncate path size =>
      obtain ⟨_, isEscaped, rfl⟩ := escaped_of_map built
      exact truncateBody_eq isEscaped size
  | utimens path atime mtime =>
      obtain ⟨_, isEscaped, rfl⟩ := escaped_of_map built
      exact utimensBody_eq isEscaped atime mtime

theorem zero_not_mem_escapedText {content : Bytes} (noNul : 0 ∉ content) :
    0 ∉ escapedText content := by
  simp only [escapedText, List.mem_flatMap, not_exists, not_and]
  intro ch member
  apply zero_not_mem_escapeByte
  intro zero
  exact noNul (zero ▸ member)

theorem zero_not_mem_fieldText {key : Bytes} {value : FieldValue} (noNul : 0 ∉ key)
    (valueNoNul : ∀ content, value = .string content → 0 ∉ content) :
    0 ∉ (Field.mk key value).text := by
  have name : 0 ∉ keyPattern key := by
    simp only [keyPattern, List.mem_cons, List.mem_append, List.not_mem_nil, or_false, not_or]
    exact ⟨by decide, noNul, by decide, by decide⟩
  simp only [Field.text, List.mem_append, not_or]
  refine ⟨name, ?_⟩
  cases value with
  | string content =>
      simp only [FieldValue.text, List.mem_cons, List.mem_append, List.not_mem_nil, or_false,
        not_or]
      exact ⟨by decide, zero_not_mem_escapedText (valueNoNul content rfl), by decide⟩
  | number value =>
      intro member
      exact absurd (mem_signedDecimal member) (by decide)

theorem zero_not_mem_objectText {fields : List Field}
    (noNul : ∀ field ∈ fields, 0 ∉ field.text) : 0 ∉ objectText fields := by
  have members : 0 ∉ fieldsText fields := by
    induction fields with
    | nil => decide
    | cons field rest induction =>
        have tail := induction fun other member => noNul other (by simp [member])
        rw [fieldsText_cons, List.mem_append, not_or]
        refine ⟨noNul field (by simp), ?_⟩
        cases rest with
        | nil => decide
        | cons other others =>
            simp only [membersTail, List.mem_cons, not_or]
            exact ⟨by decide, tail⟩
  simp only [objectText, List.mem_cons, not_or]
  exact ⟨by decide, members⟩

theorem PostRequest.cString_fields (request : PostRequest) :
    cString (objectText request.fields) = objectText request.fields := by
  have path : ∀ content, 0 ∉ (Field.mk (ascii "path") (.string (cString content))).text := by
    intro content
    apply zero_not_mem_fieldText (by decide)
    rintro _ ⟨⟩
    exact zero_not_mem_cString content
  have oldPath : ∀ content,
      0 ∉ (Field.mk (ascii "old_path") (.string (cString content))).text := by
    intro content
    apply zero_not_mem_fieldText (by decide)
    rintro _ ⟨⟩
    exact zero_not_mem_cString content
  have newPath : ∀ content,
      0 ∉ (Field.mk (ascii "new_path") (.string (cString content))).text := by
    intro content
    apply zero_not_mem_fieldText (by decide)
    rintro _ ⟨⟩
    exact zero_not_mem_cString content
  have number : ∀ key value, 0 ∉ key → 0 ∉ (Field.mk key (.number value)).text := by
    intro key value noNul
    exact zero_not_mem_fieldText noNul (by simp)
  apply cString_of_noNul
  apply zero_not_mem_objectText
  cases request <;>
    simp only [fields, pathField, List.mem_cons, List.not_mem_nil, or_false, forall_eq_or_imp,
      forall_eq, path, oldPath, newPath, not_false_eq_true, true_and, and_self]
  all_goals
    first
    | exact number _ _ (by decide)
    | exact ⟨number _ _ (by decide), number _ _ (by decide), number _ _ (by decide),
        number _ _ (by decide)⟩

theorem decodePath_eq {path result : Bytes} {fields rest : List Field} (noNul : 0 ∉ path)
    (shape : fields = pathField path :: rest)
    (same : cString (objectText fields) = objectText fields)
    (decoded : decodePath (objectText fields) = some result) : result = path := by
  rw [decodePath, same] at decoded
  have isFirst : fields = [] ++ ⟨ascii "path", .string path⟩ :: rest := by
    rw [shape, pathField, cString_of_noNul noNul]
    rfl
  exact jsonGetString_eq isFirst (by decide) (by decide) (by simp) decoded

theorem decodePathLong_eq {path key : Bytes} {value : Int} {fields : List Field}
    {result : Bytes × Int} (noNul : 0 ∉ path)
    (shape : fields = [pathField path, ⟨key, .number value⟩])
    (same : cString (objectText fields) = objectText fields)
    (plain : PlainKey key) (short : key.length < 100) (notPath : ascii "path" ≠ key)
    (range : longMin ≤ value ∧ value ≤ longMax)
    (decoded : decodePathLong key (objectText fields) = some result) :
    result = (path, value) := by
  obtain ⟨foundPath, isPath, rest⟩ := Option.bind_eq_some_iff.mp decoded
  obtain ⟨foundValue, isValue, equal⟩ := Option.bind_eq_some_iff.mp rest
  obtain rfl := decodePath_eq noNul shape same isPath
  rw [same] at isValue
  have isSecond : fields = [pathField foundPath] ++ ⟨key, .number value⟩ :: [] := shape
  obtain rfl := jsonGetLong_eq isSecond plain short (by
    simp only [List.mem_singleton, forall_eq, pathField]
    exact ⟨by decide, notPath⟩) range.1 range.2 isValue
  exact (Option.some.inj equal).symm

theorem decodeRename_eq {oldPath newPath : Bytes} {fields : List Field}
    {result : Bytes × Bytes} (oldNoNul : 0 ∉ oldPath) (newNoNul : 0 ∉ newPath)
    (shape : fields = (PostRequest.rename oldPath newPath).fields)
    (same : cString (objectText fields) = objectText fields)
    (decoded : decodeRename (objectText fields) = some result) :
    result = (oldPath, newPath) := by
  obtain ⟨foundOld, isOld, rest⟩ := Option.bind_eq_some_iff.mp decoded
  obtain ⟨foundNew, isNew, equal⟩ := Option.bind_eq_some_iff.mp rest
  have twoFields : fields = [⟨ascii "old_path", .string oldPath⟩,
      ⟨ascii "new_path", .string newPath⟩] := by
    rw [shape, PostRequest.fields, cString_of_noNul oldNoNul, cString_of_noNul newNoNul]
  rw [same] at isOld isNew
  have isFirst : fields = [] ++ ⟨ascii "old_path", .string oldPath⟩ ::
      [⟨ascii "new_path", .string newPath⟩] := twoFields
  have isSecond : fields = [⟨ascii "old_path", .string oldPath⟩] ++
      ⟨ascii "new_path", .string newPath⟩ :: [] := twoFields
  obtain rfl := jsonGetString_eq isFirst (by decide) (by decide) (by simp) isOld
  obtain rfl := jsonGetString_eq isSecond (by decide) (by decide) (by
    simp only [List.mem_singleton, forall_eq]
    decide) isNew
  exact (Option.some.inj equal).symm

theorem utimensNumber_eq {path : Bytes} {key : Bytes} {value : Int64} {result : Int}
    {fields before after : List Field}
    (shape : fields = (pathField path :: before) ++ ⟨key, .number value.toInt⟩ :: after)
    (same : cString (objectText fields) = objectText fields)
    (plain : PlainKey key) (short : key.length < 100) (notPath : ascii "path" ≠ key)
    (others : ∀ other ∈ before, PlainKey other.key ∧ other.key ≠ key)
    (decoded : jsonGetLong (cString (objectText fields)) key = some result) :
    Int64.ofInt result = value := by
  rw [same] at decoded
  have others' : ∀ other ∈ pathField path :: before,
      PlainKey other.key ∧ other.key ≠ key := by
    intro other member
    obtain rfl | inBefore := List.mem_cons.mp member
    · exact ⟨(by decide : PlainKey (ascii "path")), notPath⟩
    · exact others other inBefore
  rw [jsonGetLong_eq shape plain short others' (int64_long value).1 (int64_long value).2
    decoded]
  exact Int64.ofInt_toInt value

theorem decodeUtimens_eq {path : Bytes} {atime mtime : Timespec} {fields : List Field}
    {result : Bytes × Timespec × Timespec} (noNul : 0 ∉ path)
    (shape : fields = (PostRequest.utimens path atime mtime).fields)
    (same : cString (objectText fields) = objectText fields)
    (decoded : decodeUtimens (objectText fields) = some result) :
    result = (path, atime, mtime) := by
  obtain ⟨foundPath, isPath, rest⟩ := Option.bind_eq_some_iff.mp decoded
  obtain ⟨atimeSec, isAtimeSec, rest⟩ := Option.bind_eq_some_iff.mp rest
  obtain ⟨atimeNsec, isAtimeNsec, rest⟩ := Option.bind_eq_some_iff.mp rest
  obtain ⟨mtimeSec, isMtimeSec, rest⟩ := Option.bind_eq_some_iff.mp rest
  obtain ⟨mtimeNsec, isMtimeNsec, equal⟩ := Option.bind_eq_some_iff.mp rest
  obtain rfl := decodePath_eq noNul shape same isPath
  let first : Field := ⟨ascii "atime_sec", .number atime.tvSec.toInt⟩
  let second : Field := ⟨ascii "atime_nsec", .number atime.tvNsec.toInt⟩
  let third : Field := ⟨ascii "mtime_sec", .number mtime.tvSec.toInt⟩
  let fourth : Field := ⟨ascii "mtime_nsec", .number mtime.tvNsec.toInt⟩
  have isFirst : fields = (pathField foundPath :: []) ++ first :: [second, third, fourth] :=
    shape
  have isSecond : fields = (pathField foundPath :: [first]) ++ second :: [third, fourth] :=
    shape
  have isThird : fields = (pathField foundPath :: [first, second]) ++ third :: [fourth] :=
    shape
  have isFourth : fields = (pathField foundPath :: [first, second, third]) ++ fourth :: [] :=
    shape
  have firstEq := utimensNumber_eq isFirst same (by decide) (by decide) (by decide)
    (by simp) isAtimeSec
  have secondEq := utimensNumber_eq isSecond same (by decide) (by decide) (by decide)
    (by simp only [List.mem_singleton, forall_eq, first]; decide) isAtimeNsec
  have thirdEq := utimensNumber_eq isThird same (by decide) (by decide) (by decide)
    (by simp only [List.mem_cons, List.not_mem_nil, or_false, forall_eq_or_imp, forall_eq,
          first, second]; decide) isMtimeSec
  have fourthEq := utimensNumber_eq isFourth same (by decide) (by decide) (by decide)
    (by simp only [List.mem_cons, List.not_mem_nil, or_false, forall_eq_or_imp, forall_eq,
          first, second, third]; decide) isMtimeNsec
  rw [firstEq, secondEq, thirdEq, fourthEq] at equal
  exact (Option.some.inj equal).symm

/-- What the handler of an endpoint reads from the body of a request, if it reads
anything, is what the client was given. -/
theorem decode_body {request decoded : PostRequest} {text : Bytes}
    (noNul : ∀ path ∈ request.paths, 0 ∉ path) (built : request.body = some text)
    (accepted : request.endpoint.decode text = some decoded) : decoded = request := by
  obtain rfl := PostRequest.body_eq built
  have same := request.cString_fields
  have modeBack : ∀ mode : UInt32, UInt32.ofInt (mode.toNat : Int) = mode := by
    intro mode
    have bound := mode.toNat_lt
    have small : (mode.toNat : Int) % 2 ^ 32 = mode.toNat := by omega
    rw [UInt32.ofInt, small, Int.toNat_natCast]
    exact UInt32.ofNat_toNat
  cases request with
  | createFile path mode =>
      obtain ⟨result, isResult, rfl⟩ := Option.map_eq_some_iff.mp accepted
      obtain rfl := decodePathLong_eq (noNul path (by simp [PostRequest.paths])) rfl same
        (by decide) (by decide) (by decide) (uint32_long mode) isResult
      simp [modeBack]
  | createDir path mode =>
      obtain ⟨result, isResult, rfl⟩ := Option.map_eq_some_iff.mp accepted
      obtain rfl := decodePathLong_eq (noNul path (by simp [PostRequest.paths])) rfl same
        (by decide) (by decide) (by decide) (uint32_long mode) isResult
      simp [modeBack]
  | removeFile path =>
      obtain ⟨result, isResult, rfl⟩ := Option.map_eq_some_iff.mp accepted
      obtain rfl := decodePath_eq (noNul path (by simp [PostRequest.paths])) rfl same isResult
      rfl
  | removeDir path =>
      obtain ⟨result, isResult, rfl⟩ := Option.map_eq_some_iff.mp accepted
      obtain rfl := decodePath_eq (noNul path (by simp [PostRequest.paths])) rfl same isResult
      rfl
  | rename oldPath newPath =>
      obtain ⟨result, isResult, rfl⟩ := Option.map_eq_some_iff.mp accepted
      obtain rfl := decodeRename_eq (noNul oldPath (by simp [PostRequest.paths]))
        (noNul newPath (by simp [PostRequest.paths])) rfl same isResult
      rfl
  | truncate path size =>
      obtain ⟨result, isResult, rfl⟩ := Option.map_eq_some_iff.mp accepted
      obtain rfl := decodePathLong_eq (noNul path (by simp [PostRequest.paths])) rfl same
        (by decide) (by decide) (by decide) (int64_long size) isResult
      simp
  | utimens path atime mtime =>
      obtain ⟨result, isResult, rfl⟩ := Option.map_eq_some_iff.mp accepted
      obtain rfl := decodeUtimens_eq (noNul path (by simp [PostRequest.paths])) rfl same
        isResult
      rfl

def hostileRequest : PostRequest := .createFile (ascii "/a\",\"mode\":511,\"") 420

def hostileBody : Bytes :=
  ascii "\x7b\"path\":\"/a\\\",\\\"mode\\\":511,\\\"\",\"mode\":420\x7d"

theorem decode_hostileBody :
    ∃ decoded, hostileRequest.endpoint.decode hostileBody = some decoded ∧
      decoded = hostileRequest := by
  have noNul : ∀ path ∈ hostileRequest.paths, 0 ∉ path := by decide
  have built : hostileRequest.body = some hostileBody := by decide +kernel
  have accepted : hostileRequest.endpoint.decode hostileBody = some hostileRequest := by
    decide +kernel
  exact ⟨hostileRequest, accepted, decode_body noNul built accepted⟩

end HttpFs
