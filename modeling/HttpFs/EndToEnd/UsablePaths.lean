import HttpFs.Client.Transfer
import HttpFs.EndToEnd.RequestLines
import HttpFs.Provider.ReadablePaths
import HttpFs.Provider.Sending

namespace HttpFs

open CProvider Json Routine ClientM

variable {σ : Type}

/-- The two ways in which a client brings a path into being. -/
inductive Creation where
  | createFile (mode : UInt32)
  | renameFrom (oldPath : Bytes)

namespace Creation

def request (path : Bytes) : Creation → PostRequest
  | createFile mode => .createFile path mode
  | renameFrom oldPath => .rename oldPath path

def handler : Creation → Sending.ChangeRequest
  | createFile _ => Sending.createFile
  | renameFrom _ => Sending.rename

/-- The client builds the request, and the provider decodes its body and resolves its
paths. -/
def Succeeds (creation : Creation) (client : HttpfsClient) (rootDir path : Bytes) : Prop :=
  ∃ text, (creation.request path).body = some text ∧
    (client.baseUrl ++ (creation.request path).endpoint.path).length < 1024 ∧
    ∀ asked : RequestContext, asked.body = text → asked.rootDir = rootDir →
      (creation.handler.decode asked).isSome

end Creation

def Creatable (client : HttpfsClient) (rootDir path : Bytes) : Prop :=
  ∃ creation : Creation, creation.Succeeds client rootDir path

namespace PathRequest

/-- The chunks of a transfer lie at offsets of the size of `off_t` and have a bound. -/
def InReach (request : PathRequest) : Prop :=
  request.InRange ∧ ∀ offset size, request = .readFile offset size →
    size ≤ HTTPFS_READ_CHUNK_SIZE

def Builds (curl : Curl σ) (client : HttpfsClient) (before : ClientState σ) (path : Bytes)
    (request : PathRequest) : Prop :=
  ∃ target after, request.build curl path before = (some (some target), after) ∧
    (client.baseUrl ++ target).length < 1024

end PathRequest

def Usable (curl : Curl σ) (client : HttpfsClient) (before : ClientState σ)
    (path : Bytes) : Prop :=
  ∀ request : PathRequest, request.InReach → request.Builds curl client before path

theorem length_percentEncode (text : Bytes) :
    (percentEncode text).length = text.length + 2 * text.countP fun c => !isUnreserved c := by
  induction text with
  | nil => rfl
  | cons c rest induction =>
      have shape : percentEncode (c :: rest) = percentEncodeByte c ++ percentEncode rest := rfl
      rw [shape, List.length_append, induction, List.length_cons, List.countP_cons]
      cases unreserved : isUnreserved c
      · simp [percentEncodeByte, unreserved]
        omega
      · simp [percentEncodeByte, unreserved]
        omega

theorem length_escapedText_readable {path : Bytes} (readable : ∀ ch ∈ path, ReadableByte ch) :
    (escapedText path).length ≤ 2 * path.length := by
  induction path with
  | nil => exact Nat.le_refl 0
  | cons ch rest induction =>
      rw [List.forall_mem_cons] at readable
      have row := of_table (p := fun ch =>
        !decide (ReadableByte ch) || decide ((escapeByte ch).length ≤ 2))
        (by decide +kernel) ch
      rw [decide_eq_true readable.1, Bool.not_true, Bool.false_or, decide_eq_true_eq] at row
      have tail := induction readable.2
      have shape : escapedText (ch :: rest) = escapeByte ch ++ escapedText rest := rfl
      rw [shape, List.length_append, List.length_cons]
      omega

/-- The clause that both decoders of a path impose on it. -/
def Posted (path : Bytes) : Prop :=
  path.length ≤ 2046 ∧ ∀ ch ∈ path, ReadableByte ch

theorem Posted.noNul {path : Bytes} (posted : Posted path) : 0 ∉ path := by
  intro member
  exact absurd (posted.2 0 member) (by decide)

theorem escapePath_posted {path : Bytes} (posted : Posted path) :
    escapePath path = some (escapedText path) := by
  have bound := length_escapedText_readable posted.2
  have short := posted.1
  rw [escapePath, jsonEscapeString, if_neg (by decide), cString_of_noNul posted.noNul,
    jsonEscapeLoop_fits]
  · rfl
  · rw [List.length_nil, HTTPFS_MAX_PATH]
    unfold escapedText at bound
    omega

theorem jsonGetString_member {request : PostRequest} {member : Bytes × Bytes}
    {found : Bytes} (noNul : 0 ∉ member.2) (isMember : member ∈ request.pathMembers) :
    jsonGetString (cString (objectText request.fields)) member.1 2048 = some found ↔
      found = member.2 ∧ Posted member.2 := by
  obtain ⟨before, after, shape, plain, short, others⟩ :=
    PostRequest.pathMembers_located noNul isMember
  rw [request.cString_fields, jsonGetString_string shape plain short others (by decide),
    Posted]
  constructor
  · intro isFound
    split at isFound
    · next holds =>
      cases isFound
      exact ⟨rfl, by omega, holds.1⟩
    · contradiction
  · intro posted
    obtain ⟨rfl, short, readable⟩ := posted
    rw [if_pos ⟨readable, by omega⟩]

theorem Creation.posted {creation : Creation} {client : HttpfsClient}
    {rootDir path : Bytes} (noNul : 0 ∉ path)
    (succeeds : creation.Succeeds client rootDir path) :
    client.baseUrl.length + (ascii "/v1/rename").length < 1024 ∧ Posted path ∧
      (resolvePath rootDir path 4096).isSome := by
  obtain ⟨text, built, fits, accepts⟩ := succeeds
  obtain rfl := PostRequest.body_eq built
  have accepted := accepts ⟨[], [], [], [], _, rootDir⟩ rfl rfl
  rw [List.length_append] at fits
  cases creation with
  | createFile mode =>
      obtain ⟨change, decoded⟩ := Option.isSome_iff_exists.mp accepted
      obtain ⟨⟨found, value⟩, read, rest⟩ := Option.bind_eq_some_iff.mp decoded
      obtain ⟨localPath, resolved, _⟩ := Option.bind_eq_some_iff.mp rest
      obtain ⟨foundPath, isPath, rest⟩ := Option.bind_eq_some_iff.mp read
      obtain ⟨foundValue, _, same⟩ := Option.bind_eq_some_iff.mp rest
      cases same
      obtain ⟨rfl, posted⟩ := (@jsonGetString_member (.createFile path mode)
        (ascii "path", path) found noNul (List.mem_singleton_self _)).mp isPath
      have longer : (ascii "/v1/rename").length ≤ PostEndpoint.createFile.path.length := by
        decide
      exact ⟨Nat.lt_of_le_of_lt (Nat.add_le_add_left longer _) fits, posted,
        Option.isSome_iff_exists.mpr ⟨localPath, resolved⟩⟩
  | renameFrom oldPath =>
      obtain ⟨change, decoded⟩ := Option.isSome_iff_exists.mp accepted
      obtain ⟨⟨foundOld, found⟩, read, rest⟩ := Option.bind_eq_some_iff.mp decoded
      obtain ⟨localOld, _, rest⟩ := Option.bind_eq_some_iff.mp rest
      obtain ⟨localNew, resolved, _⟩ := Option.bind_eq_some_iff.mp rest
      obtain ⟨isOld, _, rest⟩ := Option.bind_eq_some_iff.mp read
      obtain ⟨isNew, isPath, same⟩ := Option.bind_eq_some_iff.mp rest
      cases same
      obtain ⟨rfl, posted⟩ := (@jsonGetString_member (.rename oldPath path)
        (ascii "new_path", path) found noNul
        (List.mem_cons_of_mem _ (List.mem_singleton_self _))).mp isPath
      exact ⟨fits, posted, Option.isSome_iff_exists.mpr ⟨localNew, resolved⟩⟩

theorem creatable_iff {client : HttpfsClient} {rootDir path : Bytes} (noNul : 0 ∉ path) :
    Creatable client rootDir path ↔
      client.baseUrl.length + (ascii "/v1/rename").length < 1024 ∧ Posted path ∧
        (resolvePath rootDir path 4096).isSome := by
  constructor
  · intro creatable
    obtain ⟨creation, succeeds⟩ := creatable
    exact creation.posted noNul succeeds
  · intro holds
    obtain ⟨fits, posted, resolves⟩ := holds
    obtain ⟨localPath, resolved⟩ := Option.isSome_iff_exists.mp resolves
    have escaped := escapePath_posted posted
    have built : (PostRequest.rename path path).body =
        some (renameBody (escapedText path) (escapedText path)) := by
      simp only [PostRequest.body, escaped, Option.bind_some, Option.map_some]
    refine ⟨.renameFrom path, _, built, ?_, ?_⟩
    · rw [List.length_append]
      exact fits
    · intro asked isBody isRoot
      have read (member : Bytes × Bytes)
          (isMember : member ∈ (PostRequest.rename path path).pathMembers)
          (isPath : member.2 = path) :
          jsonGetString (cString asked.body) member.1 2048 = some path := by
        rw [isBody, PostRequest.body_eq built]
        exact (jsonGetString_member (by rwa [isPath]) isMember).mpr
          ⟨isPath.symm, by rwa [isPath]⟩
      have isOld := read (ascii "old_path", path) (List.mem_cons_self ..) rfl
      have isNew := read (ascii "new_path", path)
        (List.mem_cons_of_mem _ (List.mem_singleton_self _)) rfl
      simp only [Creation.handler, Sending.rename, decodeRename, isOld, isNew, isRoot,
        resolved, Option.bind_eq_bind, Option.bind_some, Option.pure_def, Option.isSome_some]

section Targets

variable {curl : Curl σ} {client : HttpfsClient} {before : ClientState σ} {path : Bytes}

theorem PathRequest.build_run (dependable : Dependable curl before.host)
    (request : PathRequest) (path : Bytes) :
    (request.build curl path before).1 =
      some (if (request.format (percentEncode path)).length < 1024 then
        some (request.format (percentEncode path)) else none) := by
  rw [build_eq, buildEndpoint]
  have initialised : ask curl.easyInit before = (some true, before) := by
    simp only [ask, run_call, dependable.easyInit]
  have escaped : ask (curl.easyEscape path) before =
      (some (some (percentEncode path)), before) := by
    simp only [ask, run_call, dependable.easyEscape]
  rw [run_bind_some initialised, if_pos rfl, run_bind_some escaped]
  rfl

theorem PathRequest.builds_iff (dependable : Dependable curl before.host)
    (request : PathRequest) :
    request.Builds curl client before path ↔
      client.baseUrl.length + (request.format (percentEncode path)).length < 1024 := by
  have run := request.build_run dependable path
  constructor
  · intro builds
    obtain ⟨target, after, built, fits⟩ := builds
    rw [built] at run
    split at run
    · cases run
      rwa [List.length_append] at fits
    · cases run
  · intro fits
    rw [if_pos (by omega)] at run
    exact ⟨_, _, Prod.ext run rfl, by rwa [List.length_append]⟩

/-- A read at the last offset of a file makes the longest target. -/
theorem PathRequest.length_format {request : PathRequest} (reach : request.InReach)
    (escapedPath : Bytes) :
    (request.format escapedPath).length ≤ escapedPath.length + 54 := by
  obtain ⟨inRange, chunk⟩ := reach
  have digits (offset : Int) (lower : 0 ≤ offset) (upper : offset ≤ longMax) :
      (signedDecimal offset).length ≤ 19 := by
    obtain ⟨position, rfl⟩ := Int.eq_ofNat_of_zero_le lower
    have bound : position < 10 ^ 19 := by
      simp only [longMax] at upper
      omega
    exact length_decimal_le bound (by decide)
  cases request with
  | getMeta | listDir =>
      simp [format, simpleGetEndpoint, ascii]
  | readFile offset size =>
      have range := inRange (ascii "offset", offset) (List.mem_cons_self ..)
      have offsetDigits := digits offset range.1 range.2
      have sizeDigits : (decimal size).length ≤ 7 := by
        have bound := chunk offset size rfl
        simp only [HTTPFS_READ_CHUNK_SIZE] at bound
        exact length_decimal_le (by omega) (by decide)
      simp [format, readEndpoint, ascii]
      omega
  | writeFile offset =>
      have range := inRange (ascii "offset", offset) (List.mem_singleton_self _)
      have offsetDigits := digits offset range.1 range.2
      simp [format, writeEndpoint, ascii]
      omega

def lastRead : PathRequest := .readFile longMax HTTPFS_READ_CHUNK_SIZE

theorem inReach_lastRead : lastRead.InReach := by
  refine ⟨?_, ?_⟩
  · intro number member
    simp only [lastRead, PathRequest.numbers, List.mem_cons, List.not_mem_nil, or_false]
      at member
    obtain rfl | rfl := member <;> decide
  · intro offset size same
    cases same
    exact Nat.le_refl _

theorem length_lastRead (escapedPath : Bytes) :
    (lastRead.format escapedPath).length = escapedPath.length + 54 := by
  have offsetDigits : (signedDecimal longMax).length = 19 := by decide +kernel
  have sizeDigits : (decimal HTTPFS_READ_CHUNK_SIZE).length = 7 := by decide +kernel
  simp [lastRead, PathRequest.format, readEndpoint, ascii, offsetDigits, sizeDigits]

theorem usable_iff (dependable : Dependable curl before.host) :
    Usable curl client before path ↔
      client.baseUrl.length + (percentEncode path).length + 54 < 1024 := by
  constructor
  · intro usable
    have fits := (lastRead.builds_iff dependable).mp (usable lastRead inReach_lastRead)
    rw [length_lastRead] at fits
    omega
  · intro fits request reach
    have bound := PathRequest.length_format reach (percentEncode path)
    exact (request.builds_iff dependable).mpr (by omega)

/-- A path that the provider takes from the body of a request can be too long, once it is
percent-encoded, for the 1024 bytes of a URL. -/
theorem creatable_usable_iff (rootDir : Bytes) (noNul : 0 ∉ path)
    (dependable : Dependable curl before.host) :
    (Creatable client rootDir path → Usable curl client before path) ↔
      ((client.baseUrl.length + (ascii "/v1/rename").length < 1024 ∧ path.length ≤ 2046 ∧
          (∀ ch ∈ path, ReadableByte ch) ∧ (resolvePath rootDir path 4096).isSome) →
        client.baseUrl.length + path.length + 2 * (path.countP fun c => !isUnreserved c) + 54 <
          1024) := by
  rw [creatable_iff noNul, usable_iff dependable, length_percentEncode, Posted, and_assoc,
    ← Nat.add_assoc]

end Targets

theorem creatable_usable_quoted :
    Creatable localClient (ascii "/srv") (ascii "/a \"b\"\n") ∧
      (Creatable localClient (ascii "/srv") (ascii "/a \"b\"\n") →
        Usable localCurl localClient (.start (.calm []) []) (ascii "/a \"b\"\n")) := by
  have noNul : 0 ∉ ascii "/a \"b\"\n" := by decide
  have dependable : Dependable localCurl (Host.calm []) := ⟨rfl, fun _ => rfl, fun _ => rfl⟩
  refine ⟨?_, ?_⟩
  · rw [creatable_iff noNul]
    exact ⟨by decide, ⟨by decide, by decide⟩, by decide +kernel⟩
  · exact (@creatable_usable_iff _ localCurl localClient (.start (.calm []) []) _ (ascii "/srv")
      noNul dependable).mpr fun _ => by decide +kernel

/-- Four directories deep, with names of 250 bytes. -/
def deepPath : Bytes :=
  (List.replicate 4 (byte '/' :: List.replicate 250 (byte 'a'))).flatten

theorem deepPath_not_usable :
    ¬ ∀ (curl : Curl (Host Unit)) (client : HttpfsClient) (before : ClientState (Host Unit))
      (rootDir path : Bytes), Dependable curl before.host → 0 ∉ path →
      Creatable client rootDir path → Usable curl client before path := by
  intro holds
  have dependable : Dependable localCurl (Host.calm []) := ⟨rfl, fun _ => rfl, fun _ => rfl⟩
  have noNul : 0 ∉ deepPath := by decide +kernel
  have creatable : Creatable localClient (ascii "/srv") deepPath := by
    rw [creatable_iff noNul]
    exact ⟨by decide, ⟨by decide +kernel, by decide +kernel⟩, by decide +kernel⟩
  have usable := (usable_iff dependable).mp
    (holds localCurl localClient (.start (.calm []) []) (ascii "/srv") deepPath dependable
      noNul creatable)
  exact absurd usable (by decide +kernel)

end HttpFs
