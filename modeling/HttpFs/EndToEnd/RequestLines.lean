import HttpFs.EndToEnd.Serving

namespace HttpFs

open CProvider

inductive PathRequest where
  | getMeta
  | listDir
  | readFile (offset : Int) (size : Nat)
  | writeFile (offset : Int)

namespace PathRequest

def method : PathRequest → Bytes
  | .getMeta | .listDir | .readFile .. => ascii "GET"
  | .writeFile _ => ascii "POST"

def endpoint : PathRequest → Bytes
  | .getMeta => ascii "/v1/meta"
  | .listDir => ascii "/v1/list"
  | .readFile .. => ascii "/v1/read"
  | .writeFile _ => ascii "/v1/write"

def numbers : PathRequest → List (Bytes × Int)
  | .getMeta | .listDir => []
  | .readFile offset size => [(ascii "offset", offset), (ascii "size", size)]
  | .writeFile offset => [(ascii "offset", offset)]

def parameters (request : PathRequest) (path : Bytes) : List (Bytes × Bytes) :=
  (ascii "path", percentEncode path) ::
    request.numbers.map fun number => (number.1, signedDecimal number.2)

def format : PathRequest → Bytes → Bytes
  | .getMeta => simpleGetEndpoint (ascii "/v1/meta")
  | .listDir => simpleGetEndpoint (ascii "/v1/list")
  | .readFile offset size => readEndpoint offset size
  | .writeFile offset => writeEndpoint offset

def build {σ : Type} (curl : Curl σ) (path : Bytes) :
    PathRequest → ClientM σ (Option Bytes)
  | .getMeta => buildSimpleGetEndpoint curl (ascii "/v1/meta") path
  | .listDir => buildSimpleGetEndpoint curl (ascii "/v1/list") path
  | .readFile offset size => buildReadEndpoint curl path offset size
  | .writeFile offset => buildWriteEndpoint curl path offset

theorem build_eq {σ : Type} (curl : Curl σ) (path : Bytes) (request : PathRequest) :
    request.build curl path = buildEndpoint curl path request.format 1024 := by
  cases request <;> rfl

theorem format_percentEncode (request : PathRequest) (path : Bytes) :
    request.format (percentEncode path) =
      request.endpoint ++ byte '?' :: joinQuery (request.parameters path) := by
  cases request with
  | getMeta =>
      simp [format, simpleGetEndpoint, endpoint, parameters, numbers, joinQuery, ascii,
        List.intercalate]
  | listDir =>
      simp [format, simpleGetEndpoint, endpoint, parameters, numbers, joinQuery, ascii,
        List.intercalate]
  | readFile offset size => exact readEndpoint_eq path offset size
  | writeFile offset => exact writeEndpoint_eq path offset

theorem name_number {request : PathRequest} {number : Bytes × Int}
    (member : number ∈ request.numbers) :
    number.1 = ascii "offset" ∨ number.1 = ascii "size" := by
  cases request with
  | getMeta | listDir => cases member
  | readFile offset size =>
      simp only [numbers, List.mem_cons, List.not_mem_nil, or_false] at member
      obtain rfl | rfl := member
      · exact .inl rfl
      · exact .inr rfl
  | writeFile offset =>
      simp only [numbers, List.mem_singleton] at member
      obtain rfl := member
      exact .inl rfl

theorem parameters_wellFormed (request : PathRequest) (path : Bytes) :
    Parameters (request.parameters path) := by
  refine ⟨by simp [parameters], ?_, ?_⟩
  · intro parameter member
    have name : parameter.1 = ascii "path" ∨ parameter.1 = ascii "offset" ∨
        parameter.1 = ascii "size" := by
      obtain rfl | inNumbers := List.mem_cons.mp member
      · exact .inl rfl
      · obtain ⟨number, isNumber, rfl⟩ := List.mem_map.mp inNumbers
        exact .inr (name_number isNumber)
    obtain isName | isName | isName := name <;> rw [isName] <;> decide
  · intro parameter member
    obtain rfl | inNumbers := List.mem_cons.mp member
    · exact isEncoded_percentEncode path
    · obtain ⟨number, _, rfl⟩ := List.mem_map.mp inNumbers
      exact isEncoded_signedDecimal number.2

theorem find_number {request : PathRequest} {path : Bytes} {number : Bytes × Int}
    (member : number ∈ request.numbers) :
    ((request.parameters path).find? fun parameter => parameter.1 == number.1) =
      some (number.1, signedDecimal number.2) := by
  cases request with
  | getMeta | listDir => cases member
  | readFile offset size =>
      simp only [numbers, List.mem_cons, List.not_mem_nil, or_false] at member
      obtain rfl | rfl := member <;> rfl
  | writeFile offset =>
      simp only [numbers, List.mem_singleton] at member
      obtain rfl := member
      rfl

theorem isTarget (request : PathRequest) (path : Bytes)
    (fits : (request.format (percentEncode path)).length < 1024) :
    Word 2047 (request.format (percentEncode path)) := by
  apply word_of_target ?_ ?_ fits
  · rw [format_percentEncode]
    simp
  · cases request with
    | getMeta | listDir =>
        simp only [format, simpleGetEndpoint, List.all_append,
          isTargetByte_of_encoded (isEncoded_percentEncode path)]
        decide
    | readFile offset size =>
        simp only [format, readEndpoint, List.all_append,
          isTargetByte_of_encoded (isEncoded_percentEncode path),
          isTargetByte_of_encoded (isEncoded_signedDecimal offset),
          isTargetByte_of_encoded (isEncoded_decimal size)]
        decide
    | writeFile offset =>
        simp only [format, writeEndpoint, List.all_append,
          isTargetByte_of_encoded (isEncoded_percentEncode path),
          isTargetByte_of_encoded (isEncoded_signedDecimal offset)]
        decide

end PathRequest

/-- `curl_easy_escape`, when it succeeds, encodes every byte that is not unreserved. -/
def Escapes {σ : Type} (curl : Curl σ) : Prop :=
  ∀ text host escaped, (curl.easyEscape text host).1 = some escaped →
    escaped = percentEncode text

open Routine ClientM in
theorem triple_escapedEndpoint {σ : Type} {curl : Curl σ} (escapes : Escapes curl)
    {path : Bytes} {format : Bytes → Bytes} {endpointSize : Nat} :
    Triple (fun _ => True) (buildEndpoint curl path format endpointSize)
      (fun endpoint _ => ∀ text, endpoint = some text →
        text = format (percentEncode path) ∧ text.length < endpointSize)
      (fun _ => False) := by
  have initialise : Triple (fun _ => True) (ask curl.easyInit) (fun _ _ => True)
      (fun _ => False) := triple_ask fun _ _ _ _ => trivial
  apply triple_bind initialise
  intro initialised
  apply triple_ite
  · intro _
    have escape : Triple (fun _ => True) (ask (curl.easyEscape path))
        (fun escapedPath _ => ∀ escaped, escapedPath = some escaped →
          escaped = percentEncode path) (fun _ => False) := by
      apply triple_call
      intro state _ escaped isEscaped
      exact escapes path state.host escaped isEscaped
    apply triple_bind escape
    intro escapedPath
    cases escapedPath with
    | none => exact triple_pure fun _ _ => by simp
    | some escapedPath =>
        apply triple_pure
        intro _ isEscaped text built
        obtain rfl := isEscaped escapedPath rfl
        split at built
        · next fits =>
          cases built
          exact ⟨rfl, fits⟩
        · contradiction
  · intro _
    exact triple_pure fun _ _ => by simp

def HasNoPath (baseUrl : Bytes) : Prop :=
  ∃ scheme authority, baseUrl = scheme ++ ascii "://" ++ authority ∧ byte ':' ∉ scheme ∧
    ∀ c ∈ authority, c ≠ byte '/' ∧ c ≠ byte '?' ∧ c ≠ byte '#'

/-- The part of a URL that goes into the request line. -/
def urlTarget (url : Bytes) : Bytes :=
  ((behind (ascii "://") url).getD url).dropWhile fun c => c != byte '/'

theorem urlTarget_append {baseUrl target : Bytes} (hasNoPath : HasNoPath baseUrl)
    (slash : target.head? = some (byte '/')) : urlTarget (baseUrl ++ target) = target := by
  obtain ⟨scheme, authority, rfl, noColon, noSlash⟩ := hasNoPath
  have found : strstr (ascii "://") (scheme ++ (ascii "://" ++ (authority ++ target))) =
      some (ascii "://" ++ (authority ++ target)) := by
    have avoids : Avoids (ascii "://") scheme (ascii "://" ++ (authority ++ target)) :=
      avoids_of_not_mem noColon
    rw [strstr_append avoids, strstr_leading (List.prefix_append _ _)]
  have start : target.dropWhile (fun c => c != byte '/') = target := by
    cases target with
    | nil => rfl
    | cons c rest =>
        obtain rfl : c = byte '/' := by simpa using slash
        simp
  rw [urlTarget, behind, List.append_assoc, List.append_assoc, found]
  simp only [Option.map_some, Option.getD_some, List.drop_left]
  rw [List.dropWhile_append_of_pos, start]
  intro c member
  simpa using (noSlash c member).1

def requestLine (method target : Bytes) : Bytes :=
  method ++ ascii " " ++ target ++ ascii " HTTP/1.1"

namespace PathRequest

def InRange (request : PathRequest) : Prop :=
  ∀ number ∈ request.numbers, 0 ≤ number.2 ∧ number.2 ≤ longMax

/-- What the provider finds in a query is what the request put there: its path and its
numbers, each once, and nothing else. -/
structure FoundIn (request : PathRequest) (path query : Bytes) : Prop where
  path : queryValue query (ascii "path") 2048 = some path
  numbers : ∀ number ∈ request.numbers, ∃ text,
    queryValue query number.1 64 = some text ∧ (strtol text).value = number.2
  others : ∀ key outputSize, key ≠ ascii "path" →
    (∀ number ∈ request.numbers, number.1 ≠ key) → queryValue query key outputSize = none

theorem foundIn_joinQuery {request : PathRequest} {path : Bytes} (noNul : 0 ∉ path)
    (inRange : request.InRange) (short : (percentEncode path).length < 2048) :
    request.FoundIn path (joinQuery (request.parameters path)) := by
  have wellFormed := request.parameters_wellFormed path
  have pathLength := length_le_percentEncode path
  constructor
  · exact queryValue_encoded wellFormed rfl noNul (by omega) short
  · intro number member
    obtain ⟨notNegative, upper⟩ := inRange number member
    have lower : longMin ≤ number.2 := by
      simp only [longMin]
      omega
    exact queryValue_number wellFormed (find_number member) lower upper
  · intro key outputSize notPath foreign
    have absent : ((request.parameters path).find? fun parameter => parameter.1 == key) =
        none := by
      rw [List.find?_eq_none]
      intro parameter member
      rw [beq_iff_eq]
      obtain rfl | inNumbers := List.mem_cons.mp member
      · exact fun same => notPath same.symm
      · obtain ⟨number, isNumber, rfl⟩ := List.mem_map.mp inNumbers
        exact foreign number isNumber
    rw [queryValue_joinQuery wellFormed.ne_nil wellFormed.names wellFormed.values, absent]
    rfl

theorem mark_not_mem_endpoint (request : PathRequest) : byte '?' ∉ request.endpoint := by
  cases request <;> simp only [endpoint] <;> decide

theorem isMethod (request : PathRequest) : Word 7 request.method := by
  have getOrPost : request.method = ascii "GET" ∨ request.method = ascii "POST" := by
    cases request <;> simp [method]
  obtain isGet | isPost := getOrPost
  · rw [isGet]
    exact ⟨by decide, by decide, by decide, by decide⟩
  · rw [isPost]
    exact ⟨by decide, by decide, by decide, by decide⟩

theorem length_le_format (request : PathRequest) (escapedPath : Bytes) :
    escapedPath.length ≤ (request.format escapedPath).length := by
  cases request <;>
    simp only [format, simpleGetEndpoint, readEndpoint, writeEndpoint, List.length_append] <;>
    omega

/-- The provider's decoder is inverse to the three functions that build an endpoint. -/
theorem foundIn_requestLine {σ : Type} {curl : Curl σ} (escapes : Escapes curl)
    {request : PathRequest} {baseUrl path target : Bytes} (hasNoPath : HasNoPath baseUrl)
    (noNul : 0 ∉ path) (inRange : request.InRange) {before after : ClientState σ}
    (built : request.build curl path before = (some (some target), after)) :
    ∃ query, parseRequestLine (requestLine request.method (urlTarget (baseUrl ++ target))) =
        some ⟨request.method, request.endpoint, query⟩ ∧
      request.FoundIn path query := by
  have outcome := @triple_escapedEndpoint _ _ escapes path request.format 1024 before trivial
  rw [← build_eq, built] at outcome
  obtain ⟨rfl, fits⟩ := outcome target rfl
  have isTarget := request.isTarget path fits
  have short : (percentEncode path).length < 2048 := by
    have part := request.length_le_format (percentEncode path)
    omega
  have slash : (request.format (percentEncode path)).head? = some (byte '/') := by
    rw [format_percentEncode]
    cases request <;> rfl
  refine ⟨joinQuery (request.parameters path), ?_, foundIn_joinQuery noNul inRange short⟩
  rw [format_percentEncode] at isTarget
  rw [urlTarget_append hasNoPath slash, format_percentEncode]
  exact parseRequestLine_words request.isMethod isTarget request.mark_not_mem_endpoint

theorem foundIn_hostileRead :
    let target := readEndpoint 5 7 (percentEncode (ascii "/a&size=9 +%?"))
    ∃ query, parseRequestLine (requestLine (ascii "GET")
        (urlTarget (localClient.baseUrl ++ target))) =
          some ⟨ascii "GET", ascii "/v1/read", query⟩ ∧
      (readFile 5 7).FoundIn (ascii "/a&size=9 +%?") query := by
  have escapes : Escapes localCurl := by
    intro text host escaped isEscaped
    exact (Option.some.inj isEscaped).symm
  have hasNoPath : HasNoPath localClient.baseUrl :=
    ⟨ascii "http", ascii "localhost:8080", by decide, by decide, by decide⟩
  have inRange : (readFile 5 7).InRange := by
    intro number member
    simp only [numbers, List.mem_cons, List.not_mem_nil, or_false] at member
    obtain rfl | rfl := member <;> decide
  have built : (readFile 5 7).build localCurl (ascii "/a&size=9 +%?")
      (.start (.calm []) []) =
        (some (some (readEndpoint 5 7 (percentEncode (ascii "/a&size=9 +%?")))),
          .start (.calm []) []) := by rfl
  exact foundIn_requestLine escapes hasNoPath (by decide) inRange built

end PathRequest

end HttpFs
