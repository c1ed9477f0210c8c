import HttpFs.Client.OkDocuments
import HttpFs.EndToEnd.Messages
import HttpFs.Jsmn.Persistence

namespace HttpFs

open CProvider Json

def statType (status : Stat) : Bytes :=
  if isDirectory status then ascii "dir" else ascii "file"

def servedMeta (path : Bytes) (status : Stat) : HttpfsMeta where
  path := path
  type := statType status
  mode := status.mode
  size := status.size
  uid := status.uid
  gid := status.gid
  nlink := status.nlink
  atime := status.atime
  mtime := status.mtime
  ctime := status.ctime

/-- `parse_ok_response`, `find_object_value` and `parse_meta_object` on a reply. -/
def readMeta (json : Bytes) : Option HttpfsMeta :=
  match parseOkResponse json with
  | .error _ => none
  | .ok tokens =>
      (findObjectValue json tokens 0 (ascii "meta")).bind (parseMetaObject json tokens)

private def member (key : String) (value : Value) (rest : Members) : Members :=
  .cons [] (ascii key) [] [] value [] rest

def metaMembers (path : Bytes) (status : Stat) : Members :=
  member "path" (.string path) (member "type" (.string (statType status))
    (member "mode" (.primitive (signedDecimal status.mode.toNat))
      (member "size" (.primitive (signedDecimal status.size.toInt))
        (member "uid" (.primitive (signedDecimal status.uid.toNat))
          (member "gid" (.primitive (signedDecimal status.gid.toNat))
            (member "nlink" (.primitive (signedDecimal status.nlink.toNat))
              (member "atime" (.primitive (signedDecimal status.atime.toInt))
                (member "mtime" (.primitive (signedDecimal status.mtime.toInt))
                  (member "ctime" (.primitive (signedDecimal status.ctime.toInt))
                    (.nil []))))))))))

def metaReply (path : Bytes) (status : Stat) : Members :=
  member "status" (.string (ascii "ok"))
    (member "meta" (.object (metaMembers path status)) (.nil []))

theorem metaReply_text (path : Bytes) (status : Stat) :
    (Value.object (metaReply path status)).text =
      ascii "\x7b\"status\":\"ok\",\"meta\":\x7b\"path\":\"" ++ path ++
        ascii "\",\"type\":\"" ++ statType status ++
        ascii "\",\"mode\":" ++ decimal status.mode.toNat ++
        ascii ",\"size\":" ++ signedDecimal status.size.toInt ++
        ascii ",\"uid\":" ++ decimal status.uid.toNat ++
        ascii ",\"gid\":" ++ decimal status.gid.toNat ++
        ascii ",\"nlink\":" ++ decimal status.nlink.toNat ++
        ascii ",\"atime\":" ++ signedDecimal status.atime.toInt ++
        ascii ",\"mtime\":" ++ signedDecimal status.mtime.toInt ++
        ascii ",\"ctime\":" ++ signedDecimal status.ctime.toInt ++ ascii "\x7d\x7d" := by
  simp [Value.text, metaReply, metaMembers, member, Members.text, Members.separator, quoted,
    ascii, byte, signedDecimal]

theorem statToJson_eq (path : Bytes) (status : Stat) :
    statToJson path status (path.length + 256) = (Value.object (metaReply path status)).text := by
  rw [statToJson_stored, (statCall_fits path status).stored_eq, metaReply_text]
  simp [statCall, FormatCall.whole, Piece.print, statType]

theorem metaMembers_scannable {path : Bytes} (body : isStringBody .plain path = true)
    (status : Stat) : Scannable (.object (metaMembers path status)) := by
  have type : isStringBody .plain (statType status) = true := by
    unfold statType
    split <;> decide
  have number (value : Int) : isPrimitiveBody (signedDecimal value) = true :=
    isPrimitiveBody_signedDecimal value
  exact ⟨rfl, by decide, rfl, rfl, body, rfl, rfl, by decide, rfl, rfl, type, rfl,
    rfl, by decide, rfl, rfl, number _, rfl, rfl, by decide, rfl, rfl, number _, rfl,
    rfl, by decide, rfl, rfl, number _, rfl, rfl, by decide, rfl, rfl, number _, rfl,
    rfl, by decide, rfl, rfl, number _, rfl, rfl, by decide, rfl, rfl, number _, rfl,
    rfl, by decide, rfl, rfl, number _, rfl, rfl, by decide, rfl, rfl, number _, rfl, rfl⟩

theorem metaReply_scannable {path : Bytes} (body : isStringBody .plain path = true)
    (status : Stat) : Scannable (.object (metaReply path status)) := by
  have ok : isStringBody .plain (ascii "ok") = true := by decide
  exact ⟨rfl, by decide, rfl, rfl, ok, rfl, rfl, by decide, rfl, rfl,
    metaMembers_scannable body status, rfl, rfl⟩

private theorem longToken {json : Bytes} {tokens : List JsmnToken} {index : Nat}
    {members : Members} (placed : Placed json tokens (.object members) index)
    (scannable : Scannable (.object members)) {key : Bytes} {value : Int}
    (present : members.find key = some (.primitive (signedDecimal value)))
    (lower : longMin ≤ value) (upper : value ≤ longMax) :
    ∃ token, findToken json tokens index key = some token ∧
      tokenLong? json token = some value := by
  obtain ⟨token, found, isText⟩ := findToken_some placed scannable present
  exact ⟨token, found, tokenLong?_of_text isText lower upper⟩

private theorem ofInt_word (value : UInt32) : UInt32.ofInt value.toNat = value := by
  have bound := value.toNat_lt
  have reduced : ((value.toNat : Int) % 2 ^ 32).toNat = value.toNat := by omega
  rw [UInt32.ofInt, reduced, UInt32.ofNat_toNat]

private theorem ofInt_doubleWord (value : UInt64) : UInt64.ofInt value.toNat = value := by
  have bound := value.toNat_lt
  have reduced : ((value.toNat : Int) % 2 ^ 64).toNat = value.toNat := by omega
  rw [UInt64.ofInt, reduced, UInt64.ofNat_toNat]

theorem parseMetaObject_placed {json path : Bytes} {tokens : List JsmnToken} {index : Nat}
    {status : Stat} (body : isStringBody .plain path = true)
    (short : path.length < HTTPFS_MAX_PATH) (links : status.nlink.toNat < 2 ^ 63)
    (placed : Placed json tokens (.object (metaMembers path status)) index) :
    parseMetaObject json tokens index = some (servedMeta path status) := by
  have scannable := metaMembers_scannable body status
  have linkCount : longMin ≤ (status.nlink.toNat : Int) ∧
      (status.nlink.toNat : Int) ≤ longMax := by
    simp only [longMin, longMax]
    omega
  obtain ⟨pathToken, pathFound, pathText⟩ := @findToken_some _ _ _ _ (ascii "path")
    (.string path) placed scannable rfl
  obtain ⟨typeToken, typeFound, typeText⟩ := @findToken_some _ _ _ _ (ascii "type")
    (.string (statType status)) placed scannable rfl
  have typeShort : (statType status).length < 8 := by
    unfold statType
    split <;> decide
  obtain ⟨modeToken, modeFound, mode⟩ := @longToken _ _ _ _ placed scannable (ascii "mode")
    _ rfl (uint32_long status.mode).1 (uint32_long status.mode).2
  obtain ⟨sizeToken, sizeFound, size⟩ := @longToken _ _ _ _ placed scannable (ascii "size")
    _ rfl (int64_long status.size).1 (int64_long status.size).2
  obtain ⟨uidToken, uidFound, uid⟩ := @longToken _ _ _ _ placed scannable (ascii "uid")
    _ rfl (uint32_long status.uid).1 (uint32_long status.uid).2
  obtain ⟨gidToken, gidFound, gid⟩ := @longToken _ _ _ _ placed scannable (ascii "gid")
    _ rfl (uint32_long status.gid).1 (uint32_long status.gid).2
  obtain ⟨nlinkToken, nlinkFound, nlink⟩ := @longToken _ _ _ _ placed scannable
    (ascii "nlink") _ rfl linkCount.1 linkCount.2
  obtain ⟨atimeToken, atimeFound, atime⟩ := @longToken _ _ _ _ placed scannable
    (ascii "atime") _ rfl (int64_long status.atime).1 (int64_long status.atime).2
  obtain ⟨mtimeToken, mtimeFound, mtime⟩ := @longToken _ _ _ _ placed scannable
    (ascii "mtime") _ rfl (int64_long status.mtime).1 (int64_long status.mtime).2
  obtain ⟨ctimeToken, ctimeFound, ctime⟩ := @longToken _ _ _ _ placed scannable
    (ascii "ctime") _ rfl (int64_long status.ctime).1 (int64_long status.ctime).2
  simp only [parseMetaObject, pathFound, typeFound, modeFound, sizeFound, uidFound, gidFound,
    nlinkFound, atimeFound, mtimeFound, ctimeFound, mode, size, uid, gid, nlink, atime, mtime,
    ctime, tokenToString_of_text pathText short, tokenToString_of_text typeText typeShort,
    Option.bind_eq_bind, Option.bind_some, Option.pure_def]
  simp [servedMeta, Value.content, ofInt_word, ofInt_doubleWord]

theorem readMeta_body {path : Bytes} {status : Stat} (body : isStringBody .plain path = true)
    (short : path.length < HTTPFS_MAX_PATH) (links : status.nlink.toNat < 2 ^ 63) :
    readMeta (statToJson path status (path.length + 256)) = some (servedMeta path status) := by
  have scannable := metaReply_scannable body status
  obtain ⟨tokens, parsed, placed⟩ := @parseOkResponse_document _ scannable rfl
    (show 25 ≤ OK_RESPONSE_TOKENS by decide) [] [] rfl rfl
  rw [List.nil_append, List.append_nil] at parsed placed
  rw [statToJson_eq, readMeta, parsed]
  obtain ⟨absent, _⟩ | ⟨value, index, found, _, indexed, metaPlaced⟩ :=
    findObjectValue_placed (ascii "meta") placed scannable
  · contradiction
  · obtain rfl : Value.object (metaMembers path status) = value := Option.some.inj found
    simp only [indexed, Option.bind_some]
    exact parseMetaObject_placed body short links metaPlaced

/-! A reply whose path is not the inside of one JSON string. -/

def metaHead : Bytes := ascii "\x7b\"status\":\"ok\",\"meta\":\x7b\"path\":"

def headTokens : List JsmnToken := [⟨.object, 0, none, none⟩, ⟨.string, 2, some 8, some 0⟩,
  ⟨.string, 11, some 13, some 0⟩, ⟨.string, 16, some 20, some 0⟩,
  ⟨.object, 22, none, some 0⟩, ⟨.string, 24, some 28, some 4⟩]

theorem jsmnParse_metaHead (rest : Bytes) :
    jsmnParse OK_RESPONSE_TOKENS (metaHead ++ rest) =
      jsmnLoop OK_RESPONSE_TOKENS rest 0 ⟨30, headTokens, some 4⟩ :=
  rfl

theorem parseOkResponse_ok {json : Bytes} {tokens : List JsmnToken}
    (parsed : parseOkResponse json = .ok tokens) :
    (jsmnParse OK_RESPONSE_TOKENS json).error = none ∧
      (jsmnParse OK_RESPONSE_TOKENS json).parser.tokens = tokens := by
  simp only [parseOkResponse, parseResponseTokens] at parsed
  cases error : (jsmnParse OK_RESPONSE_TOKENS json).error with
  | some error => simp [error, bind, Except.bind] at parsed
  | none =>
      refine ⟨rfl, ?_⟩
      simp only [error, Option.isSome_none, Bool.false_eq_true, if_false] at parsed
      cases root : (jsmnParse OK_RESPONSE_TOKENS json).parser.tokens.head? with
      | none => simp [root, bind, Except.bind] at parsed
      | some token =>
          simp only [root] at parsed
          split at parsed
          · cases accepted : parseStatusOrError json
                (jsmnParse OK_RESPONSE_TOKENS json).parser.tokens with
            | error error => simp [accepted, bind, Except.bind] at parsed
            | ok _ =>
                simp only [accepted, bind, Except.bind, pure, Except.pure,
                  Except.ok.injEq] at parsed
                exact parsed
          · simp [bind, Except.bind] at parsed

section Find

variable {json key : Bytes} {tokens rest : List JsmnToken} {objectIndex i index : Nat}
  {stop : Option Nat} {token : JsmnToken}

theorem findObjectValueLoop_match (child : token.parent = some objectIndex)
    (isString : token.type = .string) (equals : tokenEquals json token key = true)
    (found : findObjectValueLoop json tokens objectIndex stop key (token :: rest) 0 i =
      some index) : index = i + 1 := by
  rw [findObjectValueLoop] at found
  split at found
  · contradiction
  · simp only [child, isString, and_self, if_true] at found
    split at found
    · exact (Option.some.inj found).symm
    · contradiction

theorem findObjectValueLoop_pass (child : token.parent = some objectIndex)
    (isString : token.type = .string) (differs : tokenEquals json token key = false)
    (found : findObjectValueLoop json tokens objectIndex stop key (token :: rest) 0 i =
      some index) :
    findObjectValueLoop json tokens objectIndex stop key rest
      (nextTokenIndex tokens (i + 1) - (i + 1)) (i + 1) = some index := by
  rw [findObjectValueLoop] at found
  split at found
  · contradiction
  · simp only [child, isString, differs, and_self, if_true, Bool.false_eq_true,
      if_false] at found
    exact found

end Find

/-- The path that the client reads ends at the first quote that closes the string. -/
theorem readMeta_path {text : Bytes} {meta_ : HttpfsMeta}
    (read : readMeta (metaHead ++ byte '"' :: text) = some meta_) :
    ∃ length, stringLength .plain text = .ok length ∧ meta_.path = text.take length := by
  obtain ⟨json, isJson⟩ : ∃ json, json = metaHead ++ byte '"' :: text := ⟨_, rfl⟩
  rw [← isJson] at read
  simp only [readMeta] at read
  split at read
  · contradiction
  next tokens parsed =>
  obtain ⟨noError, isTokens⟩ := parseOkResponse_ok parsed
  rw [isJson, jsmnParse_metaHead] at noError isTokens
  simp only [jsmnLoop, jsmnStep, show opens (byte '"') = none by decide,
    show closes (byte '"') = none by decide, if_true, jsmnParseString] at noError isTokens
  cases scanned : stringLength .plain text with
  | error error => simp [scanned] at noError
  | ok length =>
      refine ⟨length, rfl, ?_⟩
      simp only [scanned, @jsmnAllocToken_room OK_RESPONSE_TOKENS ⟨30, headTokens, some 4⟩
        (by decide), Except.map] at noError isTokens
      have closed := jsmnLoop_closed noError
      have grows := @jsmnLoop_grows OK_RESPONSE_TOKENS text (length + 1)
        ⟨31, headTokens ++ [⟨.string, 31, some (31 + length), some 4⟩], some 4⟩
      change (jsmnLoop OK_RESPONSE_TOKENS text (length + 1)
        ⟨31, headTokens ++ [⟨.string, 31, some (31 + length), some 4⟩], some 4⟩).parser.tokens =
          tokens at isTokens
      rw [isTokens] at grows
      have closed : ∀ token ∈ tokens, token.stop ≠ none := isTokens ▸ closed
      obtain ⟨root, tokens, rfl, becomesRoot, grows⟩ := grows.cons
      obtain ⟨statusKey, tokens, rfl, becomesStatusKey, grows⟩ := grows.cons
      obtain ⟨statusValue, tokens, rfl, becomesStatusValue, grows⟩ := grows.cons
      obtain ⟨metaKey, tokens, rfl, becomesMetaKey, grows⟩ := grows.cons
      obtain ⟨metaValue, tokens, rfl, becomesMetaValue, grows⟩ := grows.cons
      obtain ⟨pathKey, tokens, rfl, becomesPathKey, grows⟩ := grows.cons
      obtain ⟨pathValue, tokens, rfl, becomesPathValue, grows⟩ := grows.cons
      obtain rfl := becomesStatusKey.closed rfl
      obtain rfl := becomesStatusValue.closed rfl
      obtain rfl := becomesMetaKey.closed rfl
      obtain rfl := becomesPathKey.closed rfl
      obtain rfl := becomesPathValue.closed rfl
      obtain ⟨metaIndex, found, parsedMeta⟩ := Option.bind_eq_some_iff.mp read
      have isMeta : tokenEquals json ⟨.string, 16, some 20, some 0⟩ (ascii "meta") = true := by
        rw [isJson]
        rfl
      have isStatus : tokenEquals json ⟨.string, 2, some 8, some 0⟩ (ascii "meta") = false := by
        rw [isJson]
        rfl
      have isPath : tokenEquals json ⟨.string, 24, some 28, some 4⟩ (ascii "path") = true := by
        rw [isJson]
        rfl
      obtain rfl := findObjectValueLoop_match rfl rfl isMeta
        (findObjectValueLoop_pass rfl rfl isStatus found)
      obtain ⟨⟨pathToken, pathFound, copied⟩, _⟩ := parseMetaObject_some parsedMeta
      obtain ⟨pathIndex, indexed, isToken⟩ := Option.bind_eq_some_iff.mp pathFound
      obtain rfl := findObjectValueLoop_match rfl rfl isPath indexed
      cases isToken
      have isText : tokenText json ⟨.string, 31, some (31 + length), some 4⟩ =
          some (text.take length) := by
        rw [isJson]
        change (if 31 + length < 31 then none else
          some (text.take (31 + length - 31))) = some (text.take length)
        rw [if_neg (by omega), Nat.add_sub_cancel_left]
      simp only [tokenToString, isText] at copied
      split at copied
      · contradiction
      · exact (Option.some.inj copied).symm

theorem length_lt_of_resolvePath {rootDir path localPath : Bytes}
    (resolved : resolvePath rootDir path 4096 = some localPath) :
    path.length < HTTPFS_MAX_PATH := by
  simp only [resolvePath] at resolved
  split at resolved
  · contradiction
  · split at resolved
    · next isRoot =>
      rw [isRoot]
      decide
    · split at resolved
      · contradiction
      · split at resolved
        · next fits =>
          rw [List.length_append] at fits
          simp only [HTTPFS_MAX_PATH]
          omega
        · contradiction

/-- The client gets the served fields back just when the path, put between the quotes as
it is, is read as one JSON string. -/
theorem readMeta_served_iff {rootDir path localPath : Bytes}
    (resolved : resolvePath rootDir path 4096 = some localPath) (status : Stat)
    (links : status.nlink.toNat < 2 ^ 63) :
    readMeta (statToJson path status (path.length + 256)) = some (servedMeta path status) ↔
      isStringBody .plain path = true := by
  constructor
  · intro read
    obtain ⟨tail, isReply⟩ : ∃ tail, statToJson path status (path.length + 256) =
        metaHead ++ byte '"' :: (path ++ tail) := by
      have split : ascii "\x7b\"status\":\"ok\",\"meta\":\x7b\"path\":\"" =
          metaHead ++ [byte '"'] := by decide
      rw [statToJson_eq, metaReply_text, split]
      simp only [List.append_assoc, List.singleton_append]
      exact ⟨_, rfl⟩
    rw [isReply] at read
    obtain ⟨length, scanned, isPath⟩ := readMeta_path read
    have body := (body_of_stringLength scanned).1
    rw [← isPath] at body
    exact body
  · intro body
    exact readMeta_body body (length_lt_of_resolvePath resolved) links

def plainStatus : Stat where
  mode := 0o100644
  nlink := 1
  size := 5
  uid := 1000
  gid := 1000
  atime := 1700000000
  mtime := 1700000000
  ctime := 1700000000

theorem readMeta_served_plain :
    readMeta (statToJson (ascii "/a.txt") plainStatus ((ascii "/a.txt").length + 256)) =
        some (servedMeta (ascii "/a.txt") plainStatus) ↔
      isStringBody .plain (ascii "/a.txt") = true :=
  @readMeta_served_iff (ascii "/srv") _ (ascii "/srv/a.txt") (by decide) plainStatus (by decide)

/-- A file name that brings a mode of its own. -/
theorem readMeta_forgedMode :
    resolvePath (ascii "/srv") (ascii "/a\",\"mode\":0,\"x\":\"") 4096 =
        some (ascii "/srv/a\",\"mode\":0,\"x\":\"") ∧
      (readMeta (statToJson (ascii "/a\",\"mode\":0,\"x\":\"") plainStatus
        ((ascii "/a\",\"mode\":0,\"x\":\"").length + 256))).map
          (fun served => (served.path, served.mode)) = some (ascii "/a", 0) ∧
      plainStatus.mode ≠ 0 := by
  refine ⟨by decide, by decide +kernel, by decide⟩

end HttpFs
