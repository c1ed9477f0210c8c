import HttpFs.Foundation.Numeral
import HttpFs.Jsmn.Tokenizer
import HttpFs.Protocol

namespace HttpFs

/-- `json[token->start .. token->end)`; `none` when the token has no such range. -/
def tokenText (json : Bytes) (token : JsmnToken) : Option Bytes :=
  match token.stop with
  | none => none
  | some stop =>
      if stop < token.start then
        none
      else
        some ((json.drop token.start).take (stop - token.start))

def tokenEquals (json : Bytes) (token : JsmnToken) (value : Bytes) : Bool :=
  tokenText json token == some value

def tokenToString (json : Bytes) (token : JsmnToken) (outputSize : Nat) :
    Option Bytes :=
  match tokenText json token with
  | none => none
  | some text => if text.length + 1 > outputSize then none else some text

/-- `token_to_long`: what is in `*value` afterwards, and whether it returns 0.
`*value` is overwritten as soon as the token fits the local buffer. -/
def tokenToLong (json : Bytes) (token : JsmnToken) (value : Int) : Int × Bool :=
  match tokenToString json token 64 with
  | none => (value, false)
  | some buffer =>
      let conversion := strtol buffer
      (conversion.value,
        conversion.rest.length != buffer.length && conversion.rest == [])

/-- `token->start < end`. -/
def startsBefore (stop : Option Nat) (token : JsmnToken) : Bool :=
  match stop with
  | none => false
  | some stop => token.start < stop

/-- An index past the last token has no end; the loop does not run then. -/
def nextTokenIndex (tokens : List JsmnToken) (index : Nat) : Nat :=
  let stop := tokens[index]?.bind fun token => token.stop
  index + 1 + ((tokens.drop (index + 1)).takeWhile (startsBefore stop)).length

/-- The loop of `find_object_value` at index `i`, on the tokens from there on, of
which the next `skip` have been passed over. -/
def findObjectValueLoop (json : Bytes) (tokens : List JsmnToken) (objectIndex : Nat)
    (stop : Option Nat) (key : Bytes) : List JsmnToken → Nat → Nat → Option Nat
  | [], _, _ => none
  | _ :: rest, skip + 1, i =>
      findObjectValueLoop json tokens objectIndex stop key rest skip (i + 1)
  | token :: rest, 0, i =>
      if !startsBefore stop token then
        none
      else if token.parent = some objectIndex ∧ token.type = .string then
        if tokenEquals json token key then
          if i + 1 < tokens.length then some (i + 1) else none
        else
          findObjectValueLoop json tokens objectIndex stop key rest
            (nextTokenIndex tokens (i + 1) - (i + 1)) (i + 1)
      else
        findObjectValueLoop json tokens objectIndex stop key rest 0 (i + 1)

def findObjectValue (json : Bytes) (tokens : List JsmnToken) (objectIndex : Nat)
    (key : Bytes) : Option Nat :=
  findObjectValueLoop json tokens objectIndex
    (tokens[objectIndex]?.bind fun token => token.stop) key
    (tokens.drop (objectIndex + 1)) 0 (objectIndex + 1)

/-- `find_object_value` together with the token at the index it returns. -/
def findToken (json : Bytes) (tokens : List JsmnToken) (objectIndex : Nat)
    (key : Bytes) : Option JsmnToken :=
  (findObjectValue json tokens objectIndex key).bind fun index => tokens[index]?

/-- `token_to_long` for a caller that gives up when it fails. -/
def tokenLong? (json : Bytes) (token : JsmnToken) : Option Int :=
  let (value, ok) := tokenToLong json token 0
  if ok then some value else none

def parseMetaObject (json : Bytes) (tokens : List JsmnToken) (metaIndex : Nat) :
    Option HttpfsMeta := do
  let pathToken ← findToken json tokens metaIndex (ascii "path")
  let typeToken ← findToken json tokens metaIndex (ascii "type")
  let modeToken ← findToken json tokens metaIndex (ascii "mode")
  let sizeToken ← findToken json tokens metaIndex (ascii "size")
  let uidToken ← findToken json tokens metaIndex (ascii "uid")
  let gidToken ← findToken json tokens metaIndex (ascii "gid")
  let nlinkToken ← findToken json tokens metaIndex (ascii "nlink")
  let atimeToken ← findToken json tokens metaIndex (ascii "atime")
  let mtimeToken ← findToken json tokens metaIndex (ascii "mtime")
  let ctimeToken ← findToken json tokens metaIndex (ascii "ctime")
  let path ← tokenToString json pathToken HTTPFS_MAX_PATH
  let type ← tokenToString json typeToken 8
  let mode ← tokenLong? json modeToken
  let size ← tokenLong? json sizeToken
  let uid ← tokenLong? json uidToken
  let gid ← tokenLong? json gidToken
  let nlink ← tokenLong? json nlinkToken
  let atime ← tokenLong? json atimeToken
  let mtime ← tokenLong? json mtimeToken
  let ctime ← tokenLong? json ctimeToken
  return {
    path, type
    mode := UInt32.ofInt mode
    size := Int64.ofInt size
    uid := UInt32.ofInt uid
    gid := UInt32.ofInt gid
    nlink := UInt64.ofInt nlink
    atime := Int64.ofInt atime
    mtime := Int64.ofInt mtime
    ctime := Int64.ofInt ctime }

theorem parseMetaObject_some {json : Bytes} {tokens : List JsmnToken} {metaIndex : Nat}
    {meta_ : HttpfsMeta} (parsed : parseMetaObject json tokens metaIndex = some meta_) :
    (∃ token, findToken json tokens metaIndex (ascii "path") = some token ∧
      tokenToString json token HTTPFS_MAX_PATH = some meta_.path) ∧
    (∃ token, findToken json tokens metaIndex (ascii "type") = some token ∧
      tokenToString json token 8 = some meta_.type) ∧
    (∃ token number, findToken json tokens metaIndex (ascii "mode") = some token ∧
      tokenLong? json token = some number ∧ meta_.mode = UInt32.ofInt number) ∧
    (∃ token number, findToken json tokens metaIndex (ascii "size") = some token ∧
      tokenLong? json token = some number ∧ meta_.size = Int64.ofInt number) ∧
    (∃ token number, findToken json tokens metaIndex (ascii "uid") = some token ∧
      tokenLong? json token = some number ∧ meta_.uid = UInt32.ofInt number) ∧
    (∃ token number, findToken json tokens metaIndex (ascii "gid") = some token ∧
      tokenLong? json token = some number ∧ meta_.gid = UInt32.ofInt number) ∧
    (∃ token number, findToken json tokens metaIndex (ascii "nlink") = some token ∧
      tokenLong? json token = some number ∧ meta_.nlink = UInt64.ofInt number) ∧
    (∃ token number, findToken json tokens metaIndex (ascii "atime") = some token ∧
      tokenLong? json token = some number ∧ meta_.atime = Int64.ofInt number) ∧
    (∃ token number, findToken json tokens metaIndex (ascii "mtime") = some token ∧
      tokenLong? json token = some number ∧ meta_.mtime = Int64.ofInt number) ∧
    (∃ token number, findToken json tokens metaIndex (ascii "ctime") = some token ∧
      tokenLong? json token = some number ∧ meta_.ctime = Int64.ofInt number) := by
  obtain ⟨pathToken, pathFound, parsed⟩ := Option.bind_eq_some_iff.mp parsed
  obtain ⟨typeToken, typeFound, parsed⟩ := Option.bind_eq_some_iff.mp parsed
  obtain ⟨modeToken, modeFound, parsed⟩ := Option.bind_eq_some_iff.mp parsed
  obtain ⟨sizeToken, sizeFound, parsed⟩ := Option.bind_eq_some_iff.mp parsed
  obtain ⟨uidToken, uidFound, parsed⟩ := Option.bind_eq_some_iff.mp parsed
  obtain ⟨gidToken, gidFound, parsed⟩ := Option.bind_eq_some_iff.mp parsed
  obtain ⟨nlinkToken, nlinkFound, parsed⟩ := Option.bind_eq_some_iff.mp parsed
  obtain ⟨atimeToken, atimeFound, parsed⟩ := Option.bind_eq_some_iff.mp parsed
  obtain ⟨mtimeToken, mtimeFound, parsed⟩ := Option.bind_eq_some_iff.mp parsed
  obtain ⟨ctimeToken, ctimeFound, parsed⟩ := Option.bind_eq_some_iff.mp parsed
  obtain ⟨path, isPath, parsed⟩ := Option.bind_eq_some_iff.mp parsed
  obtain ⟨type, isType, parsed⟩ := Option.bind_eq_some_iff.mp parsed
  obtain ⟨mode, isMode, parsed⟩ := Option.bind_eq_some_iff.mp parsed
  obtain ⟨size, isSize, parsed⟩ := Option.bind_eq_some_iff.mp parsed
  obtain ⟨uid, isUid, parsed⟩ := Option.bind_eq_some_iff.mp parsed
  obtain ⟨gid, isGid, parsed⟩ := Option.bind_eq_some_iff.mp parsed
  obtain ⟨nlink, isNlink, parsed⟩ := Option.bind_eq_some_iff.mp parsed
  obtain ⟨atime, isAtime, parsed⟩ := Option.bind_eq_some_iff.mp parsed
  obtain ⟨mtime, isMtime, parsed⟩ := Option.bind_eq_some_iff.mp parsed
  obtain ⟨ctime, isCtime, parsed⟩ := Option.bind_eq_some_iff.mp parsed
  cases parsed
  exact ⟨⟨pathToken, pathFound, isPath⟩, ⟨typeToken, typeFound, isType⟩,
    ⟨modeToken, mode, modeFound, isMode, rfl⟩,
    ⟨sizeToken, size, sizeFound, isSize, rfl⟩,
    ⟨uidToken, uid, uidFound, isUid, rfl⟩,
    ⟨gidToken, gid, gidFound, isGid, rfl⟩,
    ⟨nlinkToken, nlink, nlinkFound, isNlink, rfl⟩,
    ⟨atimeToken, atime, atimeFound, isAtime, rfl⟩,
    ⟨mtimeToken, mtime, mtimeFound, isMtime, rfl⟩,
    ⟨ctimeToken, ctime, ctimeFound, isCtime, rfl⟩⟩

end HttpFs
