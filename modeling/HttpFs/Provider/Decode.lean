import HttpFs.Foundation.Numeral
import HttpFs.Protocol

namespace HttpFs

def hexValue (ch : UInt8) : Option UInt8 :=
  if 48 ≤ ch ∧ ch ≤ 57 then some (ch - 48)
  else if 97 ≤ ch ∧ ch ≤ 102 then some (ch - 97 + 10)
  else if 65 ≤ ch ∧ ch ≤ 70 then some (ch - 65 + 10)
  else none

/-- The loop of `url_decode` with the output written so far. -/
def urlDecodeLoop (outputSize : Nat) : Bytes → Bytes → Option Bytes
  | [], output => some output
  | c :: rest, output =>
      if output.length + 1 ≥ outputSize then
        none
      else if c = byte '%' then
        match rest with
        | high :: low :: rest =>
            match hexValue high, hexValue low with
            | some high, some low =>
                urlDecodeLoop outputSize rest (output ++ [(high <<< 4) ||| low])
            | _, _ => none
        | _ => none
      else if c = byte '+' then
        urlDecodeLoop outputSize rest (output ++ [byte ' '])
      else
        urlDecodeLoop outputSize rest (output ++ [c])

def urlDecode (input : Bytes) (outputSize : Nat) : Option Bytes :=
  urlDecodeLoop outputSize input []

/-- The loop of `query_value` over the segments between the `&` of a query. -/
def querySegmentValue (key : Bytes) (outputSize : Nat) : List Bytes → Option Bytes
  | [] => none
  | segment :: rest =>
      let name := segment.takeWhile fun c => c != byte '='
      let encoded := segment.drop (name.length + 1)
      if name.length < segment.length ∧ name = key then
        if encoded.length + 1 > 2048 then none else urlDecode encoded outputSize
      else
        querySegmentValue key outputSize rest

/-- The C string that `query_value` leaves in its output. -/
def queryValue (query key : Bytes) (outputSize : Nat) : Option Bytes :=
  (querySegmentValue key outputSize (query.splitOn (byte '&'))).map cString

/-- The escapes `json_get_string` knows. -/
def jsonUnescape (letter : UInt8) : Option UInt8 :=
  if letter = byte 'n' then some (byte '\n')
  else if letter = byte 'r' then some (byte '\r')
  else if letter = byte 't' then some (byte '\t')
  else if letter = byte '\\' ∨ letter = byte '"' ∨ letter = byte '/' then some letter
  else none

/-- The loop of `json_get_string` with the output written so far; `escaped` holds on
the byte after a backslash. -/
def jsonGetStringLoop (outputSize : Nat) : Bool → Bytes → Bytes → Option Bytes
  | _, [], _ => none
  | true, letter :: rest, output =>
      match jsonUnescape letter with
      | none => none
      | some b =>
          if output.length + 2 ≥ outputSize then
            none
          else
            jsonGetStringLoop outputSize false rest (output ++ [b])
  | false, c :: rest, output =>
      if c = byte '"' then
        some output
      else if c = byte '\\' then
        jsonGetStringLoop outputSize true rest output
      else if output.length + 2 ≥ outputSize then
        none
      else
        jsonGetStringLoop outputSize false rest (output ++ [c])

def behind (pattern text : Bytes) : Option Bytes :=
  (strstr pattern text).map fun start => start.drop pattern.length

def keyPattern (key : Bytes) : Bytes := byte '"' :: (key ++ [byte '"', byte ':'])

def stringPattern (key : Bytes) : Bytes := keyPattern key ++ [byte '"']

def jsonGetString (json key : Bytes) (outputSize : Nat) : Option Bytes :=
  (behind (snprintf 128 (stringPattern key)) json).bind fun start =>
    jsonGetStringLoop outputSize false start []

def jsonGetLong (json key : Bytes) : Option Int :=
  (behind (snprintf 128 (keyPattern key)) json).bind fun start =>
    let conversion := strtol start
    if conversion.rest.length = start.length then none else some conversion.value

/-! What the handlers of the `POST` endpoints read from a body, which the request
buffer ends with a NUL. -/

def decodePath (body : Bytes) : Option Bytes :=
  jsonGetString (cString body) (ascii "path") 2048

def decodePathLong (key body : Bytes) : Option (Bytes × Int) := do
  let path ← decodePath body
  let value ← jsonGetLong (cString body) key
  return (path, value)

def decodeRename (body : Bytes) : Option (Bytes × Bytes) := do
  let oldPath ← jsonGetString (cString body) (ascii "old_path") 2048
  let newPath ← jsonGetString (cString body) (ascii "new_path") 2048
  return (oldPath, newPath)

def decodeUtimens (body : Bytes) : Option (Bytes × Timespec × Timespec) := do
  let path ← decodePath body
  let atimeSec ← jsonGetLong (cString body) (ascii "atime_sec")
  let atimeNsec ← jsonGetLong (cString body) (ascii "atime_nsec")
  let mtimeSec ← jsonGetLong (cString body) (ascii "mtime_sec")
  let mtimeNsec ← jsonGetLong (cString body) (ascii "mtime_nsec")
  return (path, ⟨.ofInt atimeSec, .ofInt atimeNsec⟩, ⟨.ofInt mtimeSec, .ofInt mtimeNsec⟩)

end HttpFs
