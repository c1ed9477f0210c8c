import HttpFs.Foundation.Text

namespace HttpFs

inductive JsmnType where
  | object
  | array
  | string
  | primitive
  deriving Repr, DecidableEq

inductive JsmnError where
  | nomem
  | inval
  | part
  deriving Repr, DecidableEq

/-- `jsmntok_t` without its `size`, which nothing reads. The sentinel `-1` of
`end` and `parent` is `none`; `start` is set as soon as a token is allocated.
Positions are natural numbers, exact for texts shorter than 2^31 bytes. -/
structure JsmnToken where
  type : JsmnType
  start : Nat
  stop : Option Nat
  parent : Option Nat
  deriving Repr, DecidableEq

/-- `jsmn_parser` with the tokens stored so far; `toknext` is their number. -/
structure JsmnParser where
  pos : Nat
  tokens : List JsmnToken
  toksuper : Option Nat
  deriving Repr, DecidableEq

def jsmnInit : JsmnParser := ⟨0, [], none⟩

def jsmnAllocToken (numTokens : Nat) (parser : JsmnParser) (token : JsmnToken) :
    Except JsmnError JsmnParser :=
  if parser.tokens.length ≥ numTokens then
    .error .nomem
  else
    .ok { parser with tokens := parser.tokens ++ [token] }

theorem jsmnAllocToken_full {numTokens : Nat} {parser : JsmnParser}
    (full : numTokens ≤ parser.tokens.length) (token : JsmnToken) :
    jsmnAllocToken numTokens parser token = .error .nomem :=
  if_pos full

theorem jsmnAllocToken_room {numTokens : Nat} {parser : JsmnParser}
    (room : parser.tokens.length < numTokens) (token : JsmnToken) :
    jsmnAllocToken numTokens parser token =
      .ok { parser with tokens := parser.tokens ++ [token] } :=
  if_neg (Nat.not_le.mpr room)

def endsPrimitive (c : UInt8) : Bool :=
  c == byte '\t' || c == byte '\r' || c == byte '\n' || c == byte ' ' ||
    c == byte ',' || c == byte ']' || c == byte '}'

/-- The bytes the loop of `jsmn_parse_primitive` runs over; `none` is its exit on
a byte outside the printable ASCII range. -/
def primitiveLength : Bytes → Option Nat
  | [] => some 0
  | c :: rest =>
      if endsPrimitive c then
        some 0
      else if c < 32 || 127 ≤ c then
        none
      else
        (primitiveLength rest).map (· + 1)

def jsmnParsePrimitive (numTokens : Nat) (parser : JsmnParser) (text : Bytes) :
    Except JsmnError (JsmnParser × Nat) :=
  match primitiveLength text with
  | none => .error .inval
  | some length =>
      (jsmnAllocToken numTokens parser
        ⟨.primitive, parser.pos, some (parser.pos + length), parser.toksuper⟩).map
        fun allocated => (allocated, length - 1)

/-- Where the loop of `jsmn_parse_string` stands: on an ordinary byte, on the byte
after a backslash, or before the last `more + 1` bytes that `\u` skips. -/
inductive StringScan where
  | plain
  | escaped
  | unicode (more : Nat)
  deriving Repr, DecidableEq

def isSimpleEscape (c : UInt8) : Bool :=
  c == byte '"' || c == byte '/' || c == byte '\\' || c == byte 'b' ||
    c == byte 'f' || c == byte 'r' || c == byte 'n' || c == byte 't'

def stringLength : StringScan → Bytes → Except JsmnError Nat
  | _, [] => .error .part
  | .plain, c :: rest =>
      if c = byte '"' then
        .ok 0
      else if c = byte '\\' then
        (stringLength .escaped rest).map (· + 1)
      else
        (stringLength .plain rest).map (· + 1)
  | .escaped, c :: rest =>
      if isSimpleEscape c then
        (stringLength .plain rest).map (· + 1)
      else if c = byte 'u' then
        (stringLength (.unicode 3) rest).map (· + 1)
      else
        .error .inval
  | .unicode 0, _ :: rest => (stringLength .plain rest).map (· + 1)
  | .unicode (more + 1), _ :: rest => (stringLength (.unicode more) rest).map (· + 1)

def jsmnParseString (numTokens : Nat) (parser : JsmnParser) (text : Bytes) :
    Except JsmnError (JsmnParser × Nat) :=
  match stringLength .plain text with
  | .error error => .error error
  | .ok length =>
      (jsmnAllocToken numTokens parser
        ⟨.string, parser.pos + 1, some (parser.pos + 1 + length), parser.toksuper⟩).map
        fun allocated => (allocated, length + 1)

/-- The last token whose end is not known yet, found by the backward loops. -/
def innermostOpen : List JsmnToken → Option (Nat × JsmnToken)
  | [] => none
  | token :: rest =>
      match innermostOpen rest with
      | some (index, found) => some (index + 1, found)
      | none => if token.stop = none then some (0, token) else none

def opens (c : UInt8) : Option JsmnType :=
  if c = byte '{' then some .object
  else if c = byte '[' then some .array
  else none

def closes (c : UInt8) : Option JsmnType :=
  if c = byte '}' then some .object
  else if c = byte ']' then some .array
  else none

def isSeparator (c : UInt8) : Bool :=
  c == byte '\t' || c == byte '\r' || c == byte '\n' || c == byte ' ' ||
    c == byte ':' || c == byte ','

/-- One turn of the `switch` of `jsmn_parse` on the byte `c`, with the number of
bytes after `c` that the called function has consumed as well. -/
def jsmnStep (numTokens : Nat) (parser : JsmnParser) (c : UInt8) (rest : Bytes) :
    Except JsmnError (JsmnParser × Nat) :=
  match opens c, closes c with
  | some type, _ =>
      (jsmnAllocToken numTokens parser ⟨type, parser.pos, none, parser.toksuper⟩).map
        fun allocated =>
          ({ allocated with toksuper := some (allocated.tokens.length - 1) }, 0)
  | none, some type =>
      match innermostOpen parser.tokens with
      | none => .error .inval
      | some (index, token) =>
          if token.type = type then
            .ok ({ parser with
              tokens := parser.tokens.set index
                { token with stop := some (parser.pos + 1) }
              toksuper := token.parent }, 0)
          else
            .error .inval
  | none, none =>
      if c = byte '"' then
        jsmnParseString numTokens parser rest
      else if isSeparator c then
        .ok (parser, 0)
      else
        jsmnParsePrimitive numTokens parser (c :: rest)

structure JsmnRun where
  parser : JsmnParser
  error : Option JsmnError
  deriving Repr, DecidableEq

/-- The loop of `jsmn_parse`; `skip` bytes have already been consumed. -/
def jsmnLoop (numTokens : Nat) : Bytes → Nat → JsmnParser → JsmnRun
  | [], _, parser =>
      ⟨parser, if (innermostOpen parser.tokens).isSome then some .part else none⟩
  | _ :: rest, skip + 1, parser =>
      jsmnLoop numTokens rest skip { parser with pos := parser.pos + 1 }
  | c :: rest, 0, parser =>
      match jsmnStep numTokens parser c rest with
      | .error error => ⟨parser, some error⟩
      | .ok (next, skip) =>
          jsmnLoop numTokens rest skip { next with pos := parser.pos + 1 }

/-- A run that ends without an error takes a step at every byte that is not skipped. -/
theorem jsmnLoop_stepped {numTokens : Nat} {c : UInt8} {rest : Bytes} {parser : JsmnParser}
    (noError : (jsmnLoop numTokens (c :: rest) 0 parser).error = none) :
    ∃ next skip, jsmnStep numTokens parser c rest = .ok (next, skip) ∧
      jsmnLoop numTokens (c :: rest) 0 parser =
        jsmnLoop numTokens rest skip { next with pos := parser.pos + 1 } := by
  simp only [jsmnLoop] at noError ⊢
  cases stepped : jsmnStep numTokens parser c rest with
  | error error => simp [stepped] at noError
  | ok result => exact ⟨result.1, result.2, rfl, rfl⟩

def jsmnParse (numTokens : Nat) (text : Bytes) : JsmnRun :=
  jsmnLoop numTokens text 0 jsmnInit

end HttpFs
