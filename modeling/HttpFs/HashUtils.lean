import HttpFs.Foundation.Text

namespace HttpFs

structure Md5State where
  a : UInt32
  b : UInt32
  c : UInt32
  d : UInt32
  deriving DecidableEq

structure Md5Context where
  state : Md5State
  bitCount : UInt64
  buffer : Bytes
  deriving DecidableEq

inductive Md5Func where
  | f
  | g
  | h
  | i

def Md5Func.apply : Md5Func → UInt32 → UInt32 → UInt32 → UInt32
  | .f, x, y, z => (x &&& y) ||| (~~~x &&& z)
  | .g, x, y, z => (x &&& z) ||| (y &&& ~~~z)
  | .h, x, y, z => x ^^^ y ^^^ z
  | .i, x, y, z => y ^^^ (x ||| ~~~z)

/-- The arguments of one `MD5_STEP` that change from step to step, with the index
of the word for the word. -/
structure Md5Step where
  func : Md5Func
  x : Nat
  s : UInt32
  ac : UInt32

def md5Steps : List Md5Step := [
    ⟨.f, 0, 7, 0xd76aa478⟩, ⟨.f, 1, 12, 0xe8c7b756⟩,
    ⟨.f, 2, 17, 0x242070db⟩, ⟨.f, 3, 22, 0xc1bdceee⟩,
    ⟨.f, 4, 7, 0xf57c0faf⟩, ⟨.f, 5, 12, 0x4787c62a⟩,
    ⟨.f, 6, 17, 0xa8304613⟩, ⟨.f, 7, 22, 0xfd469501⟩,
    ⟨.f, 8, 7, 0x698098d8⟩, ⟨.f, 9, 12, 0x8b44f7af⟩,
    ⟨.f, 10, 17, 0xffff5bb1⟩, ⟨.f, 11, 22, 0x895cd7be⟩,
    ⟨.f, 12, 7, 0x6b901122⟩, ⟨.f, 13, 12, 0xfd987193⟩,
    ⟨.f, 14, 17, 0xa679438e⟩, ⟨.f, 15, 22, 0x49b40821⟩,
    ⟨.g, 1, 5, 0xf61e2562⟩, ⟨.g, 6, 9, 0xc040b340⟩,
    ⟨.g, 11, 14, 0x265e5a51⟩, ⟨.g, 0, 20, 0xe9b6c7aa⟩,
    ⟨.g, 5, 5, 0xd62f105d⟩, ⟨.g, 10, 9, 0x02441453⟩,
    ⟨.g, 15, 14, 0xd8a1e681⟩, ⟨.g, 4, 20, 0xe7d3fbc8⟩,
    ⟨.g, 9, 5, 0x21e1cde6⟩, ⟨.g, 14, 9, 0xc33707d6⟩,
    ⟨.g, 3, 14, 0xf4d50d87⟩, ⟨.g, 8, 20, 0x455a14ed⟩,
    ⟨.g, 13, 5, 0xa9e3e905⟩, ⟨.g, 2, 9, 0xfcefa3f8⟩,
    ⟨.g, 7, 14, 0x676f02d9⟩, ⟨.g, 12, 20, 0x8d2a4c8a⟩,
    ⟨.h, 5, 4, 0xfffa3942⟩, ⟨.h, 8, 11, 0x8771f681⟩,
    ⟨.h, 11, 16, 0x6d9d6122⟩, ⟨.h, 14, 23, 0xfde5380c⟩,
    ⟨.h, 1, 4, 0xa4beea44⟩, ⟨.h, 4, 11, 0x4bdecfa9⟩,
    ⟨.h, 7, 16, 0xf6bb4b60⟩, ⟨.h, 10, 23, 0xbebfbc70⟩,
    ⟨.h, 13, 4, 0x289b7ec6⟩, ⟨.h, 0, 11, 0xeaa127fa⟩,
    ⟨.h, 3, 16, 0xd4ef3085⟩, ⟨.h, 6, 23, 0x04881d05⟩,
    ⟨.h, 9, 4, 0xd9d4d039⟩, ⟨.h, 12, 11, 0xe6db99e5⟩,
    ⟨.h, 15, 16, 0x1fa27cf8⟩, ⟨.h, 2, 23, 0xc4ac5665⟩,
    ⟨.i, 0, 6, 0xf4292244⟩, ⟨.i, 7, 10, 0x432aff97⟩,
    ⟨.i, 14, 15, 0xab9423a7⟩, ⟨.i, 5, 21, 0xfc93a039⟩,
    ⟨.i, 12, 6, 0x655b59c3⟩, ⟨.i, 3, 10, 0x8f0ccc92⟩,
    ⟨.i, 10, 15, 0xffeff47d⟩, ⟨.i, 1, 21, 0x85845dd1⟩,
    ⟨.i, 8, 6, 0x6fa87e4f⟩, ⟨.i, 15, 10, 0xfe2ce6e0⟩,
    ⟨.i, 6, 15, 0xa3014314⟩, ⟨.i, 13, 21, 0x4e0811a1⟩,
    ⟨.i, 4, 6, 0xf7537e82⟩, ⟨.i, 11, 10, 0xbd3af235⟩,
    ⟨.i, 2, 15, 0x2ad7d2bb⟩, ⟨.i, 9, 21, 0xeb86d391⟩]

def md5RotateLeft (x n : UInt32) : UInt32 := (x <<< n) ||| (x >>> (32 - n))

/-- One `MD5_STEP`, after which the four variables change places: the source
writes out the places, the model rotates the state. -/
def md5Step (x : List UInt32) (state : Md5State) (step : Md5Step) : Md5State :=
  let a := state.a + (step.func.apply state.b state.c state.d +
    x.getD step.x 0 + step.ac)
  let a := md5RotateLeft a step.s
  let a := a + state.b
  ⟨state.d, a, state.b, state.c⟩

def md5Word (block : Bytes) (i : Nat) : UInt32 :=
  (block.getD (i * 4) 0).toUInt32 ||| ((block.getD (i * 4 + 1) 0).toUInt32 <<< 8) |||
    ((block.getD (i * 4 + 2) 0).toUInt32 <<< 16) |||
    ((block.getD (i * 4 + 3) 0).toUInt32 <<< 24)

def md5Transform (state : Md5State) (block : Bytes) : Md5State :=
  let x := (List.range 16).map (md5Word block)
  let result := md5Steps.foldl (md5Step x) state
  ⟨state.a + result.a, state.b + result.b, state.c + result.c, state.d + result.d⟩

/-- `md5_init`; it leaves the buffer unset. -/
def md5Init : Md5Context :=
  ⟨⟨0x67452301, 0xefcdab89, 0x98badcfe, 0x10325476⟩, 0, List.replicate 64 0⟩

/-- The loop of `md5_update` over the whole blocks of its input, and what is left
of the input behind them. -/
def md5Blocks : Nat → Md5State → Bytes → Md5State × Bytes
  | 0, state, input => (state, input)
  | blocks + 1, state, input =>
      md5Blocks blocks (md5Transform state (input.take 64)) (input.drop 64)

def md5Update (ctx : Md5Context) (input : Bytes) : Md5Context :=
  let index := ((ctx.bitCount >>> 3) &&& 0x3f).toNat
  let partLen := 64 - index
  let bitCount := ctx.bitCount + (UInt64.ofNat input.length <<< 3)
  if input.length ≥ partLen then
    let buffer := copyInto ctx.buffer index (input.take partLen)
    let rest := input.drop partLen
    let (state, rest) := md5Blocks (rest.length / 64) (md5Transform ctx.state buffer) rest
    ⟨state, bitCount, copyInto buffer 0 rest⟩
  else
    ⟨ctx.state, bitCount, copyInto ctx.buffer index input⟩

def wordBytes (word : UInt32) : Bytes :=
  [(word &&& 0xff).toUInt8, ((word >>> 8) &&& 0xff).toUInt8,
    ((word >>> 16) &&& 0xff).toUInt8, ((word >>> 24) &&& 0xff).toUInt8]

def md5Final (ctx : Md5Context) : Bytes :=
  let bits : Bytes := (List.range 8).map fun i =>
    ((ctx.bitCount >>> (UInt64.ofNat i * 8)) &&& 0xff).toUInt8
  let index := ((ctx.bitCount >>> 3) &&& 0x3f).toNat
  let padLen := if index < 56 then 56 - index else 120 - index
  let padding : Bytes := 0x80 :: List.replicate 63 0
  let ctx := md5Update ctx (padding.take padLen)
  let ctx := md5Update ctx bits
  wordBytes ctx.state.a ++ wordBytes ctx.state.b ++ wordBytes ctx.state.c ++
    wordBytes ctx.state.d

def hexDigits : Bytes := ascii "0123456789abcdef"

def hexDigit (nibble : UInt8) : UInt8 := hexDigits.getD nibble.toNat 0

/-- The loop of `httpfs_sparse_md5_hex` over the bytes from absolute position
`position` on. -/
def sparseMd5Update : Md5Context → Int → Bytes → Md5Context
  | ctx, _, [] => ctx
  | ctx, position, b :: rest =>
      sparseMd5Update (if position % 10 = 0 then md5Update ctx [b] else ctx)
        (position + 1) rest

def sparseMd5 (data : Bytes) (baseOffset : Int) : Bytes :=
  (md5Final (sparseMd5Update md5Init baseOffset data)).flatMap fun (b : UInt8) =>
    [hexDigit (b >>> 4), hexDigit (b &&& 0x0f)]

/-- `httpfs_sparse_md5_hex` on data that is there. -/
def httpfsSparseMd5Hex (data : Bytes) (baseOffset : Int) : Option Bytes :=
  if baseOffset < 0 then none else some (sparseMd5 data baseOffset)

def isLowerHex (ch : UInt8) : Bool :=
  (48 ≤ ch && ch ≤ 57) || (97 ≤ ch && ch ≤ 102)

def httpfsIsValidMd5Hex (value : Bytes) : Bool :=
  value.length == 32 && value.all isLowerHex

theorem isLowerHex_hexDigit {nibble : UInt8} (bound : nibble.toNat < 16) :
    isLowerHex (hexDigit nibble) = true := by
  have table : ∀ n : Fin 16, isLowerHex (hexDigits.getD n.val 0) = true := by decide
  exact table ⟨nibble.toNat, bound⟩

theorem toNat_high_lt (b : UInt8) : (b >>> 4).toNat < 16 := by
  have size := b.toNat_lt
  simp only [UInt8.toNat_shiftRight, Nat.shiftRight_eq_div_pow]
  simp
  omega

theorem toNat_low_lt (b : UInt8) : (b &&& 0x0f).toNat < 16 := by
  have bound : b.toNat &&& 15 ≤ 15 := Nat.and_le_right
  simp only [UInt8.toNat_and]
  simp
  omega

private theorem length_md5Final (ctx : Md5Context) : (md5Final ctx).length = 16 := by
  simp [md5Final, wordBytes]

theorem httpfsIsValidMd5Hex_sparseMd5 (data : Bytes) (baseOffset : Int) :
    httpfsIsValidMd5Hex (sparseMd5 data baseOffset) = true := by
  have length : ∀ digest : Bytes, (digest.flatMap fun (b : UInt8) =>
      [hexDigit (b >>> 4), hexDigit (b &&& 0x0f)]).length = 2 * digest.length := by
    intro digest
    induction digest with
    | nil => rfl
    | cons b rest induction =>
        simp only [List.flatMap_cons, List.length_append, List.length_cons, induction,
          List.length_nil]
        omega
  have digits : ∀ digest : Bytes, (digest.flatMap fun (b : UInt8) =>
      [hexDigit (b >>> 4), hexDigit (b &&& 0x0f)]).all isLowerHex = true := by
    intro digest
    simp only [List.all_flatMap, List.all_eq_true, List.mem_cons, List.not_mem_nil, or_false,
      forall_eq_or_imp, forall_eq]
    intro b _
    exact ⟨isLowerHex_hexDigit (toNat_high_lt b), isLowerHex_hexDigit (toNat_low_lt b)⟩
  simp only [httpfsIsValidMd5Hex, sparseMd5, length, length_md5Final, digits, Bool.and_true]
  rfl

theorem length_sparseMd5 (data : Bytes) (baseOffset : Int) :
    (sparseMd5 data baseOffset).length = 32 := by
  have valid := httpfsIsValidMd5Hex_sparseMd5 data baseOffset
  simp only [httpfsIsValidMd5Hex, Bool.and_eq_true, beq_iff_eq] at valid
  exact valid.1

end HttpFs
