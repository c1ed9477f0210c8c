import HttpFs.Foundation.BlockHash

namespace HttpFs

/-! The message digest of RFC 1321, of a whole message at once and in the terms of its
text: registers, rounds, and a padded message of whole blocks. -/

namespace Rfc1321

structure Registers where
  a : UInt32
  b : UInt32
  c : UInt32
  d : UInt32
  deriving DecidableEq

/-- The number written with the low-order byte first. -/
def number : Bytes → Nat
  | [] => 0
  | b :: rest => b.toNat + 256 * number rest

/-- The first `count` bytes of a number, the low-order byte first. -/
def lowOrderFirst (count n : Nat) : Bytes :=
  (List.range count).map fun i => UInt8.ofNat (n / 256 ^ i)

def word (bytes : Bytes) : UInt32 := UInt32.ofNat (number bytes)

/-- A one bit, zero bits up to 8 bytes before the end of a block, and the length in bits
modulo `2 ^ 64`. -/
def pad (message : Bytes) : Bytes :=
  message ++ 0x80 :: List.replicate ((119 - message.length % 64) % 64) 0 ++
    lowOrderFirst 8 (8 * message.length)

def auxiliary (round : Nat) (x y z : UInt32) : UInt32 :=
  match round with
  | 0 => (x &&& y) ||| (~~~x &&& z)
  | 1 => (x &&& z) ||| (y &&& ~~~z)
  | 2 => x ^^^ y ^^^ z
  | _ => y ^^^ (x ||| ~~~z)

def wordIndex (round i : Nat) : Nat :=
  match round with
  | 0 => i
  | 1 => (5 * i + 1) % 16
  | 2 => (3 * i + 5) % 16
  | _ => 7 * i % 16

def rotations (round : Nat) : List Nat :=
  match round with
  | 0 => [7, 12, 17, 22]
  | 1 => [5, 9, 14, 20]
  | 2 => [4, 11, 16, 23]
  | _ => [6, 10, 15, 21]

/-- `T[i + 1]`, the integer part of `4294967296` times `abs(sin(i + 1))`. -/
def sineTable : List UInt32 := [
  3614090360, 3905402710, 606105819, 3250441966, 4118548399, 1200080426, 2821735955,
  4249261313, 1770035416, 2336552879, 4294925233, 2304563134, 1804603682, 4254626195,
  2792965006, 1236535329, 4129170786, 3225465664, 643717713, 3921069994, 3593408605,
  38016083, 3634488961, 3889429448, 568446438, 3275163606, 4107603335, 1163531501,
  2850285829, 4243563512, 1735328473, 2368359562, 4294588738, 2272392833, 1839030562,
  4259657740, 2763975236, 1272893353, 4139469664, 3200236656, 681279174, 3936430074,
  3572445317, 76029189, 3654602809, 3873151461, 530742520, 3299628645, 4096336452,
  1126891415, 2878612391, 4237533241, 1700485571, 2399980690, 4293915773, 2240044497,
  1873313359, 4264355552, 2734768916, 1309151649, 4149444226, 3174756917, 718787259,
  3951481745]

def rotateLeft (x : UInt32) (s : Nat) : UInt32 := .ofBitVec (x.toBitVec.rotateLeft s)

/-- The operation number `n`: `a = b + ((a + f(b, c, d) + X[k] + T[i]) <<< s)`, and the
change of places that the next one starts from. -/
def operation (x : List UInt32) (registers : Registers) (n : Nat) : Registers :=
  let round := n / 16
  let sum := registers.a + auxiliary round registers.b registers.c registers.d +
    x.getD (wordIndex round (n % 16)) 0 + sineTable.getD n 0
  ⟨registers.d, registers.b + rotateLeft sum ((rotations round).getD (n % 4) 0), registers.b,
    registers.c⟩

def processBlock (registers : Registers) (block : Bytes) : Registers :=
  let x := (List.range 16).map fun j => word ((block.drop (4 * j)).take 4)
  let result := (List.range 64).foldl (operation x) registers
  ⟨registers.a + result.a, registers.b + result.b, registers.c + result.c,
    registers.d + result.d⟩

def initial : Registers :=
  ⟨word [0x01, 0x23, 0x45, 0x67], word [0x89, 0xab, 0xcd, 0xef],
    word [0xfe, 0xdc, 0xba, 0x98], word [0x76, 0x54, 0x32, 0x10]⟩

def Registers.bytes (registers : Registers) : Bytes :=
  [registers.a, registers.b, registers.c, registers.d].flatMap fun (w : UInt32) =>
    lowOrderFirst 4 w.toNat

def md5 (message : Bytes) : Bytes :=
  (BlockHash.absorb processBlock 64 ((pad message).length / 64) initial (pad message)).bytes

example : md5 (ascii "abc") = [0x90, 0x01, 0x50, 0x98, 0x3c, 0xd2, 0x4f, 0xb0, 0xd6, 0x96,
    0x3f, 0x7d, 0x28, 0xe1, 0x7f, 0x72] := by
  decide +kernel

end Rfc1321

end HttpFs
