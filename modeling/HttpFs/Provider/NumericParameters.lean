import HttpFs.Foundation.IntegerSyntax
import HttpFs.Foundation.Integers
import HttpFs.Provider.AskedPath
import HttpFs.Provider.ResolvePath

namespace HttpFs

/-! The numbers that the three providers read from the parameters of a request. -/

inductive NumericParameter where
  | offset
  | size

def NumericParameter.name : NumericParameter → Bytes
  | .offset => ascii "offset"
  | .size => ascii "size"

section Plain

variable {α : Type} (code : α → Nat)

end Plain

namespace CProvider

/-- A number as `handle_read` and `handle_write` take it from their query. -/
def number (query : Bytes) (parameter : NumericParameter) : Option Int := do
  let text ← queryValue query parameter.name 64
  let value := (strtol text).value
  if value < 0 then none else some value

end CProvider

namespace GoProvider

/-- `strconv.ParseInt(s, 10, 64)`. -/
def parseInt (s : Bytes) : Option Int :=
  let negative := s.head? == some (byte '-')
  let unsigned := if negative || s.head? == some (byte '+') then s.tail else s
  match naturalLiteral unsigned with
  | none => none
  | some magnitude =>
      if negative then
        if magnitude ≤ 2 ^ 63 then some (-(magnitude : Int)) else none
      else
        if magnitude < 2 ^ 63 then some (magnitude : Int) else none

def parseNonNegativeInt64 (raw name : Bytes) : Except HttpfsError Int :=
  match parseInt raw with
  | none => .error ⟨Errno.EINVAL, name ++ ascii " must be a non-negative integer"⟩
  | some value =>
      if value < 0 then
        .error ⟨Errno.EINVAL, name ++ ascii " must be a non-negative integer"⟩
      else
        .ok value

/-- A number as the handlers take it from their query, where a missing parameter is the
empty text. -/
def number (text : Option Bytes) (parameter : NumericParameter) : Except HttpfsError Int :=
  parseNonNegativeInt64 (text.getD []) parameter.name

def readNumbers (offset size : Option Bytes) : Except HttpfsError (Int × Int) := do
  let offset ← number offset .offset
  let size ← number size .size
  return (offset, size)

/-- The number of `handleWrite`, which tests the sign once more. -/
def writeNumber (offset : Option Bytes) : Except HttpfsError Int := do
  let offset ← number offset .offset
  if offset < 0 then throw ⟨Errno.EINVAL, ascii "offset must be non-negative"⟩
  return offset

end GoProvider

namespace PythonProvider

/-- The zeros of the scripts that have decimal digits. -/
def decimalZeros : List Nat :=
  [0x30, 0x660, 0x6f0, 0x7c0, 0x966, 0x9e6, 0xa66, 0xae6, 0xb66, 0xbe6, 0xc66, 0xce6, 0xd66,
    0xde6, 0xe50, 0xed0, 0xf20, 0x1040, 0x1090, 0x17e0, 0x1810, 0x1946, 0x19d0, 0x1a80,
    0x1a90, 0x1b50, 0x1bb0, 0x1c40, 0x1c50, 0xa620, 0xa8d0, 0xa900, 0xa9d0, 0xa9f0, 0xaa50,
    0xabf0, 0xff10, 0x104a0, 0x10d30, 0x11066, 0x110f0, 0x11136, 0x111d0, 0x112f0, 0x11450,
    0x114d0, 0x11650, 0x116c0, 0x11730, 0x118e0, 0x11950, 0x11c50, 0x11d50, 0x11da0, 0x16a60,
    0x16ac0, 0x16b50, 0x1d7ce, 0x1d7d8, 0x1d7e2, 0x1d7ec, 0x1d7f6, 0x1e140, 0x1e2f0, 0x1e950,
    0x1fbf0]

/-- The white space that `int` ignores around a number. -/
def intBlanks : List Nat :=
  [0x9, 0xa, 0xb, 0xc, 0xd, 0x20, 0x85, 0xa0, 0x1680, 0x2000, 0x2001, 0x2002, 0x2003, 0x2004,
    0x2005, 0x2006, 0x2007, 0x2008, 0x2009, 0x200a, 0x2028, 0x2029, 0x202f, 0x205f, 0x3000]

def decimalOf (code : Nat) : Option Nat :=
  decimalZeros.findSome? fun first =>
    if first ≤ code ∧ code < first + 10 then some (code - first) else none

theorem intBlanks_noDecimal : ∀ code ∈ intBlanks, decimalOf code = none := by decide

def integers : IntegerSyntax CodePoint where
  digitOf := fun c => decimalOf c.val
  blank := fun c => intBlanks.contains c.val
  separator := 95
  plus := 43
  minus := 45
  plus_ne_minus := by decide
  separator_noDigit := by decide
  plus_noDigit := by decide
  minus_noDigit := by decide
  blank_noDigit := fun c isBlank => intBlanks_noDecimal c.val (List.contains_iff_mem.mp isBlank)
  plus_notBlank := by decide
  minus_notBlank := by decide

def digitLimit : Nat := 4300

/-- `int` of a string; `none` is its `ValueError`. -/
def int (text : List CodePoint) : Option Int :=
  match integers.parse text with
  | none => none
  | some (negative, digits) =>
      if digits.length > digitLimit then
        none
      else
        some (if negative then -(ofDigits digits : Int) else (ofDigits digits : Int))

/-- The conversion of an argument of `seek` and `read`, which raises an exception when it
does not fit. -/
def asOffset (value : Int) : Option Int :=
  if longMin ≤ value ∧ value ≤ longMax then some value else none

/-- A number as the handlers take it from their arguments and use it. -/
def number (text : Option (List CodePoint)) : Option Int := do
  let value ← int (text.getD [48])
  if value < 0 then none else asOffset value

/-- The numbers with which `read_file` comes to `seek` and `read`; `none` is an exception
on the way, which the error handlers answer. -/
def readNumbers (offset size : Option (List CodePoint)) : Option (Int × Int) := do
  let offset ← int (offset.getD [48])
  let size ← int (size.getD [48])
  if offset < 0 ∨ size < 0 then none
  else
    let offset ← asOffset offset
    let size ← asOffset size
    return (offset, size)

end PythonProvider

section Plain

variable {α : Type} {code : α → Nat} {text : List α} {value : Int}

end Plain

namespace CProvider

theorem number_eq_some {query : Bytes} {parameter : NumericParameter} {value : Int} :
    number query parameter = some value ↔
      ((queryValue query parameter.name 64).map fun text => (strtol text).value) = some value ∧
        0 ≤ value := by
  rw [number]
  cases queryValue query parameter.name 64 with
  | none => simp
  | some text =>
      simp only [Option.bind_eq_bind, Option.bind_some, Option.ite_none_left_eq_some,
        Option.some.injEq, Option.map_some]
      constructor
      · rintro ⟨positive, rfl⟩
        exact ⟨rfl, Int.not_lt.mp positive⟩
      · rintro ⟨rfl, positive⟩
        exact ⟨Int.not_lt.mpr positive, rfl⟩

/-- `handle_read` goes on with the numbers of its parameters, or not at all. -/
theorem readRange_iff {request : RequestContext} {range : ReadRange} :
    readRange request = .ok range ↔
      (∃ path, queryPath request = some (path, range.localPath)) ∧
        number request.query .offset = some range.offset ∧
        number request.query .size = some range.size := by
  simp only [number_eq_some, queryPath_eq_some]
  constructor
  · intro passed
    obtain ⟨⟨path, asked⟩, offset, size, positive, sizePositive⟩ := readRange_ok passed
    exact ⟨⟨path, queryPath_eq_some.mp asked⟩, ⟨offset, positive⟩, size, sizePositive⟩
  · rintro ⟨⟨path, hasPath, resolved⟩, ⟨isOffset, positive⟩, isSize, sizePositive⟩
    obtain ⟨offsetText, hasOffset, offsetValue⟩ := Option.map_eq_some_iff.mp isOffset
    obtain ⟨sizeText, hasSize, sizeValue⟩ := Option.map_eq_some_iff.mp isSize
    have noError : ¬ (range.offset < 0 ∨ range.size < 0) := by omega
    simp only [NumericParameter.name] at hasOffset hasSize
    simp [readRange, hasPath, resolved, hasOffset, hasSize, offsetValue, sizeValue, noError]

theorem writeTarget_number {request : RequestContext} {target : WriteTarget}
    (passed : writeTarget request = .ok target) :
    number request.query .offset = some target.offset := by
  obtain ⟨offset, positive, _⟩ := writeTarget_ok passed
  exact number_eq_some.mpr ⟨offset, positive⟩

theorem handleRead_rejects {κ : Type} (kernel : Kernel κ) {request : RequestContext}
    (rejected : number request.query .offset = none ∨ number request.query .size = none)
    (host : Host κ) :
    ∃ error : HttpfsError, handleRead kernel request host =
      (sendErrorJson error.errnoValue error.message, host) := by
  rw [handleRead]
  cases passed : readRange request with
  | error error => exact ⟨error, rfl⟩
  | ok range =>
      obtain ⟨_, isOffset, isSize⟩ := readRange_iff.mp passed
      simp [isOffset, isSize] at rejected

theorem handleWrite_rejects {κ : Type} (kernel : Kernel κ) {request : RequestContext}
    (rejected : number request.query .offset = none) (host : Host κ) :
    ∃ error : HttpfsError, handleWrite kernel request host =
      (sendErrorJson error.errnoValue error.message, host) := by
  rw [handleWrite]
  cases passed : writeTarget request with
  | error error => exact ⟨error, rfl⟩
  | ok target =>
      rw [writeTarget_number passed] at rejected
      contradiction

end CProvider

namespace GoProvider

theorem readNumbers_iff {offset size : Option Bytes} {numbers : Int × Int} :
    readNumbers offset size = .ok numbers ↔
      number offset .offset = .ok numbers.1 ∧ number size .size = .ok numbers.2 := by
  rw [readNumbers]
  cases number offset .offset with
  | error error => simp [Bind.bind, Except.bind]
  | ok offset =>
      cases number size .size with
      | error error => simp [Bind.bind, Except.bind]
      | ok size => simp [Bind.bind, Except.bind, pure, Except.pure, Prod.ext_iff]

end GoProvider

namespace PythonProvider

theorem readNumbers_iff {offset size : Option (List CodePoint)} {numbers : Int × Int} :
    readNumbers offset size = some numbers ↔
      number offset = some numbers.1 ∧ number size = some numbers.2 := by
  rw [readNumbers, number, number]
  cases int (offset.getD [48]) with
  | none => simp
  | some offset =>
      cases int (size.getD [48]) with
      | none => simp
      | some size =>
          simp only [Option.bind_eq_bind, Option.bind_some]
          by_cases offsetNegative : offset < 0
          · simp [offsetNegative]
          · by_cases sizeNegative : size < 0
            · simp [sizeNegative]
            · simp only [offsetNegative, sizeNegative, or_self, if_false]
              cases asOffset offset <;> cases asOffset size <;> simp [Prod.ext_iff]

end PythonProvider

end HttpFs
