import Mathlib.Algebra.GroupWithZero.Nat
import Mathlib.Algebra.Order.BigOperators.Group.List
import Mathlib.Algebra.Order.Group.Nat
import Mathlib.Data.List.TakeDrop
import HttpFs.Foundation.Numeral

namespace HttpFs

/-! Formatted output into an array, and the room that it takes in the worst case. -/

/-- A part of a format together with its argument, whose type is that of the conversion. -/
inductive Piece where
  | literal (text : String)
  | string (value : Bytes)
  | word (value : UInt32)
  | unsignedLong (value : UInt64)
  | long (value : Int64)
  deriving DecidableEq

namespace Piece

/-- The conversions are `%s`, `%u`, `%lu`, and `%ld` or `%lld`. -/
def print : Piece → Bytes
  | literal text => ascii text
  | string value => value
  | word value => decimal value.toNat
  | unsignedLong value => decimal value.toNat
  | long value => signedDecimal value.toInt

/-- What suffices for a piece that is not a string, whatever its number. -/
def fixedRoom : Piece → Nat
  | literal text => (ascii text).length
  | string _ => 0
  | word _ => 10
  | unsignedLong _ => 20
  | long _ => 20

def stringLength : Piece → Nat
  | string value => value.length
  | _ => 0

end Piece

theorem Piece.length_print_le (piece : Piece) :
    piece.print.length ≤ piece.fixedRoom + piece.stringLength := by
  cases piece with
  | literal text => exact Nat.le_refl _
  | string value => exact Nat.le_add_left _ _
  | word value =>
      have bound : value.toNat < 10 ^ 10 := Nat.lt_trans value.toNat_lt (by decide)
      exact length_decimal_le bound (Nat.zero_lt_succ 9)
  | unsignedLong value =>
      have bound : value.toNat < 10 ^ 20 := Nat.lt_trans value.toNat_lt (by decide)
      exact length_decimal_le bound (Nat.zero_lt_succ 19)
  | long value => exact length_signedDecimal_le (int64_long value).1 (int64_long value).2

/-- A call of `snprintf` for an array of `size` bytes. -/
structure FormatCall where
  size : Nat
  pieces : List Piece
  deriving DecidableEq

namespace FormatCall

variable (call : FormatCall)

/-- The text that the format and the arguments stand for. -/
def whole : Bytes := call.pieces.flatMap Piece.print

/-- The return value, which does not depend on the size of the array. -/
def returned : Nat := call.whole.length

/-- The string that the array holds afterwards. -/
def stored : Bytes := snprintf call.size call.whole

def fixedRoom : Nat := (call.pieces.map Piece.fixedRoom).sum

def stringsLength : Nat := (call.pieces.map Piece.stringLength).sum

/-- The text and its NUL fit in the array. -/
def Fits : Prop := call.returned + 1 ≤ call.size

instance : Decidable call.Fits := inferInstanceAs (Decidable (_ ≤ _))

theorem returned_le : call.returned ≤ call.fixedRoom + call.stringsLength := by
  rw [returned, whole, fixedRoom, stringsLength, List.length_flatMap, ← List.sum_map_add]
  apply List.sum_le_sum
  intro piece _
  exact piece.length_print_le

variable {call}

theorem fits_of_room (roomy : call.fixedRoom + call.stringsLength < call.size) : call.Fits :=
  Nat.lt_of_le_of_lt call.returned_le roomy

/-- In an array of at least one byte, what is stored is the whole text exactly when it
fits. -/
theorem stored_eq_whole_iff (nonempty : 0 < call.size) :
    call.stored = call.whole ↔ call.Fits := by
  rw [stored, snprintf, List.take_eq_self_iff, Fits, returned]
  omega

theorem Fits.stored_eq (fits : call.Fits) : call.stored = call.whole :=
  (stored_eq_whole_iff (Nat.zero_lt_of_lt fits)).mpr fits

end FormatCall

end HttpFs
