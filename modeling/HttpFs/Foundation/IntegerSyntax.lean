import HttpFs.Foundation.Numeral
import Mathlib.Data.List.DropRight

namespace HttpFs

/-- The number that digits write in base ten. -/
def ofDigits (digits : List Nat) : Nat :=
  digits.foldl (fun value digit => 10 * value + digit) 0

/-- The characters of a notation for integers: blanks around the number, a sign, and
digits with single separators between them. -/
structure IntegerSyntax (α : Type) where
  digitOf : α → Option Nat
  blank : α → Bool
  separator : α
  plus : α
  minus : α
  plus_ne_minus : plus ≠ minus
  separator_noDigit : digitOf separator = none
  plus_noDigit : digitOf plus = none
  minus_noDigit : digitOf minus = none
  blank_noDigit : ∀ c, blank c = true → digitOf c = none
  plus_notBlank : blank plus = false
  minus_notBlank : blank minus = false

namespace IntegerSyntax

variable {α : Type} [DecidableEq α] (writing : IntegerSyntax α)

def strip (text : List α) : List α := (text.dropWhile writing.blank).rdropWhile writing.blank

/-- Whether a text starts with a minus, and what is behind its sign. -/
def unsigned : List α → Bool × List α
  | [] => (false, [])
  | c :: rest =>
      if c = writing.minus then (true, rest)
      else if c = writing.plus then (false, rest)
      else (false, c :: rest)

def separatedDigits : List α → Option (List Nat)
  | [] => none
  | [c] => (writing.digitOf c).map fun digit => [digit]
  | c :: next :: rest =>
      match writing.digitOf c with
      | none => none
      | some digit =>
          if next = writing.separator then
            (separatedDigits rest).map fun digits => digit :: digits
          else
            (separatedDigits (next :: rest)).map fun digits => digit :: digits

def parse (text : List α) : Option (Bool × List Nat) :=
  let (negative, magnitude) := writing.unsigned (writing.strip text)
  (writing.separatedDigits magnitude).map fun digits => (negative, digits)

inductive SeparatedDigits : List α → List Nat → Prop
  | single {c : α} {digit : Nat} (isDigit : writing.digitOf c = some digit) :
      SeparatedDigits [c] [digit]
  | next {c : α} {digit : Nat} {rest : List α} {digits : List Nat}
      (isDigit : writing.digitOf c = some digit) (others : SeparatedDigits rest digits) :
      SeparatedDigits (c :: rest) (digit :: digits)
  | apart {c : α} {digit : Nat} {rest : List α} {digits : List Nat}
      (isDigit : writing.digitOf c = some digit) (others : SeparatedDigits rest digits) :
      SeparatedDigits (c :: writing.separator :: rest) (digit :: digits)

section Digits

variable {writing} {text : List α} {digits : List Nat}

omit [DecidableEq α] in
theorem SeparatedDigits.head (isNumber : writing.SeparatedDigits text digits) :
    ∃ c rest, text = c :: rest ∧ writing.digitOf c ≠ none := by
  cases isNumber with
  | single isDigit => exact ⟨_, _, rfl, by simp [isDigit]⟩
  | next isDigit _ => exact ⟨_, _, rfl, by simp [isDigit]⟩
  | apart isDigit _ => exact ⟨_, _, rfl, by simp [isDigit]⟩

omit [DecidableEq α] in
theorem SeparatedDigits.last (isNumber : writing.SeparatedDigits text digits) :
    ∃ front c, text = front ++ [c] ∧ writing.digitOf c ≠ none := by
  induction isNumber with
  | single isDigit => exact ⟨[], _, rfl, by simp [isDigit]⟩
  | next isDigit others induction =>
      obtain ⟨front, c, rfl, last⟩ := induction
      exact ⟨_ :: front, c, rfl, last⟩
  | apart isDigit others induction =>
      obtain ⟨front, c, rfl, last⟩ := induction
      exact ⟨_ :: writing.separator :: front, c, rfl, last⟩

end Digits

end IntegerSyntax

end HttpFs
