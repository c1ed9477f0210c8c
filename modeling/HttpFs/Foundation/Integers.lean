import HttpFs.Foundation.Numeral

namespace HttpFs

/-! Integers of any size, as texts write them. -/

/-- The integer that a text begins with, behind white space and a sign, and what follows
it. -/
def leadingInteger (text : Bytes) : Option (Int × Bytes) :=
  let trimmed := text.dropWhile isSpace
  let negative := trimmed.head? == some (byte '-')
  let unsigned :=
    if negative || trimmed.head? == some (byte '+') then trimmed.tail else trimmed
  let digits := unsigned.takeWhile isDigit
  if digits = [] then
    none
  else
    let magnitude : Int := digitsValue digits
    some (if negative then -magnitude else magnitude, unsigned.dropWhile isDigit)

theorem strtol_eq (text : Bytes) :
    strtol text =
      match leadingInteger text with
      | none => ⟨0, text⟩
      | some (value, rest) => ⟨clampLong value, rest⟩ := by
  simp only [strtol, leadingInteger]
  generalize (if (text.dropWhile isSpace).head? == some (byte '-') ||
      (text.dropWhile isSpace).head? == some (byte '+') then (text.dropWhile isSpace).tail
    else text.dropWhile isSpace) = unsigned
  by_cases none : unsigned.takeWhile isDigit = []
  · rw [if_pos none, if_pos none]
  · rw [if_neg none, if_neg none]

theorem clampLong_eq_iff {value : Int} :
    clampLong value = value ↔ longMin ≤ value ∧ value ≤ longMax := by
  simp only [clampLong, longMin, longMax]
  omega

theorem strtol_bounds (text : Bytes) :
    longMin ≤ (strtol text).value ∧ (strtol text).value ≤ longMax := by
  rw [strtol_eq]
  cases leadingInteger text with
  | none =>
      change longMin ≤ 0 ∧ 0 ≤ longMax
      decide
  | some found =>
      simp only [clampLong, longMin, longMax]
      omega

def wholeInteger (text : Bytes) : Option Int :=
  match leadingInteger text with
  | some (value, []) => some value
  | _ => none

/-- Decimal digits and nothing else. -/
def naturalLiteral (text : Bytes) : Option Nat :=
  if text ≠ [] ∧ text.all isDigit = true then some (digitsValue text) else none

def canonicalLiteral (text : Bytes) : Option Nat :=
  if text.head? = some (byte '0') ∧ 1 < text.length then none else naturalLiteral text

def integerLiteral : Bytes → Option Int
  | [] => none
  | c :: rest =>
      if c = byte '-' then (canonicalLiteral rest).map fun magnitude : Nat => -(magnitude : Int)
      else (canonicalLiteral (c :: rest)).map fun magnitude : Nat => (magnitude : Int)

theorem naturalLiteral_eq_some {text : Bytes} {value : Nat} :
    naturalLiteral text = some value ↔
      text ≠ [] ∧ (∀ c ∈ text, isDigit c = true) ∧ digitsValue text = value := by
  simp only [naturalLiteral, List.all_eq_true]
  constructor
  · intro isLiteral
    split at isLiteral
    · next digits => exact ⟨digits.1, digits.2, Option.some.inj isLiteral⟩
    · contradiction
  · rintro ⟨nonempty, digits, rfl⟩
    rw [if_pos ⟨nonempty, digits⟩]

theorem naturalLiteral_of_canonical {text : Bytes} {value : Nat}
    (canonical : canonicalLiteral text = some value) : naturalLiteral text = some value := by
  rw [canonicalLiteral] at canonical
  split at canonical
  · contradiction
  · exact canonical

section Leading

variable {digits rest : Bytes}

theorem digit_ordinary {c : UInt8} (digit : isDigit c = true) :
    isSpace c = false ∧ c ≠ byte '-' ∧ c ≠ byte '+' := by
  have row := of_table (p := fun c => !isDigit c ||
    (!isSpace c && c != byte '-' && c != byte '+')) (by decide +kernel) c
  simpa [digit, and_assoc] using row

theorem leadingInteger_digits (nonempty : digits ≠ [])
    (areDigits : ∀ c ∈ digits, isDigit c = true) (ends : EndsNumeral rest) :
    leadingInteger (digits ++ rest) = some ((digitsValue digits : Int), rest) := by
  obtain ⟨taken, dropped⟩ := span_digits areDigits ends
  cases digits with
  | nil => contradiction
  | cons head tail =>
      obtain ⟨notSpace, notMinus, notPlus⟩ := digit_ordinary (areDigits head (by simp))
      have trimmed : (head :: tail ++ rest).dropWhile isSpace = head :: tail ++ rest := by
        simp [notSpace]
      have first : (head :: tail ++ rest).head? = some head := rfl
      simp only [leadingInteger, trimmed, first, Option.some_beq_some,
        beq_eq_false_iff_ne.mpr notMinus, beq_eq_false_iff_ne.mpr notPlus, Bool.or_self,
        Bool.false_eq_true, if_false, taken, dropped, nonempty]

theorem leadingInteger_minus (nonempty : digits ≠ [])
    (areDigits : ∀ c ∈ digits, isDigit c = true) (ends : EndsNumeral rest) :
    leadingInteger (byte '-' :: (digits ++ rest)) =
      some (-(digitsValue digits : Int), rest) := by
  obtain ⟨taken, dropped⟩ := span_digits areDigits ends
  have trimmed : (byte '-' :: (digits ++ rest)).dropWhile isSpace =
      byte '-' :: (digits ++ rest) := by
    rw [List.dropWhile_cons_of_neg (by decide)]
  simp only [leadingInteger, trimmed, List.head?_cons, List.tail_cons, beq_self_eq_true,
    Bool.true_or, if_true, taken, dropped, nonempty, if_false]

end Leading

theorem length_of_leadingInteger {text rest : Bytes} {value : Int}
    (leading : leadingInteger text = some (value, rest)) : rest.length < text.length := by
  have trimmed := (List.dropWhile_suffix (l := text) isSpace).length_le
  have signed : (if (text.dropWhile isSpace).head? == some (byte '-') ||
      (text.dropWhile isSpace).head? == some (byte '+') then (text.dropWhile isSpace).tail
    else text.dropWhile isSpace).length ≤ (text.dropWhile isSpace).length := by
    split
    · simp
    · exact Nat.le_refl _
  simp only [leadingInteger] at leading
  generalize (if (text.dropWhile isSpace).head? == some (byte '-') ||
      (text.dropWhile isSpace).head? == some (byte '+') then (text.dropWhile isSpace).tail
    else text.dropWhile isSpace) = unsigned at leading signed
  by_cases none : unsigned.takeWhile isDigit = []
  · simp [none] at leading
  · rw [if_neg none] at leading
    obtain ⟨-, rfl⟩ := Prod.mk.inj (Option.some.inj leading)
    have digits := List.length_pos_iff.mpr none
    have parts := congrArg List.length (List.takeWhile_append_dropWhile (p := isDigit)
      (l := unsigned))
    rw [List.length_append] at parts
    omega

theorem leadingInteger_blanks {blanks : Bytes} (areBlanks : ∀ c ∈ blanks, isSpace c = true)
    (text : Bytes) : leadingInteger (blanks ++ text) = leadingInteger text := by
  simp only [leadingInteger, List.dropWhile_append_of_pos areBlanks]

theorem leadingInteger_of_literal {text rest : Bytes} {value : Int}
    (literal : integerLiteral text = some value) (ends : EndsNumeral rest) :
    leadingInteger (text ++ rest) = some (value, rest) := by
  cases text with
  | nil => contradiction
  | cons c digits =>
      simp only [integerLiteral] at literal
      split at literal
      · next minus =>
        obtain ⟨magnitude, canonical, rfl⟩ := Option.map_eq_some_iff.mp literal
        obtain ⟨nonempty, areDigits, rfl⟩ :=
          naturalLiteral_eq_some.mp (naturalLiteral_of_canonical canonical)
        rw [minus, List.cons_append]
        exact leadingInteger_minus nonempty areDigits ends
      · obtain ⟨magnitude, canonical, rfl⟩ := Option.map_eq_some_iff.mp literal
        obtain ⟨nonempty, areDigits, rfl⟩ :=
          naturalLiteral_eq_some.mp (naturalLiteral_of_canonical canonical)
        exact leadingInteger_digits nonempty areDigits ends

theorem ordinary_of_literal {text : Bytes} {value : Int}
    (literal : integerLiteral text = some value) :
    ∀ c ∈ text, c = byte '-' ∨ isDigit c = true := by
  cases text with
  | nil => simp
  | cons c rest =>
      simp only [integerLiteral] at literal
      split at literal
      · next minus =>
        obtain ⟨magnitude, canonical, rfl⟩ := Option.map_eq_some_iff.mp literal
        have digits :=
          (naturalLiteral_eq_some.mp (naturalLiteral_of_canonical canonical)).2.1
        exact List.forall_mem_cons.mpr ⟨.inl minus, fun b member => .inr (digits b member)⟩
      · obtain ⟨magnitude, canonical, rfl⟩ := Option.map_eq_some_iff.mp literal
        have digits :=
          (naturalLiteral_eq_some.mp (naturalLiteral_of_canonical canonical)).2.1
        exact fun b member => .inr (digits b member)

end HttpFs
