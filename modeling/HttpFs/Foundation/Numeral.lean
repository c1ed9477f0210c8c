import HttpFs.Foundation.Text

namespace HttpFs

def isDigit (b : UInt8) : Bool := 48 ≤ b && b ≤ 57

def isSpace (b : UInt8) : Bool := b == 32 || (9 ≤ b && b ≤ 13)

/-- `%u`, `%lu` and `%zu`. -/
def decimal (n : Nat) : Bytes := (Nat.toDigits 10 n).map byte

/-- `%d`, `%ld` and `%lld`. -/
def signedDecimal : Int → Bytes
  | .ofNat n => decimal n
  | .negSucc n => byte '-' :: decimal (n + 1)

def digitsValue (digits : Bytes) : Nat :=
  digits.foldl (fun value digit => 10 * value + (digit.toNat - 48)) 0

def longMin : Int := -(2 ^ 63)
def longMax : Int := 2 ^ 63 - 1

def clampLong (value : Int) : Int := max longMin (min longMax value)

theorem int64_long (value : Int64) : longMin ≤ value.toInt ∧ value.toInt ≤ longMax := by
  have lower := value.le_toInt
  have upper := value.toInt_lt
  simp only [longMin, longMax]
  omega

theorem uint32_long (value : UInt32) :
    longMin ≤ (value.toNat : Int) ∧ (value.toNat : Int) ≤ longMax := by
  have upper := value.toNat_lt
  simp only [longMin, longMax]
  omega

/-- What `strtol` and `strtoll` return, with the text left at `*endptr`. -/
structure Conversion where
  value : Int
  rest : Bytes
  deriving Repr, DecidableEq

/-- `strtol` in base ten for a 64-bit `long`; when no digit follows the optional
white space and sign, nothing is consumed. -/
def strtol (text : Bytes) : Conversion :=
  let trimmed := text.dropWhile isSpace
  let negative := trimmed.head? == some (byte '-')
  let unsigned :=
    if negative || trimmed.head? == some (byte '+') then trimmed.tail else trimmed
  let digits := unsigned.takeWhile isDigit
  if digits = [] then
    ⟨0, text⟩
  else
    let magnitude : Int := digitsValue digits
    ⟨clampLong (if negative then -magnitude else magnitude),
      unsigned.dropWhile isDigit⟩

private theorem byte_digit {character : Char} (digit : character.isDigit = true) :
    isDigit (byte character) = true ∧
      (byte character).toNat = character.toNat := by
  have bounds : 48 ≤ character.toNat ∧ character.toNat ≤ 57 := by
    simp only [Char.isDigit, Bool.and_eq_true, decide_eq_true_eq,
      UInt32.le_iff_toNat_le] at digit
    exact digit
  have value : (byte character).toNat = character.toNat := by
    simp only [byte, Nat.toUInt8, UInt8.toNat_ofNat']
    omega
  refine ⟨?_, value⟩
  simp [isDigit, UInt8.le_iff_toNat_le, value, bounds]

theorem isDigit_of_mem_decimal {n : Nat} {b : UInt8} (member : b ∈ decimal n) :
    isDigit b = true := by
  obtain ⟨character, digit, rfl⟩ := List.mem_map.mp member
  exact (byte_digit
    (Nat.isDigit_of_mem_toDigits (by omega) (by omega) digit)).1

theorem mem_signedDecimal {value : Int} {b : UInt8} (member : b ∈ signedDecimal value) :
    isDigit b = true ∨ b = byte '-' := by
  cases value with
  | ofNat n => exact .inl (isDigit_of_mem_decimal member)
  | negSucc n =>
      cases List.mem_cons.mp member with
      | inl sign => exact .inr sign
      | inr digit => exact .inl (isDigit_of_mem_decimal digit)

theorem decimal_ne_nil (n : Nat) : decimal n ≠ [] := by
  simp [decimal, Nat.toDigits_ne_nil]

theorem digitsValue_decimal (n : Nat) : digitsValue (decimal n) = n := by
  have step : ∀ (characters : List Char) (start : Nat),
      (∀ character ∈ characters, character.isDigit = true) →
      (characters.map byte).foldl
          (fun value digit => 10 * value + (digit.toNat - 48)) start =
        Nat.ofDigitChars 10 characters start := by
    intro characters
    induction characters with
    | nil => intro start _; rfl
    | cons head tail induction =>
        intro start digits
        have headValue := (byte_digit (digits head (by simp))).2
        simp only [List.map_cons, List.foldl_cons, Nat.ofDigitChars_cons, headValue]
        exact induction _ fun character member =>
          digits character (by simp [member])
  have converted := step (Nat.toDigits 10 n) 0 fun character member =>
    Nat.isDigit_of_mem_toDigits (by omega) (by omega) member
  exact converted.trans Nat.ofDigitChars_ten_toDigits

/-- The text that follows a printed number does not prolong it. -/
def EndsNumeral (rest : Bytes) : Prop := ∀ b ∈ rest.head?, isDigit b = false

theorem span_digits {digits rest : Bytes} (areDigits : ∀ c ∈ digits, isDigit c = true)
    (ends : EndsNumeral rest) :
    (digits ++ rest).takeWhile isDigit = digits ∧
      (digits ++ rest).dropWhile isDigit = rest := by
  rw [List.takeWhile_append_of_pos areDigits, List.dropWhile_append_of_pos areDigits]
  cases rest with
  | nil => simp
  | cons head tail =>
      have stop : isDigit head = false := ends head (by simp)
      simp [stop]

theorem takeWhile_decimal (n : Nat) {rest : Bytes} (ends : EndsNumeral rest) :
    (decimal n ++ rest).takeWhile isDigit = decimal n ∧
      (decimal n ++ rest).dropWhile isDigit = rest :=
  span_digits (fun _ member => isDigit_of_mem_decimal member) ends

private theorem isDigit_bounds {b : UInt8} (digit : isDigit b = true) :
    48 ≤ b.toNat ∧ b.toNat ≤ 57 := by
  simpa [isDigit, UInt8.le_iff_toNat_le] using digit

private theorem decimal_head (n : Nat) :
    ∃ head tail, decimal n = head :: tail ∧ isDigit head = true ∧
      isSpace head = false ∧ head ≠ byte '-' ∧ head ≠ byte '+' := by
  cases shape : decimal n with
  | nil => exact absurd shape (decimal_ne_nil n)
  | cons head tail =>
      have digit : isDigit head = true := isDigit_of_mem_decimal (by rw [shape]; simp)
      have bounds := isDigit_bounds digit
      refine ⟨head, tail, rfl, digit, ?_, ?_, ?_⟩
      · simp only [isSpace, Bool.or_eq_false_iff, Bool.and_eq_false_iff, beq_eq_false_iff_ne,
          decide_eq_false_iff_not, UInt8.le_iff_toNat_le, ne_eq, ← UInt8.toNat_inj]
        refine ⟨?_, Or.inr ?_⟩ <;> simp <;> omega
      · rintro rfl
        exact absurd bounds (by decide)
      · rintro rfl
        exact absurd bounds (by decide)

theorem strtol_signedDecimal {value : Int} {rest : Bytes}
    (lower : longMin ≤ value) (upper : value ≤ longMax) (ends : EndsNumeral rest) :
    strtol (signedDecimal value ++ rest) = ⟨value, rest⟩ := by
  have clamped : clampLong value = value := by
    simp only [clampLong]
    omega
  cases value with
  | ofNat n =>
      obtain ⟨head, tail, shape, _, notSpace, notMinus, notPlus⟩ := decimal_head n
      obtain ⟨digits, remainder⟩ := takeWhile_decimal n ends
      have trimmed : (decimal n ++ rest).dropWhile isSpace = decimal n ++ rest := by
        simp [shape, notSpace]
      have first : (decimal n ++ rest).head? = some head := by simp [shape]
      simp only [signedDecimal, strtol, trimmed, first]
      simp only [Option.some_beq_some, beq_eq_false_iff_ne.mpr notMinus,
        beq_eq_false_iff_ne.mpr notPlus, Bool.or_self, Bool.false_eq_true, if_false,
        digits, remainder, decimal_ne_nil, digitsValue_decimal]
      exact congrArg (fun v => Conversion.mk v rest) clamped
  | negSucc n =>
      obtain ⟨digits, remainder⟩ := takeWhile_decimal (n + 1) ends
      have trimmed : (byte '-' :: (decimal (n + 1) ++ rest)).dropWhile isSpace =
          byte '-' :: (decimal (n + 1) ++ rest) := by
        rw [List.dropWhile_cons_of_neg (by decide)]
      simp only [signedDecimal, List.cons_append, strtol, trimmed, List.head?_cons,
        List.tail_cons, beq_self_eq_true, Bool.true_or, if_true, digits, remainder,
        decimal_ne_nil, if_false, digitsValue_decimal]
      exact congrArg (fun v => Conversion.mk v rest) clamped

theorem strtol_decimal {n : Nat} {rest : Bytes}
    (upper : (n : Int) ≤ longMax) (ends : EndsNumeral rest) :
    strtol (decimal n ++ rest) = ⟨n, rest⟩ := by
  have lower : longMin ≤ (n : Int) := by
    simp only [longMin]
    omega
  exact strtol_signedDecimal lower upper ends

theorem strtol_blank {text : Bytes} {blank : UInt8} (isBlank : isSpace blank = true) :
    (strtol (blank :: text)).value = (strtol text).value := by
  simp only [strtol, List.dropWhile_cons_of_pos isBlank, apply_ite Conversion.value]

theorem length_decimal_le {n digits : Nat} (bound : n < 10 ^ digits)
    (positive : 0 < digits) : (decimal n).length ≤ digits := by
  rw [decimal, List.length_map]
  exact (Nat.length_toDigits_le_iff (by omega) positive).mpr bound

theorem length_signedDecimal_le {value : Int} (lower : longMin ≤ value)
    (upper : value ≤ longMax) : (signedDecimal value).length ≤ 20 := by
  simp only [longMin, longMax] at lower upper
  cases value with
  | ofNat n => exact length_decimal_le (by simp at upper; omega) (by omega)
  | negSucc n =>
      have digits : (decimal (n + 1)).length ≤ 19 :=
        length_decimal_le (by omega) (by omega)
      rw [signedDecimal, List.length_cons]
      omega

theorem strtol_append {text : Bytes} {last : UInt8} (ends : text.getLast? = some last)
    (notDigit : isDigit last = false) (nonzero : (strtol text).value ≠ 0) (more : Bytes) :
    (strtol (text ++ more)).value = (strtol text).value := by
  obtain ⟨trimmed, isTrimmed⟩ : ∃ trimmed, trimmed = text.dropWhile isSpace := ⟨_, rfl⟩
  have trimmedSuffix : trimmed <:+ text := isTrimmed ▸ List.dropWhile_suffix _
  have notBlank : trimmed ≠ [] := by
    rintro rfl
    exact nonzero (by simp [strtol, ← isTrimmed])
  have longTrimmed : (text ++ more).dropWhile isSpace = trimmed ++ more := by
    rw [List.dropWhile_append, ← isTrimmed, if_neg (by simpa using notBlank)]
  have sameHead : (trimmed ++ more).head? = trimmed.head? := by
    cases trimmed with
    | nil => contradiction
    | cons first rest => rfl
  obtain ⟨sign, isSign⟩ : ∃ sign : Bool,
      sign = (trimmed.head? == some (byte '-') || trimmed.head? == some (byte '+')) :=
    ⟨_, rfl⟩
  obtain ⟨unsigned, isUnsigned⟩ : ∃ unsigned,
      unsigned = if sign then trimmed.tail else trimmed := ⟨_, rfl⟩
  have longUnsigned : (if sign then (trimmed ++ more).tail else trimmed ++ more) =
      unsigned ++ more := by
    rw [isUnsigned]
    cases sign with
    | true => exact List.tail_append_of_ne_nil notBlank
    | false => rfl
  have unsignedSuffix : unsigned <:+ text := by
    rw [isUnsigned]
    split
    · exact (List.tail_suffix _).trans trimmedSuffix
    · exact trimmedSuffix
  have digits : unsigned.takeWhile isDigit ≠ [] := by
    intro none
    apply nonzero
    simp only [strtol, ← isTrimmed, ← isSign, ← isUnsigned, none, if_true]
  have lastInside : last ∈ unsigned := by
    have nonempty : unsigned ≠ [] := by
      rintro empty
      exact digits (by rw [empty]; rfl)
    obtain ⟨before, rfl⟩ := unsignedSuffix
    rw [List.getLast?_append, List.getLast?_eq_some_getLast nonempty, Option.some_or] at ends
    exact List.mem_of_getLast? ((List.getLast?_eq_some_getLast nonempty).trans ends)
  have stops : (unsigned.takeWhile isDigit).length ≠ unsigned.length := by
    intro all
    have whole := (List.takeWhile_prefix (l := unsigned) isDigit).eq_of_length all
    have digit := List.all_eq_true.mp (List.all_takeWhile (p := isDigit) (l := unsigned)) last
      (by rw [whole]; exact lastInside)
    rw [notDigit] at digit
    contradiction
  have sameDigits : (unsigned ++ more).takeWhile isDigit = unsigned.takeWhile isDigit := by
    rw [List.takeWhile_append, if_neg stops]
  simp only [strtol, longTrimmed, sameHead, ← isTrimmed, ← isSign, longUnsigned, ← isUnsigned,
    sameDigits, if_neg digits]

end HttpFs
