import HttpFs.Foundation.Json
import HttpFs.Foundation.JsonStrings
import HttpFs.Foundation.Numeral

namespace HttpFs.Json

section Strings

theorem hexDigitValue_lt {c : UInt8} {value : Nat} (isDigit : hexDigitValue c = some value) :
    value < 16 := by
  have row := of_table (p := fun c => (hexDigitValue c).all fun value => decide (value < 16))
    (by decide +kernel) c
  simpa [isDigit] using row

theorem codeUnit_lt {digits : Bytes} {value : Nat} (coded : codeUnit digits = some value) :
    value < 0x10000 := by
  obtain ⟨first, second, third, fourth, rfl⟩ := codeUnit_digits coded
  obtain ⟨_, isFirst, coded⟩ := Option.bind_eq_some_iff.mp coded
  obtain ⟨_, isSecond, coded⟩ := Option.bind_eq_some_iff.mp coded
  obtain ⟨_, isThird, coded⟩ := Option.bind_eq_some_iff.mp coded
  obtain ⟨_, isFourth, coded⟩ := Option.bind_eq_some_iff.mp coded
  cases coded
  have bounds := And.intro (hexDigitValue_lt isFirst) (And.intro (hexDigitValue_lt isSecond)
    (And.intro (hexDigitValue_lt isThird) (hexDigitValue_lt isFourth)))
  omega

private theorem toNat_ofNat {value : Nat} (valid : value.isValidChar) :
    (Char.ofNat value).toNat = value := by
  rw [Char.ofNat, dif_pos valid]
  rfl

theorem toNat_unitCharacter {value : Nat} {character : Char} (small : value < 0x10000)
    (isCharacter : unitCharacter value = some character) : character.toNat = value := by
  unfold unitCharacter at isCharacter
  split at isCharacter
  · contradiction
  · next scalar =>
    rw [← Option.some.inj isCharacter, toNat_ofNat]
    simp only [Nat.isValidChar]
    omega

theorem toNat_pairCharacter {high low : Nat} {character : Char}
    (isCharacter : pairCharacter high low = some character) :
    (0xd800 ≤ high ∧ high < 0xdc00) ∧ (0xdc00 ≤ low ∧ low < 0xe000) ∧
      character.toNat = 0x10000 + (high - 0xd800) * 0x400 + (low - 0xdc00) := by
  unfold pairCharacter at isCharacter
  split at isCharacter
  · next surrogates =>
    obtain ⟨highFirst, highLast, lowFirst, lowLast⟩ := surrogates
    refine ⟨⟨highFirst, highLast⟩, ⟨lowFirst, lowLast⟩, ?_⟩
    rw [← Option.some.inj isCharacter, toNat_ofNat]
    simp only [Nat.isValidChar]
    omega
  · contradiction

/-- `unescape` accepts the strings of the standard and no others. -/
theorem unescape_eq_some_iff {raw text : Bytes} : unescape raw = some text ↔ Denotes raw text := by
  refine ⟨fun meant => ?_, fun denotes => denotes.unescape_eq⟩
  fun_induction unescape raw generalizing text with
  | case1 =>
      cases meant
      exact .nil
  | case2 c ordinary =>
      cases meant
      exact .plain ordinary.1 ordinary.2.1 ordinary.2.2 .nil
  | case4 c letter rest notEscape ordinary induction =>
      obtain ⟨others, isOthers, rfl⟩ := Option.map_eq_some_iff.mp meant
      exact .plain ordinary.1 ordinary.2 notEscape (induction isOthers)
  | case6 c letter rest escape notUnit induction =>
      obtain rfl := Decidable.not_not.mp escape
      obtain ⟨value, escaped, mapped⟩ := Option.bind_eq_some_iff.mp meant
      obtain ⟨others, isOthers, rfl⟩ := Option.map_eq_some_iff.mp mapped
      exact .escape escaped (induction isOthers)
  | case7 slash letter escape unit a b c d character rest isUnit induction =>
      obtain rfl := Decidable.not_not.mp escape
      obtain rfl := Decidable.not_not.mp unit
      obtain ⟨value, coded, isCharacter⟩ := Option.bind_eq_some_iff.mp isUnit
      obtain ⟨others, isOthers, rfl⟩ := Option.map_eq_some_iff.mp meant
      have isValue := toNat_unitCharacter (codeUnit_lt coded) isCharacter
      exact @Denotes.unicode [a, b, c, d] character rest others (isValue ▸ coded)
        (induction isOthers)
  | case8 slash letter escape unit a b c d slash' mark e f g h rest noUnit isPair induction =>
      obtain rfl := Decidable.not_not.mp escape
      obtain rfl := Decidable.not_not.mp unit
      obtain ⟨rfl, rfl⟩ := isPair
      obtain ⟨high, highCoded, combined⟩ := Option.bind_eq_some_iff.mp meant
      obtain ⟨low, lowCoded, combined⟩ := Option.bind_eq_some_iff.mp combined
      obtain ⟨character, isCharacter, mapped⟩ := Option.bind_eq_some_iff.mp combined
      obtain ⟨others, isOthers, rfl⟩ := Option.map_eq_some_iff.mp mapped
      obtain ⟨isHigh, isLow, isValue⟩ := toNat_pairCharacter isCharacter
      exact @Denotes.surrogates [a, b, c, d] [e, f, g, h] high low character rest others
        highCoded lowCoded isHigh isLow isValue (induction isOthers)
  | case3 | case5 | case9 | case10 | case11 => contradiction

end Strings

/-! Documents of the JSON standard without white space, whose numbers are integers. -/

/-- Digits without a zero in front of others. -/
def isNatural : Bytes → Bool
  | [] => false
  | [c] => isDigit c
  | c :: rest => isDigit c && c != byte '0' && rest.all isDigit

def isInteger : Bytes → Bool
  | [] => false
  | c :: rest => if c = byte '-' then isNatural rest else isNatural (c :: rest)

def isString (raw : Bytes) : Bool := (unescape raw).isSome

mutual
def Value.Compact : Value → Prop
  | .string raw => isString raw = true
  | .primitive raw => isInteger raw = true
  | .array items => items.Compact
  | .object members => members.Compact

def Items.Compact : Items → Prop
  | .nil gap => gap = []
  | .cons before value after rest =>
      before = [] ∧ value.Compact ∧ after = [] ∧ rest.Compact

def Members.Compact : Members → Prop
  | .nil gap => gap = []
  | .cons before key keyGap valueGap value after rest =>
      before = [] ∧ isString key = true ∧ keyGap = [] ∧ valueGap = [] ∧ value.Compact ∧
        after = [] ∧ rest.Compact
end

theorem isString_iff {raw : Bytes} : isString raw = true ↔ ∃ text, Denotes raw text := by
  simp only [isString, Option.isSome_iff_exists, unescape_eq_some_iff]

theorem isString_plain {raw : Bytes}
    (plain : ∀ c ∈ raw, 0x20 ≤ c ∧ c ≠ byte '"' ∧ c ≠ byte '\\') : isString raw = true := by
  refine isString_iff.mpr ⟨raw, ?_⟩
  induction raw with
  | nil => exact .nil
  | cons c rest induction =>
      obtain ⟨⟨printable, notQuote, notEscape⟩, others⟩ := List.forall_mem_cons.mp plain
      exact .plain printable notQuote notEscape (induction others)

section Numbers

theorem decimal_of_lt {n : Nat} (small : n < 10) : decimal n = [byte n.digitChar] := by
  rw [decimal, Nat.toDigits_of_lt_base small, List.map_singleton]

theorem decimal_of_le {n : Nat} (large : 10 ≤ n) :
    decimal n = decimal (n / 10) ++ [byte (n % 10).digitChar] := by
  rw [decimal, Nat.toDigits_of_base_le (by omega) large, List.map_append, List.map_singleton,
    decimal]

private theorem digit_ne_zero {n : Nat} (small : n < 10) (positive : 0 < n) :
    byte n.digitChar ≠ byte '0' := by
  have digits : ∀ n < 10, 0 < n → byte n.digitChar ≠ byte '0' := by decide
  exact digits n small positive

/-- The first digit of a positive number is not zero. -/
theorem head_decimal {n : Nat} (positive : 0 < n) : (decimal n).head? ≠ some (byte '0') := by
  induction n using Nat.strongRecOn with
  | ind n induction =>
      rcases Nat.lt_or_ge n 10 with small | large
      · rw [decimal_of_lt small, List.head?_cons]
        exact fun same => digit_ne_zero small positive (Option.some.inj same)
      · obtain ⟨c, rest, isText⟩ := List.exists_cons_of_ne_nil (decimal_ne_nil (n / 10))
        have first := induction (n / 10) (by omega) (by omega)
        rw [isText] at first
        rw [decimal_of_le large, isText]
        exact first

theorem isNatural_of_head {digits : Bytes} (nonempty : digits ≠ [])
    (areDigits : ∀ c ∈ digits, isDigit c = true) (head : digits.head? ≠ some (byte '0')) :
    isNatural digits = true := by
  cases digits with
  | nil => contradiction
  | cons c rest =>
      obtain ⟨first, others⟩ := List.forall_mem_cons.mp areDigits
      cases rest with
      | nil => exact first
      | cons d rest =>
          have notZero : c ≠ byte '0' := fun same => head (congrArg some same)
          simp only [isNatural, first, Bool.true_and, Bool.and_eq_true, bne_iff_ne]
          exact ⟨notZero, List.all_eq_true.mpr others⟩

theorem isNatural_decimal (n : Nat) : isNatural (decimal n) = true := by
  cases n with
  | zero => decide
  | succ n =>
      exact isNatural_of_head (decimal_ne_nil _) (fun _ => isDigit_of_mem_decimal)
        (head_decimal (Nat.succ_pos n))

theorem isInteger_decimal (n : Nat) : isInteger (decimal n) = true := by
  have natural := isNatural_decimal n
  cases isText : decimal n with
  | nil => exact absurd isText (decimal_ne_nil n)
  | cons c rest =>
      have digit : isDigit c = true := isDigit_of_mem_decimal (isText ▸ List.mem_cons_self ..)
      have notMinus : c ≠ byte '-' := by
        rintro rfl
        exact absurd digit (by decide)
      rw [isInteger, if_neg notMinus, ← isText]
      exact natural

theorem isInteger_signedDecimal (value : Int) : isInteger (signedDecimal value) = true := by
  cases value with
  | ofNat n => exact isInteger_decimal n
  | negSucc n =>
      have minus : signedDecimal (Int.negSucc n) = byte '-' :: decimal (n + 1) := rfl
      rw [minus, isInteger, if_pos rfl]
      exact isNatural_decimal (n + 1)

theorem digits_of_isNatural {raw : Bytes} (natural : isNatural raw = true) :
    raw ≠ [] ∧ ∀ c ∈ raw, isDigit c = true := by
  cases raw with
  | nil => contradiction
  | cons c rest =>
      refine ⟨List.cons_ne_nil c rest, ?_⟩
      cases rest with
      | nil => simpa [isNatural] using natural
      | cons d rest =>
          simp only [isNatural, Bool.and_eq_true, List.all_eq_true] at natural
          exact List.forall_mem_cons.mpr ⟨natural.1.1, natural.2⟩

theorem characters_of_isInteger {raw : Bytes} (integer : isInteger raw = true) :
    raw ≠ [] ∧ ∀ c ∈ raw, isDigit c = true ∨ c = byte '-' := by
  cases raw with
  | nil => contradiction
  | cons c rest =>
      refine ⟨List.cons_ne_nil c rest, ?_⟩
      rw [isInteger] at integer
      split at integer
      · next minus =>
        have digits := (digits_of_isNatural integer).2
        exact List.forall_mem_cons.mpr ⟨.inr minus, fun d member => .inl (digits d member)⟩
      · have digits := (digits_of_isNatural integer).2
        exact fun d member => .inl (digits d member)

end Numbers

section Lexical

variable {isText isPrimitive : Bytes → Bool}

private theorem isGap_of_nil {gap : Bytes} (empty : gap = []) : isGap gap = true := by
  rw [empty, isGap_nil]

/-! A compact document is one of every syntax that has its strings and its numbers. -/

mutual
theorem Value.Compact.lexical (strings : ∀ raw, isString raw = true → isText raw = true)
    (integers : ∀ raw, isInteger raw = true → isPrimitive raw = true) :
    ∀ {value : Value}, value.Compact → value.Lexical isText isPrimitive
  | .string raw, compact => strings raw compact
  | .primitive raw, compact => integers raw compact
  | .array items, compact => @Items.Compact.lexical strings integers items compact
  | .object members, compact => @Members.Compact.lexical strings integers members compact

theorem Items.Compact.lexical (strings : ∀ raw, isString raw = true → isText raw = true)
    (integers : ∀ raw, isInteger raw = true → isPrimitive raw = true) :
    ∀ {items : Items}, items.Compact → items.Lexical isText isPrimitive
  | .nil _, gap => isGap_of_nil gap
  | .cons _ _ _ _, ⟨before, value, after, rest⟩ =>
      ⟨isGap_of_nil before, value.lexical strings integers, isGap_of_nil after,
        rest.lexical strings integers⟩

theorem Members.Compact.lexical (strings : ∀ raw, isString raw = true → isText raw = true)
    (integers : ∀ raw, isInteger raw = true → isPrimitive raw = true) :
    ∀ {members : Members}, members.Compact → members.Lexical isText isPrimitive
  | .nil _, gap => isGap_of_nil gap
  | .cons _ _ _ _ _ _ _, ⟨before, key, keyGap, valueGap, value, after, rest⟩ =>
      ⟨isGap_of_nil before, strings _ key, isGap_of_nil keyGap, isGap_of_nil valueGap,
        value.lexical strings integers, isGap_of_nil after, rest.lexical strings integers⟩
end

end Lexical

section Printable

/-- A text without control characters. -/
def Printable (text : Bytes) : Prop := ∀ c ∈ text, 0x20 ≤ c

theorem Printable.append {text rest : Bytes} (first : Printable text)
    (second : Printable rest) : Printable (text ++ rest) :=
  List.forall_mem_append.mpr ⟨first, second⟩

theorem Printable.cons {c : UInt8} {rest : Bytes} (first : 0x20 ≤ c)
    (second : Printable rest) : Printable (c :: rest) :=
  List.forall_mem_cons.mpr ⟨first, second⟩

theorem printable_nil : Printable [] := by simp [Printable]

theorem printable_string {raw : Bytes} (string : isString raw = true) : Printable raw := by
  obtain ⟨text, denotes⟩ := isString_iff.mp string
  exact denotes.printable

theorem printable_quoted {raw : Bytes} (string : isString raw = true) :
    Printable (quoted raw) :=
  .cons (by decide) ((printable_string string).append (.cons (by decide) printable_nil))

theorem printable_integer {raw : Bytes} (integer : isInteger raw = true) : Printable raw := by
  intro c member
  obtain digit | rfl := (characters_of_isInteger integer).2 c member
  · have row := of_table (p := fun c => !isDigit c || decide (0x20 ≤ c)) (by decide +kernel) c
    simpa [digit] using row
  · decide

theorem printable_itemSeparator (items : Items) : Printable items.separator := by
  cases items with
  | nil => exact printable_nil
  | cons => exact .cons (by decide) printable_nil

theorem printable_memberSeparator (members : Members) : Printable members.separator := by
  cases members with
  | nil => exact printable_nil
  | cons => exact .cons (by decide) printable_nil

mutual
theorem Value.Compact.printable : ∀ {value : Value}, value.Compact → Printable value.text
  | .string _, compact => printable_quoted compact
  | .primitive _, compact => printable_integer compact
  | .array items, compact =>
      .cons (by decide) ((@Items.Compact.printable items compact).append
        (.cons (by decide) printable_nil))
  | .object members, compact =>
      .cons (by decide) ((@Members.Compact.printable members compact).append
        (.cons (by decide) printable_nil))

theorem Items.Compact.printable : ∀ {items : Items}, items.Compact → Printable items.text
  | .nil _, rfl => printable_nil
  | .cons _ _ _ others, ⟨rfl, value, rfl, rest⟩ =>
      value.printable.append ((printable_itemSeparator others).append rest.printable)

theorem Members.Compact.printable :
    ∀ {members : Members}, members.Compact → Printable members.text
  | .nil _, rfl => printable_nil
  | .cons _ _ _ _ _ _ others, ⟨rfl, key, rfl, rfl, value, rfl, rest⟩ =>
      (printable_quoted key).append (.cons (by decide) (value.printable.append
        ((printable_memberSeparator others).append rest.printable)))
end

end Printable

section Fields

variable {key : Bytes} {value : Value}

theorem Members.Compact.field {rest : Members} (isKey : isString key = true)
    (isValue : value.Compact) (others : rest.Compact) :
    (Members.cons [] key [] [] value [] rest).Compact :=
  ⟨rfl, isKey, rfl, rfl, isValue, rfl, others⟩

theorem Members.Compact.last (isKey : isString key = true) (isValue : value.Compact) :
    (Members.cons [] key [] [] value [] (.nil [])).Compact :=
  .field isKey isValue rfl

theorem Items.Compact.item {rest : Items} (isValue : value.Compact) (others : rest.Compact) :
    (Items.cons [] value [] rest).Compact :=
  ⟨rfl, isValue, rfl, others⟩

end Fields

end HttpFs.Json
