import HttpFs.Foundation.Text

namespace HttpFs.Json

/-! What the inside of a JSON string stands for. -/

def hexDigitValue (c : UInt8) : Option Nat :=
  if byte '0' ≤ c ∧ c ≤ byte '9' then some (c - byte '0').toNat
  else if byte 'a' ≤ c ∧ c ≤ byte 'f' then some ((c - byte 'a').toNat + 10)
  else if byte 'A' ≤ c ∧ c ≤ byte 'F' then some ((c - byte 'A').toNat + 10)
  else none

/-- The number that the four digits behind `\u` write. -/
def codeUnit : Bytes → Option Nat
  | [first, second, third, fourth] => do
      let first ← hexDigitValue first
      let second ← hexDigitValue second
      let third ← hexDigitValue third
      let fourth ← hexDigitValue fourth
      return ((first * 16 + second) * 16 + third) * 16 + fourth
  | _ => none

/-- The byte that a backslash and this letter stand for. -/
def escapeValue (letter : UInt8) : Option UInt8 :=
  if letter = byte '"' ∨ letter = byte '\\' ∨ letter = byte '/' then some letter
  else if letter = byte 'b' then some 8
  else if letter = byte 'f' then some 12
  else if letter = byte 'n' then some (byte '\n')
  else if letter = byte 'r' then some (byte '\r')
  else if letter = byte 't' then some (byte '\t')
  else none

/-- The character of a code unit that is no surrogate. -/
def unitCharacter (value : Nat) : Option Char :=
  if 0xd800 ≤ value ∧ value < 0xe000 then none else some (Char.ofNat value)

def pairCharacter (high low : Nat) : Option Char :=
  if 0xd800 ≤ high ∧ high < 0xdc00 ∧ 0xdc00 ≤ low ∧ low < 0xe000 then
    some (Char.ofNat (0x10000 + (high - 0xd800) * 0x400 + (low - 0xdc00)))
  else
    none

/-- What the inside of a string stands for, if it is well formed. -/
def unescape : Bytes → Option Bytes
  | [] => some []
  | [c] => if 0x20 ≤ c ∧ c ≠ byte '"' ∧ c ≠ byte '\\' then some [c] else none
  | c :: letter :: rest =>
      if c ≠ byte '\\' then
        if 0x20 ≤ c ∧ c ≠ byte '"' then (unescape (letter :: rest)).map (c :: ·) else none
      else if letter ≠ byte 'u' then
        (escapeValue letter).bind fun value => (unescape rest).map (value :: ·)
      else
        match rest with
        | a :: b :: c :: d :: rest =>
            match (codeUnit [a, b, c, d]).bind unitCharacter, rest with
            | some character, rest =>
                (unescape rest).map (String.utf8EncodeChar character ++ ·)
            | none, slash :: mark :: e :: f :: g :: h :: rest =>
                if slash = byte '\\' ∧ mark = byte 'u' then
                  (codeUnit [a, b, c, d]).bind fun high =>
                    (codeUnit [e, f, g, h]).bind fun low =>
                      (pairCharacter high low).bind fun character =>
                        (unescape rest).map (String.utf8EncodeChar character ++ ·)
                else
                  none
            | none, _ => none
        | _ => none

/-- `raw` is the inside of a JSON string that stands for `text`. -/
inductive Denotes : Bytes → Bytes → Prop where
  | nil : Denotes [] []
  | plain {c : UInt8} {raw text : Bytes} (printable : 0x20 ≤ c) (notQuote : c ≠ byte '"')
      (notEscape : c ≠ byte '\\') (rest : Denotes raw text) :
      Denotes (c :: raw) (c :: text)
  | escape {letter value : UInt8} {raw text : Bytes}
      (escaped : escapeValue letter = some value) (rest : Denotes raw text) :
      Denotes (byte '\\' :: letter :: raw) (value :: text)
  | unicode {digits : Bytes} {character : Char} {raw text : Bytes}
      (coded : codeUnit digits = some character.toNat) (rest : Denotes raw text) :
      Denotes (byte '\\' :: byte 'u' :: (digits ++ raw))
        (String.utf8EncodeChar character ++ text)
  | surrogates {high low : Bytes} {first second : Nat} {character : Char}
      {raw text : Bytes} (highCoded : codeUnit high = some first)
      (lowCoded : codeUnit low = some second)
      (isHigh : 0xd800 ≤ first ∧ first < 0xdc00) (isLow : 0xdc00 ≤ second ∧ second < 0xe000)
      (combined : character.toNat = 0x10000 + (first - 0xd800) * 0x400 + (second - 0xdc00))
      (rest : Denotes raw text) :
      Denotes (byte '\\' :: byte 'u' :: (high ++ byte '\\' :: byte 'u' :: (low ++ raw)))
        (String.utf8EncodeChar character ++ text)

theorem codeUnit_digits {digits : Bytes} {value : Nat} (coded : codeUnit digits = some value) :
    ∃ first second third fourth, digits = [first, second, third, fourth] := by
  unfold codeUnit at coded
  split at coded
  · next first second third fourth => exact ⟨first, second, third, fourth, rfl⟩
  · contradiction

theorem length_of_codeUnit {digits : Bytes} {value : Nat}
    (coded : codeUnit digits = some value) : digits.length = 4 := by
  obtain ⟨_, _, _, _, rfl⟩ := codeUnit_digits coded
  rfl

private theorem hexDigitValue_ordinary {c : UInt8} {value : Nat}
    (isDigit : hexDigitValue c = some value) :
    0x20 ≤ c ∧ c ≠ byte '"' ∧ c ≠ byte '\\' := by
  have row := of_table (p := fun c => !(hexDigitValue c).isSome ||
    (decide (0x20 ≤ c) && c != byte '"' && c != byte '\\')) (by decide +kernel) c
  simpa [isDigit, and_assoc] using row

theorem codeUnit_ordinary {digits : Bytes} {value : Nat}
    (coded : codeUnit digits = some value) :
    ∀ c ∈ digits, 0x20 ≤ c ∧ c ≠ byte '"' ∧ c ≠ byte '\\' := by
  obtain ⟨first, second, third, fourth, rfl⟩ := codeUnit_digits coded
  obtain ⟨_, isFirst, coded⟩ := Option.bind_eq_some_iff.mp coded
  obtain ⟨_, isSecond, coded⟩ := Option.bind_eq_some_iff.mp coded
  obtain ⟨_, isThird, coded⟩ := Option.bind_eq_some_iff.mp coded
  obtain ⟨_, isFourth, _⟩ := Option.bind_eq_some_iff.mp coded
  simp only [List.mem_cons, List.not_mem_nil, or_false]
  rintro c (rfl | rfl | rfl | rfl)
  · exact hexDigitValue_ordinary isFirst
  · exact hexDigitValue_ordinary isSecond
  · exact hexDigitValue_ordinary isThird
  · exact hexDigitValue_ordinary isFourth

def escapeLetters : Bytes → Bytes
  | [] => []
  | [_] => []
  | c :: letter :: rest =>
      if c = byte '\\' then letter :: escapeLetters rest else escapeLetters (letter :: rest)

theorem escapeLetters_plain {c : UInt8} (notEscape : c ≠ byte '\\') (rest : Bytes) :
    escapeLetters (c :: rest) = escapeLetters rest := by
  cases rest with
  | nil => rfl
  | cons letter rest => rw [escapeLetters, if_neg notEscape]

theorem escapeLetters_escape (letter : UInt8) (rest : Bytes) :
    escapeLetters (byte '\\' :: letter :: rest) = letter :: escapeLetters rest := by
  rw [escapeLetters, if_pos rfl]

theorem escapeLetters_ordinary {before : Bytes} (ordinary : ∀ c ∈ before, c ≠ byte '\\')
    (rest : Bytes) : escapeLetters (before ++ rest) = escapeLetters rest := by
  induction before with
  | nil => rfl
  | cons c before induction =>
      rw [List.cons_append, escapeLetters_plain (ordinary c (by simp))]
      exact induction fun b member => ordinary b (by simp [member])

theorem escapeLetters_unicode {digits : Bytes} {value : Nat}
    (coded : codeUnit digits = some value) (rest : Bytes) :
    escapeLetters (byte '\\' :: byte 'u' :: (digits ++ rest)) =
      byte 'u' :: escapeLetters rest := by
  rw [escapeLetters_escape,
    escapeLetters_ordinary fun c member => (codeUnit_ordinary coded c member).2.2]

/-- A quote that no backslash stands before, other than an escaped one. -/
def hasBareQuote : Bytes → Bool
  | [] => false
  | [c] => c == byte '"'
  | c :: letter :: rest =>
      if c = byte '\\' then hasBareQuote rest
      else c == byte '"' || hasBareQuote (letter :: rest)

theorem hasBareQuote_plain {c : UInt8} (notEscape : c ≠ byte '\\') (rest : Bytes) :
    hasBareQuote (c :: rest) = (c == byte '"' || hasBareQuote rest) := by
  cases rest with
  | nil => simp [hasBareQuote]
  | cons letter rest => rw [hasBareQuote, if_neg notEscape]

theorem hasBareQuote_escape (letter : UInt8) (rest : Bytes) :
    hasBareQuote (byte '\\' :: letter :: rest) = hasBareQuote rest := by
  rw [hasBareQuote, if_pos rfl]

theorem hasBareQuote_ordinary {before : Bytes}
    (ordinary : ∀ c ∈ before, 0x20 ≤ c ∧ c ≠ byte '"' ∧ c ≠ byte '\\') (rest : Bytes) :
    hasBareQuote (before ++ rest) = hasBareQuote rest := by
  induction before with
  | nil => rfl
  | cons c before induction =>
      obtain ⟨_, notQuote, notEscape⟩ := ordinary c (by simp)
      rw [List.cons_append, hasBareQuote_plain notEscape,
        induction fun b member => ordinary b (by simp [member]),
        beq_eq_false_iff_ne.mpr notQuote, Bool.false_or]

namespace Denotes

variable {raw text raw' text' : Bytes}

theorem escapeLetters_append (denotes : Denotes raw text) (rest : Bytes) :
    escapeLetters (raw ++ rest) = escapeLetters raw ++ escapeLetters rest := by
  induction denotes with
  | nil => rfl
  | plain _ _ notEscape _ induction =>
      rw [List.cons_append, escapeLetters_plain notEscape, escapeLetters_plain notEscape,
        induction]
  | escape _ _ induction =>
      simp only [List.cons_append, escapeLetters_escape, induction]
  | unicode coded _ induction =>
      simp only [List.cons_append, List.append_assoc, escapeLetters_unicode coded, induction]
  | surrogates highCoded lowCoded _ _ _ _ induction =>
      simp only [List.cons_append, List.append_assoc, escapeLetters_unicode highCoded,
        escapeLetters_unicode lowCoded, induction]

theorem printable (denotes : Denotes raw text) : ∀ c ∈ raw, 0x20 ≤ c := by
  have digits {digits : Bytes} {value : Nat} (coded : codeUnit digits = some value) :
      ∀ c ∈ digits, 0x20 ≤ c :=
    fun c member => (codeUnit_ordinary coded c member).1
  induction denotes with
  | nil => simp
  | plain printable _ _ _ induction => exact List.forall_mem_cons.mpr ⟨printable, induction⟩
  | @escape letter _ _ _ escaped _ induction =>
      have row := of_table (p := fun c => !(escapeValue c).isSome || decide (0x20 ≤ c))
        (by decide +kernel) letter
      rw [escaped, Option.isSome_some, Bool.not_true, Bool.false_or,
        decide_eq_true_eq] at row
      exact List.forall_mem_cons.mpr
        ⟨by decide, List.forall_mem_cons.mpr ⟨row, induction⟩⟩
  | unicode coded _ induction =>
      exact List.forall_mem_cons.mpr ⟨by decide, List.forall_mem_cons.mpr ⟨by decide,
        List.forall_mem_append.mpr ⟨digits coded, induction⟩⟩⟩
  | surrogates highCoded lowCoded _ _ _ _ induction =>
      refine List.forall_mem_cons.mpr ⟨by decide, List.forall_mem_cons.mpr ⟨by decide,
        List.forall_mem_append.mpr ⟨digits highCoded, ?_⟩⟩⟩
      exact List.forall_mem_cons.mpr ⟨by decide, List.forall_mem_cons.mpr ⟨by decide,
        List.forall_mem_append.mpr ⟨digits lowCoded, induction⟩⟩⟩

theorem append (first : Denotes raw text) (second : Denotes raw' text') :
    Denotes (raw ++ raw') (text ++ text') := by
  induction first with
  | nil => exact second
  | plain printable notQuote notEscape _ induction =>
      exact .plain printable notQuote notEscape induction
  | escape escaped _ induction => exact .escape escaped induction
  | unicode coded _ induction =>
      simp only [List.cons_append, List.append_assoc]
      exact .unicode coded induction
  | surrogates highCoded lowCoded isHigh isLow combined _ induction =>
      simp only [List.cons_append, List.append_assoc]
      exact .surrogates highCoded lowCoded isHigh isLow combined induction

theorem flatMap {escape : UInt8 → Bytes} {text : Bytes}
    (each : ∀ c ∈ text, Denotes (escape c) [c]) : Denotes (text.flatMap escape) text := by
  induction text with
  | nil => exact .nil
  | cons c rest induction =>
      rw [List.flatMap_cons]
      exact (each c (by simp)).append (induction fun b member => each b (by simp [member]))

theorem length_le (denotes : Denotes raw text) : text.length ≤ raw.length := by
  induction denotes with
  | nil => exact Nat.le_refl 0
  | plain _ _ _ _ induction => exact Nat.succ_le_succ induction
  | escape _ _ induction =>
      simp only [List.length_cons]
      omega
  | @unicode _ character _ _ coded _ induction =>
      have size := character.utf8Size_le_four
      simp only [List.length_append, String.length_utf8EncodeChar, List.length_cons,
        length_of_codeUnit coded]
      omega
  | @surrogates _ _ _ _ character _ _ highCoded lowCoded _ _ _ _ induction =>
      have size := character.utf8Size_le_four
      simp only [List.length_append, String.length_utf8EncodeChar, List.length_cons,
        length_of_codeUnit highCoded, length_of_codeUnit lowCoded]
      omega

theorem length_lt (denotes : Denotes raw text) (escaped : byte '\\' ∈ raw) :
    text.length < raw.length := by
  induction denotes with
  | nil => contradiction
  | plain _ _ notEscape _ induction =>
      obtain same | later := List.mem_cons.mp escaped
      · exact absurd same.symm notEscape
      · exact Nat.succ_lt_succ (induction later)
  | escape _ rest _ =>
      have bound := rest.length_le
      simp only [List.length_cons]
      omega
  | @unicode _ character _ _ coded rest _ =>
      have bound := rest.length_le
      have size := character.utf8Size_le_four
      simp only [List.length_append, String.length_utf8EncodeChar, List.length_cons,
        length_of_codeUnit coded]
      omega
  | @surrogates _ _ _ _ character _ _ highCoded lowCoded _ _ _ rest _ =>
      have bound := rest.length_le
      have size := character.utf8Size_le_four
      simp only [List.length_append, String.length_utf8EncodeChar, List.length_cons,
        length_of_codeUnit highCoded, length_of_codeUnit lowCoded]
      omega

theorem eq_of_plain (denotes : Denotes raw text) (plain : byte '\\' ∉ raw) : raw = text := by
  induction denotes with
  | nil => rfl
  | plain _ _ _ _ induction =>
      rw [induction fun member => plain (List.mem_cons_of_mem _ member)]
  | escape _ _ _ => simp at plain
  | unicode _ _ _ => simp at plain
  | surrogates _ _ _ _ _ _ _ => simp at plain

/-- The inside of a string is its own meaning just when nothing in it is escaped. -/
theorem eq_iff (denotes : Denotes raw text) : raw = text ↔ byte '\\' ∉ raw := by
  constructor
  · intro same escaped
    have shorter := denotes.length_lt escaped
    rw [same] at shorter
    exact Nat.lt_irrefl _ shorter
  · exact denotes.eq_of_plain

theorem unitCharacter_toNat (character : Char) :
    unitCharacter character.toNat = some character := by
  have valid : ¬ (0xd800 ≤ character.toNat ∧ character.toNat < 0xe000) := by
    have scalar := character.valid
    simp only [UInt32.isValidChar, Nat.isValidChar] at scalar
    have same : character.val.toNat = character.toNat := rfl
    omega
  rw [unitCharacter, if_neg valid, Char.ofNat_toNat]

/-- Two texts that one string stands for are the same. -/
theorem unescape_eq (denotes : Denotes raw text) : unescape raw = some text := by
  induction denotes with
  | nil => rfl
  | @plain c raw text printable notQuote notEscape _ induction =>
      cases raw with
      | nil =>
          cases induction
          rw [unescape, if_pos ⟨printable, notQuote, notEscape⟩]
      | cons letter rest =>
          rw [unescape.eq_def]
          simp only [if_pos notEscape, if_pos (And.intro printable notQuote), induction,
            Option.map_some]
  | @escape letter value raw text escaped _ induction =>
      have notUnit : letter ≠ byte 'u' := by
        rintro rfl
        have unknown : escapeValue (byte 'u') = none := by decide
        rw [unknown] at escaped
        contradiction
      rw [unescape.eq_def]
      simp only [ne_eq, not_true_eq_false, if_false, notUnit, not_false_eq_true, if_true,
        escaped, Option.bind_some, induction, Option.map_some]
  | @unicode digits character raw text coded _ induction =>
      obtain ⟨a, b, c, d, rfl⟩ := codeUnit_digits coded
      have isUnit : (codeUnit [a, b, c, d]).bind unitCharacter = some character := by
        rw [coded, Option.bind_some, unitCharacter_toNat]
      simp only [List.cons_append, List.nil_append]
      rw [unescape.eq_def]
      simp only [ne_eq, not_true_eq_false, if_false, isUnit, induction, Option.map_some]
  | @surrogates high low first second character raw text highCoded lowCoded isHigh isLow
      combined _ induction =>
      obtain ⟨a, b, c, d, rfl⟩ := codeUnit_digits highCoded
      obtain ⟨e, f, g, h, rfl⟩ := codeUnit_digits lowCoded
      have noUnit : unitCharacter first = none := by
        rw [unitCharacter, if_pos ⟨isHigh.1, by omega⟩]
      have isPair : pairCharacter first second = some character := by
        rw [pairCharacter, if_pos ⟨isHigh.1, isHigh.2, isLow.1, isLow.2⟩, ← combined,
          Char.ofNat_toNat]
      simp only [List.cons_append, List.nil_append]
      rw [unescape.eq_def]
      simp only [ne_eq, not_true_eq_false, if_false, noUnit, and_self, if_true, highCoded,
        lowCoded, Option.bind_some, isPair, induction, Option.map_some]

theorem hasBareQuote_eq (denotes : Denotes raw text) : hasBareQuote raw = false := by
  induction denotes with
  | nil => rfl
  | plain _ notQuote notEscape _ induction =>
      rw [hasBareQuote_plain notEscape, induction, Bool.or_false]
      simpa using notQuote
  | escape _ _ induction => rw [hasBareQuote_escape, induction]
  | @unicode digits _ _ _ coded _ induction =>
      rw [hasBareQuote_escape, hasBareQuote_ordinary (codeUnit_ordinary coded), induction]
  | surrogates highCoded lowCoded _ _ _ _ induction =>
      rw [hasBareQuote_escape, hasBareQuote_ordinary (codeUnit_ordinary highCoded),
        hasBareQuote_escape, hasBareQuote_ordinary (codeUnit_ordinary lowCoded), induction]

end Denotes

end HttpFs.Json
