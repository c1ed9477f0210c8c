import HttpFs.Foundation.JsonStrings
import HttpFs.HashUtils

namespace HttpFs

/-- The letter of a two-byte escape; code 8 is `\b` and code 12 is `\f`. -/
def shortEscape (ch : UInt8) : Option UInt8 :=
  if ch = byte '\\' ∨ ch = byte '"' then some ch
  else if ch = 8 then some (byte 'b')
  else if ch = 12 then some (byte 'f')
  else if ch = byte '\n' then some (byte 'n')
  else if ch = byte '\r' then some (byte 'r')
  else if ch = byte '\t' then some (byte 't')
  else none

/-- `\u%04x` of a byte. -/
def unicodeEscape (ch : UInt8) : Bytes :=
  ascii "\\u00" ++ [hexDigit (ch >>> 4), hexDigit (ch &&& 0x0f)]

/-- The loop of `json_escape_string` with the output written so far. -/
def jsonEscapeLoop (outputSize : Nat) : Bytes → Bytes → Option Bytes
  | [], output => some output
  | ch :: rest, output =>
      if output.length + 2 ≥ outputSize then
        none
      else
        match shortEscape ch with
        | some letter => jsonEscapeLoop outputSize rest (output ++ [byte '\\', letter])
        | none =>
            if ch < 0x20 then
              if output.length + 6 ≥ outputSize then
                none
              else
                jsonEscapeLoop outputSize rest (output ++ unicodeEscape ch)
            else
              jsonEscapeLoop outputSize rest (output ++ [ch])

def jsonEscapeString (input : Bytes) (outputSize : Nat) : Option Bytes :=
  if outputSize = 0 then none else jsonEscapeLoop outputSize (cString input) []

/-- What `json_escape_string` writes for one byte. -/
def escapeByte (ch : UInt8) : Bytes :=
  match shortEscape ch with
  | some letter => [byte '\\', letter]
  | none => if ch < 0x20 then unicodeEscape ch else [ch]

theorem jsonEscapeLoop_eq {outputSize : Nat} {input output result : Bytes}
    (escaped : jsonEscapeLoop outputSize input output = some result) :
    result = output ++ input.flatMap escapeByte := by
  induction input generalizing output with
  | nil =>
      simp only [jsonEscapeLoop, Option.some.injEq] at escaped
      simp [escaped]
  | cons ch rest induction =>
      simp only [jsonEscapeLoop] at escaped
      split at escaped
      · contradiction
      · split at escaped
        · next letter short =>
          simp [induction escaped, escapeByte, short]
        · next short =>
          split at escaped
          · next control =>
            split at escaped
            · contradiction
            · simp [induction escaped, escapeByte, short, control]
          · next printable =>
            simp [induction escaped, escapeByte, short, printable]

theorem jsonEscapeString_eq {input result : Bytes} {outputSize : Nat}
    (escaped : jsonEscapeString input outputSize = some result) :
    result = (cString input).flatMap escapeByte := by
  simp only [jsonEscapeString] at escaped
  split at escaped
  · contradiction
  · simpa using jsonEscapeLoop_eq escaped

theorem jsonEscapeLoop_length {outputSize : Nat} {input output result : Bytes}
    (escaped : jsonEscapeLoop outputSize input output = some result)
    (room : output.length < outputSize) : result.length < outputSize := by
  induction input generalizing output with
  | nil =>
      simp only [jsonEscapeLoop, Option.some.injEq] at escaped
      rwa [← escaped]
  | cons ch rest induction =>
      simp only [jsonEscapeLoop] at escaped
      split at escaped
      · contradiction
      next two =>
      split at escaped
      · apply induction escaped
        simp only [List.length_append, List.length_cons, List.length_nil]
        omega
      · split at escaped
        · split at escaped
          · contradiction
          · next six =>
            apply induction escaped
            have length : (unicodeEscape ch).length = 6 := rfl
            rw [List.length_append, length]
            omega
        · apply induction escaped
          simp only [List.length_append, List.length_cons, List.length_nil]
          omega

theorem jsonEscapeString_length {input result : Bytes} {outputSize : Nat}
    (escaped : jsonEscapeString input outputSize = some result) :
    result.length < outputSize := by
  simp only [jsonEscapeString] at escaped
  split at escaped
  · contradiction
  · next positive => exact jsonEscapeLoop_length escaped (by simp; omega)

/-- Room for the escaped text and two bytes more is enough. -/
theorem jsonEscapeLoop_fits {outputSize : Nat} {input output : Bytes}
    (room : output.length + (input.flatMap escapeByte).length + 2 ≤ outputSize) :
    jsonEscapeLoop outputSize input output = some (output ++ input.flatMap escapeByte) := by
  induction input generalizing output with
  | nil => simp [jsonEscapeLoop]
  | cons ch rest induction =>
      rw [List.flatMap_cons, List.length_append] at room
      have next (escaped : Bytes) (isEscaped : escapeByte ch = escaped) :
          jsonEscapeLoop outputSize rest (output ++ escaped) =
            some (output ++ (ch :: rest).flatMap escapeByte) := by
        rw [induction (by rw [List.length_append, ← isEscaped]; omega), List.flatMap_cons,
          isEscaped, List.append_assoc]
      rw [jsonEscapeLoop]
      simp only [escapeByte] at room
      cases short : shortEscape ch with
      | some letter =>
          simp only [short, List.length_cons, List.length_nil] at room
          rw [if_neg (by omega)]
          exact next _ (by simp only [escapeByte, short])
      | none =>
          by_cases control : ch < 0x20
          · have six : (unicodeEscape ch).length = 6 := rfl
            simp only [short, control, if_true, six] at room
            rw [if_neg (by omega)]
            simp only [control, if_true]
            rw [if_neg (by omega)]
            exact next _ (by simp only [escapeByte, short, control, if_true])
          · simp only [short, control, if_false, List.length_cons, List.length_nil] at room
            rw [if_neg (by omega)]
            simp only [control, if_false]
            exact next _ (by simp only [escapeByte, short, control, if_false])

theorem zero_not_mem_escapeByte {ch : UInt8} (nonzero : ch ≠ 0) : 0 ∉ escapeByte ch := by
  have digit : ∀ nibble : UInt8, nibble.toNat < 16 → (0 : UInt8) ≠ hexDigit nibble := by
    intro nibble bound zero
    have lower := isLowerHex_hexDigit bound
    rw [← zero] at lower
    exact absurd lower (by decide)
  simp only [escapeByte]
  split
  · next letter short =>
    have letterNonzero : letter ≠ 0 := by
      intro zero
      subst zero
      simp only [shortEscape] at short
      split at short
      · exact nonzero (Option.some.inj short)
      · repeat' split at short
        all_goals exact absurd short (by decide)
    simp only [List.mem_cons, List.not_mem_nil, or_false, not_or]
    exact ⟨by decide, Ne.symm letterNonzero⟩
  · split
    · simp only [unicodeEscape, List.mem_append, List.mem_cons, List.not_mem_nil, or_false,
        not_or]
      exact ⟨by decide, digit _ (toNat_high_lt ch), digit _ (toNat_low_lt ch)⟩
    · simpa using Ne.symm nonzero

theorem shortEscape_none {ch : UInt8} (none : shortEscape ch = none) :
    ch ≠ byte '\\' ∧ ch ≠ byte '"' := by
  constructor
  · rintro rfl
    exact absurd none (by decide)
  · rintro rfl
    exact absurd none (by decide)

open Json

private theorem denotes_unicodeEscape {ch : UInt8} (control : ch < 0x20) :
    Denotes (unicodeEscape ch) [ch] := by
  have row := of_table (p := fun ch => !decide (ch < 0x20) ||
    (codeUnit [byte '0', byte '0', hexDigit (ch >>> 4), hexDigit (ch &&& 0x0f)] ==
      some (Char.ofNat ch.toNat).toNat &&
      String.utf8EncodeChar (Char.ofNat ch.toNat) == [ch])) (by decide +kernel) ch
  rw [decide_eq_true control, Bool.not_true, Bool.false_or, Bool.and_eq_true, beq_iff_eq,
    beq_iff_eq] at row
  have denotes := Denotes.unicode row.1 Denotes.nil
  rw [row.2] at denotes
  exact denotes

theorem denotes_escapeByte (ch : UInt8) : Denotes (escapeByte ch) [ch] := by
  simp only [escapeByte]
  cases short : shortEscape ch with
  | some letter =>
      have row := of_table (p := fun ch => (shortEscape ch).all fun letter =>
        escapeValue letter == some ch) (by decide +kernel) ch
      rw [short, Option.all_some, beq_iff_eq] at row
      exact .escape row .nil
  | none =>
      by_cases control : ch < 0x20
      · simp only [control, if_true]
        exact denotes_unicodeEscape control
      · obtain ⟨notEscape, notQuote⟩ := shortEscape_none short
        simp only [control, if_false]
        exact .plain (UInt8.not_lt.mp control) notQuote notEscape .nil

end HttpFs
