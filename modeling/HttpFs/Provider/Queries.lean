import HttpFs.Provider.Decode

namespace HttpFs

def isUnreserved (c : UInt8) : Bool :=
  (48 ≤ c && c ≤ 57) || (65 ≤ c && c ≤ 90) || (97 ≤ c && c ≤ 122) ||
    c == byte '-' || c == byte '.' || c == byte '_' || c == byte '~'

def upperHexDigit (nibble : UInt8) : UInt8 :=
  (ascii "0123456789ABCDEF").getD nibble.toNat 0

/-- What `curl_easy_escape` is documented to do to a byte. -/
def percentEncodeByte (c : UInt8) : Bytes :=
  if isUnreserved c then [c]
  else [byte '%', upperHexDigit (c >>> 4), upperHexDigit (c &&& 0x0f)]

def percentEncode (text : Bytes) : Bytes := text.flatMap percentEncodeByte

def isEncoded (c : UInt8) : Bool := isUnreserved c || c == byte '%'

/-- What a request line and a query give a meaning of their own. -/
def isReserved (c : UInt8) : Bool :=
  c == 0 || isSpace c || c == byte '?' || c == byte '&' || c == byte '=' || c == byte '+'

theorem isEncoded_percentEncode (text : Bytes) : (percentEncode text).all isEncoded = true := by
  simp only [percentEncode, List.all_flatMap, List.all_eq_true]
  intro c _
  rw [← List.all_eq_true]
  exact of_table (p := fun c => (percentEncodeByte c).all isEncoded) (by decide +kernel) c

theorem isEncoded_decimal (n : Nat) : (decimal n).all isEncoded = true := by
  rw [List.all_eq_true]
  intro c member
  have row := of_table (p := fun c => !isDigit c || isEncoded c) (by decide +kernel) c
  simpa [isDigit_of_mem_decimal member] using row

theorem isEncoded_signedDecimal (value : Int) :
    (signedDecimal value).all isEncoded = true := by
  cases value with
  | ofNat n => exact isEncoded_decimal n
  | negSucc n =>
      rw [signedDecimal, List.all_cons, isEncoded_decimal, Bool.and_true]
      decide

private theorem urlDecodeLoop_byte {outputSize : Nat} {c : UInt8} {rest output : Bytes}
    (free : ¬ output.length + 1 ≥ outputSize) (notPercent : c ≠ byte '%')
    (notPlus : c ≠ byte '+') :
    urlDecodeLoop outputSize (c :: rest) output =
      urlDecodeLoop outputSize rest (output ++ [c]) := by
  rw [urlDecodeLoop.eq_def]
  simp only [if_neg free, if_neg notPercent, if_neg notPlus]

theorem hexValue_upperHexDigits (c : UInt8) :
    ∃ high low, hexValue (upperHexDigit (c >>> 4)) = some high ∧
      hexValue (upperHexDigit (c &&& 0x0f)) = some low ∧ (high <<< 4) ||| low = c := by
  have digits := of_table (p := fun c =>
    (hexValue (upperHexDigit (c >>> 4))).any fun high : UInt8 =>
      (hexValue (upperHexDigit (c &&& 0x0f))).any fun low : UInt8 => (high <<< 4) ||| low == c)
    (by decide +kernel) c
  simpa only [Option.any_eq_true, beq_iff_eq, exists_and_left] using digits

theorem urlDecodeLoop_percentEncode {outputSize : Nat} {text output : Bytes}
    (room : output.length + text.length < outputSize) :
    urlDecodeLoop outputSize (percentEncode text) output = some (output ++ text) := by
  induction text generalizing output with
  | nil => simp [percentEncode, urlDecodeLoop]
  | cons c rest induction =>
      rw [List.length_cons] at room
      have free : ¬ output.length + 1 ≥ outputSize := by omega
      have next : urlDecodeLoop outputSize (percentEncode rest) (output ++ [c]) =
          some (output ++ c :: rest) := by
        rw [induction (by simp; omega)]
        simp
      have split : percentEncode (c :: rest) = percentEncodeByte c ++ percentEncode rest := rfl
      rw [split, percentEncodeByte]
      cases unreserved : isUnreserved c with
      | true =>
          have plain := of_table (p := fun c => !isUnreserved c ||
            (c != byte '%' && c != byte '+')) (by decide +kernel) c
          simp only [unreserved, Bool.not_true, Bool.false_or, Bool.and_eq_true, bne_iff_ne,
            ne_eq] at plain
          rw [if_pos rfl, List.singleton_append, urlDecodeLoop_byte free plain.1 plain.2, next]
      | false =>
          obtain ⟨high, low, isHigh, isLow, same⟩ := hexValue_upperHexDigits c
          rw [if_neg (by simp)]
          simp only [List.cons_append, List.nil_append, urlDecodeLoop, if_neg free, if_true,
            isHigh, isLow]
          rw [same, next]

theorem urlDecodeLoop_plain {outputSize : Nat} {text output : Bytes}
    (plain : ∀ c ∈ text, c ≠ byte '%' ∧ c ≠ byte '+')
    (room : output.length + text.length < outputSize) :
    urlDecodeLoop outputSize text output = some (output ++ text) := by
  induction text generalizing output with
  | nil => simp [urlDecodeLoop]
  | cons c rest induction =>
      rw [List.length_cons] at room
      have notSpecial := plain c (by simp)
      rw [urlDecodeLoop_byte (by omega) notSpecial.1 notSpecial.2,
        induction (fun b member => plain b (by simp [member])) (by simp; omega)]
      simp

def joinQuery (parameters : List (Bytes × Bytes)) : Bytes :=
  [byte '&'].intercalate (parameters.map fun parameter =>
    parameter.1 ++ byte '=' :: parameter.2)

theorem querySegmentValue_parameters {key : Bytes} {outputSize : Nat}
    {parameters : List (Bytes × Bytes)}
    (names : ∀ parameter ∈ parameters, byte '=' ∉ parameter.1) :
    querySegmentValue key outputSize
        (parameters.map fun parameter => parameter.1 ++ byte '=' :: parameter.2) =
      (parameters.find? fun parameter => parameter.1 == key).bind fun parameter =>
        if parameter.2.length + 1 > 2048 then none else urlDecode parameter.2 outputSize := by
  induction parameters with
  | nil => rfl
  | cons parameter rest induction =>
      obtain ⟨name, encoded⟩ := parameter
      have noMark : byte '=' ∉ name := names (name, encoded) (by simp)
      have isName : (name ++ byte '=' :: encoded).takeWhile (fun c => c != byte '=') =
          name := by
        rw [List.takeWhile_append_of_pos (by
          intro c member
          rw [bne_iff_ne]
          rintro rfl
          exact noMark member)]
        simp
      have isEncoded : (name ++ byte '=' :: encoded).drop (name.length + 1) = encoded := by
        rw [List.drop_append]
        simp
      simp only [List.map_cons, querySegmentValue, isName, isEncoded, List.length_append,
        List.length_cons]
      by_cases same : name = key
      · simp [same]
      · simp only [same, and_false, if_false]
        rw [induction fun parameter member => names parameter (by simp [member]),
          List.find?_cons_of_neg (by simpa using same)]

theorem queryValue_joinQuery {key : Bytes} {outputSize : Nat}
    {parameters : List (Bytes × Bytes)} (nonempty : parameters ≠ [])
    (names : ∀ parameter ∈ parameters, byte '=' ∉ parameter.1 ∧ byte '&' ∉ parameter.1)
    (values : ∀ parameter ∈ parameters, parameter.2.all isEncoded = true) :
    queryValue (joinQuery parameters) key outputSize =
      ((parameters.find? fun parameter => parameter.1 == key).bind fun parameter =>
        if parameter.2.length + 1 > 2048 then none
        else urlDecode parameter.2 outputSize).map cString := by
  have segments : (joinQuery parameters).splitOn (byte '&') =
      parameters.map fun parameter => parameter.1 ++ byte '=' :: parameter.2 := by
    apply List.splitOn_intercalate
    · intro segment member
      obtain ⟨parameter, inside, rfl⟩ := List.mem_map.mp member
      simp only [List.mem_append, List.mem_cons, not_or]
      refine ⟨(names parameter inside).2, by decide, ?_⟩
      intro occurs
      have encoded := List.all_eq_true.mp (values parameter inside) _ occurs
      exact absurd encoded (by decide)
    · simpa using nonempty
  rw [queryValue, segments,
    querySegmentValue_parameters fun parameter member => (names parameter member).1]

structure Parameters (parameters : List (Bytes × Bytes)) : Prop where
  ne_nil : parameters ≠ []
  names : ∀ parameter ∈ parameters, byte '=' ∉ parameter.1 ∧ byte '&' ∉ parameter.1
  values : ∀ parameter ∈ parameters, parameter.2.all isEncoded = true

theorem length_le_percentEncode (text : Bytes) : text.length ≤ (percentEncode text).length := by
  induction text with
  | nil => simp
  | cons c rest induction =>
      have first : 0 < (percentEncodeByte c).length := by
        rw [percentEncodeByte]
        split <;> simp
      rw [percentEncode, List.flatMap_cons, List.length_append, List.length_cons,
        ← percentEncode]
      omega

theorem queryValue_encoded {parameters : List (Bytes × Bytes)} {key text : Bytes}
    {outputSize : Nat} (wellFormed : Parameters parameters)
    (found : (parameters.find? fun parameter => parameter.1 == key) =
      some (key, percentEncode text))
    (noNul : 0 ∉ text) (room : text.length < outputSize)
    (short : (percentEncode text).length < 2048) :
    queryValue (joinQuery parameters) key outputSize = some text := by
  rw [queryValue_joinQuery wellFormed.ne_nil wellFormed.names wellFormed.values, found,
    Option.bind_some, if_neg (by simp only; omega), urlDecode,
    urlDecodeLoop_percentEncode (by simpa using room), List.nil_append, Option.map_some,
    cString_of_noNul noNul]

theorem queryValue_number {parameters : List (Bytes × Bytes)} {key : Bytes} {value : Int}
    (wellFormed : Parameters parameters)
    (found : (parameters.find? fun parameter => parameter.1 == key) =
      some (key, signedDecimal value))
    (lower : longMin ≤ value) (upper : value ≤ longMax) :
    ∃ text, queryValue (joinQuery parameters) key 64 = some text ∧
      (strtol text).value = value := by
  have short : (signedDecimal value).length ≤ 20 := length_signedDecimal_le lower upper
  have plain : ∀ c ∈ signedDecimal value, c ≠ byte '%' ∧ c ≠ byte '+' ∧ c ≠ 0 := by
    intro c member
    obtain digit | rfl := mem_signedDecimal member
    · refine ⟨?_, ?_, ?_⟩ <;> rintro rfl <;> exact absurd digit (by decide)
    · decide
  refine ⟨signedDecimal value, ?_, ?_⟩
  · rw [queryValue_joinQuery wellFormed.ne_nil wellFormed.names wellFormed.values, found,
      Option.bind_some, if_neg (by simp only; omega), urlDecode,
      urlDecodeLoop_plain (fun c member => ⟨(plain c member).1, (plain c member).2.1⟩)
        (by simp only [List.length_nil]; omega),
      List.nil_append, Option.map_some,
      cString_of_noNul fun zero => (plain 0 zero).2.2 rfl]
  · have converted := strtol_signedDecimal lower upper (show EndsNumeral [] by simp [EndsNumeral])
    rw [List.append_nil] at converted
    rw [converted]

end HttpFs
