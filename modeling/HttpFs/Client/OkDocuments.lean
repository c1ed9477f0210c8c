import HttpFs.Client.Replies
import HttpFs.Jsmn.Placement

namespace HttpFs

open Json

/-! Replies that are JSON documents, as the client reads them. -/

theorem tokenEquals_of_text {json text value : Bytes} {token : JsmnToken}
    (isText : tokenText json token = some text) :
    tokenEquals json token value = (text == value) := by
  simp [tokenEquals, isText]

theorem tokenToString_of_text {json text : Bytes} {token : JsmnToken} {outputSize : Nat}
    (isText : tokenText json token = some text) (fits : text.length < outputSize) :
    tokenToString json token outputSize = some text := by
  simp only [tokenToString, isText]
  rw [if_neg (by omega)]

theorem tokenLong?_of_text {json : Bytes} {token : JsmnToken} {value : Int}
    (isText : tokenText json token = some (signedDecimal value))
    (lower : longMin ≤ value) (upper : value ≤ longMax) :
    tokenLong? json token = some value := by
  have short := length_signedDecimal_le lower upper
  have copied : tokenToString json token 64 = some (signedDecimal value) :=
    tokenToString_of_text isText (by omega)
  have converted := strtol_signedDecimal lower upper (show EndsNumeral [] by simp [EndsNumeral])
  rw [List.append_nil] at converted
  have nonempty : signedDecimal value ≠ [] := by
    cases value with
    | ofNat n => exact decimal_ne_nil n
    | negSucc n => simp [signedDecimal]
  have consumed : (0 != (signedDecimal value).length) = true := by
    rw [bne_iff_ne]
    exact fun zero => nonempty (List.length_eq_zero_iff.mp zero.symm)
  simp only [tokenLong?, tokenToLong, copied, converted]
  rw [if_pos (by rw [List.length_nil, consumed]; rfl)]

theorem isStringBody_plain {raw : Bytes}
    (plain : ∀ c ∈ raw, c ≠ byte '"' ∧ c ≠ byte '\\') : isStringBody .plain raw = true := by
  induction raw with
  | nil => rfl
  | cons c rest induction =>
      have ordinary := plain c (by simp)
      rw [isStringBody, if_neg ordinary.1, if_neg ordinary.2]
      exact induction fun b member => plain b (by simp [member])

theorem isPrimitiveBody_numeral {raw : Bytes} (nonempty : raw ≠ [])
    (numeral : ∀ c ∈ raw, isDigit c = true ∨ c = byte '-') : isPrimitiveBody raw = true := by
  have ordinary : ∀ c ∈ raw, (opens c == none && closes c == none && c != byte '"' &&
      !isSeparator c && (!endsPrimitive c && (32 ≤ c && c < 127))) = true := by
    intro c member
    obtain digit | rfl := numeral c member
    · have row := of_table (p := fun c => !isDigit c || (opens c == none &&
        closes c == none && c != byte '"' && !isSeparator c &&
        (!endsPrimitive c && (32 ≤ c && c < 127)))) (by decide +kernel) c
      rw [digit, Bool.not_true, Bool.false_or] at row
      exact row
    · decide
  cases raw with
  | nil => contradiction
  | cons c rest =>
      have first := ordinary c (by simp)
      simp only [Bool.and_eq_true] at first
      simp only [isPrimitiveBody, Bool.and_eq_true, List.all_eq_true]
      refine ⟨first.1, fun b member => ?_⟩
      have each := ordinary b member
      simp only [Bool.and_eq_true] at each
      exact each.2

theorem isPrimitiveBody_decimal (n : Nat) : isPrimitiveBody (decimal n) = true :=
  isPrimitiveBody_numeral (decimal_ne_nil n) fun _ member =>
    .inl (isDigit_of_mem_decimal member)

theorem isPrimitiveBody_signedDecimal (value : Int) :
    isPrimitiveBody (signedDecimal value) = true := by
  have nonempty : signedDecimal value ≠ [] := by
    cases value with
    | ofNat n => exact decimal_ne_nil n
    | negSucc n => exact List.cons_ne_nil _ _
  exact isPrimitiveBody_numeral nonempty fun _ member => mem_signedDecimal member

/-- An `ok` reply that is a JSON object within the limit of the tokenizer. -/
theorem parseOkResponse_document {members : Members}
    (scannable : Scannable (.object members))
    (status : members.find (ascii "status") = some (.string (ascii "ok")))
    (room : (Value.object members).count ≤ OK_RESPONSE_TOKENS)
    {before after : Bytes} (beforeGap : isGap before = true) (afterGap : isGap after = true) :
    ∃ tokens,
      parseOkResponse (before ++ ((Value.object members).text ++ after)) = .ok tokens ∧
      Placed (before ++ ((Value.object members).text ++ after)) tokens (.object members) 0 := by
  obtain ⟨run, parsed, noError, root, placed⟩ :=
    placed_document scannable beforeGap afterGap room
  refine ⟨run.parser.tokens, ?_, placed⟩
  obtain ⟨token, found, isText⟩ := findToken_some placed scannable status
  have isOk : tokenEquals (before ++ ((Value.object members).text ++ after)) token
      (ascii "ok") = true := by
    rw [tokenEquals_of_text isText]
    decide
  have tokens : parseResponseTokens (before ++ ((Value.object members).text ++ after))
      OK_RESPONSE_TOKENS = .ok run.parser.tokens := by
    simp only [parseResponseTokens, parsed, noError, root, Value.root, if_true]
    rfl
  have accepted : parseStatusOrError (before ++ ((Value.object members).text ++ after))
      run.parser.tokens = .ok () := by
    simp only [parseStatusOrError, found, isOk, if_true]
  rw [parseOkResponse, tokens]
  change (parseStatusOrError _ run.parser.tokens >>= fun _ => pure run.parser.tokens) = _
  rw [accepted]
  rfl

end HttpFs
