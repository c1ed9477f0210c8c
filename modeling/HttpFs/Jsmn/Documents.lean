import HttpFs.Foundation.Json
import HttpFs.Jsmn.Openings

namespace HttpFs

open Json

/-- The texts that `jsmn_parse_string` reads as the inside of one string. -/
def isStringBody : StringScan → Bytes → Bool
  | .plain, [] => true
  | _, [] => false
  | .plain, c :: rest =>
      if c = byte '"' then false
      else if c = byte '\\' then isStringBody .escaped rest
      else isStringBody .plain rest
  | .escaped, c :: rest =>
      if isSimpleEscape c then isStringBody .plain rest
      else if c = byte 'u' then isStringBody (.unicode 3) rest
      else false
  | .unicode 0, _ :: rest => isStringBody .plain rest
  | .unicode (more + 1), _ :: rest => isStringBody (.unicode more) rest

/-- The texts that `jsmn_parse` reads as one primitive when a delimiter follows. -/
def isPrimitiveBody (raw : Bytes) : Bool :=
  match raw with
  | [] => false
  | c :: _ =>
      opens c == none && closes c == none && c != byte '"' && !isSeparator c &&
        raw.all fun c => !endsPrimitive c && (32 ≤ c && c < 127)

abbrev Scannable (value : Value) : Prop :=
  value.Lexical (isStringBody .plain) isPrimitiveBody

theorem stringLength_of_body {scan : StringScan} {raw : Bytes}
    (body : isStringBody scan raw = true) (rest : Bytes) :
    stringLength scan (raw ++ byte '"' :: rest) = .ok raw.length := by
  induction raw generalizing scan with
  | nil =>
      cases scan with
      | plain => simp [stringLength]
      | escaped => simp [isStringBody] at body
      | unicode more => simp [isStringBody] at body
  | cons c tail induction =>
      cases scan with
      | plain =>
          simp only [isStringBody] at body
          by_cases quote : c = byte '"'
          · simp [quote] at body
          · by_cases backslash : c = byte '\\'
            · simp only [backslash, show byte '\\' ≠ byte '"' by decide, if_true,
                if_false] at body
              simp [stringLength, backslash, induction body, Except.map,
                show byte '\\' ≠ byte '"' by decide]
            · simp only [quote, backslash, if_false] at body
              simp [stringLength, quote, backslash, induction body, Except.map]
      | escaped =>
          simp only [isStringBody] at body
          cases simple : isSimpleEscape c with
          | true =>
              simp only [simple, if_true] at body
              simp [stringLength, simple, induction body, Except.map]
          | false =>
              simp only [simple, Bool.false_eq_true, if_false] at body
              by_cases unicode : c = byte 'u'
              · subst unicode
                simp only [if_true] at body
                simp [stringLength, simple, induction body, Except.map]
              · simp [unicode] at body
      | unicode more =>
          cases more with
          | zero =>
              simp only [isStringBody] at body
              simp [stringLength, induction body, Except.map]
          | succ more =>
              simp only [isStringBody] at body
              simp [stringLength, induction body, Except.map]

theorem body_of_stringLength {scan : StringScan} {text : Bytes} {length : Nat}
    (scanned : stringLength scan text = .ok length) :
    isStringBody scan (text.take length) = true ∧ text[length]? = some (byte '"') := by
  induction text generalizing scan length with
  | nil => simp [stringLength] at scanned
  | cons c tail induction =>
      have step : ∀ next : StringScan,
          (stringLength next tail).map (· + 1) = .ok length →
          ∃ shorter, length = shorter + 1 ∧
            isStringBody next (tail.take shorter) = true ∧
            tail[shorter]? = some (byte '"') := by
        intro next result
        cases inner : stringLength next tail with
        | error error => simp [inner, Except.map] at result
        | ok shorter =>
            simp only [inner, Except.map, Except.ok.injEq] at result
            exact ⟨shorter, result.symm, induction inner⟩
      cases scan with
      | plain =>
          simp only [stringLength] at scanned
          split at scanned
          · next quote =>
            cases scanned
            simp [isStringBody, quote]
          · next notQuote =>
            split at scanned
            · next backslash =>
              obtain ⟨shorter, rfl, body, closing⟩ := step _ scanned
              subst backslash
              simp [isStringBody, body, closing, show byte '\\' ≠ byte '"' by decide]
            · next plain =>
              obtain ⟨shorter, rfl, body, closing⟩ := step _ scanned
              simp [isStringBody, notQuote, plain, body, closing]
      | escaped =>
          simp only [stringLength] at scanned
          split at scanned
          · next simple =>
            obtain ⟨shorter, rfl, body, closing⟩ := step _ scanned
            simp [isStringBody, simple, body, closing]
          · next notSimple =>
            split at scanned
            · next unicode =>
              obtain ⟨shorter, rfl, body, closing⟩ := step _ scanned
              subst unicode
              simp [isStringBody, body, closing, show isSimpleEscape (byte 'u') = false by decide]
            · contradiction
      | unicode more =>
          cases more with
          | zero =>
              obtain ⟨shorter, rfl, body, closing⟩ := step _ scanned
              simp [isStringBody, body, closing]
          | succ more =>
              obtain ⟨shorter, rfl, body, closing⟩ := step _ scanned
              simp [isStringBody, body, closing]

theorem primitiveLength_of_body {raw rest : Bytes}
    (body : raw.all (fun c => !endsPrimitive c && (32 ≤ c && c < 127)) = true)
    (delimited : ∀ c ∈ rest.head?, endsPrimitive c = true) :
    primitiveLength (raw ++ rest) = some raw.length := by
  induction raw with
  | nil =>
      cases rest with
      | nil => rfl
      | cons c tail => simp [primitiveLength, delimited c (by simp)]
  | cons c tail induction =>
      simp only [List.all_cons, Bool.and_eq_true, Bool.not_eq_true', decide_eq_true_eq] at body
      obtain ⟨⟨inside, lower, upper⟩, tailBody⟩ := body
      have printable : (decide (c < 32) || decide (127 ≤ c)) = false := by
        simp only [UInt8.le_iff_toNat_le, UInt8.lt_iff_toNat_lt, Bool.or_eq_false_iff,
          decide_eq_false_iff_not] at lower upper ⊢
        omega
      simp only [List.cons_append, primitiveLength, inside, printable, Bool.false_eq_true,
        if_false, induction (by simpa using tailBody), Option.map_some, List.length_cons]

namespace Json

/-! The tokens of a document whose text starts at `pos` and whose first token has
the given index, in the order in which they are stored. -/

mutual
def Value.tokens (pos index : Nat) (parent : Option Nat) : Value → List JsmnToken
  | .string raw => [⟨.string, pos + 1, some (pos + 1 + raw.length), parent⟩]
  | .primitive raw => [⟨.primitive, pos, some (pos + raw.length), parent⟩]
  | .array items =>
      ⟨.array, pos, some (pos + (items.text.length + 2)), parent⟩ ::
        items.tokens (pos + 1) (index + 1) (some index)
  | .object members =>
      ⟨.object, pos, some (pos + (members.text.length + 2)), parent⟩ ::
        members.tokens (pos + 1) (index + 1) (some index)

def Items.tokens (pos index : Nat) (parent : Option Nat) : Items → List JsmnToken
  | .nil _ => []
  | .cons before value after rest =>
      value.tokens (pos + before.length) index parent ++
        rest.tokens (pos + before.length + value.text.length + after.length +
          rest.separator.length) (index + value.count) parent

def Members.tokens (pos index : Nat) (parent : Option Nat) :
    Members → List JsmnToken
  | .nil _ => []
  | .cons before key keyGap valueGap value after rest =>
      let keyPos := pos + before.length
      let valuePos := keyPos + (key.length + 2) + keyGap.length + 1 + valueGap.length
      ⟨.string, keyPos + 1, some (keyPos + 1 + key.length), parent⟩ ::
        (value.tokens valuePos (index + 1) parent ++
          rest.tokens (valuePos + value.text.length + after.length +
            rest.separator.length) (index + 1 + value.count) parent)
end

mutual
theorem Value.length_tokens (value : Value) (pos index : Nat) (parent : Option Nat) :
    (value.tokens pos index parent).length = value.count := by
  cases value with
  | string raw => simp [Value.tokens, Value.count]
  | primitive raw => simp [Value.tokens, Value.count]
  | array items => simp [Value.tokens, Value.count, Items.length_tokens]
  | object members => simp [Value.tokens, Value.count, Members.length_tokens]

theorem Items.length_tokens (items : Items) (pos index : Nat) (parent : Option Nat) :
    (items.tokens pos index parent).length = items.count := by
  cases items with
  | nil gap => simp [Items.tokens, Items.count]
  | cons before value after rest =>
      simp [Items.tokens, Items.count, Value.length_tokens, Items.length_tokens]

theorem Members.length_tokens (members : Members) (pos index : Nat)
    (parent : Option Nat) :
    (members.tokens pos index parent).length = members.count := by
  cases members with
  | nil gap => simp [Members.tokens, Members.count]
  | cons before key keyGap valueGap value after rest =>
      simp [Members.tokens, Members.count, Value.length_tokens, Members.length_tokens]
      omega
end

mutual
theorem Value.tokens_closed (value : Value) (pos index : Nat) (parent : Option Nat) :
    ∀ token ∈ value.tokens pos index parent, token.stop ≠ none := by
  cases value with
  | string raw => simp [Value.tokens]
  | primitive raw => simp [Value.tokens]
  | array items =>
      have closed := Items.tokens_closed items (pos + 1) (index + 1) (some index)
      simpa [Value.tokens] using closed
  | object members =>
      have closed := Members.tokens_closed members (pos + 1) (index + 1) (some index)
      simpa [Value.tokens] using closed

theorem Items.tokens_closed (items : Items) (pos index : Nat) (parent : Option Nat) :
    ∀ token ∈ items.tokens pos index parent, token.stop ≠ none := by
  cases items with
  | nil gap => simp [Items.tokens]
  | cons before value after rest =>
      simp only [Items.tokens, List.mem_append]
      intro token member
      cases member with
      | inl inValue => exact Value.tokens_closed value _ _ _ token inValue
      | inr inRest => exact Items.tokens_closed rest _ _ _ token inRest

theorem Members.tokens_closed (members : Members) (pos index : Nat)
    (parent : Option Nat) :
    ∀ token ∈ members.tokens pos index parent, token.stop ≠ none := by
  cases members with
  | nil gap => simp [Members.tokens]
  | cons before key keyGap valueGap value after rest =>
      simp only [Members.tokens, List.mem_cons, List.mem_append]
      intro token member
      obtain rfl | inValue | inRest := member
      · simp
      · exact Value.tokens_closed value _ _ _ token inValue
      · exact Members.tokens_closed rest _ _ _ token inRest
end

end Json

theorem jsmnLoop_skip (numTokens : Nat) (before rest : Bytes) (parser : JsmnParser) :
    jsmnLoop numTokens (before ++ rest) before.length parser =
      jsmnLoop numTokens rest 0 { parser with pos := parser.pos + before.length } := by
  induction before generalizing parser with
  | nil => rfl
  | cons c tail induction =>
      simp only [List.cons_append, List.length_cons, jsmnLoop]
      rw [induction]
      congr 2
      dsimp only
      omega

theorem separator_cases {c : UInt8} (separator : isSeparator c = true) :
    opens c = none ∧ closes c = none ∧ c ≠ byte '"' := by
  simp only [isSeparator, Bool.or_eq_true, beq_iff_eq] at separator
  obtain ((((rfl | rfl) | rfl) | rfl) | rfl) | rfl := separator <;> decide

theorem jsmnLoop_separators {numTokens : Nat} {before : Bytes}
    (separators : ∀ c ∈ before, isSeparator c = true) (rest : Bytes)
    (parser : JsmnParser) :
    jsmnLoop numTokens (before ++ rest) 0 parser =
      jsmnLoop numTokens rest 0 { parser with pos := parser.pos + before.length } := by
  induction before generalizing parser with
  | nil => rfl
  | cons c tail induction =>
      have separator : isSeparator c = true := separators c (by simp)
      obtain ⟨notOpen, notClose, notQuote⟩ := separator_cases separator
      simp only [List.cons_append, jsmnLoop, jsmnStep, notOpen, notClose, notQuote,
        if_false, separator, if_true]
      rw [induction fun c member => separators c (by simp [member])]
      congr 2
      simp only [List.length_cons]
      omega

theorem isSeparator_of_gap {gap : Bytes} (isGap : isGap gap = true) :
    ∀ c ∈ gap, isSeparator c = true := by
  intro c member
  have white := List.all_eq_true.mp isGap c member
  simp only [Bool.or_eq_true, beq_iff_eq] at white
  obtain ((rfl | rfl) | rfl) | rfl := white <;> decide

theorem jsmnLoop_gap {numTokens : Nat} {gap : Bytes} (isGap : isGap gap = true)
    (rest : Bytes) (parser : JsmnParser) :
    jsmnLoop numTokens (gap ++ rest) 0 parser =
      jsmnLoop numTokens rest 0 { parser with pos := parser.pos + gap.length } :=
  jsmnLoop_separators (isSeparator_of_gap isGap) rest parser

theorem jsmnLoop_string {numTokens : Nat} {raw : Bytes}
    (body : isStringBody .plain raw = true) (rest : Bytes) (parser : JsmnParser)
    (room : parser.tokens.length < numTokens) :
    jsmnLoop numTokens (quoted raw ++ rest) 0 parser =
      jsmnLoop numTokens rest 0 { parser with
        pos := parser.pos + (raw.length + 2)
        tokens := parser.tokens ++
          [⟨.string, parser.pos + 1, some (parser.pos + 1 + raw.length),
            parser.toksuper⟩] } := by
  have scanned : stringLength .plain (raw ++ byte '"' :: rest) = .ok raw.length :=
    stringLength_of_body body rest
  have shape : quoted raw ++ rest = byte '"' :: (raw ++ byte '"' :: rest) := by
    simp [quoted]
  have split : raw ++ byte '"' :: rest = (raw ++ [byte '"']) ++ rest := by simp
  rw [shape]
  simp only [jsmnLoop, jsmnStep, show opens (byte '"') = none by decide,
    show closes (byte '"') = none by decide, if_true, jsmnParseString, scanned,
    jsmnAllocToken_room room, Except.map]
  rw [split, show raw.length + 1 = (raw ++ [byte '"']).length by simp, jsmnLoop_skip]
  congr 2
  simp only [List.length_append, List.length_singleton]
  omega

theorem jsmnLoop_primitive {numTokens : Nat} {raw rest : Bytes}
    (body : isPrimitiveBody raw = true)
    (delimited : ∀ c ∈ rest.head?, endsPrimitive c = true) (parser : JsmnParser)
    (room : parser.tokens.length < numTokens) :
    jsmnLoop numTokens (raw ++ rest) 0 parser =
      jsmnLoop numTokens rest 0 { parser with
        pos := parser.pos + raw.length
        tokens := parser.tokens ++
          [⟨.primitive, parser.pos, some (parser.pos + raw.length),
            parser.toksuper⟩] } := by
  cases raw with
  | nil => simp [isPrimitiveBody] at body
  | cons c tail =>
      simp only [isPrimitiveBody, Bool.and_eq_true, beq_iff_eq, bne_iff_ne, ne_eq,
        Bool.not_eq_true'] at body
      obtain ⟨⟨⟨⟨notOpen, notClose⟩, notQuote⟩, notSeparator⟩, printable⟩ := body
      have scanned : primitiveLength (c :: (tail ++ rest)) = some (tail.length + 1) :=
        primitiveLength_of_body printable delimited
      simp only [List.cons_append, jsmnLoop, jsmnStep, notOpen, notClose, notQuote, if_false,
        notSeparator, Bool.false_eq_true, jsmnParsePrimitive, scanned,
        jsmnAllocToken_room room, Except.map, Nat.add_sub_cancel, List.length_cons]
      rw [jsmnLoop_skip]
      congr 2
      dsimp only
      omega

/-- A closing bracket ends the innermost open container when everything after it
is closed. -/
theorem jsmnLoop_close {numTokens : Nat} {c : UInt8} {type : JsmnType}
    (closing : opens c = none ∧ closes c = some type) {earlier inside : List JsmnToken}
    (insideClosed : ∀ token ∈ inside, token.stop ≠ none) (pos start : Nat)
    (parent toksuper : Option Nat) (rest : Bytes) :
    jsmnLoop numTokens (c :: rest) 0
        ⟨pos, earlier ++ ⟨type, start, none, parent⟩ :: inside, toksuper⟩ =
      jsmnLoop numTokens rest 0
        ⟨pos + 1, earlier ++ ⟨type, start, some (pos + 1), parent⟩ :: inside, parent⟩ := by
  have innermost : innermostOpen (earlier ++ ⟨type, start, none, parent⟩ :: inside) =
      some (earlier.length, ⟨type, start, none, parent⟩) :=
    innermostOpen_append rfl insideClosed
  simp [jsmnLoop, jsmnStep, closing.1, closing.2, innermost]

theorem jsmnLoop_open {numTokens : Nat} {c : UInt8} {type : JsmnType}
    (opening : opens c = some type) (parser : JsmnParser)
    (room : parser.tokens.length < numTokens) (rest : Bytes) :
    jsmnLoop numTokens (c :: rest) 0 parser =
      jsmnLoop numTokens rest 0
        ⟨parser.pos + 1,
          parser.tokens ++ [⟨type, parser.pos, none, parser.toksuper⟩],
          some parser.tokens.length⟩ := by
  simp [jsmnLoop, jsmnStep, opening, jsmnAllocToken_room room, Except.map]

/-- What follows a value inside a document: the end, white space, a comma or a
closing bracket. -/
def Delimited (rest : Bytes) : Prop := ∀ c ∈ rest.head?, endsPrimitive c = true

theorem delimited_gap {gap rest : Bytes} (white : isGap gap = true)
    (delimited : Delimited rest) : Delimited (gap ++ rest) := by
  cases gap with
  | nil => exact delimited
  | cons c tail =>
      intro head isHead
      obtain rfl : c = head := by simpa using isHead
      have white := List.all_eq_true.mp white c (by simp)
      simp only [Bool.or_eq_true, beq_iff_eq] at white
      obtain ((rfl | rfl) | rfl) | rfl := white <;> decide

theorem delimited_cons {c : UInt8} (ends : endsPrimitive c = true) (rest : Bytes) :
    Delimited (c :: rest) := by
  intro head isHead
  obtain rfl : c = head := by simpa using isHead
  exact ends

mutual
theorem jsmnLoop_value {numTokens : Nat} {value : Value} (scannable : Scannable value)
    {rest : Bytes} (delimited : Delimited rest) (parser : JsmnParser)
    (room : parser.tokens.length + value.count ≤ numTokens) :
    jsmnLoop numTokens (value.text ++ rest) 0 parser =
      jsmnLoop numTokens rest 0 { parser with
        pos := parser.pos + value.text.length
        tokens := parser.tokens ++
          value.tokens parser.pos parser.tokens.length parser.toksuper } := by
  cases value with
  | string raw =>
      simp only [Value.count] at room
      rw [Value.text, jsmnLoop_string scannable rest parser (by omega)]
      simp [Value.tokens, quoted]
  | primitive raw =>
      simp only [Value.count] at room
      rw [Value.text, jsmnLoop_primitive scannable delimited parser (by omega)]
      simp [Value.tokens]
  | array items =>
      simp only [Value.count] at room
      simp only [Value.text, List.cons_append, List.append_assoc]
      rw [jsmnLoop_open (show opens (byte '[') = some .array by decide) parser (by omega),
        jsmnLoop_items scannable (by decide) _ (by simp; omega)]
      simp only [List.append_assoc, List.singleton_append]
      rw [jsmnLoop_close
          (show opens (byte ']') = none ∧ closes (byte ']') = some .array by decide)
        (Items.tokens_closed items _ _ _)]
      congr 2
      · simp
        omega
      · simp [Value.tokens]
        omega
  | object members =>
      simp only [Value.count] at room
      simp only [Value.text, List.cons_append, List.append_assoc]
      rw [jsmnLoop_open (show opens (byte '{') = some .object by decide) parser (by omega),
        jsmnLoop_members scannable (by decide) _ (by simp; omega)]
      simp only [List.append_assoc, List.singleton_append]
      rw [jsmnLoop_close
          (show opens (byte '}') = none ∧ closes (byte '}') = some .object by decide)
        (Members.tokens_closed members _ _ _)]
      congr 2
      · simp
        omega
      · simp [Value.tokens]
        omega

theorem jsmnLoop_items {numTokens : Nat} {items : Items}
    (scannable : items.Lexical (isStringBody .plain) isPrimitiveBody) {c : UInt8}
    {rest : Bytes} (closing : endsPrimitive c = true) (parser : JsmnParser)
    (room : parser.tokens.length + items.count ≤ numTokens) :
    jsmnLoop numTokens (items.text ++ c :: rest) 0 parser =
      jsmnLoop numTokens (c :: rest) 0 { parser with
        pos := parser.pos + items.text.length
        tokens := parser.tokens ++
          items.tokens parser.pos parser.tokens.length parser.toksuper } := by
  cases items with
  | nil gap =>
      rw [Items.text, jsmnLoop_gap scannable]
      simp [Items.tokens]
  | cons before value after others =>
      obtain ⟨beforeGap, valueScannable, afterGap, othersScannable⟩ := scannable
      simp only [Items.count] at room
      have delimited : Delimited
          (after ++ (others.separator ++ (others.text ++ c :: rest))) := by
        apply delimited_gap afterGap
        cases others with
        | nil gap =>
            change Delimited (gap ++ c :: rest)
            exact delimited_gap othersScannable (delimited_cons closing rest)
        | cons => exact delimited_cons (by decide) _
      have separators : ∀ b ∈ others.separator, isSeparator b = true := by
        cases others with
        | nil => simp [Items.separator]
        | cons => simp [Items.separator]; decide
      simp only [Items.text, List.append_assoc]
      rw [jsmnLoop_gap beforeGap, jsmnLoop_value valueScannable delimited _ (by simp; omega),
        jsmnLoop_gap afterGap, jsmnLoop_separators separators,
        jsmnLoop_items othersScannable closing _
          (by simp [Value.length_tokens]; omega)]
      congr 2
      · simp
        omega
      · simp [Items.tokens, Value.length_tokens]

theorem jsmnLoop_members {numTokens : Nat} {members : Members}
    (scannable : members.Lexical (isStringBody .plain) isPrimitiveBody) {c : UInt8}
    {rest : Bytes} (closing : endsPrimitive c = true) (parser : JsmnParser)
    (room : parser.tokens.length + members.count ≤ numTokens) :
    jsmnLoop numTokens (members.text ++ c :: rest) 0 parser =
      jsmnLoop numTokens (c :: rest) 0 { parser with
        pos := parser.pos + members.text.length
        tokens := parser.tokens ++
          members.tokens parser.pos parser.tokens.length parser.toksuper } := by
  cases members with
  | nil gap =>
      rw [Members.text, jsmnLoop_gap scannable]
      simp [Members.tokens]
  | cons before key keyGap valueGap value after others =>
      obtain ⟨beforeGap, keyBody, keyIsGap, valueIsGap, valueScannable, afterGap,
        othersScannable⟩ := scannable
      simp only [Members.count] at room
      have delimited : Delimited
          (after ++ (others.separator ++ (others.text ++ c :: rest))) := by
        apply delimited_gap afterGap
        cases others with
        | nil gap =>
            change Delimited (gap ++ c :: rest)
            exact delimited_gap othersScannable (delimited_cons closing rest)
        | cons => exact delimited_cons (by decide) _
      have separators : ∀ b ∈ others.separator, isSeparator b = true := by
        cases others with
        | nil => simp [Members.separator]
        | cons => simp [Members.separator]; decide
      have colon : ∀ b ∈ [byte ':'], isSeparator b = true := by
        simp
        decide
      have shape : ∀ text : Bytes, byte ':' :: text = [byte ':'] ++ text := fun _ => rfl
      simp only [Members.text, List.append_assoc, List.cons_append]
      rw [jsmnLoop_gap beforeGap, jsmnLoop_string keyBody _ _ (by simp; omega),
        jsmnLoop_gap keyIsGap, shape, jsmnLoop_separators colon,
        jsmnLoop_gap valueIsGap,
        jsmnLoop_value valueScannable delimited _ (by simp; omega),
        jsmnLoop_gap afterGap, jsmnLoop_separators separators,
        jsmnLoop_members othersScannable closing _
          (by simp [Value.length_tokens]; omega)]
      congr 2
      · simp [quoted]
        omega
      · simp [Members.tokens, Value.length_tokens]
        congr 1
        omega
end

theorem jsmnParse_document {numTokens : Nat} {value : Value}
    (scannable : Scannable value) {before after : Bytes} (beforeGap : isGap before = true)
    (afterGap : isGap after = true) (room : value.count ≤ numTokens) :
    jsmnParse numTokens (before ++ (value.text ++ after)) =
      ⟨⟨before.length + (value.text.length + after.length),
        value.tokens before.length 0 none, none⟩, none⟩ := by
  have delimited : Delimited after := by
    have ends : Delimited (after ++ []) := delimited_gap afterGap (by simp [Delimited])
    simpa using ends
  have closed := innermostOpen_eq_none.mpr (value.tokens_closed before.length 0 none)
  have trailing : ∀ parser, jsmnLoop numTokens after 0 parser =
      jsmnLoop numTokens [] 0 { parser with pos := parser.pos + after.length } := by
    intro parser
    simpa using jsmnLoop_gap afterGap [] parser
  rw [jsmnParse, jsmnLoop_gap beforeGap,
    jsmnLoop_value scannable delimited _ (by simpa [jsmnInit] using room), trailing]
  simp [jsmnLoop, jsmnInit, closed]
  omega

/-! A larger array changes nothing in a run that did not run out of tokens. -/

section MoreRoom

variable {numTokens larger : Nat} {parser : JsmnParser}

theorem jsmnAllocToken_more (more : numTokens ≤ larger) {token : JsmnToken}
    {next : JsmnParser} (allocated : jsmnAllocToken numTokens parser token = .ok next) :
    jsmnAllocToken larger parser token = .ok next := by
  by_cases full : numTokens ≤ parser.tokens.length
  · rw [jsmnAllocToken_full full] at allocated
    contradiction
  · rw [jsmnAllocToken_room (by omega)] at allocated ⊢
    exact allocated

theorem jsmnStep_more (more : numTokens ≤ larger) {c : UInt8} {rest : Bytes}
    {result : JsmnParser × Nat} (stepped : jsmnStep numTokens parser c rest = .ok result) :
    jsmnStep larger parser c rest = .ok result := by
  have mapped {token : JsmnToken} {change : JsmnParser → JsmnParser × Nat}
      (isResult : (jsmnAllocToken numTokens parser token).map change = .ok result) :
      (jsmnAllocToken larger parser token).map change = .ok result := by
    cases allocated : jsmnAllocToken numTokens parser token with
    | error error => simp [allocated, Except.map] at isResult
    | ok next =>
        rw [allocated] at isResult
        rw [jsmnAllocToken_more more allocated]
        exact isResult
  cases opening : opens c with
  | some type =>
      simp only [jsmnStep, opening] at stepped ⊢
      exact mapped stepped
  | none =>
      cases closing : closes c with
      | some type =>
          simp only [jsmnStep, opening, closing] at stepped ⊢
          exact stepped
      | none =>
          simp only [jsmnStep, opening, closing] at stepped ⊢
          split at stepped
          · next quote =>
            rw [if_pos quote]
            simp only [jsmnParseString] at stepped ⊢
            cases scanned : stringLength .plain rest with
            | error error => simp [scanned] at stepped
            | ok length =>
                simp only [scanned] at stepped ⊢
                exact mapped stepped
          · next noQuote =>
            rw [if_neg noQuote]
            split at stepped
            · next separator =>
              rw [if_pos separator]
              exact stepped
            · next noSeparator =>
              rw [if_neg noSeparator]
              simp only [jsmnParsePrimitive] at stepped ⊢
              cases scanned : primitiveLength (c :: rest) with
              | none => simp [scanned] at stepped
              | some length =>
                  simp only [scanned] at stepped ⊢
                  exact mapped stepped

theorem jsmnLoop_more (more : numTokens ≤ larger) {text : Bytes} {skip : Nat}
    (noError : (jsmnLoop numTokens text skip parser).error = none) :
    jsmnLoop larger text skip parser = jsmnLoop numTokens text skip parser := by
  induction text generalizing skip parser with
  | nil => rfl
  | cons c rest induction =>
      cases skip with
      | succ skip => exact induction noError
      | zero =>
          obtain ⟨next, skip, stepped, continues⟩ := jsmnLoop_stepped noError
          rw [continues] at noError
          rw [continues, jsmnLoop, jsmnStep_more more stepped]
          exact induction noError

end MoreRoom

theorem jsmnParse_crowded {numTokens : Nat} {value : Value} (scannable : Scannable value)
    {before after : Bytes} (beforeGap : isGap before = true) (afterGap : isGap after = true)
    (crowded : numTokens < value.count) :
    (jsmnParse numTokens (before ++ (value.text ++ after))).error ≠ none := by
  intro noError
  have same := jsmnLoop_more (Nat.le_of_lt crowded) noError
  have whole := jsmnParse_document scannable beforeGap afterGap (Nat.le_refl value.count)
  have stored := jsmnParse_stored numTokens (before ++ (value.text ++ after))
  rw [jsmnParse, same] at whole
  rw [jsmnParse, whole, value.length_tokens] at stored
  omega

end HttpFs
