import HttpFs.JsonUtils
import HttpFs.Provider.Decode

namespace HttpFs

open Json

/-- A member name without the bytes that end or escape a string and without those
that stand between strings. -/
def PlainKey (key : Bytes) : Prop :=
  key ≠ [] ∧ ∀ c ∈ key, c ≠ byte '"' ∧ c ≠ byte '\\' ∧ c ≠ byte ':' ∧ c ≠ byte ','

instance (key : Bytes) : Decidable (PlainKey key) :=
  inferInstanceAs (Decidable (_ ∧ _))

inductive FieldValue where
  | string (content : Bytes)
  | number (value : Int)
  deriving DecidableEq

structure Field where
  key : Bytes
  value : FieldValue
  deriving DecidableEq

def escapedText (content : Bytes) : Bytes := content.flatMap escapeByte

def FieldValue.text : FieldValue → Bytes
  | .string content => byte '"' :: (escapedText content ++ [byte '"'])
  | .number value => signedDecimal value

def Field.text (field : Field) : Bytes :=
  keyPattern field.key ++ field.value.text

/-- The members of a flat object, its closing brace included. -/
def fieldsText : List Field → Bytes
  | [] => [byte '}']
  | [field] => field.text ++ [byte '}']
  | field :: rest => field.text ++ byte ',' :: fieldsText rest

def objectText (fields : List Field) : Bytes := byte '{' :: fieldsText fields

theorem denotes_escapedText (content : Bytes) : Denotes (escapedText content) content :=
  Denotes.flatMap fun ch _ => denotes_escapeByte ch

section Strings

variable {key more after raw content : Bytes}

/-- Between two quotes the text of a string cannot read as a member name with its colon:
its own quotes are escaped, and what follows the closing one is no colon. -/
theorem not_name_in_string (denotes : Denotes raw content)
    (plain : ∀ c ∈ key, c ≠ byte '"' ∧ c ≠ byte '\\')
    (noColon : after.head? ≠ some (byte ':')) :
    ¬ key ++ byte '"' :: byte ':' :: more <+: raw ++ byte '"' :: after := by
  have backslash (rest : Bytes) :
      ¬ key ++ byte '"' :: byte ':' :: more <+: byte '\\' :: rest := by
    intro occurs
    cases key with
    | nil => exact absurd (List.cons_prefix_cons.mp occurs).1 (by decide)
    | cons c tail => exact (plain c (by simp)).2 (List.cons_prefix_cons.mp occurs).1
  induction denotes generalizing key with
  | nil =>
      intro occurs
      cases key with
      | nil =>
          cases after with
          | nil => simp at occurs
          | cons c tail =>
              simp only [List.nil_append, List.cons_prefix_cons] at occurs
              exact noColon (by simp [occurs.2.1])
      | cons c tail =>
          simp only [List.nil_append, List.cons_append, List.cons_prefix_cons] at occurs
          exact (plain c (by simp)).1 occurs.1
  | plain _ notQuote _ _ induction =>
      intro occurs
      cases key with
      | nil => exact notQuote (List.cons_prefix_cons.mp occurs).1.symm
      | cons c tail =>
          simp only [List.cons_append, List.cons_prefix_cons] at occurs
          have tailPlain : ∀ b ∈ tail, b ≠ byte '"' ∧ b ≠ byte '\\' :=
            fun b member => plain b (by simp [member])
          refine induction tailPlain (fun rest occurs => ?_) occurs.2
          cases tail with
          | nil => exact absurd (List.cons_prefix_cons.mp occurs).1 (by decide)
          | cons b _ => exact (tailPlain b (by simp)).2 (List.cons_prefix_cons.mp occurs).1
  | escape _ _ _ => exact backslash _
  | unicode _ _ _ => exact backslash _
  | surrogates _ _ _ _ _ _ _ => exact backslash _

theorem avoids_string (denotes : Denotes raw content) (plain : PlainKey key)
    (noColon : after.head? ≠ some (byte ':')) :
    Avoids (keyPattern key ++ more) raw (byte '"' :: after) := by
  have pattern : keyPattern key ++ more =
      byte '"' :: (key ++ byte '"' :: byte ':' :: more) := by
    simp [keyPattern]
  have namePlain : ∀ c ∈ key, c ≠ byte '"' ∧ c ≠ byte '\\' :=
    fun c member => ⟨(plain.2 c member).1, (plain.2 c member).2.1⟩
  rw [pattern]
  have digits {digits rest : Bytes} {value : Nat} (coded : codeUnit digits = some value)
      (avoids : Avoids (byte '"' :: (key ++ byte '"' :: byte ':' :: more)) rest
        (byte '"' :: after)) :
      Avoids (byte '"' :: (key ++ byte '"' :: byte ':' :: more))
        (byte '\\' :: byte 'u' :: (digits ++ rest)) (byte '"' :: after) := by
    have noQuote : byte '"' ∉ byte '\\' :: byte 'u' :: digits := by
      simp only [List.mem_cons, not_or]
      exact ⟨by decide, by decide,
        fun member => (codeUnit_ordinary coded _ member).2.1 rfl⟩
    exact Avoids.append (avoids_of_not_mem noQuote) avoids
  induction denotes with
  | nil => trivial
  | plain _ notQuote _ _ induction =>
      refine ⟨?_, induction⟩
      intro occurs
      exact notQuote (List.cons_prefix_cons.mp occurs).1.symm
  | escape _ rest induction =>
      refine ⟨?_, ?_, induction⟩
      · intro occurs
        exact absurd (List.cons_prefix_cons.mp occurs).1 (by decide)
      · intro occurs
        exact not_name_in_string rest namePlain noColon (List.cons_prefix_cons.mp occurs).2
  | unicode coded _ induction => exact digits coded induction
  | surrogates highCoded lowCoded _ _ _ _ induction =>
      exact digits highCoded (digits lowCoded induction)

end Strings

variable {key more after : Bytes}

theorem avoids_quote (plain : PlainKey key) {c : UInt8} (gap : Bytes) (noQuote : byte '"' ∉ gap)
    (between : c = byte ',' ∨ c = byte ':') :
    Avoids (keyPattern key ++ more) [byte '"'] (gap ++ c :: after) := by
  have apart : ∀ b ∈ key, b ≠ c := by
    intro b member same
    obtain rfl | rfl := between
    · exact (plain.2 b member).2.2.2 same
    · exact (plain.2 b member).2.2.1 same
  have notQuote : byte '"' ≠ c := by obtain rfl | rfl := between <;> decide
  have crossing : ∀ key gap : Bytes, (∀ b ∈ key, b ≠ c) → byte '"' ∉ gap →
      ¬ key ++ byte '"' :: (byte ':' :: more) <+: gap ++ c :: after := by
    intro key
    induction key with
    | nil =>
        intro gap _ noQuote occurs
        cases gap with
        | nil => exact notQuote (List.cons_prefix_cons.mp occurs).1
        | cons b rest =>
            exact noQuote (by simp [(List.cons_prefix_cons.mp occurs).1])
    | cons head tail induction =>
        intro gap apart noQuote occurs
        cases gap with
        | nil => exact apart head (by simp) (List.cons_prefix_cons.mp occurs).1
        | cons b rest =>
            exact induction rest (fun b member => apart b (by simp [member]))
              (fun member => noQuote (by simp [member])) (List.cons_prefix_cons.mp occurs).2
  refine ⟨?_, trivial⟩
  intro occurs
  apply crossing key gap apart noQuote
  simpa [keyPattern] using occurs

theorem not_other_name {other : Bytes} (different : other ≠ key)
    (plain : ∀ c ∈ key, c ≠ byte '"') (otherPlain : ∀ c ∈ other, c ≠ byte '"') :
    ¬ key ++ byte '"' :: more <+: other ++ byte '"' :: after := by
  induction key generalizing other with
  | nil =>
      cases other with
      | nil => exact absurd rfl different
      | cons c tail =>
          simp only [List.nil_append, List.cons_append, List.cons_prefix_cons, not_and]
          intro same
          exact absurd same.symm (otherPlain c (by simp))
  | cons head tail induction =>
      cases other with
      | nil =>
          simp only [List.nil_append, List.cons_append, List.cons_prefix_cons, not_and]
          intro same
          exact absurd same (plain head (by simp))
      | cons c otherTail =>
          simp only [List.cons_append, List.cons_prefix_cons, not_and]
          intro same
          subst same
          apply induction
          · intro equal
            exact different (by rw [equal])
          · exact fun b member => plain b (by simp [member])
          · exact fun b member => otherPlain b (by simp [member])

theorem quote_not_mem_signedDecimal (value : Int) : byte '"' ∉ signedDecimal value := by
  intro member
  exact absurd (mem_signedDecimal member) (by decide)

theorem avoids_value (plain : PlainKey key) (value : FieldValue) (rest : Bytes) :
    Avoids (keyPattern key ++ more) value.text (byte ',' :: rest) := by
  cases value with
  | number value => exact avoids_of_not_mem (quote_not_mem_signedDecimal value)
  | string content =>
      have noColon : (byte ',' :: rest).head? ≠ some (byte ':') := by
        simp only [List.head?_cons, ne_eq, Option.some.injEq]
        decide
      have shape : (FieldValue.string content).text =
          [byte '"'] ++ (escapedText content ++ [byte '"']) := rfl
      rw [shape]
      apply Avoids.append
      · refine ⟨?_, trivial⟩
        intro occurs
        apply not_name_in_string (denotes_escapedText content) (fun c member =>
          ⟨(plain.2 c member).1, (plain.2 c member).2.1⟩) noColon
        simpa [keyPattern] using (List.cons_prefix_cons.mp occurs).2
      · exact Avoids.append (avoids_string (denotes_escapedText content) plain noColon)
          (avoids_quote plain [] (by simp) (.inl rfl))

theorem avoids_field (plain : PlainKey key) {field : Field} (fieldPlain : PlainKey field.key)
    (different : field.key ≠ key) (rest : Bytes) :
    Avoids (keyPattern key ++ more) (field.text ++ [byte ',']) rest := by
  have shape : field.text ++ [byte ','] = [byte '"'] ++ (field.key ++
      ([byte '"'] ++ ([byte ':'] ++ (field.value.text ++ [byte ','])))) := by
    simp [Field.text, keyPattern]
  have comma : byte '"' ∉ [byte ','] := by decide
  have colon : byte '"' ∉ [byte ':'] := by decide
  rw [shape]
  apply Avoids.append
  · refine ⟨?_, trivial⟩
    intro occurs
    apply not_other_name different (fun c member => (plain.2 c member).1)
      (fun c member => (fieldPlain.2 c member).1)
    simpa [keyPattern] using (List.cons_prefix_cons.mp occurs).2
  · apply Avoids.append
    · apply avoids_of_not_mem
      intro quote
      exact (fieldPlain.2 _ quote).1 rfl
    · have quote : Avoids (keyPattern key ++ more) [byte '"']
          (byte ':' :: (field.value.text ++ ([byte ','] ++ rest))) :=
        avoids_quote plain [] (by simp) (.inr rfl)
      apply Avoids.append (by simpa using quote)
      apply Avoids.append (avoids_of_not_mem colon)
      exact Avoids.append (avoids_value plain field.value rest) (avoids_of_not_mem comma)

def membersTail : List Field → Bytes
  | [] => [byte '}']
  | field :: rest => byte ',' :: fieldsText (field :: rest)

theorem fieldsText_cons (field : Field) (rest : List Field) :
    fieldsText (field :: rest) = field.text ++ membersTail rest := by
  cases rest <;> rfl

/-- The first occurrence of a member name with its colon in a flat object is that of
the first member of this name. -/
theorem strstr_objectText (plain : PlainKey key) {before after : List Field}
    {field : Field} (others : ∀ other ∈ before, PlainKey other.key ∧ other.key ≠ key) :
    strstr (keyPattern key ++ more) (objectText (before ++ field :: after)) =
      strstr (keyPattern key ++ more) (fieldsText (field :: after)) := by
  have brace : byte '"' ∉ [byte '{'] := by decide
  have opening : Avoids (keyPattern key ++ more) [byte '{']
      (fieldsText (before ++ field :: after)) := avoids_of_not_mem brace
  have skipped := strstr_append opening
  rw [objectText]
  refine skipped.trans ?_
  clear skipped opening
  induction before with
  | nil => rfl
  | cons other rest induction =>
      have shape : fieldsText (other :: rest ++ field :: after) =
          (other.text ++ [byte ',']) ++ fieldsText (rest ++ field :: after) := by
        cases rest <;> simp [fieldsText]
      rw [shape, strstr_append (avoids_field plain (others other (by simp)).1
        (others other (by simp)).2 _)]
      exact induction fun found member => others found (by simp [member])

theorem behind_name (plain : PlainKey key) {before after : List Field} {value : FieldValue}
    (others : ∀ other ∈ before, PlainKey other.key ∧ other.key ≠ key) :
    behind (keyPattern key) (objectText (before ++ ⟨key, value⟩ :: after)) =
      some (value.text ++ membersTail after) := by
  have found : strstr (keyPattern key ++ []) (objectText (before ++ ⟨key, value⟩ :: after)) =
      strstr (keyPattern key ++ []) (fieldsText (⟨key, value⟩ :: after)) :=
    strstr_objectText plain others
  simp only [List.append_nil] at found
  have text : fieldsText (⟨key, value⟩ :: after) =
      keyPattern key ++ (value.text ++ membersTail after) := by
    simp [fieldsText_cons, Field.text]
  rw [behind, found, text, strstr_leading (List.prefix_append _ _)]
  simp

theorem behind_string (plain : PlainKey key) {before after : List Field} {content : Bytes}
    (others : ∀ other ∈ before, PlainKey other.key ∧ other.key ≠ key) :
    behind (stringPattern key) (objectText (before ++ ⟨key, .string content⟩ :: after)) =
      some (escapedText content ++ byte '"' :: membersTail after) := by
  have text : fieldsText (⟨key, .string content⟩ :: after) =
      stringPattern key ++ (escapedText content ++ byte '"' :: membersTail after) := by
    simp [fieldsText_cons, Field.text, FieldValue.text, stringPattern]
  rw [behind, stringPattern, strstr_objectText plain others, ← stringPattern, text,
    strstr_leading (List.prefix_append _ _)]
  simp

/-- The escapes of a string that `json_get_string` knows are all it holds. -/
def KnownEscapes (raw : Bytes) : Prop :=
  ∀ letter ∈ escapeLetters raw, (jsonUnescape letter).isSome = true

instance (raw : Bytes) : Decidable (KnownEscapes raw) :=
  inferInstanceAs (Decidable (∀ letter ∈ _, _))

theorem knownEscapes_plain {c : UInt8} (notEscape : c ≠ byte '\\') (raw : Bytes) :
    KnownEscapes (c :: raw) ↔ KnownEscapes raw := by
  simp only [KnownEscapes, escapeLetters_plain notEscape]

theorem knownEscapes_escape (letter : UInt8) (raw : Bytes) :
    KnownEscapes (byte '\\' :: letter :: raw) ↔
      (jsonUnescape letter).isSome = true ∧ KnownEscapes raw := by
  simp only [KnownEscapes, escapeLetters_escape, List.forall_mem_cons]

theorem jsonUnescape_of_escape {letter value : UInt8}
    (escaped : escapeValue letter = some value) :
    jsonUnescape letter = some value ∨ jsonUnescape letter = none := by
  have row := of_table (p := fun c => (jsonUnescape c).all fun b =>
    escapeValue c == some b) (by decide +kernel) letter
  cases known : jsonUnescape letter with
  | none => exact .inr rfl
  | some b =>
      rw [known, Option.all_some, beq_iff_eq, escaped] at row
      exact .inl row.symm

private theorem pushed_byte {outputSize : Nat} {known : Prop} [Decidable known] (b : UInt8)
    (output rest : Bytes) :
    (if output.length + 2 ≥ outputSize then none
      else if known ∧ (rest = [] ∨ (output ++ [b]).length + rest.length + 1 < outputSize) then
        some ((output ++ [b]) ++ rest)
      else none) =
      if known ∧ (b :: rest = [] ∨ output.length + (b :: rest).length + 1 < outputSize) then
        some (output ++ b :: rest)
      else none := by
  have fits : (rest = [] ∨ (output ++ [b]).length + rest.length + 1 < outputSize) ∧
        output.length + 2 < outputSize ↔
      b :: rest = [] ∨ output.length + (b :: rest).length + 1 < outputSize := by
    cases rest <;> simp <;> omega
  by_cases room : output.length + 2 < outputSize
  · rw [if_neg (by omega), List.append_assoc]
    simp only [← fits, room, and_true, List.singleton_append]
  · rw [if_pos (by omega)]
    simp only [← fits, room, and_false, if_false]

/-- The text of a string is read in full if and only if its escapes are known and there
is room for what it stands for. -/
theorem jsonGetStringLoop_denotes {outputSize : Nat} {raw content tail output : Bytes}
    (denotes : Denotes raw content) :
    jsonGetStringLoop outputSize false (raw ++ byte '"' :: tail) output =
      if KnownEscapes raw ∧
          (content = [] ∨ output.length + content.length + 1 < outputSize) then
        some (output ++ content)
      else none := by
  have unicode (rest : Bytes) (output : Bytes) :
      jsonGetStringLoop outputSize false (byte '\\' :: byte 'u' :: rest) output = none := by
    simp [jsonGetStringLoop, show byte '\\' ≠ byte '"' by decide,
      show jsonUnescape (byte 'u') = none by decide]
  have unknown {digits rest : Bytes} {value : Nat} (coded : codeUnit digits = some value) :
      ¬ KnownEscapes (byte '\\' :: byte 'u' :: (digits ++ rest)) := by
    rw [KnownEscapes, escapeLetters_unicode coded]
    intro known
    exact absurd (known (byte 'u') (by simp)) (by decide)
  induction denotes generalizing output with
  | nil => simp [jsonGetStringLoop, KnownEscapes, escapeLetters]
  | plain _ notQuote notEscape _ induction =>
      simp only [List.cons_append, jsonGetStringLoop, notQuote, notEscape, if_false, induction,
        knownEscapes_plain notEscape, pushed_byte]
  | escape escaped _ induction =>
      simp only [List.cons_append, jsonGetStringLoop, show byte '\\' ≠ byte '"' by decide,
        if_false, if_true, knownEscapes_escape]
      obtain known | unknown := jsonUnescape_of_escape escaped
      · simp only [known, Option.isSome_some, true_and, induction, pushed_byte]
      · simp only [unknown, Option.isSome_none, Bool.false_eq_true, false_and, if_false]
  | unicode coded _ _ =>
      rw [if_neg fun known => unknown coded known.1]
      exact unicode _ _
  | surrogates highCoded _ _ _ _ _ _ =>
      rw [if_neg fun known => unknown highCoded known.1]
      exact unicode _ _

theorem jsonGetString_eq {outputSize : Nat} {key content result : Bytes}
    {fields before after : List Field}
    (shape : fields = before ++ ⟨key, .string content⟩ :: after)
    (plain : PlainKey key) (short : key.length < 100)
    (others : ∀ other ∈ before, PlainKey other.key ∧ other.key ≠ key)
    (decoded : jsonGetString (objectText fields) key outputSize = some result) :
    result = content := by
  have fits : snprintf 128 (stringPattern key) = stringPattern key := by
    apply snprintf_of_lt
    simp [stringPattern, keyPattern]
    omega
  rw [jsonGetString, fits, shape, behind_string plain others, Option.bind_some,
    jsonGetStringLoop_denotes (denotes_escapedText content)] at decoded
  split at decoded
  · exact (Option.some.inj decoded).symm
  · contradiction

theorem jsonGetLong_number {key : Bytes} {value : Int} {fields before after : List Field}
    (shape : fields = before ++ ⟨key, .number value⟩ :: after)
    (plain : PlainKey key) (short : key.length < 100)
    (others : ∀ other ∈ before, PlainKey other.key ∧ other.key ≠ key)
    (lower : longMin ≤ value) (upper : value ≤ longMax) :
    jsonGetLong (objectText fields) key = some value := by
  have fits : snprintf 128 (keyPattern key) = keyPattern key := by
    apply snprintf_of_lt
    simp [keyPattern]
    omega
  have ends : EndsNumeral (membersTail after) := by
    intro c isHead
    cases after with
    | nil =>
        obtain rfl : byte '}' = c := by simpa [membersTail] using isHead
        decide
    | cons field rest =>
        obtain rfl : byte ',' = c := by simpa [membersTail] using isHead
        decide
  have nonempty : (signedDecimal value).length ≠ 0 := by
    cases value with
    | ofNat n => exact mt List.length_eq_zero_iff.mp (decimal_ne_nil n)
    | negSucc n => simp [signedDecimal]
  rw [jsonGetLong, fits, shape, behind_name plain others]
  simp only [Option.bind_some, FieldValue.text, strtol_signedDecimal lower upper ends]
  rw [if_neg (by rw [List.length_append]; omega)]

theorem jsonGetLong_eq {key : Bytes} {value result : Int} {fields before after : List Field}
    (shape : fields = before ++ ⟨key, .number value⟩ :: after)
    (plain : PlainKey key) (short : key.length < 100)
    (others : ∀ other ∈ before, PlainKey other.key ∧ other.key ≠ key)
    (lower : longMin ≤ value) (upper : value ≤ longMax)
    (decoded : jsonGetLong (objectText fields) key = some result) : result = value := by
  rw [jsonGetLong_number shape plain short others lower upper] at decoded
  exact (Option.some.inj decoded).symm

end HttpFs
