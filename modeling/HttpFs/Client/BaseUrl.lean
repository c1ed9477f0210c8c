import HttpFs.Client.Transport
import HttpFs.Foundation.Trimming

namespace HttpFs

/-! `normalize_base_url`, which works on the array of the client in place. -/

def isSlash (c : UInt8) : Bool := c == byte '/'

/-- Each of the two loops, on the array `output` and `length`. -/
def stripSlashes : Bytes → Nat → Bytes × Nat
  | output, 0 => (output, 0)
  | output, length + 1 =>
      if isSlash (output.getD length 0) then
        stripSlashes (output.set length 0) length
      else
        (output, length + 1)

/-- `none` is the NULL pointer; `output_size` is the size of the array. -/
def normalizeBaseUrl (output : Bytes) : Option Bytes → Bytes
  | none => if output.length = 0 then output else output.set 0 0
  | some baseUrl =>
      if output.length = 0 then
        output
      else
        let output := copyInto output 0 (snprintf output.length (cString baseUrl) ++ [0])
        let length := (cString output).length
        let (output, length) := stripSlashes output length
        let (output, length) :=
          if length ≥ 3 ∧ cString (output.drop (length - 3)) = ascii "/v1" then
            (output.set (length - 3) 0, length - 3)
          else
            (output, length)
        (stripSlashes output length).1

/-- `httpfs_client_init`, which fills the client with zero bytes first. -/
def httpfsClientInit (baseUrl : Option Bytes) (timeoutMs : Int) : HttpfsClient where
  baseUrl := cString (normalizeBaseUrl (List.replicate 512 0) baseUrl)
  timeoutMs := timeoutMs
  verbose := false

def httpfsClientSetVerbose (client : HttpfsClient) (verbose : Bool) : HttpfsClient :=
  { client with verbose }

/-- The array starts with a string and its NUL. -/
structure HoldsString (text output : Bytes) : Prop where
  noNul : 0 ∉ text
  terminated : text ++ [0] <+: output

section HoldsString

variable {text output : Bytes}

theorem HoldsString.cString_eq (holds : HoldsString text output) : cString output = text :=
  cString_of_terminated holds.noNul holds.terminated

theorem HoldsString.drop (holds : HoldsString text output) {n : Nat} (inside : n ≤ text.length) :
    HoldsString (text.drop n) (output.drop n) := by
  obtain ⟨rest, shape⟩ := holds.terminated
  refine ⟨fun member => holds.noNul (List.mem_of_mem_drop member), rest, ?_⟩
  rw [← shape, List.append_assoc, List.append_assoc, List.drop_append_of_le_length inside]

/-- A NUL stored inside of the string cuts it there. -/
theorem HoldsString.cut (holds : HoldsString text output) {n : Nat} (inside : n ≤ text.length) :
    HoldsString (text.take n) (output.set n 0) := by
  obtain ⟨rest, shape⟩ := holds.terminated
  have length : n < output.length := by
    rw [← shape, List.length_append, List.length_append, List.length_singleton]
    omega
  have front : output.take n = text.take n := by
    rw [← shape, List.append_assoc, List.take_append_of_le_length inside]
  refine ⟨fun member => holds.noNul (List.mem_of_mem_take member), output.drop (n + 1), ?_⟩
  rw [List.set_eq_take_append_cons_drop, if_pos length, front, List.append_assoc]
  rfl

/-- A loop ends with the string that has no slash at its end, and with its length. -/
theorem HoldsString.stripSlashes (holds : HoldsString text output) :
    HoldsString (text.rdropWhile isSlash) (stripSlashes output text.length).1 ∧
      (HttpFs.stripSlashes output text.length).2 = (text.rdropWhile isSlash).length := by
  induction text using List.reverseRecOn generalizing output with
  | nil => exact ⟨holds, rfl⟩
  | append_singleton front last induction =>
      have isLast : output.getD front.length 0 = last := by
        obtain ⟨rest, shape⟩ := holds.terminated
        simp [← shape]
      rw [List.length_append, List.length_singleton, HttpFs.stripSlashes, isLast]
      cases slash : isSlash last with
      | true =>
          have shorter := holds.cut (n := front.length) (by simp)
          rw [List.take_left] at shorter
          rw [List.rdropWhile_concat_pos _ _ _ slash]
          exact induction shorter
      | false =>
          rw [List.rdropWhile_concat_neg _ _ _ (by rw [slash]; exact Bool.false_ne_true)]
          exact ⟨holds, by simp⟩

theorem HoldsString.endsInVersion_iff (holds : HoldsString text output) :
    (text.length ≥ 3 ∧ cString (output.drop (text.length - 3)) = ascii "/v1") ↔
      ascii "/v1" <:+ text := by
  have tail := (holds.drop (Nat.sub_le text.length 3)).cString_eq
  have length : (ascii "/v1").length = 3 := rfl
  rw [tail, List.suffix_iff_eq_drop, length]
  constructor
  · exact fun ends => ends.2.symm
  · intro isTail
    have lengths := congrArg List.length isTail
    rw [length, List.length_drop] at lengths
    exact ⟨by omega, isTail.symm⟩

end HoldsString

/-- What the array holds in the end, for any base URL. -/
theorem normalizeBaseUrl_holds {output : Bytes} (nonempty : output.length ≠ 0)
    (baseUrl : Bytes) :
    HoldsString (withoutSuffix isSlash (ascii "/v1") (snprintf output.length (cString baseUrl)))
      (normalizeBaseUrl output (some baseUrl)) := by
  obtain ⟨text, isText⟩ : ∃ text, text = snprintf output.length (cString baseUrl) := ⟨_, rfl⟩
  have copied : HoldsString text (copyInto output 0 (text ++ [0])) := by
    constructor
    · rw [isText]
      exact fun member => zero_not_mem_cString baseUrl (List.mem_of_mem_take member)
    · rw [copyInto, List.take_zero, List.nil_append]
      exact List.prefix_append _ _
  obtain ⟨stripped, strippedLength⟩ := copied.stripSlashes
  simp only [normalizeBaseUrl, if_neg nonempty, ← isText, copied.cString_eq, strippedLength,
    stripped.endsInVersion_iff, withoutSuffix]
  split
  · next ends =>
    have shorter := stripped.cut (Nat.sub_le (text.rdropWhile isSlash).length 3)
    have again := shorter.stripSlashes.1
    rw [List.length_take_of_le (Nat.sub_le _ _)] at again
    exact again
  · next absent =>
    have again := stripped.stripSlashes.1
    rw [List.rdropWhile_idempotent] at again
    exact again

theorem cString_normalizeBaseUrl {output baseUrl : Bytes} (noNul : 0 ∉ baseUrl)
    (fits : baseUrl.length < output.length) :
    cString (normalizeBaseUrl output (some baseUrl)) =
      withoutSuffix isSlash (ascii "/v1") baseUrl := by
  have holds := normalizeBaseUrl_holds (Nat.ne_of_gt (Nat.zero_lt_of_lt fits)) baseUrl
  rw [holds.cString_eq, cString_of_noNul noNul, snprintf_of_lt fits]

theorem httpfsClientInit_eq {baseUrl : Bytes} (noNul : 0 ∉ baseUrl)
    (fits : baseUrl.length < 512) (timeoutMs : Int) :
    httpfsClientInit (some baseUrl) timeoutMs =
      ⟨withoutSuffix isSlash (ascii "/v1") baseUrl, timeoutMs, false⟩ := by
  rw [httpfsClientInit, cString_normalizeBaseUrl noNul]
  rwa [List.length_replicate]

/-- A base URL with the version behind it, and slashes behind both. -/
def versioned (baseUrl : Bytes) (between behind : Nat) : Bytes :=
  baseUrl ++ List.replicate between (byte '/') ++ ascii "/v1" ++
    List.replicate behind (byte '/')

theorem isSlash_of_mem_replicate {count : Nat} {c : UInt8}
    (member : c ∈ List.replicate count (byte '/')) : isSlash c = true := by
  rw [List.eq_of_mem_replicate member]
  rfl

theorem withoutSuffix_versioned (baseUrl : Bytes) (between behind : Nat) :
    withoutSuffix isSlash (ascii "/v1") (versioned baseUrl between behind) =
      baseUrl.rdropWhile isSlash := by
  have last : ∀ c, (ascii "/v1").getLast? = some c → isSlash c = false := by
    intro c isLast
    have isDigit : (ascii "/v1").getLast? = some (byte '1') := rfl
    rw [isDigit] at isLast
    rw [← Option.some.inj isLast]
    rfl
  exact withoutSuffix_append last (List.cons_ne_nil _ _)
    (fun _ member => isSlash_of_mem_replicate member)
    fun _ member => isSlash_of_mem_replicate member

/-- The client does not tell the spellings of a base URL apart. -/
theorem baseUrl_spellings {baseUrl output : Bytes} (between behind : Nat)
    (noNul : 0 ∉ baseUrl) (unversioned : ¬ ascii "/v1" <:+ baseUrl.rdropWhile isSlash)
    (size : output.length = 512) (fits : (versioned baseUrl between behind).length < 512) :
    cString (normalizeBaseUrl output (some baseUrl)) = baseUrl.rdropWhile isSlash ∧
      cString (normalizeBaseUrl output (some (versioned baseUrl between behind))) =
        baseUrl.rdropWhile isSlash ∧
      ∀ timeoutMs verbose,
        let client := httpfsClientSetVerbose (httpfsClientInit (some baseUrl) timeoutMs) verbose
        httpfsClientSetVerbose
            (httpfsClientInit (some (versioned baseUrl between behind)) timeoutMs) verbose =
          client ∧
        ∀ method endpoint body contentType contentMd5 request,
          requestFor client method endpoint body contentType contentMd5 = .ok request →
            request.url = baseUrl.rdropWhile isSlash ++ endpoint := by
  have plainFits : baseUrl.length < 512 := by
    simp only [versioned, List.length_append] at fits
    omega
  have versionedNoNul : 0 ∉ versioned baseUrl between behind := by
    have slashes : ∀ count, (0 : UInt8) ∉ List.replicate count (byte '/') := by
      intro count member
      exact absurd (List.eq_of_mem_replicate member) (by decide)
    simp only [versioned, List.mem_append, not_or]
    exact ⟨⟨⟨noNul, slashes between⟩, by decide⟩, slashes behind⟩
  have plainForm := withoutSuffix_plain unversioned
  have versionedForm := withoutSuffix_versioned baseUrl between behind
  refine ⟨?_, ?_, ?_⟩
  · rw [cString_normalizeBaseUrl noNul (by rwa [size]), plainForm]
  · rw [cString_normalizeBaseUrl versionedNoNul (by rwa [size]), versionedForm]
  · intro timeoutMs verbose
    rw [httpfsClientInit_eq noNul plainFits, httpfsClientInit_eq versionedNoNul fits, plainForm,
      versionedForm]
    refine ⟨rfl, ?_⟩
    intro method endpoint body contentType contentMd5 request isRequest
    exact requestFor_url isRequest

/-- The form with the version that the documentation names, with slashes around it. -/
theorem baseUrl_spellings_local :
    cString (normalizeBaseUrl (List.replicate 512 1)
      (some (ascii "http://127.0.0.1:18080//v1//"))) = ascii "http://127.0.0.1:18080" := by
  have noNul : 0 ∉ ascii "http://127.0.0.1:18080" := by decide
  have unversioned :
      ¬ ascii "/v1" <:+ (ascii "http://127.0.0.1:18080").rdropWhile isSlash := by
    decide
  have same := baseUrl_spellings 1 2 noNul unversioned
    (List.length_replicate (n := 512) (a := 1)) (by decide)
  exact same.2.1

end HttpFs
