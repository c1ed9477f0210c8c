import HttpFs.Client.Transport
import HttpFs.Provider.Requests
import HttpFs.Foundation.Trimming

namespace HttpFs

open CProvider

/-! One header line with a digest, as the client and the C provider read it. -/

def SameName (name : Bytes) : Prop :=
  name.map lowerCase = HTTPFS_CONTENT_MD5_HEADER.map lowerCase

def digestLine (name text : Bytes) : Bytes := name ++ byte ':' :: text

/-- The text behind the colon without the spaces and tabs around it. -/
def fieldValue (text : Bytes) : Bytes :=
  (text.dropWhile isHeaderBlank).rdropWhile isHeaderBlank

/-- The header lines between the two pointers that `extract_header_value` gets. -/
def headerBlock (before : List Bytes) (line : Bytes) (after : List Bytes) : Bytes :=
  (before.map fun line => line ++ crlf).flatten ++
    (line ++ (after.map fun line => crlf ++ line).flatten)

def clientDigest (metadata : ResponseMetadata) (name text : Bytes) : Bytes :=
  (headerCallback metadata (digestLine name text ++ crlf)).contentMd5

def providerDigest (before after : List Bytes) (name text : Bytes) : Bytes :=
  (extractHeaderValue (splitLines (headerBlock before (digestLine name text) after) [])
    md5HeaderName 33).getD []

/-- Both sides have the value, if it is short enough for a digest; neither side has a
digest from a longer one. -/
def ReadExactly (client provider value : Bytes) : Prop :=
  if value.length ≤ 32 then client = value ∧ provider = value
  else httpfsIsValidMd5Hex client = false ∧ httpfsIsValidMd5Hex provider = false

/-- What both sides rely on: a value ends where its line ends, and a value longer than a
digest does not begin with one. -/
def PlainDigest (text : Bytes) : Prop :=
  let value := text.dropWhile isHeaderBlank
  if (fieldValue text).length ≤ 32 then
    ∀ c, value.getLast? = some c → isHeaderBlank c = false ∧ c ≠ byte '\r'
  else
    httpfsIsValidMd5Hex (value.take 32) = false

theorem SameName.length {name : Bytes} (sameName : SameName name) : name.length = 20 := by
  have lengths := congrArg List.length sameName
  rw [List.length_map, List.length_map] at lengths
  exact lengths.trans (by decide)

theorem SameName.startsWith {name rest : Bytes} (sameName : SameName name) :
    startsWithIgnoringCase (name ++ rest) HTTPFS_CONTENT_MD5_HEADER = true := by
  have same : HTTPFS_CONTENT_MD5_HEADER.length = name.length := sameName.length.symm
  rw [startsWithIgnoringCase, same, List.take_left, sameName]
  exact beq_self_eq_true _

theorem blank_append_crlf (text : Bytes) :
    (text ++ crlf).dropWhile isHeaderBlank = text.dropWhile isHeaderBlank ++ crlf := by
  induction text with
  | nil => decide
  | cons c rest induction =>
      rw [List.cons_append]
      by_cases isBlank : isHeaderBlank c = true
      · rw [List.dropWhile_cons_of_pos isBlank, List.dropWhile_cons_of_pos isBlank, induction]
      · rw [List.dropWhile_cons_of_neg isBlank, List.dropWhile_cons_of_neg isBlank,
          List.cons_append]

theorem dropWhile_subset {p : UInt8 → Bool} {text : Bytes} {c : UInt8}
    (member : c ∈ text.dropWhile p) : c ∈ text :=
  (List.dropWhile_suffix p).subset member

section Sides

variable {name text : Bytes}

theorem hasHeader_digest (sameName : SameName name) :
    hasHeader (contentTypeHeader ++ ascii ":") (digestLine name text ++ crlf) = false ∧
      hasHeader (HTTPFS_CONTENT_MD5_HEADER ++ ascii ":") (digestLine name text ++ crlf) =
        true := by
  have length := sameName.length
  have shape : digestLine name text ++ crlf = (name ++ ascii ":") ++ (text ++ crlf) := by
    simp [digestLine, ascii]
  have md5Length : (HTTPFS_CONTENT_MD5_HEADER ++ ascii ":").length =
      (name ++ ascii ":").length := by
    rw [List.length_append, List.length_append, length]
    rfl
  constructor
  · have typeLength : (contentTypeHeader ++ ascii ":").length = 13 := by decide
    have start : (digestLine name text ++ crlf).take 13 = name.take 13 := by
      rw [digestLine, List.append_assoc, List.take_append_of_le_length (by omega)]
    have differs : startsWithIgnoringCase (digestLine name text ++ crlf)
        (contentTypeHeader ++ ascii ":") = false := by
      rw [startsWithIgnoringCase, typeLength, start, List.map_take, sameName]
      decide
    rw [hasHeader, differs, Bool.and_false]
  · have same : startsWithIgnoringCase (digestLine name text ++ crlf)
        (HTTPFS_CONTENT_MD5_HEADER ++ ascii ":") = true := by
      rw [startsWithIgnoringCase, shape, md5Length, List.take_left, List.map_append, sameName,
        ← List.map_append]
      exact beq_self_eq_true _
    have longer : (digestLine name text ++ crlf).length >
        (HTTPFS_CONTENT_MD5_HEADER ++ ascii ":").length := by
      rw [shape, md5Length, List.length_append]
      simp [crlf, ascii]
    rw [hasHeader, same, Bool.and_true, decide_eq_true longer]

theorem clientDigest_eq (metadata : ResponseMetadata) (sameName : SameName name)
    (noNul : 0 ∉ text) :
    clientDigest metadata name text =
      ((text.dropWhile isHeaderBlank).rdropWhile isHeaderTrail).take 32 := by
  obtain ⟨notType, isMd5⟩ := @hasHeader_digest name text sameName
  have dropped : (digestLine name text ++ crlf).drop
      (HTTPFS_CONTENT_MD5_HEADER ++ ascii ":").length = text ++ crlf := by
    have shape : digestLine name text ++ crlf = (name ++ ascii ":") ++ (text ++ crlf) := by
      simp [digestLine, ascii]
    have sameLength : (HTTPFS_CONTENT_MD5_HEADER ++ ascii ":").length =
        (name ++ ascii ":").length := by
      rw [List.length_append, List.length_append, sameName.length]
      rfl
    rw [shape, sameLength, List.drop_left]
  have value : headerValue (HTTPFS_CONTENT_MD5_HEADER ++ ascii ":")
      (digestLine name text ++ crlf) =
        (text.dropWhile isHeaderBlank).rdropWhile isHeaderTrail := by
    rw [headerValue, dropped, blank_append_crlf]
    exact rdropWhile_append (by decide)
  have kept : 0 ∉ ((text.dropWhile isHeaderBlank).rdropWhile isHeaderTrail).take 32 := by
    intro member
    exact noNul (dropWhile_subset ((List.rdropWhile_prefix _ _).subset
      (List.mem_of_mem_take member)))
  simp only [clientDigest, headerCallback, notType, isMd5, value, headerField,
    cString_of_noNul kept, Bool.false_eq_true, if_false, if_true]

theorem providerDigest_eq {before : List Bytes} (after : List Bytes)
    (sameName : SameName name) (noLf : byte '\n' ∉ digestLine name text)
    (lines : ∀ line ∈ before, byte '\n' ∉ line)
    (others : ∀ line ∈ before, isHeaderLine md5HeaderName line = false) :
    providerDigest before after name text =
      if (text.dropWhile isHeaderBlank).length ≤ 32 then text.dropWhile isHeaderBlank
      else [] := by
  have first : ∃ rest, splitLines (digestLine name text ++
      (after.map fun line => crlf ++ line).flatten) [] = digestLine name text :: rest := by
    cases after with
    | nil =>
        refine ⟨[], ?_⟩
        rw [List.map_nil, List.flatten_nil, List.append_nil, splitLines_last noLf,
          List.nil_append]
    | cons next more =>
        rw [List.map_cons, List.flatten_cons, List.append_assoc, splitLines_line noLf,
          List.nil_append]
        exact ⟨_, rfl⟩
  obtain ⟨rest, split⟩ := first
  have isHeader : isHeaderLine md5HeaderName (digestLine name text) = true := by
    have colon : (digestLine name text)[md5HeaderName.length]? = some (byte ':') := by
      have same : md5HeaderName.length = name.length := sameName.length.symm
      rw [digestLine, same, List.getElem?_append_right (Nat.le_refl _), Nat.sub_self]
      rfl
    have longer : (digestLine name text).length > md5HeaderName.length := by
      rw [digestLine, List.length_append, sameName.length]
      simp [md5HeaderName, ascii]
    have starts : startsWithIgnoringCase (digestLine name text) md5HeaderName = true :=
      sameName.startsWith
    rw [isHeaderLine, decide_eq_true longer, starts, colon]
    rfl
  have found : (before ++ digestLine name text :: rest).find? (isHeaderLine md5HeaderName) =
      some (digestLine name text) := by
    rw [List.find?_append, List.find?_eq_none.mpr (by simpa using others), Option.none_or,
      List.find?_cons_of_pos isHeader]
  have dropped : (digestLine name text).drop (md5HeaderName.length + 1) = text := by
    have same : md5HeaderName.length + 1 = (name ++ [byte ':']).length := by
      rw [List.length_append, sameName.length]
      rfl
    have shape : digestLine name text = (name ++ [byte ':']) ++ text := by simp [digestLine]
    rw [same, shape, List.drop_left]
  rw [providerDigest, headerBlock, splitLines_lines lines, split, extractHeaderValue, found]
  simp only [Option.bind_some, dropped]
  by_cases fits : (text.dropWhile isHeaderBlank).length ≤ 32
  · rw [if_neg (by omega), if_pos fits, Option.getD_some]
  · rw [if_pos (by omega), if_neg fits, Option.getD_none]

end Sides

section Values

variable {value : Bytes}

theorem isHeaderTrail_iff {c : UInt8} (notLf : c ≠ byte '\n') :
    isHeaderTrail c = false ↔ isHeaderBlank c = false ∧ c ≠ byte '\r' := by
  have row := of_table (p := fun c => c == byte '\n' ||
    isHeaderTrail c == (isHeaderBlank c || c == byte '\r')) (by decide +kernel) c
  rw [beq_eq_false_iff_ne.mpr notLf, Bool.false_or, beq_iff_eq] at row
  rw [row, Bool.or_eq_false_iff, beq_eq_false_iff_ne]

/-- A value without blanks in front of it. -/
theorem rdropWhile_blank_eq_nil
    (start : ∀ c, value.head? = some c → isHeaderBlank c = false)
    (nothing : value.rdropWhile isHeaderBlank = []) : value = [] := by
  cases value with
  | nil => rfl
  | cons c rest =>
      rw [List.rdropWhile_eq_nil_iff] at nothing
      have isBlank := nothing c (List.mem_cons_self ..)
      rw [start c rfl] at isBlank
      contradiction

theorem short_exact_iff (start : ∀ c, value.head? = some c → isHeaderBlank c = false)
    (noLf : byte '\n' ∉ value)
    (short : (value.rdropWhile isHeaderBlank).length ≤ 32) :
    ((value.rdropWhile isHeaderTrail).take 32 = value.rdropWhile isHeaderBlank ∧
      (if value.length ≤ 32 then value else []) = value.rdropWhile isHeaderBlank) ↔
      ∀ c, value.getLast? = some c → isHeaderBlank c = false ∧ c ≠ byte '\r' := by
  have notLf (c : UInt8) (isLast : value.getLast? = some c) : c ≠ byte '\n' := by
    rintro rfl
    exact noLf (List.mem_of_getLast? isLast)
  constructor
  · rintro ⟨client, provider⟩ c isLast
    have kept : value.rdropWhile isHeaderBlank = value := by
      split at provider
      · exact provider.symm
      · have nothing := rdropWhile_blank_eq_nil start provider.symm
        rw [nothing]
        rfl
    rw [kept] at client
    have same : value.rdropWhile isHeaderTrail = value := by
      have isPrefix := List.rdropWhile_prefix isHeaderTrail value
      have bound := congrArg List.length client
      rw [List.length_take] at bound
      exact isPrefix.eq_of_length_le (by omega)
    exact (isHeaderTrail_iff (notLf c isLast)).mp (last_of_rdropWhile same isLast)
  · intro plain
    have kept : value.rdropWhile isHeaderBlank = value :=
      rdropWhile_of_last fun c isLast => (plain c isLast).1
    have same : value.rdropWhile isHeaderTrail = value :=
      rdropWhile_of_last fun c isLast =>
        (isHeaderTrail_iff (notLf c isLast)).mpr (plain c isLast)
    rw [kept] at short ⊢
    rw [same, if_pos short, List.take_of_length_le short]
    exact ⟨rfl, rfl⟩

theorem long_refused_iff (long : ¬ (value.rdropWhile isHeaderBlank).length ≤ 32) :
    (httpfsIsValidMd5Hex ((value.rdropWhile isHeaderTrail).take 32) = false ∧
      httpfsIsValidMd5Hex (if value.length ≤ 32 then value else []) = false) ↔
      httpfsIsValidMd5Hex (value.take 32) = false := by
  have shorter := (List.rdropWhile_prefix isHeaderBlank value).length_le
  have refused : httpfsIsValidMd5Hex [] = false := by decide
  rw [if_neg (by omega)]
  simp only [refused, and_true]
  rw [← Bool.not_eq_true, ← Bool.not_eq_true, not_iff_not]
  have lengths {text : Bytes} (valid : httpfsIsValidMd5Hex text = true) : text.length = 32 := by
    simp only [httpfsIsValidMd5Hex, Bool.and_eq_true, beq_iff_eq] at valid
    exact valid.1
  constructor
  · intro valid
    have full := lengths valid
    rw [List.length_take] at full
    have same := List.prefix_iff_eq_take.mp
      ((List.take_prefix 32 _).trans (List.rdropWhile_prefix isHeaderTrail value))
    rw [lengths valid] at same
    rwa [← same]
  · intro valid
    have isDigit : ∀ c ∈ value.take 32, isHeaderTrail c = false := by
      intro c member
      have row := of_table (p := fun c => !isLowerHex c || !isHeaderTrail c)
        (by decide +kernel) c
      simp only [httpfsIsValidMd5Hex, Bool.and_eq_true, List.all_eq_true] at valid
      simpa [valid.2 c member] using row
    have within := prefix_rdropWhile (p := isHeaderTrail) (List.take_prefix 32 value)
      fun c isLast => isDigit c (List.mem_of_getLast? isLast)
    have same := List.prefix_iff_eq_take.mp within
    rw [lengths valid] at same
    rwa [← same]

end Values

/-- The client cuts off what a digest leaves over, and the provider keeps blanks behind
it. -/
theorem digest_readExactly_iff {name text : Bytes} {before : List Bytes}
    (metadata : ResponseMetadata) (after : List Bytes) (sameName : SameName name)
    (noNul : 0 ∉ text) (noLf : byte '\n' ∉ text)
    (lines : ∀ line ∈ before, byte '\n' ∉ line)
    (others : ∀ line ∈ before, isHeaderLine md5HeaderName line = false) :
    ReadExactly (clientDigest metadata name text) (providerDigest before after name text)
        (fieldValue text) ↔ PlainDigest text := by
  have nameNoLf : byte '\n' ∉ name := by
    intro member
    have lowered := List.mem_map_of_mem (f := lowerCase) member
    rw [sameName] at lowered
    exact absurd lowered (by decide)
  have lineNoLf : byte '\n' ∉ digestLine name text := by
    simp only [digestLine, List.mem_append, List.mem_cons, not_or]
    exact ⟨nameNoLf, by decide, noLf⟩
  have start : ∀ c, (text.dropWhile isHeaderBlank).head? = some c →
      isHeaderBlank c = false := by
    intro c isHead
    have stops := List.head?_dropWhile_not isHeaderBlank text
    rw [isHead] at stops
    simpa using stops
  rw [clientDigest_eq metadata sameName noNul,
    providerDigest_eq after sameName lineNoLf lines others, ReadExactly, PlainDigest, fieldValue]
  split
  · next short =>
    exact short_exact_iff start (fun member => noLf (dropWhile_subset member)) short
  · next long => exact long_refused_iff long

theorem digest_readExactly_lowerCase :
    ReadExactly
      (clientDigest ⟨[], []⟩ (ascii "x-httpfs-content-md5")
        (ascii " \td41d8cd98f00b204e9800998ecf8427e"))
      (providerDigest [ascii "Host: localhost"] [ascii "Accept: */*"]
        (ascii "x-httpfs-content-md5") (ascii " \td41d8cd98f00b204e9800998ecf8427e"))
      (fieldValue (ascii " \td41d8cd98f00b204e9800998ecf8427e")) := by
  have sameName : SameName (ascii "x-httpfs-content-md5") := by
    rw [SameName]
    decide
  have plain : PlainDigest (ascii " \td41d8cd98f00b204e9800998ecf8427e") := by
    have short : (fieldValue (ascii " \td41d8cd98f00b204e9800998ecf8427e")).length ≤ 32 := by
      decide +kernel
    rw [PlainDigest, if_pos short]
    decide +kernel
  exact (digest_readExactly_iff ⟨[], []⟩ [ascii "Accept: */*"] sameName (by decide) (by decide)
    (by decide) (by decide +kernel)).mpr plain

/-- The first 32 of 33 digits are a digest for the client. -/
theorem digest_cut_off :
    ¬ ∀ (metadata : ResponseMetadata) (name text : Bytes) (before after : List Bytes),
      SameName name → 0 ∉ text → byte '\n' ∉ text → (∀ line ∈ before, byte '\n' ∉ line) →
      (∀ line ∈ before, isHeaderLine md5HeaderName line = false) →
      ReadExactly (clientDigest metadata name text) (providerDigest before after name text)
        (fieldValue text) := by
  intro exact
  have refused := exact ⟨[], []⟩ HTTPFS_CONTENT_MD5_HEADER
    (ascii " d41d8cd98f00b204e9800998ecf8427e0") [] [] rfl (by decide) (by decide) (by simp)
    (by simp)
  have long : ¬ (fieldValue (ascii " d41d8cd98f00b204e9800998ecf8427e0")).length ≤ 32 := by
    decide +kernel
  rw [ReadExactly, if_neg long] at refused
  exact absurd refused.1 (by decide +kernel)

end HttpFs
