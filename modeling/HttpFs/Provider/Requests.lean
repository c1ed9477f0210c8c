import HttpFs.Provider.Handlers

namespace HttpFs.CProvider

/-- One `%s` of `sscanf` with a field width: the word, and the text behind it. -/
def scanWord (width : Nat) (text : Bytes) : Option (Bytes × Bytes) :=
  let trimmed := text.dropWhile isSpace
  let word := (trimmed.takeWhile fun c => !isSpace c).take width
  if word = [] then none else some (word, trimmed.drop word.length)

structure RequestLine where
  method : Bytes
  path : Bytes
  query : Bytes
  deriving Repr, DecidableEq

def parseRequestLine (line : Bytes) : Option RequestLine := do
  let (method, rest) ← scanWord 7 line
  let (rawUri, _) ← scanWord 2047 rest
  let path := rawUri.takeWhile fun c => c != byte '?'
  return ⟨method, snprintf 2048 path, snprintf 2048 (rawUri.drop (path.length + 1))⟩

/-- The lines of a text, each of which ends before a line end; `line` is what is known
of the first. -/
def splitLines : Bytes → Bytes → List Bytes
  | [], line => [line]
  | [c], line => [line ++ [c]]
  | c :: d :: rest, line =>
      if c = byte '\r' ∧ d = byte '\n' then
        line :: splitLines rest []
      else
        splitLines (d :: rest) (line ++ [c])

def isHeaderLine (name line : Bytes) : Bool :=
  line.length > name.length && startsWithIgnoringCase line name &&
    (line)[name.length]? == some (byte ':')

/-- `extract_header_value` on the lines between its two pointers. -/
def extractHeaderValue (lines : List Bytes) (name : Bytes) (outputSize : Nat) :
    Option Bytes :=
  (lines.find? (isHeaderLine name)).bind fun line =>
    let value := (line.drop (name.length + 1)).dropWhile isHeaderBlank
    if value.length + 1 > outputSize then none else some value

def headEnd : Bytes := ascii "\r\n\r\n"

def contentLengthName : Bytes := ascii "Content-Length:"

def md5HeaderName : Bytes := ascii "X-HTTPFS-Content-MD5"

def contentLength (text : Bytes) : Int :=
  match behind contentLengthName text with
  | none => 0
  | some value => (strtol value).value

/-- The request context `process_request_buffer` fills in, from the bytes received. -/
def requestContext (rootDir buffer : Bytes) : Except HttpfsError RequestContext :=
  let text := cString buffer
  match strstr headEnd text, strstr crlf text with
  | none, _ => .error ⟨Errno.EINVAL, ascii "invalid http request"⟩
  | some _, none => .error ⟨Errno.EINVAL, ascii "invalid request line"⟩
  | some fromHeaderEnd, some fromLineEnd =>
      let headerEnd := text.length - fromHeaderEnd.length
      let lineEnd := text.length - fromLineEnd.length
      match parseRequestLine (text.take lineEnd) with
      | none => .error ⟨Errno.EINVAL, ascii "invalid request line"⟩
      | some line =>
          let headersStart := fromLineEnd.drop 2
          let lines :=
            if headerEnd < lineEnd + 2 then []
            else splitLines (headersStart.take (headerEnd - (lineEnd + 2))) []
          let body := buffer.drop (headerEnd + 4)
          if body.length < contentLength headersStart then
            .error ⟨Errno.EINVAL, ascii "request body truncated"⟩
          else
            .ok {
              method := line.method
              path := line.path
              query := line.query
              contentMd5 := (extractHeaderValue lines md5HeaderName 33).getD []
              body
              rootDir }

variable {κ : Type}

def processRequestBuffer (kernel : Kernel κ) (rootDir buffer : Bytes) (host : Host κ) :
    HttpReply × Host κ :=
  match requestContext rootDir buffer with
  | .error error => (sendErrorJson error.errnoValue error.message, host)
  | .ok request => dispatchRequest kernel request host

def requestMessage (method target : Bytes) (lines : List Bytes) (body : Bytes) : Bytes :=
  method ++ ascii " " ++ target ++ ascii " HTTP/1.1" ++ crlf ++
    ((lines.map fun line => line ++ crlf).flatten ++ (crlf ++ body))

/-- A header line that is not empty and has neither a line end nor a NUL in it. -/
structure PlainLine (line : Bytes) : Prop where
  ne_nil : line ≠ []
  noNul : 0 ∉ line
  noCr : byte '\r' ∉ line

/-- A part of a request line: no white space, and room for it in a buffer. -/
structure Word (width : Nat) (word : Bytes) : Prop where
  ne_nil : word ≠ []
  noNul : 0 ∉ word
  noSpace : ∀ c ∈ word, isSpace c = false
  fits : word.length ≤ width

theorem scanWord_append {width : Nat} {word rest : Bytes} {c : UInt8}
    (isWord : Word width word) (blank : isSpace c = true) :
    scanWord width (word ++ c :: rest) = some (word, c :: rest) := by
  obtain ⟨nonempty, _, noSpace, fits⟩ := isWord
  cases word with
  | nil => contradiction
  | cons head tail =>
      have first : isSpace head = false := noSpace head (by simp)
      have trimmed : (head :: tail ++ c :: rest).dropWhile isSpace =
          head :: tail ++ c :: rest := by
        simp [first]
      have kept : (head :: tail ++ c :: rest).takeWhile (fun c => !isSpace c) =
          head :: tail := by
        rw [List.takeWhile_append_of_pos (by
          intro b member
          simp [noSpace b member])]
        simp [blank]
      simp only [scanWord, trimmed, kept, List.take_of_length_le fits]
      simp

theorem scanWord_blank {width : Nat} {text : Bytes} :
    scanWord width (byte ' ' :: text) = scanWord width text := by
  have blank : isSpace (byte ' ') = true := by decide
  simp [scanWord, blank]

theorem parseRequestLine_words {method path query : Bytes} (isMethod : Word 7 method)
    (isTarget : Word 2047 (path ++ byte '?' :: query)) (noMark : byte '?' ∉ path) :
    parseRequestLine (method ++ ascii " " ++ (path ++ byte '?' :: query) ++
      ascii " HTTP/1.1") = some ⟨method, path, query⟩ := by
  have fits := isTarget.fits
  simp only [List.length_append, List.length_cons] at fits
  have line : method ++ ascii " " ++ (path ++ byte '?' :: query) ++ ascii " HTTP/1.1" =
      method ++ byte ' ' :: ((path ++ byte '?' :: query) ++ byte ' ' :: ascii "HTTP/1.1") := by
    simp [ascii]
  have first := @scanWord_append 7 method
    ((path ++ byte '?' :: query) ++ byte ' ' :: ascii "HTTP/1.1") (byte ' ') isMethod
    (by decide)
  have second := @scanWord_append 2047 (path ++ byte '?' :: query) (ascii "HTTP/1.1")
    (byte ' ') isTarget (by decide)
  have kept : (path ++ byte '?' :: query).takeWhile (fun c => c != byte '?') = path := by
    rw [List.takeWhile_append_of_pos (by
      intro b member
      simp only [bne_iff_ne, ne_eq]
      rintro rfl
      exact noMark member)]
    simp
  have rest : (path ++ byte '?' :: query).drop (path.length + 1) = query := by
    rw [List.drop_append]
    simp
  rw [line]
  simp only [parseRequestLine, first, scanWord_blank, second, Option.bind_eq_bind,
    Option.bind_some, kept, rest, Option.pure_def]
  rw [snprintf_of_lt (by omega), snprintf_of_lt (by omega)]

private theorem splitLines_plain {first : Bytes} (noCr : byte '\r' ∉ first)
    (rest line : Bytes) : splitLines (first ++ rest) line = splitLines rest (line ++ first) := by
  induction first generalizing line with
  | nil => simp
  | cons c tail induction =>
      simp only [List.mem_cons, not_or] at noCr
      have step : splitLines (c :: (tail ++ rest)) line =
          splitLines (tail ++ rest) (line ++ [c]) := by
        cases tail ++ rest with
        | nil => rfl
        | cons d rest => rw [splitLines, if_neg fun lineEnd => noCr.1 lineEnd.1.symm]
      rw [List.cons_append, step, induction noCr.2]
      simp

private theorem splitLines_crlf (rest line : Bytes) :
    splitLines (crlf ++ rest) line = line :: splitLines rest [] := by
  change splitLines (byte '\r' :: byte '\n' :: rest) line = _
  simp [splitLines]

/-- A line feed ends a line only behind a carriage return, which a line may contain. -/
theorem splitLines_line {first : Bytes} (noLf : byte '\n' ∉ first) (rest line : Bytes) :
    splitLines (first ++ (crlf ++ rest)) line = (line ++ first) :: splitLines rest [] := by
  induction first generalizing line with
  | nil => simp [splitLines_crlf]
  | cons c tail induction =>
      simp only [List.mem_cons, not_or] at noLf
      have step : splitLines (c :: (tail ++ (crlf ++ rest))) line =
          splitLines (tail ++ (crlf ++ rest)) (line ++ [c]) := by
        cases tail with
        | nil => exact if_neg fun lineEnd => absurd lineEnd.2 (by decide)
        | cons d tail =>
            simp only [List.mem_cons, not_or] at noLf
            exact if_neg fun lineEnd => noLf.2.1 lineEnd.2.symm
      rw [List.cons_append, step, induction noLf.2]
      simp

theorem splitLines_last {last : Bytes} (noLf : byte '\n' ∉ last) (line : Bytes) :
    splitLines last line = [line ++ last] := by
  induction last generalizing line with
  | nil => simp [splitLines]
  | cons c tail induction =>
      simp only [List.mem_cons, not_or] at noLf
      cases tail with
      | nil => rfl
      | cons d tail =>
          have step : splitLines (c :: d :: tail) line = splitLines (d :: tail) (line ++ [c]) := by
            simp only [List.mem_cons, not_or] at noLf
            exact if_neg fun lineEnd => noLf.2.1 lineEnd.2.symm
          rw [step, induction noLf.2]
          simp

theorem splitLines_lines {lines : List Bytes} (noLf : ∀ line ∈ lines, byte '\n' ∉ line)
    (rest : Bytes) :
    splitLines ((lines.map fun line => line ++ crlf).flatten ++ rest) [] =
      lines ++ splitLines rest [] := by
  induction lines with
  | nil => rfl
  | cons first lines induction =>
      rw [List.map_cons, List.flatten_cons, List.append_assoc, List.append_assoc,
        splitLines_line (noLf first (by simp)), List.nil_append, List.cons_append,
        induction fun line member => noLf line (by simp [member])]

theorem splitLines_joined {first : Bytes} {lines : List Bytes} (noCr : byte '\r' ∉ first)
    (plain : ∀ line ∈ lines, PlainLine line) :
    splitLines (first ++ (lines.map fun line => crlf ++ line).flatten) [] =
      first :: lines := by
  induction lines generalizing first with
  | nil =>
      rw [splitLines_plain noCr]
      rfl
  | cons second lines induction =>
      rw [splitLines_plain noCr, List.map_cons, List.flatten_cons, List.append_assoc,
        splitLines_crlf, induction (plain second (by simp)).noCr fun line member =>
          plain line (by simp [member])]
      simp

theorem crlf_flatten (lines : List Bytes) :
    crlf ++ (lines.map fun line => line ++ crlf).flatten =
      (lines.map fun line => crlf ++ line).flatten ++ crlf := by
  induction lines with
  | nil => rfl
  | cons line lines induction => simp [← induction]

private theorem avoids_headEnd_line {line rest : Bytes} (plain : PlainLine line) :
    Avoids headEnd (crlf ++ line) rest := by
  obtain ⟨nonempty, _, noCr⟩ := plain
  cases line with
  | nil => contradiction
  | cons c tail =>
      have notCr : c ≠ byte '\r' := by
        rintro rfl
        exact noCr (by simp)
      have inner : Avoids headEnd (byte '\n' :: c :: tail) rest := by
        apply avoids_of_not_mem
        simp only [List.mem_cons, not_or] at noCr ⊢
        exact ⟨by decide, noCr⟩
      refine ⟨?_, inner⟩
      intro occurs
      have first : [byte '\r', byte '\n', byte '\r'] <+:
          byte '\r' :: byte '\n' :: c :: (tail ++ rest) :=
        (show [byte '\r', byte '\n', byte '\r'] <+: headEnd by decide).trans occurs
      simp only [List.cons_prefix_cons] at first
      exact notCr first.2.2.1.symm

theorem avoids_headEnd {first rest : Bytes} {lines : List Bytes}
    (noCr : byte '\r' ∉ first) (plain : ∀ line ∈ lines, PlainLine line) :
    Avoids headEnd (first ++ (lines.map fun line => crlf ++ line).flatten) rest := by
  apply Avoids.append (avoids_of_not_mem noCr)
  induction lines with
  | nil => trivial
  | cons line lines induction =>
      rw [List.map_cons, List.flatten_cons]
      exact Avoids.append (avoids_headEnd_line (plain line (by simp)))
        (induction fun line member => plain line (by simp [member]))

theorem avoids_contentLength {lines : List Bytes} {rest : Bytes}
    (absent : ∀ line ∈ lines, containsText contentLengthName line = false) :
    Avoids contentLengthName ((lines.map fun line => line ++ crlf).flatten) rest := by
  induction lines with
  | nil => trivial
  | cons line lines induction =>
      rw [List.map_cons, List.flatten_cons]
      refine Avoids.append (Avoids.append ?_ ?_) (induction fun line member =>
        absent line (by simp [member]))
      · apply avoids_of_not_infix (show byte '\r' ∉ contentLengthName by decide)
        have lineAbsent := absent line (by simp)
        intro inside
        rw [containsText, strstr_isSome_iff.mpr inside] at lineAbsent
        contradiction
      · exact avoids_of_not_mem (by decide)

/-- The head of a request declares the length of its body, in one line; a request
without a body may do without. -/
def DeclaresLength (lines : List Bytes) (body : Bytes) : Prop :=
  lines.filter (containsText contentLengthName) =
      [contentLengthName ++ ascii " " ++ decimal body.length] ∨
    lines.filter (containsText contentLengthName) = [] ∧ body = []

theorem contentLength_le {lines : List Bytes} {body : Bytes}
    (declared : DeclaresLength lines body) (bound : (body.length : Int) ≤ longMax) :
    contentLength ((lines.map fun line => line ++ crlf).flatten ++ (crlf ++ cString body)) ≤
      body.length := by
  obtain single | ⟨none, rfl⟩ := declared
  · obtain ⟨front, back, rfl, absent, _, _⟩ := List.filter_eq_cons_iff.mp single
    have text : ((front ++ (contentLengthName ++ ascii " " ++ decimal body.length) ::
        back).map fun line => line ++ crlf).flatten ++ (crlf ++ cString body) =
        (front.map fun line => line ++ crlf).flatten ++ (contentLengthName ++ (byte ' ' ::
          (decimal body.length ++ (crlf ++ ((back.map fun line => line ++ crlf).flatten ++
            (crlf ++ cString body)))))) := by
      simp [ascii]
    have found := strstr_append (@avoids_contentLength front
      (contentLengthName ++ (byte ' ' :: (decimal body.length ++ (crlf ++
        ((back.map fun line => line ++ crlf).flatten ++ (crlf ++ cString body))))))
      (by simpa using absent))
    have ends : EndsNumeral (crlf ++ ((back.map fun line => line ++ crlf).flatten ++
        (crlf ++ cString body))) := by
      intro b first
      obtain rfl : byte '\r' = b := by simpa [crlf, ascii] using first
      decide
    rw [strstr_leading (List.prefix_append _ _)] at found
    rw [text, contentLength, behind, found]
    simp only [Option.map_some, List.drop_left]
    exact Int.le_of_eq (by rw [strtol_blank (by decide), strtol_decimal bound ends])
  · have absent : ∀ line ∈ lines, containsText contentLengthName line = false := by
      simpa using none
    rw [contentLength, behind, strstr_append (avoids_contentLength absent)]
    decide

private theorem splitLines_head {lines : List Bytes} {rest : Bytes}
    (plain : ∀ line ∈ lines, PlainLine line) :
    (if (lines.map fun line => crlf ++ line).flatten.length < 2 then []
      else splitLines (((lines.map fun line => line ++ crlf).flatten ++ rest).take
        ((lines.map fun line => crlf ++ line).flatten.length - 2)) []) = lines := by
  cases lines with
  | nil => rfl
  | cons first lines =>
      have head : ((first :: lines).map fun line => line ++ crlf).flatten =
          first ++ (lines.map fun line => crlf ++ line).flatten ++ crlf := by
        rw [List.map_cons, List.flatten_cons, List.append_assoc, crlf_flatten]
        simp
      have length : ((first :: lines).map fun line => crlf ++ line).flatten.length =
          (first ++ (lines.map fun line => crlf ++ line).flatten).length + 2 := by
        simp [crlf, ascii]
      rw [length, if_neg (by omega), Nat.add_sub_cancel, head, List.append_assoc,
        List.take_left]
      exact splitLines_joined (plain first (by simp)).noCr fun line member =>
        plain line (by simp [member])

/-- What the provider makes of a request that arrives as it was sent. -/
theorem requestContext_target {rootDir method target path query body : Bytes}
    {lines : List Bytes} (isMethod : Word 7 method) (isTarget : Word 2047 target)
    (parsed : parseRequestLine (method ++ ascii " " ++ target ++ ascii " HTTP/1.1") =
      some ⟨method, path, query⟩)
    (plain : ∀ line ∈ lines, PlainLine line) (declared : DeclaresLength lines body)
    (bound : (body.length : Int) ≤ longMax) :
    requestContext rootDir (requestMessage method target lines body) =
      .ok {
        method, path, query, body, rootDir
        contentMd5 := (extractHeaderValue lines md5HeaderName 33).getD [] } := by
  obtain ⟨line, isLine⟩ : ∃ line, line = method ++ ascii " " ++ target ++ ascii " HTTP/1.1" :=
    ⟨_, rfl⟩
  obtain ⟨head, isHead⟩ : ∃ head, head = (lines.map fun line => line ++ crlf).flatten :=
    ⟨_, rfl⟩
  obtain ⟨blanks, isBlanks⟩ : ∃ blanks, blanks = (lines.map fun line => crlf ++ line).flatten :=
    ⟨_, rfl⟩
  rw [← isLine] at parsed
  have blank : ∀ word : Bytes, (∀ c ∈ word, isSpace c = false) → byte '\r' ∉ word :=
    fun word noSpace member => absurd (noSpace _ member) (by decide)
  have lineNoCr : byte '\r' ∉ line := by
    simp only [isLine, List.mem_append, not_or]
    exact ⟨⟨⟨blank _ isMethod.noSpace, by decide⟩, blank _ isTarget.noSpace⟩, by decide⟩
  have lineNoNul : 0 ∉ line := by
    simp only [isLine, List.mem_append, not_or]
    exact ⟨⟨⟨isMethod.noNul, by decide⟩, isTarget.noNul⟩, by decide⟩
  have headNoNul : 0 ∉ head := by
    simp only [isHead, List.mem_flatten, List.mem_map]
    rintro ⟨_, ⟨line, member, rfl⟩, inside⟩
    obtain inLine | inEnd := List.mem_append.mp inside
    · exact (plain line member).noNul inLine
    · exact absurd inEnd (by decide)
  have frame : crlf ++ head = blanks ++ crlf := isHead ▸ isBlanks ▸ crlf_flatten lines
  have message : requestMessage method target lines body =
      line ++ (crlf ++ (head ++ (crlf ++ body))) := by
    simp [requestMessage, isLine, isHead]
  have messageText : cString (line ++ (crlf ++ (head ++ (crlf ++ body)))) =
      line ++ (crlf ++ (head ++ (crlf ++ cString body))) := by
    rw [cString_append lineNoNul, cString_append (by decide), cString_append headNoNul,
      cString_append (by decide)]
  have reframed : ∀ tail : Bytes, line ++ (crlf ++ (head ++ (crlf ++ tail))) =
      line ++ blanks ++ (headEnd ++ tail) := by
    intro tail
    rw [← List.append_assoc crlf head, frame]
    simp [headEnd, crlf, ascii]
  have foundHead : strstr headEnd (line ++ (crlf ++ (head ++ (crlf ++ cString body)))) =
      some (headEnd ++ cString body) := by
    rw [reframed, isBlanks, strstr_append (avoids_headEnd lineNoCr plain),
      strstr_leading (List.prefix_append _ _)]
  have foundLine : strstr crlf (line ++ (crlf ++ (head ++ (crlf ++ cString body)))) =
      some (crlf ++ (head ++ (crlf ++ cString body))) := by
    have avoids : Avoids crlf line (crlf ++ (head ++ (crlf ++ cString body))) :=
      avoids_of_not_mem lineNoCr
    rw [strstr_append avoids, strstr_leading (List.prefix_append _ _)]
  have headerEnd : (line ++ (crlf ++ (head ++ (crlf ++ cString body)))).length -
      (headEnd ++ cString body).length = line.length + blanks.length := by
    rw [reframed, List.length_append, Nat.add_sub_cancel, List.length_append]
  have lineEnd : (line ++ (crlf ++ (head ++ (crlf ++ cString body)))).length -
      (crlf ++ (head ++ (crlf ++ cString body))).length = line.length := by
    rw [List.length_append, Nat.add_sub_cancel]
  have isBody : (line ++ (crlf ++ (head ++ (crlf ++ body)))).drop
      (line.length + blanks.length + 4) = body := by
    rw [reframed, ← List.length_append]
    have length : headEnd.length = 4 := rfl
    rw [← length, ← List.length_append, ← List.append_assoc, List.drop_left]
  have start : (crlf ++ (head ++ (crlf ++ cString body))).drop 2 =
      head ++ (crlf ++ cString body) := rfl
  have isLines := @splitLines_head lines (crlf ++ cString body) plain
  have within : ¬ (body.length : Int) < contentLength (head ++ (crlf ++ cString body)) := by
    have declaredLength := contentLength_le declared bound
    rw [← isHead] at declaredLength
    omega
  rw [← isHead, ← isBlanks] at isLines
  have region : (if line.length + blanks.length < line.length + 2 then []
      else splitLines ((head ++ (crlf ++ cString body)).take
        (line.length + blanks.length - (line.length + 2))) []) = lines := by
    rw [Nat.add_sub_add_left]
    simpa using isLines
  rw [requestContext, message, messageText]
  simp only [foundHead, foundLine, headerEnd, lineEnd, List.take_left, parsed, start, isBody,
    within, if_false, region]

theorem requestContext_message {rootDir method path query body : Bytes}
    {lines : List Bytes} (isMethod : Word 7 method)
    (isTarget : Word 2047 (path ++ byte '?' :: query)) (noMark : byte '?' ∉ path)
    (plain : ∀ line ∈ lines, PlainLine line) (declared : DeclaresLength lines body)
    (bound : (body.length : Int) ≤ longMax) :
    requestContext rootDir (requestMessage method (path ++ byte '?' :: query) lines body) =
      .ok {
        method, path, query, body, rootDir
        contentMd5 := (extractHeaderValue lines md5HeaderName 33).getD [] } :=
  requestContext_target isMethod isTarget (parseRequestLine_words isMethod isTarget noMark)
    plain declared bound

end HttpFs.CProvider
