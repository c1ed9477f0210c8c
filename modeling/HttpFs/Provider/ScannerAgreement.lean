import HttpFs.Provider.Framing

namespace HttpFs.CProvider

/-- The request line of a head, and the lines behind it with the empty one. -/
structure HeadParts (head line fields : Bytes) : Prop where
  whole : head = line ++ crlf ++ fields
  lineEnd : strstr crlf (line ++ crlf) = some crlf
  fieldsEnd : ∃ front, fields = front ++ crlf

theorem IsHead.parts {head : Bytes} (isHead : IsHead head) :
    ∃ line fields, HeadParts head line fields := by
  obtain ⟨front, rfl⟩ := isHead.eq_append
  have occurs : (strstr crlf (front ++ crlf)).isSome :=
    strstr_isSome_iff.mpr (List.suffix_append front crlf).isInfix
  obtain ⟨start, isStart⟩ := Option.isSome_iff_exists.mp occurs
  obtain ⟨⟨inner, rfl⟩, line, whole⟩ := strstr_suffix isStart
  have twice : headEnd = crlf ++ crlf := rfl
  refine ⟨line, inner ++ crlf, ⟨?_, ?_, inner, rfl⟩⟩
  · rw [twice, ← List.append_assoc, ← whole]
    simp only [List.append_assoc]
  · apply @strstr_first crlf line inner
    rw [List.append_assoc, whole]
    exact isStart

/-- The number behind the first `Content-Length:` of a text that is followed by `rest`. -/
def announced (text rest : Bytes) : Option Int :=
  (strstr contentLengthName text).map fun found =>
    (strtol (found.drop contentLengthName.length ++ rest)).value

section Numbers

variable {head line fields : Bytes}

theorem contentLength_parts (parts : HeadParts head line fields) (more : Bytes) :
    contentLength (fields ++ more) = ((announced fields more).or (announced more [])).getD 0 := by
  obtain ⟨front, rfl⟩ := parts.fieldsEnd
  have split : front ++ crlf ++ more = (front ++ [byte '\r']) ++ [byte '\n'] ++ more := by
    simp [crlf, ascii]
  have same : front ++ crlf = (front ++ [byte '\r']) ++ [byte '\n'] := by simp [crlf, ascii]
  rw [contentLength, behind, split, strstr_beyond (by decide) (by decide), ← same, announced,
    announced]
  cases result : strstr contentLengthName (front ++ crlf) with
  | some found =>
      have long := (strstr_suffix result).1.length_le
      simp only [Option.map_some, Option.some_or, Option.getD_some,
        List.drop_append_of_le_length long]
  | none =>
      cases strstr contentLengthName more with
      | some found => simp
      | none => rfl

theorem headLength_parts (parts : HeadParts head line fields) (seen : Bytes) :
    headLength (head ++ seen) (head.length - headEnd.length) =
      ((announced (line ++ crlf) (fields ++ seen)).or (announced fields seen)).getD 0 := by
  obtain ⟨front, rfl⟩ := parts.fieldsEnd
  have split : head ++ seen = (line ++ [byte '\r']) ++ [byte '\n'] ++ (front ++ crlf ++ seen) := by
    rw [parts.whole]
    simp [crlf, ascii]
  have rest : front ++ crlf ++ seen = (front ++ [byte '\r']) ++ [byte '\n'] ++ seen := by
    simp [crlf, ascii]
  have lineEnd : (line ++ [byte '\r']) ++ [byte '\n'] = line ++ crlf := by simp [crlf, ascii]
  have fieldsEnd : (front ++ [byte '\r']) ++ [byte '\n'] = front ++ crlf := by simp [crlf, ascii]
  have isFirst := @strstr_beyond contentLengthName (line ++ [byte '\r']) (front ++ crlf ++ seen)
    (byte '\n') (by decide) (by decide)
  have isSecond := @strstr_beyond contentLengthName (front ++ [byte '\r']) seen
    (byte '\n') (by decide) (by decide)
  rw [← rest, fieldsEnd] at isSecond
  rw [← split, lineEnd, isSecond] at isFirst
  have lengths := congrArg List.length parts.whole
  have twice : headEnd.length = 4 := rfl
  have two : crlf.length = 2 := rfl
  have name : contentLengthName.length = 15 := rfl
  simp only [List.length_append] at lengths
  rw [headLength, isFirst, announced, announced]
  cases inLine : strstr contentLengthName (line ++ crlf) with
  | some found =>
      have long := (strstr_suffix inLine).1.length_le
      have within := (strstr_suffix inLine).2.length_le
      simp only [Option.map_some, Option.some_or, Option.getD_some,
        List.drop_append_of_le_length long]
      rw [if_pos]
      simp only [List.length_append] at within ⊢
      omega
  | none =>
      cases inFields : strstr contentLengthName (front ++ crlf) with
      | some found =>
          have long := (strstr_suffix inFields).1.length_le
          have within := (strstr_suffix inFields).2.length_le
          simp only [Option.map_none, Option.none_or, Option.map_some, Option.some_or,
            Option.getD_some, List.drop_append_of_le_length long]
          rw [if_pos]
          simp only [List.length_append] at within ⊢
          omega
      | none =>
          -- behind the head the name is too late, whatever number follows it
          cases inBody : strstr contentLengthName seen with
          | none => rfl
          | some found =>
              have within := (strstr_suffix inBody).2.length_le
              simp only [Option.map_none, Option.none_or, Option.getD_none]
              rw [if_neg]
              simp only [List.length_append]
              omega

end Numbers

/-- Where the header ends for `process_request_buffer`. -/
def processedHeaderEnd (buffer : Bytes) : Option Nat :=
  (strstr headEnd (cString buffer)).map fun fromHeaderEnd =>
    (cString buffer).length - fromHeaderEnd.length

/-- The content length that `process_request_buffer` finds, where it comes to that search. -/
def processedLength (buffer : Bytes) : Option Int :=
  (strstr crlf (cString buffer)).bind fun fromLineEnd =>
    (parseRequestLine ((cString buffer).take ((cString buffer).length - fromLineEnd.length))).map
      fun _ => contentLength (fromLineEnd.drop 2)

def invalidHttpRequest : HttpfsError := ⟨Errno.EINVAL, ascii "invalid http request"⟩

def invalidRequestLine : HttpfsError := ⟨Errno.EINVAL, ascii "invalid request line"⟩

def requestBodyTruncated : HttpfsError := ⟨Errno.EINVAL, ascii "request body truncated"⟩

/-- What `process_request_buffer` makes of its two searches. -/
theorem requestContext_scan (rootDir buffer : Bytes) :
    ∃ request, requestContext rootDir buffer =
      match processedHeaderEnd buffer, processedLength buffer with
      | none, _ => .error invalidHttpRequest
      | some _, none => .error invalidRequestLine
      | some headerEnd, some length =>
          if ((buffer.drop (headerEnd + 4)).length : Int) < length then
            .error requestBodyTruncated
          else
            .ok request := by
  have any : RequestContext := ⟨[], [], [], [], [], []⟩
  simp only [requestContext, processedHeaderEnd, processedLength]
  cases strstr headEnd (cString buffer) with
  | none => exact ⟨any, rfl⟩
  | some fromHeaderEnd =>
      cases strstr crlf (cString buffer) with
      | none => exact ⟨any, rfl⟩
      | some fromLineEnd =>
          simp only [Option.map_some, Option.bind_some]
          cases parseRequestLine ((cString buffer).take
              ((cString buffer).length - fromLineEnd.length)) with
          | none => exact ⟨any, rfl⟩
          | some requestLine => exact ⟨_, rfl⟩

/-! What `connection_has_complete_request` has found when it returns 1. -/

/-- A connection whose head was scanned when `seen` had arrived. -/
structure ScannedAt (seen : Bytes) (conn : ConnectionState) : Prop where
  found : ∃ head more, seen = head ++ more ∧ IsHead head ∧ conn.headerBytes = head.length ∧
    conn.contentLength = headLength (head ++ cString more) (head.length - headEnd.length)
  notNegative : 0 ≤ conn.contentLength
  isPrefix : seen <+: conn.buffer

/-- What has arrived when the end of the head is first there. -/
def bufferAtScan (buffer : Bytes) : List Turn → Bytes
  | [] => buffer
  | turn :: turns =>
      if containsText headEnd (cString buffer) then buffer
      else bufferAtScan (buffer ++ turn.bytes) turns

theorem bufferAtScan_found {buffer : Bytes} (found : containsText headEnd (cString buffer))
    (turns : List Turn) : bufferAtScan buffer turns = buffer := by
  cases turns with
  | nil => rfl
  | cons turn turns => rw [bufferAtScan, if_pos found]

/-- A connection whose head is scanned when `seen` has arrived, be it already or yet. -/
inductive Seeing (seen : Bytes) (conn : ConnectionState) (turns : List Turn) : Prop where
  | pending (unscanned : conn.headerBytes = 0)
      (absent : ¬ containsText headEnd (cString conn.buffer))
      (isSeen : bufferAtScan conn.buffer turns = seen)
  | scanned (scanned : ScannedAt seen conn)

section Runs

variable {realloc : Nat → Bool} {conn next : ConnectionState} {completeness : Completeness}
  {seen : Bytes}

theorem bodyIsComplete_frame
    (outcome : bodyIsComplete realloc conn = (completeness, next)) :
    ∃ capacity, next = { conn with capacity } ∧ (completeness = .complete →
      conn.headerBytes + conn.contentLength.toNat ≤ conn.received) := by
  simp only [bodyIsComplete] at outcome
  split at outcome
  · cases outcome
    exact ⟨_, rfl, fun impossible => by cases impossible⟩
  split at outcome
  · cases outcome
    exact ⟨_, rfl, fun impossible => by cases impossible⟩
  next grown ensured =>
  obtain ⟨capacity, rfl⟩ := ensureConnectionCapacity_frame ensured
  cases outcome
  refine ⟨capacity, rfl, ?_⟩
  intro complete
  split at complete
  · assumption
  · contradiction

theorem ScannedAt.grown (scanned : ScannedAt seen conn) (bytes : Bytes) (capacity : Nat) :
    ScannedAt seen { conn with buffer := conn.buffer ++ bytes, capacity } :=
  ⟨scanned.found, scanned.notNegative, scanned.isPrefix.trans (List.prefix_append _ _)⟩

/-- A scan that goes on, on a connection whose head is scanned by then. -/
theorem connectionHasCompleteRequest_scanned (turns : List Turn)
    (seeing : conn.headerBytes = 0 ∧ bufferAtScan conn.buffer turns = seen ∨ ScannedAt seen conn)
    (outcome : connectionHasCompleteRequest realloc conn = (completeness, next))
    (goesOn : completeness = .incomplete ∨ completeness = .complete) :
    next.buffer = conn.buffer ∧ (completeness = .incomplete → Seeing seen next turns) ∧
      (completeness = .complete → ScannedAt seen next ∧
        next.headerBytes + next.contentLength.toNat ≤ next.received) := by
  rw [connectionHasCompleteRequest] at outcome
  by_cases unscanned : conn.headerBytes = 0
  · have isSeen : bufferAtScan conn.buffer turns = seen := by
      obtain ⟨_, isSeen⟩ | scanned := seeing
      · exact isSeen
      · obtain ⟨head, more, _, isHead, isHeader, _⟩ := scanned.found
        have pos := isHead.length_pos
        omega
    rw [if_pos unscanned] at outcome
    cases found : scanHead conn with
    | none =>
        rw [found] at outcome
        cases outcome
        have absent : ¬ containsText headEnd (cString conn.buffer) := by
          rw [containsText, Option.map_eq_none_iff.mp found]
          exact Bool.false_ne_true
        exact ⟨rfl, fun _ => .pending unscanned absent isSeen,
          fun impossible => by cases impossible⟩
    | some scanned =>
        have present : containsText headEnd (cString conn.buffer) := by
          obtain ⟨fromHeaderEnd, result, _⟩ := Option.map_eq_some_iff.mp found
          rw [containsText, result]
          rfl
        rw [bufferAtScan_found present] at isSeen
        obtain ⟨head, more, isBuffer, isHead, rfl⟩ := scanHead_isHead found
        simp only [found] at outcome
        split at outcome
        · cases outcome
          obtain isIncomplete | isComplete := goesOn <;> contradiction
        · next notNegative =>
          obtain ⟨capacity, rfl, complete⟩ := bodyIsComplete_frame outcome
          have scannedAt : ScannedAt seen { conn with
              headerBytes := head.length
              contentLength := headLength (head ++ cString more) (head.length - headEnd.length)
              capacity } := by
            refine ⟨⟨head, more, ?_, isHead, rfl, rfl⟩, Int.not_lt.mp notNegative, ?_⟩
            · rw [← isSeen, isBuffer]
            · exact isSeen ▸ List.prefix_rfl
          exact ⟨rfl, fun _ => .scanned scannedAt, fun isComplete =>
            ⟨scannedAt, complete isComplete⟩⟩
  · rw [if_neg unscanned] at outcome
    have scanned := seeing.resolve_left fun pending => unscanned pending.1
    obtain ⟨capacity, rfl, complete⟩ := bodyIsComplete_frame outcome
    have scannedAt : ScannedAt seen { conn with capacity } :=
      ⟨scanned.found, scanned.notNegative, scanned.isPrefix⟩
    exact ⟨rfl, fun _ => .scanned scannedAt, fun isComplete => ⟨scannedAt, complete isComplete⟩⟩

theorem serveConnection_scanned {turns : List Turn} {served : ConnectionState}
    (seeing : Seeing seen conn turns)
    (dispatched : serveConnection conn turns = .dispatched served) :
    ScannedAt seen served ∧
      served.headerBytes + served.contentLength.toNat ≤ served.received := by
  induction turns generalizing conn with
  | nil => contradiction
  | cons turn turns induction =>
      rw [serveConnection] at dispatched
      have outcome := handleClientEvent_outcome turn conn
      generalize handleClientEvent turn conn = progress at outcome dispatched
      have grown (capacity : Nat) :
          conn.headerBytes = 0 ∧ bufferAtScan (conn.buffer ++ turn.bytes) turns = seen ∨
            ScannedAt seen { conn with buffer := conn.buffer ++ turn.bytes, capacity } := by
        cases seeing with
        | pending unscanned absent isSeen =>
            rw [bufferAtScan, if_neg absent] at isSeen
            exact .inl ⟨unscanned, isSeen⟩
        | scanned scanned => exact .inr (scanned.grown turn.bytes capacity)
      cases outcome with
      | closed => contradiction
      | refused => contradiction
      | @idle capacity nothing =>
          refine induction ?_ dispatched
          cases seeing with
          | pending unscanned absent isSeen =>
              rw [bufferAtScan, if_neg absent, nothing, List.append_nil] at isSeen
              exact .pending unscanned absent isSeen
          | scanned scanned =>
              exact .scanned ⟨scanned.found, scanned.notNegative, scanned.isPrefix⟩
      | @incomplete capacity next outcome =>
          obtain ⟨_, continues, _⟩ := connectionHasCompleteRequest_scanned turns
            (grown capacity) outcome (.inl rfl)
          exact induction (continues rfl) dispatched
      | @complete capacity next outcome =>
          obtain ⟨_, _, complete⟩ := connectionHasCompleteRequest_scanned turns
            (grown capacity) outcome (.inr rfl)
          cases dispatched
          exact complete rfl

end Runs

/-- The text `Content-Length:` misleads neither scanner: in the request line it is in front
of the number found behind that line, in the last field it is not cut from its number, and
in the body it is in front of 0 where the head does without it. -/
structure SameAnnouncement (line fields seen more : Bytes) : Prop where
  inLine : ∀ number, announced (line ++ crlf) (fields ++ seen) = some number →
    ((announced fields more).or (announced more [])).getD 0 = number
  inFields : announced (line ++ crlf) (fields ++ seen) = none →
    ∀ number, announced fields seen = some number → announced fields more = some number
  inBody : announced (line ++ crlf) (fields ++ seen) = none → announced fields seen = none →
    ∀ number, announced more [] = some number → number = 0

theorem sameAnnouncement_iff (line fields seen more : Bytes) :
    ((announced fields more).or (announced more [])).getD 0 =
        ((announced (line ++ crlf) (fields ++ seen)).or (announced fields seen)).getD 0 ↔
      SameAnnouncement line fields seen more := by
  have both : (announced fields seen).isSome = (announced fields more).isSome := by
    rw [announced, announced, Option.isSome_map, Option.isSome_map]
  cases inLine : announced (line ++ crlf) (fields ++ seen) with
  | some number =>
      constructor
      · intro same
        refine ⟨?_, ?_, ?_⟩
        · intro other isOther
          rw [inLine, Option.some.injEq] at isOther
          rw [← isOther]
          exact same
        · intro absent
          rw [inLine] at absent
          contradiction
        · intro absent
          rw [inLine] at absent
          contradiction
      · intro same
        exact same.inLine number inLine
  | none =>
      cases inFields : announced fields seen with
      | some number =>
          rw [inFields] at both
          obtain ⟨later, isLater⟩ := Option.isSome_iff_exists.mp both.symm
          simp only [isLater, Option.none_or, Option.some_or, Option.getD_some]
          constructor
          · rintro rfl
            refine ⟨?_, ?_, ?_⟩
            · intro other isOther
              rw [inLine] at isOther
              contradiction
            · intro _ other isOther
              rw [inFields] at isOther
              rw [isLater]
              exact isOther
            · intro _ absent
              rw [inFields] at absent
              contradiction
          · intro same
            have later := same.inFields inLine number inFields
            rw [isLater] at later
            exact Option.some.inj later
      | none =>
          have absent : announced fields more = none := by
            rw [inFields] at both
            exact Option.not_isSome_iff_eq_none.mp (by rw [← both]; exact Bool.false_ne_true)
          simp only [absent, Option.none_or, Option.getD_none]
          constructor
          · intro same
            refine ⟨?_, ?_, ?_⟩
            · intro other isOther
              rw [inLine] at isOther
              contradiction
            · intro _ other isOther
              rw [inFields] at isOther
              contradiction
            · intro _ _ number isNumber
              rw [isNumber] at same
              exact same
          · intro same
            cases inBody : announced more [] with
            | none => rfl
            | some number => exact same.inBody inLine inFields number inBody

/-- `process_request_buffer` finds in a buffer what `connection_has_complete_request` has
found in it. -/
structure ScannersAgree (rootDir : Bytes) (conn : ConnectionState) : Prop where
  headerEnd : (processedHeaderEnd conn.buffer).map (· + 4) = some conn.headerBytes
  length : ∀ length, processedLength conn.buffer = some length → length = conn.contentLength
  notInvalid : requestContext rootDir conn.buffer ≠ .error invalidHttpRequest
  notTruncated : requestContext rootDir conn.buffer ≠ .error requestBodyTruncated

theorem processedLength_parts {head line fields : Bytes} (more : Bytes)
    (isHead : IsHead head) (parts : HeadParts head line fields) :
    processedLength (head ++ more) = (parseRequestLine line).map fun _ =>
      ((announced fields (cString more)).or (announced (cString more) [])).getD 0 := by
  have text := (isHead.complete more).1
  have shape : head ++ cString more = line ++ crlf ++ (fields ++ cString more) := by
    rw [parts.whole, List.append_assoc]
  have found := strstr_append_right (fields ++ cString more) parts.lineEnd
  have lineLength : (line ++ crlf ++ (fields ++ cString more)).length -
      (crlf ++ (fields ++ cString more)).length = line.length := by
    simp only [List.length_append]
    omega
  have behindLine : (crlf ++ (fields ++ cString more)).drop 2 = fields ++ cString more := rfl
  rw [processedLength, text, shape, found, Option.bind_some, lineLength, List.append_assoc line,
    List.take_left, behindLine, contentLength_parts parts]

/-- On a buffer on which `connection_has_complete_request` returns 1 the two scanners agree
exactly when no `Content-Length:` outside the header fields misleads one of them. -/
theorem scanners_agree_iff {turns : List Turn} {conn : ConnectionState} (rootDir : Bytes)
    (dispatched : serveConnection .start turns = .dispatched conn) :
    ∃ line fields seen more, HeadParts (line ++ crlf ++ fields) line fields ∧
      IsHead (line ++ crlf ++ fields) ∧ conn.buffer = line ++ crlf ++ fields ++ more ∧
      bufferAtScan [] turns = line ++ crlf ++ fields ++ seen ∧
      (ScannersAgree rootDir conn ↔ ((parseRequestLine line).isSome →
        SameAnnouncement line fields (cString seen) (cString more))) := by
  have start : Seeing (bufferAtScan [] turns) .start turns := by
    refine .pending rfl ?_ rfl
    exact Bool.false_ne_true
  obtain ⟨scanned, enough⟩ := serveConnection_scanned start dispatched
  obtain ⟨head, seen, isSeen, isHead, isHeader, isLength⟩ := scanned.found
  obtain ⟨later, isLater⟩ := scanned.isPrefix
  obtain ⟨line, fields, parts⟩ := isHead.parts
  obtain rfl := parts.whole
  have isBuffer : conn.buffer = line ++ crlf ++ fields ++ (seen ++ later) := by
    rw [← isLater, isSeen, List.append_assoc]
  refine ⟨line, fields, seen, seen ++ later, parts, isHead, isBuffer, isSeen, ?_⟩
  have pos := isHead.length_pos
  have four : headEnd.length = 4 := rfl
  have ended : processedHeaderEnd conn.buffer =
      some ((line ++ crlf ++ fields).length - headEnd.length) := by
    obtain ⟨text, found⟩ := isHead.complete (seen ++ later)
    have position : (line ++ crlf ++ fields ++ cString (seen ++ later)).length -
        (headEnd ++ cString (seen ++ later)).length =
          (line ++ crlf ++ fields).length - headEnd.length := by
      rw [List.length_append, @List.length_append _ headEnd]
      omega
    rw [isBuffer, processedHeaderEnd, text, found, Option.map_some, position]
  have processed := processedLength_parts (seen ++ later) isHead parts
  rw [← isBuffer] at processed
  rw [headLength_parts parts] at isLength
  rw [← sameAnnouncement_iff, ← isLength]
  obtain ⟨request, context⟩ := requestContext_scan rootDir conn.buffer
  rw [ended, processed] at context
  constructor
  · intro agree parsed
    obtain ⟨requestLine, isLine⟩ := Option.isSome_iff_exists.mp parsed
    rw [isLine, Option.map_some] at processed
    exact agree.length _ processed
  · intro same
    have body : conn.buffer.drop ((line ++ crlf ++ fields).length - headEnd.length + 4) =
        seen ++ later := by
      rw [four, Nat.sub_add_cancel pos, isBuffer, List.drop_left]
    have whole : conn.contentLength ≤ (seen ++ later).length := by
      rw [ConnectionState.received, isBuffer, List.length_append, isHeader] at enough
      have notNegative := scanned.notNegative
      omega
    have otherErrors : invalidRequestLine ≠ invalidHttpRequest ∧
        invalidRequestLine ≠ requestBodyTruncated := by decide
    refine ⟨?_, ?_, ?_, ?_⟩
    · rw [ended, Option.map_some, isHeader, four, Nat.sub_add_cancel pos]
    · intro length isProcessed
      rw [processed] at isProcessed
      obtain ⟨requestLine, isLine, rfl⟩ := Option.map_eq_some_iff.mp isProcessed
      exact same (by rw [isLine]; rfl)
    · rw [context]
      cases parseRequestLine line with
      | none => exact fun refused => otherErrors.1 (Except.error.inj refused)
      | some requestLine =>
          simp only [Option.map_some]
          split
          · exact fun refused => absurd (Except.error.inj refused) (by decide)
          · intro refused
            cases refused
    · rw [context]
      cases isLine : parseRequestLine line with
      | none => exact fun refused => otherErrors.2 (Except.error.inj refused)
      | some requestLine =>
          simp only [Option.map_some]
          rw [body, same (by rw [isLine]; rfl), if_neg (Int.not_lt.mpr whole)]
          intro refused
          cases refused

theorem scanners_agree_iff_post :
    ∃ conn, serveConnection .start
        [.bringing (ascii "POST / HTTP/1.1\r\nContent-Length: 2\r\n\r\nhi")] =
          .dispatched conn ∧
      ∃ line fields seen more, conn.buffer = line ++ crlf ++ fields ++ more ∧
        (ScannersAgree (ascii "/srv") conn ↔ ((parseRequestLine line).isSome →
          SameAnnouncement line fields (cString seen) (cString more))) := by
  have dispatched : serveConnection .start
      [.bringing (ascii "POST / HTTP/1.1\r\nContent-Length: 2\r\n\r\nhi")] = .dispatched
        ⟨ascii "POST / HTTP/1.1\r\nContent-Length: 2\r\n\r\nhi", 2, 38, 8192⟩ := by
    decide +kernel
  obtain ⟨line, fields, seen, more, _, _, isBuffer, _, agree⟩ :=
    scanners_agree_iff (ascii "/srv") dispatched
  exact ⟨_, dispatched, line, fields, seen, more, isBuffer, agree⟩

/-- Two requests that arrive at once: the length of the second is taken for that of the
first. -/
def pipelinedRequests : Bytes :=
  ascii "GET /v1/fs/meta?path=/a HTTP/1.1\r\n\r\nPOST /v1/fs/write HTTP/1.1\r\n" ++
    ascii "Content-Length: 99\r\n\r\n"

theorem scanners_differ :
    ∃ conn, serveConnection .start [.bringing pipelinedRequests] = .dispatched conn ∧
      conn.contentLength = 0 ∧ processedLength conn.buffer = some 99 ∧
      requestContext (ascii "/srv") conn.buffer = .error requestBodyTruncated ∧
      ¬ ScannersAgree (ascii "/srv") conn := by
  have dispatched : serveConnection .start [.bringing pipelinedRequests] =
      .dispatched ⟨pipelinedRequests, 0, 36, 8192⟩ := by decide +kernel
  have ended : processedHeaderEnd pipelinedRequests = some 32 := by decide +kernel
  have processed : processedLength pipelinedRequests = some 99 := by decide +kernel
  have short : ((pipelinedRequests.drop (32 + 4)).length : Int) < 99 := by decide +kernel
  obtain ⟨request, context⟩ := requestContext_scan (ascii "/srv") pipelinedRequests
  simp only [ended, processed, if_pos short] at context
  refine ⟨_, dispatched, rfl, processed, context, ?_⟩
  intro agree
  exact absurd (agree.length 99 processed) (by decide)

end HttpFs.CProvider
