import HttpFs.Provider.Connections

namespace HttpFs.CProvider

/-- The head of a request: it ends where its first empty line does. -/
structure IsHead (head : Bytes) : Prop where
  noNul : 0 ∉ head
  ends : strstr headEnd head = some headEnd

/-- The length of the body that a head is found to declare. -/
def declaredLength (head : Bytes) : Int := headLength head (head.length - headEnd.length)

namespace IsHead

variable {head : Bytes}

theorem eq_append (isHead : IsHead head) : ∃ front, head = front ++ headEnd := by
  obtain ⟨front, whole⟩ := (strstr_suffix isHead.ends).2
  exact ⟨front, whole.symm⟩

theorem length_pos (isHead : IsHead head) : 4 ≤ head.length := by
  obtain ⟨front, rfl⟩ := isHead.eq_append
  have length : headEnd.length = 4 := rfl
  rw [List.length_append]
  omega

theorem incomplete (isHead : IsHead head) {text : Bytes} (isPrefix : text <+: head)
    (shorter : text.length < head.length) : strstr headEnd (cString text) = none := by
  obtain ⟨rest, rfl⟩ := isPrefix
  have noNul : 0 ∉ text := fun zero => isHead.noNul (List.mem_append_left rest zero)
  rw [cString_of_noNul noNul]
  cases result : strstr headEnd text with
  | none => rfl
  | some found =>
      have whole := strstr_append_right rest result
      rw [isHead.ends, Option.some.injEq] at whole
      have foundLength := (strstr_suffix result).1.length_le
      have lengths := congrArg List.length whole
      rw [List.length_append] at lengths shorter
      omega

theorem complete (isHead : IsHead head) (more : Bytes) :
    cString (head ++ more) = head ++ cString more ∧
      strstr headEnd (head ++ cString more) = some (headEnd ++ cString more) :=
  ⟨cString_append isHead.noNul more, strstr_append_right _ isHead.ends⟩

theorem headLength_append (isHead : IsHead head) {more : Bytes}
    (known : more = [] ∨ declaredLength head ≠ 0) :
    headLength (head ++ more) (head.length - headEnd.length) = declaredLength head := by
  obtain rfl | nonzero := known
  · rw [List.append_nil]
    rfl
  obtain ⟨front, rfl⟩ := isHead.eq_append
  rw [declaredLength, List.length_append, Nat.add_sub_cancel] at nonzero ⊢
  cases result : strstr contentLengthName (front ++ headEnd) with
  | none =>
      simp only [headLength, result] at nonzero
      contradiction
  | some found =>
      have longer := strstr_append_right more result
      simp only [headLength, result, longer, List.length_append] at nonzero ⊢
      have position : front.length + headEnd.length + more.length -
          (found.length + more.length) = front.length + headEnd.length - found.length := by
        omega
      rw [position]
      split
      · next before =>
        rw [if_pos before] at nonzero
        have isPrefix := (strstr_suffix result).1
        have isSuffix := (strstr_suffix result).2
        rw [List.drop_append_of_le_length isPrefix.length_le]
        have lastByte : (found.drop contentLengthName.length).getLast? = some (byte '\n') := by
          have nonempty : found.drop contentLengthName.length ≠ [] := by
            intro empty
            exact nonzero (by rw [empty]; rfl)
          obtain ⟨before, whole⟩ := (List.drop_suffix contentLengthName.length found).trans
            isSuffix
          have last := congrArg List.getLast? whole
          rw [List.getLast?_append, List.getLast?_append,
            List.getLast?_eq_some_getLast nonempty, Option.some_or] at last
          rw [List.getLast?_eq_some_getLast nonempty, last]
          rfl
        exact strtol_append lastByte (by decide) nonzero more
      · rfl

end IsHead

theorem growCapacity_bounds {requiredSize newCapacity : Nat} (positive : 0 < newCapacity)
    (within : requiredSize ≤ SERVER_MAX_REQUEST_SIZE)
    (bounded : newCapacity ≤ SERVER_MAX_REQUEST_SIZE) :
    requiredSize ≤ growCapacity requiredSize newCapacity positive ∧
      newCapacity ≤ growCapacity requiredSize newCapacity positive ∧
      growCapacity requiredSize newCapacity positive ≤ SERVER_MAX_REQUEST_SIZE := by
  fun_induction growCapacity requiredSize newCapacity positive with
  | case1 newCapacity positive less large => exact ⟨within, bounded, Nat.le_refl _⟩
  | case2 newCapacity positive less small induction =>
      obtain ⟨enough, grown, most⟩ := induction (by omega)
      exact ⟨enough, by omega, most⟩
  | case3 newCapacity positive enough => exact ⟨Nat.not_lt.mp enough, Nat.le_refl _, bounded⟩

theorem ensureConnectionCapacity_some {realloc : Nat → Bool} {conn : ConnectionState}
    {requiredSize : Nat} (allocates : ∀ size, realloc size = true)
    (positive : 0 < conn.capacity) (bounded : conn.capacity ≤ SERVER_MAX_REQUEST_SIZE)
    (within : requiredSize ≤ SERVER_MAX_REQUEST_SIZE) :
    ∃ capacity, ensureConnectionCapacity realloc conn requiredSize =
        some { conn with capacity } ∧
      requiredSize ≤ capacity ∧ conn.capacity ≤ capacity ∧
      capacity ≤ SERVER_MAX_REQUEST_SIZE := by
  rw [ensureConnectionCapacity]
  by_cases enough : requiredSize ≤ conn.capacity
  · exact ⟨conn.capacity, by rw [if_pos enough], enough, Nat.le_refl _, bounded⟩
  · have bounds := growCapacity_bounds positive within bounded
    refine ⟨growCapacity requiredSize conn.capacity positive, ?_, bounds⟩
    rw [if_neg enough, if_neg (by omega)]
    simp only [dif_pos positive, allocates, if_true]
    rw [if_neg (by omega)]

/-- A request that the provider can hold: a head, and a body of the length that the head
is found to declare. -/
structure IsRequest (head body : Bytes) : Prop where
  isHead : IsHead head
  declared : declaredLength head = body.length
  fits : (head ++ body).length + 1 ≤ SERVER_MAX_REQUEST_SIZE

/-- A connection on which a part of a request has arrived, and not all of it. -/
structure Reading (head body : Bytes) (conn : ConnectionState) : Prop where
  isPrefix : conn.buffer <+: head ++ body
  unfinished : conn.received < (head ++ body).length
  room : conn.received < conn.capacity
  bounded : conn.capacity ≤ SERVER_MAX_REQUEST_SIZE
  scanned : conn.headerBytes = 0 ∨
    conn.headerBytes = head.length ∧ conn.contentLength = body.length

section Requests

variable {head body : Bytes} {conn : ConnectionState} {realloc : Nat → Bool}

theorem Reading.start (request : IsRequest head body) : Reading head body .start where
  isPrefix := List.nil_prefix
  unfinished := by
    have pos := request.isHead.length_pos
    rw [List.length_append]
    change 0 < _
    omega
  room := by decide
  bounded := by decide
  scanned := .inl rfl

theorem Reading.makeRoom (reading : Reading head body conn) (request : IsRequest head body)
    (allocates : ∀ size, realloc size = true) :
    ∃ capacity, CProvider.makeRoom realloc conn = some { conn with capacity } ∧
      conn.received + 1 < capacity ∧ capacity ≤ SERVER_MAX_REQUEST_SIZE := by
  have fits := request.fits
  have unfinished := reading.unfinished
  have room := reading.room
  have bounded := reading.bounded
  rw [CProvider.makeRoom]
  split
  · obtain ⟨capacity, grown, enough, _, most⟩ := @ensureConnectionCapacity_some realloc conn
      (min (conn.capacity * 2) SERVER_MAX_REQUEST_SIZE) allocates (by omega) bounded (by omega)
    refine ⟨capacity, ?_, by omega, most⟩
    rw [if_pos (by omega)]
    exact grown
  · exact ⟨conn.capacity, rfl, by omega, bounded⟩

/-- The part of `connection_has_complete_request` behind the scan of the head. -/
theorem bodyIsComplete_eq (request : IsRequest head body)
    (allocates : ∀ size, realloc size = true) (isHeader : conn.headerBytes = head.length)
    (isLength : conn.contentLength = body.length) (positive : 0 < conn.capacity)
    (bounded : conn.capacity ≤ SERVER_MAX_REQUEST_SIZE) :
    ∃ capacity, bodyIsComplete realloc conn =
        (if conn.received ≥ (head ++ body).length then .complete else .incomplete,
          { conn with capacity }) ∧
      (head ++ body).length < capacity ∧ capacity ≤ SERVER_MAX_REQUEST_SIZE := by
  have fits := request.fits
  have total : conn.headerBytes + conn.contentLength.toNat = (head ++ body).length := by
    rw [isHeader, isLength, List.length_append]
    rfl
  obtain ⟨capacity, grown, enough, _, most⟩ := @ensureConnectionCapacity_some realloc conn
    ((head ++ body).length + 1) allocates positive bounded fits
  refine ⟨capacity, ?_, enough, most⟩
  simp only [bodyIsComplete, total]
  rw [if_neg (by omega)]
  simp only [grown]
  rfl

/-- The head is scanned once, when it has arrived, and then gives the same length however
much has arrived behind it. -/
theorem scanHead_eq (request : IsRequest head body) (isPrefix : conn.buffer <+: head ++ body) :
    scanHead conn =
      if conn.received < head.length then none
      else some { conn with headerBytes := head.length, contentLength := body.length } := by
  split
  · next short =>
    have inHead : conn.buffer <+: head :=
      List.prefix_of_prefix_length_le isPrefix (List.prefix_append head body)
        (Nat.le_of_lt short)
    rw [scanHead, request.isHead.incomplete inHead short]
    rfl
  · next long =>
    have whole : head <+: conn.buffer :=
      List.prefix_of_prefix_length_le (List.prefix_append head body) isPrefix (Nat.not_lt.mp long)
    obtain ⟨more, isMore⟩ := whole
    rw [← isMore] at isPrefix
    have inBody : more <+: body := (List.prefix_append_right_inj head).mp isPrefix
    obtain ⟨text, found⟩ := request.isHead.complete more
    have known : cString more = [] ∨ declaredLength head ≠ 0 := by
      by_cases empty : more = []
      · exact .inl (by rw [empty]; rfl)
      · right
        rw [request.declared]
        have morePos := List.length_pos_iff.mpr empty
        have bodyLength := inBody.length_le
        omega
    have isLength := request.isHead.headLength_append known
    rw [request.declared] at isLength
    have position : (head ++ cString more).length - (headEnd ++ cString more).length =
        head.length - headEnd.length := by
      simp only [List.length_append]
      omega
    have pos := request.isHead.length_pos
    have four : headEnd.length = 4 := rfl
    simp only [scanHead, ← isMore, text, found, Option.map_some, position, isLength]
    rw [four, Nat.sub_add_cancel pos]

theorem connectionHasCompleteRequest_eq (request : IsRequest head body)
    (allocates : ∀ size, realloc size = true) (isPrefix : conn.buffer <+: head ++ body)
    (room : conn.received < conn.capacity) (bounded : conn.capacity ≤ SERVER_MAX_REQUEST_SIZE)
    (scanned : conn.headerBytes = 0 ∨
      conn.headerBytes = head.length ∧ conn.contentLength = body.length) :
    ∃ next, connectionHasCompleteRequest realloc conn =
        (if conn.received ≥ (head ++ body).length then .complete else .incomplete, next) ∧
      next.buffer = conn.buffer ∧
      (conn.received < (head ++ body).length → Reading head body next) := by
  have pos := request.isHead.length_pos
  rw [connectionHasCompleteRequest]
  obtain unscanned | ⟨isHeader, isLength⟩ := scanned
  · rw [if_pos unscanned, scanHead_eq request isPrefix]
    by_cases short : conn.received < head.length
    · rw [if_pos short]
      refine ⟨conn, ?_, rfl, fun unfinished => ⟨isPrefix, unfinished, room, bounded,
        .inl unscanned⟩⟩
      rw [if_neg]
      rw [List.length_append]
      omega
    · rw [if_neg short]
      have notNegative : ¬ (body.length : Int) < 0 := by omega
      simp only [if_neg notNegative]
      obtain ⟨capacity, isComplete, grown, most⟩ := @bodyIsComplete_eq head body
        { conn with headerBytes := head.length, contentLength := body.length } realloc request
        allocates rfl rfl (by simp only; omega) bounded
      refine ⟨_, isComplete, rfl, fun unfinished => ⟨isPrefix, unfinished, ?_, most,
        .inr ⟨rfl, rfl⟩⟩⟩
      exact Nat.lt_trans unfinished grown
  · rw [if_neg (by omega)]
    obtain ⟨capacity, isComplete, grown, most⟩ := bodyIsComplete_eq request allocates isHeader
      isLength (by omega) bounded
    refine ⟨_, isComplete, rfl, fun unfinished => ⟨isPrefix, unfinished, ?_, most,
      .inr ⟨isHeader, isLength⟩⟩⟩
    exact Nat.lt_trans unfinished grown

structure CalmTurn (turn : Turn) : Prop where
  noHangUp : turn.hangUp = false
  allocates : ∀ size, turn.realloc size = true
  fcntl : turn.fcntl = true
  notFailed : turn.recv ≠ .failed
  notEnded : turn.recv ≠ .data []

theorem roomFor_eq {capacity : Nat} (made : makeRoom realloc conn = some { conn with capacity }) :
    roomFor realloc conn = capacity - conn.received - 1 := by
  rw [roomFor, made]
  rfl

/-- How a connection stands on which `arrived` has arrived and nothing has failed. -/
inductive Advanced (head body arrived : Bytes) : Progress → Prop where
  | unfinished {conn : ConnectionState} (reading : Reading head body conn)
      (sofar : conn.buffer = arrived) : Advanced head body arrived (.waiting conn)
  | finished {conn : ConnectionState} (whole : arrived = head ++ body)
      (sofar : conn.buffer = arrived) : Advanced head body arrived (.dispatched conn)

theorem Advanced.dispatched {progress : Progress}
    (advanced : Advanced head body (head ++ body) progress) :
    ∃ conn, progress = .dispatched conn ∧ conn.buffer = head ++ body := by
  cases advanced with
  | unfinished reading sofar =>
      have unfinished := reading.unfinished
      rw [ConnectionState.received, sofar] at unfinished
      exact absurd unfinished (Nat.lt_irrefl _)
  | finished _ sofar => exact ⟨_, rfl, sofar⟩

theorem advanced_idle (reading : Reading head body conn) {turn : Turn} {capacity : Nat}
    (nothing : turn.bytes = []) (more : conn.received < capacity)
    (most : capacity ≤ SERVER_MAX_REQUEST_SIZE)
    (waits : handleClientEvent turn conn = .waiting { conn with capacity }) :
    Advanced head body (conn.buffer ++ turn.bytes) (handleClientEvent turn conn) := by
  rw [waits, nothing, List.append_nil]
  exact .unfinished ⟨reading.isPrefix, reading.unfinished, more, most, reading.scanned⟩ rfl

theorem advanced_data (request : IsRequest head body) (reading : Reading head body conn)
    {turn : Turn} (allocates : ∀ size, turn.realloc size = true) {capacity : Nat}
    {bytes : Bytes} (more : (conn.buffer ++ bytes).length < capacity)
    (most : capacity ≤ SERVER_MAX_REQUEST_SIZE)
    (isPrefix : conn.buffer ++ bytes <+: head ++ body) :
    ∃ next, connectionHasCompleteRequest turn.realloc
          { conn with buffer := conn.buffer ++ bytes, capacity } =
        (if conn.buffer ++ bytes = head ++ body then .complete else .incomplete, next) ∧
      next.buffer = conn.buffer ++ bytes ∧
      (conn.buffer ++ bytes ≠ head ++ body → Reading head body next) := by
  obtain ⟨next, isComplete, sameBuffer, continues⟩ := @connectionHasCompleteRequest_eq
    head body { conn with buffer := conn.buffer ++ bytes, capacity } turn.realloc request
    allocates isPrefix more most reading.scanned
  have bound := isPrefix.length_le
  have wholeIff : (conn.buffer ++ bytes).length ≥ (head ++ body).length ↔
      conn.buffer ++ bytes = head ++ body := by
    constructor
    · intro enough
      exact isPrefix.eq_of_length (Nat.le_antisymm bound enough)
    · intro whole
      exact Nat.le_of_eq (congrArg List.length whole.symm)
  refine ⟨next, ?_, sameBuffer, ?_⟩
  · rw [isComplete]
    simp only [ConnectionState.received, wholeIff]
  · intro differs
    apply continues
    exact Nat.not_le.mp fun enough => differs (wholeIff.mp enough)

theorem advanced_turn (request : IsRequest head body) (reading : Reading head body conn)
    {turn : Turn} (calm : CalmTurn turn)
    (within : turn.bytes.length ≤ roomFor turn.realloc conn)
    (isPrefix : conn.buffer ++ turn.bytes <+: head ++ body) :
    Advanced head body (conn.buffer ++ turn.bytes) (handleClientEvent turn conn) := by
  obtain ⟨noHangUp, allocates, fcntl, notFailed, notEnded⟩ := calm
  obtain ⟨capacity, made, spare, most⟩ := reading.makeRoom request allocates
  rw [roomFor_eq made] at within
  cases received : turn.recv with
  | failed => contradiction
  | interrupted | wouldBlock =>
      apply advanced_idle reading _ (by omega : conn.received < capacity) most
      · simp only [handleClientEvent, noHangUp, made, received, Bool.false_eq_true, if_false]
      · simp only [Turn.bytes, received]
  | data bytes =>
      have isBytes : turn.bytes = bytes := by simp only [Turn.bytes, received]
      rw [isBytes] at isPrefix within ⊢
      have more : (conn.buffer ++ bytes).length < capacity := by
        have length : (conn.buffer ++ bytes).length = conn.received + bytes.length :=
          List.length_append
        omega
      obtain ⟨next, isComplete, sameBuffer, continues⟩ :=
        advanced_data request reading allocates more most isPrefix
      cases bytes with
      | nil => exact absurd received notEnded
      | cons first rest =>
          simp only [handleClientEvent, noHangUp, made, received, Bool.false_eq_true, if_false,
            isComplete]
          by_cases whole : conn.buffer ++ first :: rest = head ++ body
          · simp only [if_pos whole, fcntl, if_true]
            exact .finished whole sameBuffer
          · simp only [if_neg whole]
            exact .unfinished (continues whole) sameBuffer

def Deliverable : ConnectionState → List Turn → Prop
  | _, [] => True
  | conn, turn :: turns =>
      turn.bytes.length ≤ roomFor turn.realloc conn ∧
        ∀ next, handleClientEvent turn conn = .waiting next → Deliverable next turns

theorem advanced_turns (request : IsRequest head body) (reading : Reading head body conn)
    {turns : List Turn} (calm : ∀ turn ∈ turns, CalmTurn turn)
    (deliverable : Deliverable conn turns)
    (isPrefix : conn.buffer ++ arrived turns <+: head ++ body) :
    Advanced head body (conn.buffer ++ arrived turns) (serveConnection conn turns) := by
  induction turns generalizing conn with
  | nil =>
      rw [arrived, List.map_nil, List.flatten_nil, List.append_nil]
      exact .unfinished reading rfl
  | cons turn turns induction =>
      have split : arrived (turn :: turns) = turn.bytes ++ arrived turns := rfl
      rw [split, ← List.append_assoc] at isPrefix ⊢
      have firstPrefix : conn.buffer ++ turn.bytes <+: head ++ body :=
        (List.prefix_append _ _).trans isPrefix
      have advanced := advanced_turn request reading (calm turn (by simp)) deliverable.1
        firstPrefix
      rw [serveConnection]
      cases outcome : handleClientEvent turn conn with
      | waiting next =>
          rw [outcome] at advanced
          cases advanced with
          | unfinished reading sofar =>
              rw [← sofar] at isPrefix ⊢
              exact induction reading (fun other member => calm other (by simp [member]))
                (deliverable.2 next outcome) isPrefix
      | dispatched next =>
          rw [outcome] at advanced
          cases advanced with
          | finished whole sofar =>
              have nothing : arrived turns = [] := by
                rw [whole] at isPrefix
                have bound := isPrefix.length_le
                rw [List.length_append] at bound
                exact List.length_eq_zero_iff.mp (by omega)
              rw [nothing, List.append_nil]
              exact .finished whole sofar
      | refused reply =>
          rw [outcome] at advanced
          contradiction
      | closed =>
          rw [outcome] at advanced
          contradiction

/-- However a request is cut, it is dispatched once, when its last byte has arrived, on a
buffer that holds it; before that there is always room for the next segment. -/
theorem serveConnection_request (request : IsRequest head body) {turns : List Turn}
    (calm : ∀ turn ∈ turns, CalmTurn turn) (deliverable : Deliverable .start turns)
    (isPrefix : arrived turns <+: head ++ body) :
    (arrived turns = head ++ body → ∃ conn,
      serveConnection .start turns = .dispatched conn ∧ conn.buffer = head ++ body) ∧
    (arrived turns ≠ head ++ body → ∃ conn,
      serveConnection .start turns = .waiting conn ∧ conn.buffer = arrived turns ∧
        0 < roomFor (fun _ => true) conn) := by
  have advanced := advanced_turns request (Reading.start request) calm deliverable
    (by simpa [ConnectionState.start] using isPrefix)
  change Advanced head body (arrived turns) _ at advanced
  cases outcome : serveConnection .start turns with
  | waiting conn =>
      rw [outcome] at advanced
      cases advanced with
      | unfinished reading sofar =>
          constructor
          · intro whole
            have unfinished := reading.unfinished
            rw [ConnectionState.received, sofar, whole] at unfinished
            exact absurd unfinished (Nat.lt_irrefl _)
          · intro _
            obtain ⟨capacity, made, spare, _⟩ := @Reading.makeRoom head body conn
              (fun _ => true) reading request fun _ => rfl
            refine ⟨conn, rfl, sofar, ?_⟩
            rw [roomFor_eq made]
            omega
  | dispatched conn =>
      rw [outcome] at advanced
      cases advanced with
      | finished whole sofar =>
          exact ⟨fun _ => ⟨conn, rfl, sofar.trans whole⟩, fun differs => absurd whole differs⟩
  | refused reply =>
      rw [outcome] at advanced
      contradiction
  | closed =>
      rw [outcome] at advanced
      contradiction

end Requests

def Turn.bringing (bytes : Bytes) : Turn := ⟨false, fun _ => true, .data bytes, true⟩

theorem calmTurn_bringing {bytes : Bytes} (nonempty : bytes ≠ []) :
    CalmTurn (.bringing bytes) :=
  ⟨rfl, fun _ => rfl, rfl, by simp [Turn.bringing], by simpa [Turn.bringing] using nonempty⟩

/-- The cuts are in the middle of the length and of the end of the head. -/
theorem serveConnection_threeSegments :
    ∃ conn, serveConnection .start
        [.bringing (ascii "POST / HTTP/1.1\r\nContent-Length: 1"),
          .bringing (ascii "2\r\n\r"), .bringing (ascii "\nhello, world")] =
        .dispatched conn ∧
      conn.buffer = ascii "POST / HTTP/1.1\r\nContent-Length: 12\r\n\r\n" ++
        ascii "hello, world" := by
  have request : IsRequest (ascii "POST / HTTP/1.1\r\nContent-Length: 12\r\n\r\n")
      (ascii "hello, world") :=
    ⟨⟨by decide, by decide +kernel⟩, by decide +kernel, by decide +kernel⟩
  have calm : ∀ turn ∈ [Turn.bringing (ascii "POST / HTTP/1.1\r\nContent-Length: 1"),
      .bringing (ascii "2\r\n\r"), .bringing (ascii "\nhello, world")], CalmTurn turn := by
    intro turn member
    simp only [List.mem_cons, List.not_mem_nil, or_false] at member
    obtain rfl | rfl | rfl := member <;> exact calmTurn_bringing (by decide)
  have first : handleClientEvent (.bringing (ascii "POST / HTTP/1.1\r\nContent-Length: 1"))
      .start = .waiting ⟨ascii "POST / HTTP/1.1\r\nContent-Length: 1", -1, 0, 8192⟩ := by
    decide +kernel
  have second : handleClientEvent (.bringing (ascii "2\r\n\r"))
      ⟨ascii "POST / HTTP/1.1\r\nContent-Length: 1", -1, 0, 8192⟩ =
        .waiting ⟨ascii "POST / HTTP/1.1\r\nContent-Length: 12\r\n\r", -1, 0, 8192⟩ := by
    decide +kernel
  have deliverable : Deliverable .start
      [.bringing (ascii "POST / HTTP/1.1\r\nContent-Length: 1"),
        .bringing (ascii "2\r\n\r"), .bringing (ascii "\nhello, world")] := by
    refine ⟨by decide +kernel, ?_⟩
    intro conn waits
    rw [first, Progress.waiting.injEq] at waits
    rw [← waits]
    refine ⟨by decide +kernel, ?_⟩
    intro conn waits
    rw [second, Progress.waiting.injEq] at waits
    rw [← waits]
    exact ⟨by decide +kernel, fun _ _ => trivial⟩
  exact (serveConnection_request request calm deliverable (by decide +kernel)).1
    (by decide +kernel)

end HttpFs.CProvider
