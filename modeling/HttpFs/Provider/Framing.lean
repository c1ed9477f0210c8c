import HttpFs.Provider.Segmentation

namespace HttpFs.CProvider

namespace IsHead

variable {head other more rest : Bytes}

theorem unique (isHead : IsHead head) (otherIsHead : IsHead other)
    (same : head ++ more = other ++ rest) : head = other := by
  obtain ⟨text, found⟩ := isHead.complete more
  obtain ⟨otherText, otherFound⟩ := otherIsHead.complete rest
  rw [← text, same, otherText, otherFound, Option.some.injEq] at found
  have lengths := congrArg List.length found
  have whole := congrArg List.length same
  have texts := congrArg List.length (text.symm.trans (congrArg cString same |>.trans otherText))
  simp only [List.length_append] at lengths whole texts
  exact List.append_inj_left same (by omega)

end IsHead

theorem isHead_of_strstr {buffer found : Bytes}
    (result : strstr headEnd (cString buffer) = some found) :
    ∃ head more, buffer = head ++ more ∧ IsHead head ∧
      (cString buffer).length - found.length = head.length - headEnd.length ∧
      cString buffer = head ++ cString more := by
  obtain ⟨⟨after, isFound⟩, before, whole⟩ := strstr_suffix result
  rw [← isFound, ← List.append_assoc] at whole
  have noNul : 0 ∉ before ++ headEnd := by
    intro zero
    apply zero_not_mem_cString buffer
    rw [← whole]
    exact List.mem_append_left after zero
  have ends : strstr headEnd (before ++ headEnd) = some headEnd := by
    apply @strstr_first headEnd before after
    rw [whole, isFound]
    exact result
  obtain ⟨more, isMore⟩ : before ++ headEnd <+: buffer := by
    have textPrefix : cString buffer <+: buffer := List.takeWhile_prefix _
    rw [← whole] at textPrefix
    exact (List.prefix_append _ _).trans textPrefix
  refine ⟨before ++ headEnd, more, isMore.symm, ⟨noNul, ends⟩, ?_, ?_⟩
  · rw [← whole, ← isFound]
    simp only [List.length_append]
    omega
  · rw [← isMore]
    exact cString_append noNul more

theorem scanHead_isHead {conn scanned : ConnectionState} (found : scanHead conn = some scanned) :
    ∃ head more, conn.buffer = head ++ more ∧ IsHead head ∧
      scanned = { conn with
        headerBytes := head.length
        contentLength := headLength (head ++ cString more) (head.length - headEnd.length) } := by
  obtain ⟨fromHeaderEnd, result, rfl⟩ := Option.map_eq_some_iff.mp found
  obtain ⟨head, more, isBuffer, isHead, position, text⟩ := isHead_of_strstr result
  have pos := isHead.length_pos
  have four : headEnd.length = 4 := rfl
  refine ⟨head, more, isBuffer, isHead, ?_⟩
  rw [text] at position
  simp only [text, position]
  rw [four, Nat.sub_add_cancel pos]

def fieldLines (head : Bytes) : List Bytes :=
  match strstr crlf head with
  | none => []
  | some fromLineEnd =>
      splitLines ((fromLineEnd.drop 2).take (fromLineEnd.length - 2 - headEnd.length)) []

/-- The value of the header field `Content-Length`, whose whole name is compared as
`extract_header_value` does. -/
def fieldLength (head : Bytes) : Int :=
  match (fieldLines head).find? (isHeaderLine (ascii "Content-Length")) with
  | none => 0
  | some line => (strtol (line.drop contentLengthName.length)).value

/-- The length that is found in a head, by the text that has arrived, is that of its
header field, and no byte has arrived behind the body. -/
def WellFramed (buffer : Bytes) : Prop :=
  ∀ head more, buffer = head ++ more → IsHead head →
    headLength (head ++ cString more) (head.length - headEnd.length) = fieldLength head ∧
      (more.length : Int) ≤ fieldLength head

theorem ensureConnectionCapacity_frame {realloc : Nat → Bool} {conn next : ConnectionState}
    {requiredSize : Nat}
    (ensured : ensureConnectionCapacity realloc conn requiredSize = some next) :
    ∃ capacity, next = { conn with capacity } := by
  rw [ensureConnectionCapacity] at ensured
  split at ensured
  · cases ensured
    exact ⟨_, rfl⟩
  split at ensured
  · contradiction
  extract_lets newCapacity at ensured
  split at ensured
  · contradiction
  split at ensured
  · cases ensured
    exact ⟨_, rfl⟩
  · contradiction

theorem makeRoom_frame {realloc : Nat → Bool} {conn next : ConnectionState}
    (made : makeRoom realloc conn = some next) : ∃ capacity, next = { conn with capacity } := by
  rw [makeRoom] at made
  split at made
  · exact ensureConnectionCapacity_frame made
  · cases made
    exact ⟨_, rfl⟩

/-- What a turn can make of a connection. -/
inductive TurnOutcome (turn : Turn) (conn : ConnectionState) : Progress → Prop where
  | idle {capacity : Nat} (nothing : turn.bytes = []) :
      TurnOutcome turn conn (.waiting { conn with capacity })
  | incomplete {capacity : Nat} {next : ConnectionState}
      (outcome : connectionHasCompleteRequest turn.realloc
        { conn with buffer := conn.buffer ++ turn.bytes, capacity } = (.incomplete, next)) :
      TurnOutcome turn conn (.waiting next)
  | complete {capacity : Nat} {next : ConnectionState}
      (outcome : connectionHasCompleteRequest turn.realloc
        { conn with buffer := conn.buffer ++ turn.bytes, capacity } = (.complete, next)) :
      TurnOutcome turn conn (.dispatched next)
  | refused {reply : HttpReply} : TurnOutcome turn conn (.refused reply)
  | closed : TurnOutcome turn conn .closed

theorem handleClientEvent_outcome (turn : Turn) (conn : ConnectionState) :
    TurnOutcome turn conn (handleClientEvent turn conn) := by
  rw [handleClientEvent]
  split
  · exact .closed
  split
  · exact .refused
  next roomy made =>
  obtain ⟨capacity, rfl⟩ := makeRoom_frame made
  split
  · exact .closed
  · exact .closed
  · next received => exact .idle (by simp only [Turn.bytes, received])
  · next received => exact .idle (by simp only [Turn.bytes, received])
  · next first rest received =>
    have isBytes : turn.bytes = first :: rest := by simp only [Turn.bytes, received]
    simp only [← isBytes]
    cases outcome : connectionHasCompleteRequest turn.realloc
        { conn with buffer := conn.buffer ++ turn.bytes, capacity } with
    | mk completeness next =>
        cases completeness with
        | invalid => exact .refused
        | tooLarge => exact .refused
        | incomplete => exact .incomplete outcome
        | complete =>
            simp only
            split
            · exact .complete outcome
            · exact .closed

/-- The head of a connection, once it has been scanned, and the length of its field. -/
def ScannedHead (conn : ConnectionState) : Prop :=
  ∃ head more, conn.buffer = head ++ more ∧ IsHead head ∧ conn.headerBytes = head.length ∧
    conn.contentLength = fieldLength head ∧ 0 ≤ conn.contentLength

theorem ScannedHead.append {conn : ConnectionState} (scanned : ScannedHead conn)
    (bytes : Bytes) (capacity : Nat) :
    ScannedHead { conn with buffer := conn.buffer ++ bytes, capacity } := by
  obtain ⟨head, more, isBuffer, rest⟩ := scanned
  exact ⟨head, more ++ bytes, by simp only [isBuffer, List.append_assoc], rest⟩

/-- Every turn that a connection comes to leaves it with well framed bytes. -/
def WellFramedRun (conn : ConnectionState) (turns : List Turn) : Prop :=
  ∀ k reached, serveConnection conn (turns.take k) = .waiting reached →
    WellFramed (conn.buffer ++ arrived (turns.take (k + 1)))

theorem WellFramedRun.next {conn next : ConnectionState} {turn : Turn} {turns : List Turn}
    (wellFramed : WellFramedRun conn (turn :: turns))
    (waits : handleClientEvent turn conn = .waiting next)
    (sofar : next.buffer = conn.buffer ++ turn.bytes) : WellFramedRun next turns := by
  intro k reached isReached
  have later := wellFramed (k + 1) reached
    (by simp only [List.take_succ_cons, serveConnection, waits, isReached])
  rw [sofar]
  simpa [arrived] using later

end HttpFs.CProvider
