import HttpFs.Provider.Framing
import HttpFs.Provider.Segmentation

namespace HttpFs.CProvider

/-! Requests that arrive on a connection whose calls may fail. -/

/-- A connection on which a part of a request has arrived. -/
structure Partial (head body : Bytes) (conn : ConnectionState) : Prop where
  isPrefix : conn.buffer <+: head ++ body
  unfinished : conn.received < (head ++ body).length
  scanned : conn.headerBytes = 0 ∨
    conn.headerBytes = head.length ∧ conn.contentLength = body.length

/-- How a connection stands on which a part of a request has arrived, or all of it. -/
inductive Interrupted (head body : Bytes) : Progress → Prop where
  | waiting {conn : ConnectionState} (partially : Partial head body conn) :
      Interrupted head body (.waiting conn)
  | refused : Interrupted head body (.refused requestTooLarge)
  | dispatched {conn : ConnectionState} (whole : conn.buffer = head ++ body) :
      Interrupted head body (.dispatched conn)
  | closed : Interrupted head body .closed

section Requests

variable {head body : Bytes} {conn : ConnectionState} {realloc : Nat → Bool}

theorem Partial.start (request : IsRequest head body) : Partial head body .start :=
  ⟨(Reading.start request).isPrefix, (Reading.start request).unfinished, .inl rfl⟩

theorem bodyIsComplete_early (isHeader : conn.headerBytes = head.length)
    (isLength : conn.contentLength = body.length) :
    (bodyIsComplete realloc conn).1 = .tooLarge ∨
      ∃ capacity, bodyIsComplete realloc conn =
        (if conn.received ≥ (head ++ body).length then .complete else .incomplete,
          { conn with capacity }) := by
  have total : conn.headerBytes + conn.contentLength.toNat = (head ++ body).length := by
    rw [isHeader, isLength, List.length_append]
    rfl
  unfold bodyIsComplete
  simp only [total]
  split
  · exact .inl rfl
  · cases ensured : ensureConnectionCapacity realloc conn ((head ++ body).length + 1) with
    | none => exact .inl rfl
    | some next =>
        obtain ⟨capacity, rfl⟩ := ensureConnectionCapacity_frame ensured
        exact .inr ⟨capacity, rfl⟩

/-- Whatever memory there is, a request is found complete when all of it is there. -/
theorem connectionHasCompleteRequest_early (request : IsRequest head body)
    (isPrefix : conn.buffer <+: head ++ body)
    (scanned : conn.headerBytes = 0 ∨
      conn.headerBytes = head.length ∧ conn.contentLength = body.length) :
    (connectionHasCompleteRequest realloc conn).1 = .tooLarge ∨
      ∃ next, connectionHasCompleteRequest realloc conn =
          (if conn.received ≥ (head ++ body).length then .complete else .incomplete, next) ∧
        next.buffer = conn.buffer ∧
        (conn.received < (head ++ body).length → Partial head body next) := by
  have pos := request.isHead.length_pos
  rw [connectionHasCompleteRequest]
  obtain unscanned | ⟨isHeader, isLength⟩ := scanned
  · rw [if_pos unscanned, scanHead_eq request isPrefix]
    by_cases short : conn.received < head.length
    · rw [if_pos short]
      refine .inr ⟨conn, ?_, rfl, fun unfinished => ⟨isPrefix, unfinished, .inl unscanned⟩⟩
      rw [if_neg]
      rw [List.length_append]
      omega
    · rw [if_neg short]
      have notNegative : ¬ (body.length : Int) < 0 := by omega
      simp only [if_neg notNegative]
      obtain tooLarge | ⟨capacity, isComplete⟩ := @bodyIsComplete_early head body
        { conn with headerBytes := head.length, contentLength := body.length } realloc rfl rfl
      · exact .inl tooLarge
      · exact .inr ⟨_, isComplete, rfl, fun unfinished =>
          ⟨isPrefix, unfinished, .inr ⟨rfl, rfl⟩⟩⟩
  · rw [if_neg (by omega)]
    obtain tooLarge | ⟨capacity, isComplete⟩ :=
      @bodyIsComplete_early head body conn realloc isHeader isLength
    · exact .inl tooLarge
    · exact .inr ⟨_, isComplete, rfl, fun unfinished =>
        ⟨isPrefix, unfinished, .inr ⟨isHeader, isLength⟩⟩⟩

/-- A turn whose calls end in any way takes a part of a request for no more than that. -/
theorem interrupted_turn (request : IsRequest head body) (partially : Partial head body conn)
    (turn : Turn) (isPrefix : conn.buffer ++ turn.bytes <+: head ++ body) :
    Interrupted head body (handleClientEvent turn conn) ∧
      ∀ next, handleClientEvent turn conn = .waiting next →
        next.buffer = conn.buffer ++ turn.bytes := by
  unfold handleClientEvent
  split
  · exact ⟨.closed, by rintro next ⟨⟩⟩
  cases made : makeRoom turn.realloc conn with
  | none => exact ⟨.refused, by rintro next ⟨⟩⟩
  | some roomy =>
      obtain ⟨capacity, rfl⟩ := makeRoom_frame made
      simp only
      cases received : turn.recv with
      | failed => exact ⟨.closed, by rintro next ⟨⟩⟩
      | interrupted | wouldBlock =>
          refine ⟨.waiting ⟨partially.isPrefix, partially.unfinished, partially.scanned⟩, ?_⟩
          rintro next ⟨⟩
          simp only [Turn.bytes, received, List.append_nil]
      | data bytes =>
          have isBytes : turn.bytes = bytes := by simp only [Turn.bytes, received]
          rw [isBytes] at isPrefix ⊢
          cases bytes with
          | nil => exact ⟨.closed, by rintro next ⟨⟩⟩
          | cons first rest =>
              simp only
              obtain tooLarge | ⟨next, isComplete, sameBuffer, continues⟩ :=
                @connectionHasCompleteRequest_early head body
                  { conn with buffer := conn.buffer ++ first :: rest, capacity } turn.realloc
                  request isPrefix partially.scanned
              · split
                · next found => simp [found] at tooLarge
                · exact ⟨.refused, by rintro next ⟨⟩⟩
                · next found => simp [found] at tooLarge
                · next found => simp [found] at tooLarge
              · rw [isComplete]
                by_cases whole : (head ++ body).length ≤ (conn.buffer ++ first :: rest).length
                · have isWhole := isPrefix.eq_of_length_le whole
                  simp only [ConnectionState.received, ge_iff_le, if_pos whole]
                  split
                  · exact ⟨.dispatched (sameBuffer.trans isWhole), by rintro next ⟨⟩⟩
                  · exact ⟨.closed, by rintro next ⟨⟩⟩
                · simp only [ConnectionState.received, ge_iff_le, if_neg whole]
                  refine ⟨.waiting (continues (Nat.lt_of_not_le whole)), ?_⟩
                  rintro next ⟨⟩
                  exact sameBuffer

/-- However the calls of a connection end on which a part of a request arrives, only the
whole of it is dispatched. -/
theorem interrupted_turns (request : IsRequest head body) (partially : Partial head body conn)
    {turns : List Turn} (isPrefix : conn.buffer ++ arrived turns <+: head ++ body) :
    Interrupted head body (serveConnection conn turns) := by
  induction turns generalizing conn with
  | nil => exact .waiting partially
  | cons turn turns induction =>
      have split : arrived (turn :: turns) = turn.bytes ++ arrived turns := rfl
      rw [split, ← List.append_assoc] at isPrefix
      obtain ⟨interrupted, sofar⟩ := interrupted_turn request partially turn
        ((List.prefix_append _ _).trans isPrefix)
      rw [serveConnection]
      cases outcome : handleClientEvent turn conn with
      | waiting next =>
          rw [outcome] at interrupted
          cases interrupted with
          | waiting partially =>
              rw [← sofar next outcome] at isPrefix
              exact induction partially isPrefix
      | refused reply | dispatched next | closed =>
          rw [outcome] at interrupted
          exact interrupted

end Requests

end HttpFs.CProvider
