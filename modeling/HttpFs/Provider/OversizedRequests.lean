import HttpFs.Provider.BufferInvariant
import HttpFs.Provider.Framing

namespace HttpFs.CProvider

/-- What holds of every turn that a connection comes to. -/
def EveryTurn (holds : ConnectionState → Turn → Prop) : ConnectionState → List Turn → Prop
  | _, [] => True
  | conn, turn :: turns =>
      holds conn turn ∧
        ∀ next, handleClientEvent turn conn = .waiting next → EveryTurn holds next turns

/-- A turn that the peer and the system leave alone: `recv` returns 0 only where it is
asked for nothing. -/
structure Undisturbed (conn : ConnectionState) (turn : Turn) : Prop where
  noHangUp : turn.hangUp = false
  notFailed : turn.recv ≠ .failed
  within : WithinRoom conn turn
  notEnded : turn.recv = .data [] → roomFor turn.realloc conn = 0

def OffersRoom (conn : ConnectionState) (turn : Turn) : Prop :=
  (makeRoom turn.realloc conn).isSome → 0 < roomFor turn.realloc conn

/-- The buffer has not reached the limit with the bytes received and the NUL behind them. -/
def NotFull (conn : ConnectionState) (_ : Turn) : Prop :=
  conn.received + 1 < SERVER_MAX_REQUEST_SIZE

/-- A request that cannot be completed within the limit: its head declares too long a
body, or does not end where the buffer does. -/
inductive Oversized (stream : Bytes) : Prop where
  | declared {head more : Bytes} (whole : stream = head ++ more) (isHead : IsHead head)
      (tooLarge : (SERVER_MAX_REQUEST_SIZE : Int) < head.length + declaredLength head + 1) :
      Oversized stream
  | unfinished (long : SERVER_MAX_REQUEST_SIZE ≤ stream.length + 1)
      (noHead : ∀ head more, stream.take (SERVER_MAX_REQUEST_SIZE - 1) = head ++ more →
        ¬ IsHead head) : Oversized stream

section Room

variable {allocated : Nat} {conn : ConnectionState} {realloc : Nat → Bool}

theorem HoldsBuffer.grown {requiredSize : Nat} {next : ConnectionState}
    (holds : HoldsBuffer allocated conn)
    (ensured : ensureConnectionCapacity realloc conn requiredSize = some next) :
    next = { conn with capacity := next.capacity } ∧ HoldsBuffer next.capacity next ∧
      requiredSize ≤ next.capacity := by
  obtain ⟨_, outcome⟩ := @HoldsBuffer.ensured realloc conn allocated requiredSize holds
    ensureConnectionCapacityLogged_promised
  rw [ensureConnectionCapacityLogged_value, ensured] at outcome
  obtain ⟨same, holdsGrown, enough, _⟩ := outcome.succeeded rfl
  have isCapacity := holdsGrown.isAllocated
  rw [isCapacity]
  exact ⟨same, holdsGrown, enough⟩

theorem makeRoom_full (holds : HoldsBuffer allocated conn)
    (full : SERVER_MAX_REQUEST_SIZE ≤ conn.received + 1) : makeRoom realloc conn = some conn := by
  have room := holds.room
  have bounded := holds.bounded
  rw [makeRoom]
  split
  · rw [ensureConnectionCapacity, if_pos]
    split <;> omega
  · rfl

theorem makeRoom_roomy {roomy : ConnectionState} (holds : HoldsBuffer allocated conn)
    (notFull : conn.received + 1 < SERVER_MAX_REQUEST_SIZE)
    (made : makeRoom realloc conn = some roomy) :
    roomy = { conn with capacity := roomy.capacity } ∧ conn.received + 1 < roomy.capacity := by
  have room := holds.room
  rw [makeRoom] at made
  split at made
  · next tight =>
    rw [if_pos (by omega)] at made
    obtain ⟨same, _, enough⟩ := holds.grown made
    exact ⟨same, by omega⟩
  · next loose =>
    cases made
    exact ⟨rfl, by omega⟩

/-- `recv` is asked for nothing exactly when the buffer has reached the limit. -/
theorem offersRoom_iff {turn : Turn} (holds : HoldsBuffer allocated conn) :
    OffersRoom conn turn ↔ NotFull conn turn := by
  constructor
  · intro offers
    apply Nat.not_le.mp
    intro full
    have made := @makeRoom_full allocated conn turn.realloc holds full
    rw [OffersRoom, roomFor, made] at offers
    have bounded := holds.bounded
    have positive := offers rfl
    simp only at positive
    omega
  · intro notFull
    rw [OffersRoom, roomFor]
    cases made : makeRoom turn.realloc conn with
    | none =>
        intro impossible
        cases impossible
    | some roomy =>
        intro _
        obtain ⟨same, more⟩ := makeRoom_roomy holds notFull made
        have received : roomy.received = conn.received := by rw [same]; rfl
        simp only
        omega

end Room

section Oversized

variable {stream : Bytes} {conn : ConnectionState}

/-- Wherever a connection is, a scan of an oversized request finds it too large. -/
theorem Oversized.scanned {scanned : ConnectionState} (oversized : Oversized stream)
    (isPrefix : conn.buffer <+: stream) (short : conn.received < SERVER_MAX_REQUEST_SIZE)
    (found : scanHead conn = some scanned) :
    0 ≤ scanned.contentLength ∧
      (SERVER_MAX_REQUEST_SIZE : Int) < scanned.headerBytes + scanned.contentLength + 1 := by
  obtain ⟨head, more, isBuffer, isHead, rfl⟩ := scanHead_isHead found
  cases oversized with
  | declared whole otherIsHead tooLarge =>
      obtain ⟨rest, isStream⟩ := isPrefix
      rw [isBuffer, whole, List.append_assoc] at isStream
      obtain rfl := isHead.unique otherIsHead isStream
      have within : head.length ≤ conn.received := by
        rw [ConnectionState.received, isBuffer, List.length_append]
        omega
      have known := @IsHead.headLength_append head isHead (cString more) (.inr (by omega))
      simp only [known]
      omega
  | unfinished long noHead =>
      have taken : conn.buffer <+: stream.take (SERVER_MAX_REQUEST_SIZE - 1) := by
        apply List.prefix_take_iff.mpr
        exact ⟨isPrefix, Nat.le_pred_of_lt short⟩
      obtain ⟨rest, isStream⟩ := taken
      rw [isBuffer, List.append_assoc] at isStream
      exact absurd isHead (noHead head _ isStream.symm)

theorem Oversized.notComplete {realloc : Nat → Bool} (oversized : Oversized stream)
    (isPrefix : conn.buffer <+: stream) (short : conn.received < SERVER_MAX_REQUEST_SIZE)
    (unscanned : conn.headerBytes = 0) :
    connectionHasCompleteRequest realloc conn = (.incomplete, conn) ∨
      ∃ next, connectionHasCompleteRequest realloc conn = (.tooLarge, next) := by
  rw [connectionHasCompleteRequest, if_pos unscanned]
  cases found : scanHead conn with
  | none => exact .inl rfl
  | some scanned =>
      obtain ⟨notNegative, tooLarge⟩ := oversized.scanned isPrefix short found
      right
      refine ⟨scanned, ?_⟩
      simp only
      rw [if_neg (by omega), bodyIsComplete, if_pos (by omega)]

/-- A turn with room either answers an oversized request or leaves it unscanned. -/
theorem Oversized.turn {turn : Turn} {allocated : Nat} (oversized : Oversized stream)
    (settled : Settled allocated conn) (unscanned : conn.headerBytes = 0)
    (undisturbed : Undisturbed conn turn) (notFull : NotFull conn turn)
    (isPrefix : conn.buffer ++ turn.bytes <+: stream) :
    handleClientEvent turn conn = .refused requestTooLarge ∨
      ∃ next, handleClientEvent turn conn = .waiting next ∧ next.headerBytes = 0 ∧
        next.buffer = conn.buffer ++ turn.bytes := by
  obtain ⟨noHangUp, notFailed, within, notEnded⟩ := undisturbed
  have bounded := settled.bounded
  rw [handleClientEvent, if_neg (by rw [noHangUp]; decide)]
  rw [WithinRoom, roomFor] at within
  rw [roomFor] at notEnded
  cases made : makeRoom turn.realloc conn with
  | none => exact .inl rfl
  | some roomy =>
      obtain ⟨same, more⟩ := makeRoom_roomy settled.toHoldsBuffer notFull made
      rw [made] at within notEnded
      have sameBuffer : roomy.buffer = conn.buffer := by rw [same]
      have sameHeader : roomy.headerBytes = 0 := by rw [same]; exact unscanned
      have received : roomy.received = conn.received := by rw [same]; rfl
      have most : roomy.capacity ≤ SERVER_MAX_REQUEST_SIZE := by
        have meetsRoom : bufferAudit.Meets allocated (makeRoomLogged turn.realloc conn) _ :=
          makeRoomLogged_meets settled
        obtain ⟨_, meets⟩ := meetsRoom makeRoomLogged_promised
        rw [makeRoomLogged_value, made] at meets
        exact (meets rfl).bounded
      cases arrives : turn.recv with
      | failed => exact absurd arrives notFailed
      | interrupted =>
          right
          refine ⟨roomy, rfl, sameHeader, ?_⟩
          rw [sameBuffer, Turn.bytes, arrives, List.append_nil]
      | wouldBlock =>
          right
          refine ⟨roomy, rfl, sameHeader, ?_⟩
          rw [sameBuffer, Turn.bytes, arrives, List.append_nil]
      | data bytes =>
          have isBytes : turn.bytes = bytes := by rw [Turn.bytes, arrives]
          cases bytes with
          | nil =>
              have none := notEnded arrives
              simp only at none
              omega
          | cons first rest =>
              have room := within rfl
              rw [isBytes] at room isPrefix ⊢
              have length : (roomy.buffer ++ first :: rest).length =
                  roomy.received + (first :: rest).length := List.length_append
              have outcome := @Oversized.notComplete stream
                { roomy with buffer := roomy.buffer ++ first :: rest } turn.realloc oversized
                (by rw [sameBuffer]; exact isPrefix)
                (by
                  change (roomy.buffer ++ first :: rest).length < SERVER_MAX_REQUEST_SIZE
                  simp only at room
                  omega)
                sameHeader
              obtain incomplete | ⟨next, tooLarge⟩ := outcome
              · right
                refine ⟨{ roomy with buffer := roomy.buffer ++ first :: rest }, ?_, sameHeader, ?_⟩
                · simp only [incomplete]
                · rw [sameBuffer]
              · left
                simp only [tooLarge]

/-- A turn on a full buffer asks `recv` for nothing, and takes its answer for the end. -/
theorem full_turn {turn : Turn} {allocated : Nat} (settled : Settled allocated conn)
    (undisturbed : Undisturbed conn turn) (full : ¬ NotFull conn turn) :
    handleClientEvent turn conn = .closed ∨ handleClientEvent turn conn = .waiting conn := by
  obtain ⟨noHangUp, notFailed, within, _⟩ := undisturbed
  have made := @makeRoom_full allocated conn turn.realloc settled.toHoldsBuffer
    (Nat.not_lt.mp full)
  rw [handleClientEvent, if_neg (by rw [noHangUp]; decide), made]
  rw [WithinRoom, roomFor, made] at within
  have nothing := within rfl
  cases arrives : turn.recv with
  | failed => exact absurd arrives notFailed
  | interrupted => exact .inr rfl
  | wouldBlock => exact .inr rfl
  | data bytes =>
      cases bytes with
      | nil => exact .inl rfl
      | cons first rest =>
          rw [Turn.bytes, arrives] at nothing
          have bounded := settled.bounded
          have isFull : SERVER_MAX_REQUEST_SIZE ≤ conn.received + 1 := Nat.not_lt.mp full
          simp only [List.length_cons] at nothing
          omega

theorem full_turns {turns : List Turn} {allocated : Nat} (settled : Settled allocated conn)
    (undisturbed : EveryTurn Undisturbed conn turns)
    (full : SERVER_MAX_REQUEST_SIZE ≤ conn.received + 1) :
    serveConnection conn turns = .closed ∨ serveConnection conn turns = .waiting conn := by
  induction turns with
  | nil => exact .inr rfl
  | cons turn turns induction =>
      rw [serveConnection]
      obtain closes | waits := full_turn settled undisturbed.1 (Nat.not_lt.mpr full)
      · rw [closes]
        exact .inl rfl
      · rw [waits]
        exact induction (undisturbed.2 conn waits)

theorem Oversized.turns {turns : List Turn} {allocated : Nat} (oversized : Oversized stream)
    (settled : Settled allocated conn) (unscanned : conn.headerBytes = 0)
    (undisturbed : EveryTurn Undisturbed conn turns)
    (isStream : conn.buffer ++ arrived turns <+: stream) :
    (EveryTurn NotFull conn turns →
      serveConnection conn turns = .refused requestTooLarge ∨
        ∃ next, serveConnection conn turns = .waiting next) ∧
    (¬ EveryTurn NotFull conn turns →
      serveConnection conn turns = .closed ∨
        ∃ next, serveConnection conn turns = .waiting next) := by
  induction turns generalizing conn allocated with
  | nil => exact ⟨fun _ => .inr ⟨conn, rfl⟩, fun full => absurd trivial full⟩
  | cons turn turns induction =>
      have split : arrived (turn :: turns) = turn.bytes ++ arrived turns := rfl
      rw [split, ← List.append_assoc] at isStream
      by_cases notFull : NotFull conn turn
      · have progress := oversized.turn settled unscanned undisturbed.1 notFull
          ((List.prefix_append _ _).trans isStream)
        rw [serveConnection, EveryTurn]
        obtain refuses | ⟨next, waits, stillUnscanned, sofar⟩ := progress
        · rw [refuses]
          exact ⟨fun _ => .inl rfl, fun full =>
            absurd ⟨notFull, fun _ impossible => by cases impossible⟩ full⟩
        · obtain ⟨reached, standing⟩ := handleClientEvent_standing settled undisturbed.1.within
          rw [waits] at standing
          rw [← sofar] at isStream
          have later := induction standing stillUnscanned (undisturbed.2 next waits) isStream
          simp only [waits, Progress.waiting.injEq, forall_eq']
          exact ⟨fun every => later.1 every.2, fun full =>
            later.2 fun every => full ⟨notFull, every⟩⟩
      · refine ⟨fun every => absurd every.1 notFull, fun _ => ?_⟩
        obtain closes | waits := full_turns settled undisturbed (Nat.not_lt.mp notFull)
        · exact .inl closes
        · exact .inr ⟨conn, waits⟩

end Oversized

theorem offersRoom_turns {turns : List Turn} {conn : ConnectionState} {allocated : Nat}
    (settled : Settled allocated conn) (undisturbed : EveryTurn Undisturbed conn turns) :
    EveryTurn OffersRoom conn turns ↔ EveryTurn NotFull conn turns := by
  induction turns generalizing conn allocated with
  | nil => exact Iff.rfl
  | cons turn turns induction =>
      apply and_congr (offersRoom_iff settled.toHoldsBuffer)
      apply forall_congr'
      intro next
      apply imp_congr_right
      intro waits
      obtain ⟨reached, standing⟩ := handleClientEvent_standing settled undisturbed.1.within
      rw [waits] at standing
      exact induction standing (undisturbed.2 next waits)

theorem settled_start : Settled SERVER_INITIAL_REQUEST_BUFFER_SIZE .start :=
  ⟨⟨by decide, by decide, rfl, by decide, by decide⟩, fun scanned => absurd rfl scanned⟩

/-- A connection on which an oversized request arrives. -/
def AnswersOversized (turns : List Turn) : Prop :=
  Oversized (arrived turns) → (∀ conn, serveConnection .start turns ≠ .waiting conn) →
    serveConnection .start turns = .refused requestTooLarge

/-- An oversized request is answered, and `recv` always asked for some byte, as long as no
turn finds the buffer at the limit; a run that comes there is closed without an answer. -/
theorem oversized_answered_iff {turns : List Turn}
    (undisturbed : EveryTurn Undisturbed .start turns) :
    (AnswersOversized turns ∧ EveryTurn OffersRoom .start turns ↔
      EveryTurn NotFull .start turns) ∧
    (Oversized (arrived turns) → (∀ conn, serveConnection .start turns ≠ .waiting conn) →
      (serveConnection .start turns = .refused requestTooLarge ↔
        EveryTurn NotFull .start turns)) := by
  have offers := offersRoom_turns settled_start undisturbed
  have progress (oversized : Oversized (arrived turns)) :=
    oversized.turns settled_start rfl undisturbed List.prefix_rfl
  refine ⟨⟨fun answered => offers.mp answered.2, ?_⟩, ?_⟩
  · intro notFull
    refine ⟨?_, offers.mpr notFull⟩
    intro oversized ended
    obtain refuses | ⟨next, waits⟩ := (progress oversized).1 notFull
    · exact refuses
    · exact absurd waits (ended next)
  · intro oversized ended
    constructor
    · intro refuses
      apply Classical.byContradiction
      intro full
      obtain closes | ⟨next, waits⟩ := (progress oversized).2 full
      · rw [closes] at refuses
        contradiction
      · exact absurd waits (ended next)
    · intro notFull
      obtain refuses | ⟨next, waits⟩ := (progress oversized).1 notFull
      · exact refuses
      · exact absurd waits (ended next)

def declaringTurns : List Turn :=
  [.bringing (ascii "POST / HTTP/1.1\r\nContent-Length: 9000000\r\n\r\n")]

theorem oversized_answered_iff_declared :
    serveConnection .start declaringTurns = .refused requestTooLarge ↔
      EveryTurn NotFull .start declaringTurns := by
  have refused : serveConnection .start declaringTurns = .refused requestTooLarge := by
    decide +kernel
  have undisturbed : EveryTurn Undisturbed .start declaringTurns := by
    refine ⟨⟨rfl, ?_, ?_, ?_⟩, fun _ _ => trivial⟩
    · intro failed
      cases failed
    · intro _
      decide +kernel
    · intro ended
      cases ended
  have isHead : IsHead (ascii "POST / HTTP/1.1\r\nContent-Length: 9000000\r\n\r\n") :=
    ⟨by decide, by decide +kernel⟩
  have oversized : Oversized (arrived declaringTurns) :=
    .declared (List.append_nil _).symm isHead (by decide +kernel)
  refine (oversized_answered_iff undisturbed).2 oversized ?_
  intro conn waits
  rw [refused] at waits
  exact Progress.noConfusion waits

/-! A request line without an end. -/

section Endless

def letters (n : Nat) : Bytes := List.replicate n (byte 'a')

/-- Segments that each fill the buffer, which doubles `k` times. -/
def fillingTurns : Nat → Nat → List Turn
  | 0, _ => []
  | k + 1, size => .bringing (letters size) :: fillingTurns k (2 * size)

def endlessTurns : List Turn :=
  .bringing (letters 8191) :: (fillingTurns 10 8192 ++ [.bringing []])

theorem noHead_letters {n : Nat} {head more : Bytes} (isText : letters n = head ++ more) :
    ¬ IsHead head := by
  intro isHead
  obtain ⟨front, rfl⟩ := isHead.eq_append
  have member : byte '\n' ∈ letters n := by
    rw [isText]
    simp [headEnd, ascii]
  exact absurd (List.eq_of_mem_replicate member) (by decide)

def lettersConn (n capacity : Nat) : ConnectionState := ⟨letters n, -1, 0, capacity⟩

theorem incomplete_letters (realloc : Nat → Bool) (n capacity : Nat) :
    connectionHasCompleteRequest realloc (lettersConn n capacity) =
      (.incomplete, lettersConn n capacity) := by
  have unscanned : scanHead (lettersConn n capacity) = none := by
    cases found : scanHead (lettersConn n capacity) with
    | none => rfl
    | some scanned =>
        obtain ⟨head, more, isBuffer, isHead, _⟩ := scanHead_isHead found
        exact absurd isHead (noHead_letters isBuffer)
  have header : (lettersConn n capacity).headerBytes = 0 := rfl
  rw [connectionHasCompleteRequest, if_pos header, unscanned]

theorem bringing_letters {n m capacity grown : Nat} (positive : 0 < m)
    (made : makeRoom (fun _ => true) (lettersConn n capacity) = some (lettersConn n grown)) :
    handleClientEvent (.bringing (letters m)) (lettersConn n capacity) =
      .waiting (lettersConn (n + m) grown) := by
  cases m with
  | zero => contradiction
  | succ m =>
      have first : letters (m + 1) = byte 'a' :: letters m := rfl
      have text : letters n ++ letters (m + 1) = letters (n + (m + 1)) :=
        List.replicate_append_replicate
      have whole : { lettersConn n grown with
          buffer := (lettersConn n grown).buffer ++ byte 'a' :: letters m } =
            lettersConn (n + (m + 1)) grown := by
        rw [← first]
        simp only [lettersConn, text]
      rw [handleClientEvent, Turn.bringing, if_neg Bool.false_ne_true, made, first]
      simp only [whole, incomplete_letters]

theorem undisturbed_letters {n m capacity grown : Nat} (positive : 0 < m)
    (fits : n + m < grown)
    (made : makeRoom (fun _ => true) (lettersConn n capacity) = some (lettersConn n grown)) :
    Undisturbed (lettersConn n capacity) (.bringing (letters m)) := by
  refine ⟨rfl, ?_, ?_, ?_⟩
  · intro failed
    cases failed
  · intro _
    have received : (lettersConn n grown).received = n := List.length_replicate
    have length : (letters m).length = m := List.length_replicate
    rw [roomFor, Turn.bringing, made]
    change (letters m).length ≤ grown - (lettersConn n grown).received - 1
    omega
  · intro empty
    have length : (letters m).length = m := List.length_replicate
    rw [RecvResult.data.inj empty] at length
    exact absurd length.symm (Nat.ne_of_gt positive)

theorem makeRoom_letters {size : Nat} (positive : 0 < size)
    (bounded : 2 * size ≤ SERVER_MAX_REQUEST_SIZE) :
    makeRoom (fun _ => true) (lettersConn (size - 1) size) =
      some (lettersConn (size - 1) (2 * size)) := by
  have received : (lettersConn (size - 1) size).received = size - 1 := List.length_replicate
  have capacity : (lettersConn (size - 1) size).capacity = size := rfl
  have grown : growCapacity (2 * size) size positive = 2 * size := by
    rw [growCapacity, if_pos (by omega)]
    split
    · next large =>
      simp only [SERVER_MAX_REQUEST_SIZE] at bounded large ⊢
      omega
    · rw [growCapacity, if_neg (by omega), Nat.mul_comm]
  have ensured : ensureConnectionCapacity (fun _ => true) (lettersConn (size - 1) size)
      (2 * size) = some (lettersConn (size - 1) (2 * size)) := by
    simp only [ensureConnectionCapacity, capacity, dif_pos positive, grown]
    rw [if_neg (by omega), if_neg (by omega), if_neg (by omega)]
    rfl
  rw [makeRoom, received, capacity, if_pos (by omega), if_pos positive]
  simp only [Nat.mul_comm size 2, Nat.min_eq_left bounded]
  exact ensured

/-- The connection behind `k` filling segments. -/
theorem fillingTurns_run {k size : Nat} (positive : 0 < size)
    (bounded : 2 ^ k * size ≤ SERVER_MAX_REQUEST_SIZE) (turns : List Turn) :
    serveConnection (lettersConn (size - 1) size) (fillingTurns k size ++ turns) =
      serveConnection (lettersConn (2 ^ k * size - 1) (2 ^ k * size)) turns ∧
    (EveryTurn Undisturbed (lettersConn (2 ^ k * size - 1) (2 ^ k * size)) turns →
      EveryTurn Undisturbed (lettersConn (size - 1) size) (fillingTurns k size ++ turns)) ∧
    (∀ holds, EveryTurn holds (lettersConn (size - 1) size) (fillingTurns k size ++ turns) →
      EveryTurn holds (lettersConn (2 ^ k * size - 1) (2 ^ k * size)) turns) ∧
    arrived (fillingTurns k size ++ turns) = letters (2 ^ k * size - size) ++ arrived turns := by
  induction k generalizing size with
  | zero =>
      rw [Nat.pow_zero, Nat.one_mul, Nat.sub_self]
      exact ⟨rfl, id, fun _ => id, rfl⟩
  | succ k induction =>
      have power : 2 ^ (k + 1) * size = 2 ^ k * (2 * size) := by
        rw [Nat.pow_succ, Nat.mul_assoc]
      have least : 2 * size ≤ 2 ^ k * (2 * size) := Nat.le_mul_of_pos_left _ (Nat.two_pow_pos k)
      rw [power] at bounded ⊢
      have made := makeRoom_letters positive (Nat.le_trans least bounded)
      have filled : size - 1 + size = 2 * size - 1 := by omega
      have waits := bringing_letters positive made
      have undisturbed := undisturbed_letters positive (by omega) made
      rw [filled] at waits
      obtain ⟨runs, stays, reaches, sofar⟩ := @induction (2 * size) (by omega) bounded
      refine ⟨?_, ?_, ?_, ?_⟩
      · rw [fillingTurns, List.cons_append, serveConnection, waits]
        exact runs
      · intro later
        refine ⟨undisturbed, ?_⟩
        intro next reached
        rw [waits, Progress.waiting.injEq] at reached
        rw [← reached]
        exact stays later
      · intro holds every
        exact reaches holds (every.2 _ waits)
      · have joined : letters size ++ letters (2 ^ k * (2 * size) - 2 * size) =
            letters (2 ^ k * (2 * size) - size) := by
          rw [letters, letters, List.replicate_append_replicate, letters]
          congr 1
          omega
        rw [fillingTurns, List.cons_append, ← joined, List.append_assoc, ← sofar]
        rfl

theorem full_letters {n : Nat} (isFull : n + 1 = SERVER_MAX_REQUEST_SIZE) :
    Undisturbed (lettersConn n (n + 1)) (.bringing []) ∧
      handleClientEvent (.bringing []) (lettersConn n (n + 1)) = .closed ∧
      ¬ OffersRoom (lettersConn n (n + 1)) (.bringing []) := by
  have received : (lettersConn n (n + 1)).received = n := List.length_replicate
  have capacity : (lettersConn n (n + 1)).capacity = n + 1 := rfl
  have notNegative : (-1 : Int) ≤ longMax := by decide
  have holds : HoldsBuffer (n + 1) (lettersConn n (n + 1)) :=
    ⟨by omega, by omega, rfl, Nat.zero_le _, notNegative⟩
  have made := @makeRoom_full _ _ (fun _ => true) holds (by omega)
  have noRoom : roomFor (fun _ => true) (lettersConn n (n + 1)) = 0 := by
    rw [roomFor, made]
    simp only
    omega
  refine ⟨⟨rfl, ?_, fun _ => Nat.zero_le _, fun _ => noRoom⟩, ?_, ?_⟩
  · intro failed
    cases failed
  · rw [handleClientEvent, Turn.bringing, if_neg Bool.false_ne_true, made]
  · intro offers
    rw [OffersRoom, Turn.bringing, made, noRoom] at offers
    exact absurd (offers rfl) (Nat.lt_irrefl 0)

/-- A peer that sends a line of 8 MiB without its end is not answered. -/
theorem endless_line_unanswered :
    EveryTurn Undisturbed .start endlessTurns ∧ Oversized (arrived endlessTurns) ∧
      serveConnection .start endlessTurns = .closed ∧
      ¬ AnswersOversized endlessTurns ∧ ¬ EveryTurn OffersRoom .start endlessTurns := by
  obtain ⟨limit, size, isLimit⟩ : ∃ limit, 2 ^ 10 * 8192 = limit + 1 ∧
      limit + 1 = SERVER_MAX_REQUEST_SIZE := ⟨8388607, by decide, by decide⟩
  obtain ⟨runs, stays, reaches, sofar⟩ := @fillingTurns_run 10 8192 (by decide)
    (Nat.le_of_eq (size.trans isLimit)) [.bringing []]
  rw [size, Nat.add_sub_cancel] at runs stays reaches
  have isStart : ConnectionState.start = lettersConn 0 8192 := rfl
  have roomy : makeRoom (fun _ => true) (lettersConn 0 8192) = some (lettersConn 0 8192) := rfl
  have waits := @bringing_letters 0 8191 8192 8192 (by decide) roomy
  have undisturbed := @undisturbed_letters 0 8191 8192 8192 (by decide) (by decide) roomy
  rw [← isStart] at waits undisturbed
  obtain ⟨last, closes, noRoom⟩ := full_letters isLimit
  have closed : serveConnection .start endlessTurns = .closed := by
    rw [endlessTurns, serveConnection, waits]
    simp only
    rw [runs, serveConnection, closes]
  have text : arrived endlessTurns = letters limit := by
    have first : (Turn.bringing (letters 8191)).bytes = letters 8191 := rfl
    have nothing : arrived [.bringing []] = [] := rfl
    have total : 8191 + (limit + 1 - 8192) = limit := by omega
    rw [endlessTurns, arrived, List.map_cons, List.flatten_cons, ← arrived, sofar, nothing, first,
      List.append_nil, size, letters, letters, List.replicate_append_replicate, total, letters]
  have oversized : Oversized (arrived endlessTurns) := by
    rw [text]
    apply Oversized.unfinished
    · rw [letters, List.length_replicate]
      omega
    · intro head more isText
      rw [letters, List.take_replicate] at isText
      exact noHead_letters isText
  refine ⟨⟨undisturbed, ?_⟩, oversized, closed, ?_, ?_⟩
  · intro next reached
    rw [waits, Progress.waiting.injEq] at reached
    rw [← reached]
    exact stays ⟨last, fun _ _ => trivial⟩
  · intro answers
    have refused := answers oversized fun conn isWaiting => by
      rw [closed] at isWaiting
      exact Progress.noConfusion isWaiting
    rw [closed] at refused
    exact Progress.noConfusion refused
  · intro offers
    exact noRoom (reaches OffersRoom (offers.2 _ waits)).1

end Endless

end HttpFs.CProvider
