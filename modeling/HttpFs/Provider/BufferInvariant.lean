import HttpFs.Foundation.Integers
import HttpFs.Provider.BufferUse
import HttpFs.Provider.Segmentation

namespace HttpFs.CProvider

open Audit Logged

/-- A connection whose buffer are `allocated` bytes. -/
structure HoldsBuffer (allocated : Nat) (conn : ConnectionState) : Prop where
  room : conn.received < conn.capacity
  bounded : conn.capacity ≤ SERVER_MAX_REQUEST_SIZE
  isAllocated : conn.capacity = allocated
  scanned : conn.headerBytes ≤ conn.received
  declared : conn.contentLength ≤ longMax

/-- The uses of a buffer, by the number of bytes that are allocated for it: `recv` gives
no more than it is asked for, and everything else keeps to the buffer and to `size_t`. -/
def bufferAudit : Audit Nat BufferEvent where
  after allocated event :=
    match event with
    | .reallocated newCapacity true => newCapacity
    | _ => allocated
  promised event :=
    match event with
    | .received _ length count => count ≤ length
    | _ => True
  sound allocated event :=
    match event with
    | .computed exact => exact < 2 ^ 64
    | .subtracted minuend subtrahend => subtrahend ≤ minuend
    | .converted value => 0 ≤ value ∧ value < 2 ^ 64
    | .reallocated newCapacity _ =>
        allocated < newCapacity ∧ newCapacity ≤ SERVER_MAX_REQUEST_SIZE
    | .assigned conn => HoldsBuffer allocated conn
    | .received conn length _ =>
        HoldsBuffer allocated conn ∧ length ≤ conn.capacity - conn.received - 1
    | .stored index => index < allocated

theorem growCapacityLogged_meets {requiredSize newCapacity allocated : Nat}
    (positive : 0 < newCapacity) (within : requiredSize ≤ SERVER_MAX_REQUEST_SIZE)
    (bounded : newCapacity ≤ SERVER_MAX_REQUEST_SIZE) :
    bufferAudit.Meets allocated (growCapacityLogged requiredSize newCapacity positive)
      fun reached grown => reached = allocated ∧ requiredSize ≤ grown ∧
        grown ≤ SERVER_MAX_REQUEST_SIZE := by
  fun_induction growCapacityLogged requiredSize newCapacity positive with
  | case1 newCapacity positive less large => exact meets_pure ⟨rfl, within, Nat.le_refl _⟩
  | case2 newCapacity positive less small induction =>
      apply meets_note_bind
      · intro _
        change newCapacity * 2 < 2 ^ 64
        simp only [SERVER_MAX_REQUEST_SIZE] at small
        omega
      · exact fun _ => induction (by omega)
  | case3 newCapacity positive enough =>
      exact meets_pure ⟨rfl, Nat.not_lt.mp enough, bounded⟩

theorem newCapacityLogged_meets {conn : ConnectionState} {requiredSize allocated : Nat}
    (within : requiredSize ≤ SERVER_MAX_REQUEST_SIZE)
    (bounded : conn.capacity ≤ SERVER_MAX_REQUEST_SIZE) :
    bufferAudit.Meets allocated (newCapacityLogged conn requiredSize)
      fun reached grown => reached = allocated ∧ requiredSize ≤ grown ∧
        grown ≤ SERVER_MAX_REQUEST_SIZE := by
  rw [newCapacityLogged]
  split
  · next positive => exact growCapacityLogged_meets positive within bounded
  · exact growCapacityLogged_meets (by decide) within (by decide)

section Steps

variable {realloc : Nat → Bool} {conn : ConnectionState} {allocated requiredSize : Nat}

/-- What `ensure_connection_capacity` leaves, by its return value. -/
structure Ensured (conn : ConnectionState) (allocated requiredSize reached : Nat)
    (outcome : Bool × ConnectionState) : Prop where
  succeeded : outcome.1 = true → outcome.2 = { conn with capacity := reached } ∧
    HoldsBuffer reached outcome.2 ∧ requiredSize ≤ reached ∧ allocated ≤ reached
  failed : outcome.1 = false → outcome.2 = conn ∧ reached = allocated

theorem Ensured.refused : Ensured conn allocated requiredSize allocated (false, conn) where
  succeeded := fun impossible => Bool.noConfusion impossible
  failed := fun _ => ⟨rfl, rfl⟩

theorem Ensured.grown {newCapacity : Nat}
    (holds : HoldsBuffer newCapacity { conn with capacity := newCapacity })
    (enough : requiredSize ≤ newCapacity) (notLess : allocated ≤ newCapacity) :
    Ensured conn allocated requiredSize newCapacity
      (true, { conn with capacity := newCapacity }) where
  succeeded := fun _ => ⟨rfl, holds, enough, notLess⟩
  failed := fun impossible => Bool.noConfusion impossible

theorem ensureConnectionCapacityLogged_meets (isAllocated : conn.capacity = allocated)
    (bounded : conn.capacity ≤ SERVER_MAX_REQUEST_SIZE)
    (fits : conn.received ≤ conn.capacity) (room : conn.received < max conn.capacity requiredSize)
    (scanned : conn.headerBytes ≤ conn.received) (declared : conn.contentLength ≤ longMax) :
    bufferAudit.Meets allocated (ensureConnectionCapacityLogged realloc conn requiredSize)
      (Ensured conn allocated requiredSize) := by
  rw [ensureConnectionCapacityLogged]
  split
  · next enough =>
    apply meets_pure
    subst isAllocated
    have holds : HoldsBuffer conn.capacity conn :=
      ⟨by omega, bounded, rfl, scanned, declared⟩
    exact Ensured.grown holds enough (Nat.le_refl _)
  next short =>
  split
  · exact meets_pure Ensured.refused
  next within =>
  refine meets_bind (newCapacityLogged_meets (Nat.not_lt.mp within) bounded) ?_
  rintro reached newCapacity ⟨rfl, enough, most⟩
  split
  · exact meets_pure Ensured.refused
  have more : reached < newCapacity := by omega
  cases had : realloc newCapacity with
  | false =>
      refine meets_note_bind (fun _ => ⟨more, most⟩) fun _ => ?_
      exact meets_pure Ensured.refused
  | true =>
      have holds : HoldsBuffer newCapacity { conn with capacity := newCapacity } := by
        refine ⟨?_, most, rfl, scanned, declared⟩
        change conn.received < newCapacity
        omega
      refine meets_note_bind (fun _ => ⟨more, most⟩) fun _ => ?_
      refine meets_note_bind (fun _ => holds) fun _ => ?_
      exact meets_pure (Ensured.grown holds enough (Nat.le_of_lt more))

theorem HoldsBuffer.ensured (holds : HoldsBuffer allocated conn) :
    bufferAudit.Meets allocated (ensureConnectionCapacityLogged realloc conn requiredSize)
      (Ensured conn allocated requiredSize) := by
  have room := holds.room
  exact ensureConnectionCapacityLogged_meets holds.isAllocated holds.bounded
    (Nat.le_of_lt room) (by omega) holds.scanned holds.declared

/-- A connection between two turns: once its head is scanned, it has a length. -/
structure Settled (allocated : Nat) (conn : ConnectionState) : Prop
    extends HoldsBuffer allocated conn where
  measured : conn.headerBytes ≠ 0 → 0 ≤ conn.contentLength

theorem makeRoomLogged_meets (settled : Settled allocated conn) :
    bufferAudit.Meets allocated (makeRoomLogged realloc conn) fun reached outcome =>
      outcome.1 = true → Settled reached outcome.2 := by
  have room := settled.room
  have bounded := settled.bounded
  rw [makeRoomLogged]
  refine meets_note_bind (fun _ => Nat.le_of_lt room) fun _ => ?_
  have ensured (requiredSize : Nat) : bufferAudit.Meets allocated
      (ensureConnectionCapacityLogged realloc conn requiredSize) fun reached outcome =>
        outcome.1 = true → Settled reached outcome.2 := by
    refine meets_mono settled.toHoldsBuffer.ensured ?_
    intro reached outcome ensured made
    obtain ⟨same, holds, _⟩ := ensured.succeeded made
    refine ⟨holds, ?_⟩
    rw [same]
    exact settled.measured
  split
  · split
    · refine meets_note_bind ?_ fun _ => ensured _
      intro _
      change conn.capacity * 2 < 2 ^ 64
      simp only [SERVER_MAX_REQUEST_SIZE] at bounded
      omega
    · exact ensured _
  · exact meets_pure fun _ => settled

/-- What `connection_has_complete_request` leaves. A request is complete only where its
body and the byte behind it have room within the limit. -/
structure Scanned (reached : Nat) (outcome : Completeness × ConnectionState) : Prop where
  incomplete : outcome.1 = .incomplete → Settled reached outcome.2
  complete : outcome.1 = .complete → 0 ≤ outcome.2.contentLength ∧
    outcome.2.headerBytes + outcome.2.contentLength + 1 ≤ SERVER_MAX_REQUEST_SIZE

theorem Scanned.refused {completeness : Completeness} {reached : Nat}
    (notIncomplete : completeness ≠ .incomplete) (notComplete : completeness ≠ .complete) :
    Scanned reached (completeness, conn) where
  incomplete := fun incomplete => absurd incomplete notIncomplete
  complete := fun complete => absurd complete notComplete

theorem bodyIsCompleteLogged_meets (holds : HoldsBuffer allocated conn)
    (notNegative : 0 ≤ conn.contentLength) :
    bufferAudit.Meets allocated (bodyIsCompleteLogged realloc conn) Scanned := by
  have room := holds.room
  have bounded := holds.bounded
  have scanned := holds.scanned
  have declared := holds.declared
  simp only [longMax, SERVER_MAX_REQUEST_SIZE] at declared bounded
  have total : conn.headerBytes + conn.contentLength.toNat + 1 < 2 ^ 64 := by omega
  rw [bodyIsCompleteLogged]
  refine meets_note_bind (fun _ => ⟨notNegative, by omega⟩) fun _ => ?_
  refine meets_note_bind (fun _ => Nat.lt_of_succ_lt total) fun _ => ?_
  refine meets_note_bind (fun _ => total) fun _ => ?_
  split
  · exact meets_pure (Scanned.refused (by decide) (by decide))
  next within =>
  refine meets_bind holds.ensured ?_
  rintro reached ⟨succeeds, grown⟩ ensured
  cases succeeds with
  | false => exact meets_pure (Scanned.refused (by decide) (by decide))
  | true =>
      obtain ⟨rfl, holdsGrown, _⟩ := ensured.succeeded rfl
      refine meets_pure ⟨fun _ => ⟨holdsGrown, fun _ => notNegative⟩, fun _ => ⟨notNegative, ?_⟩⟩
      simp only [SERVER_MAX_REQUEST_SIZE] at within ⊢
      omega

theorem headLength_le (text : Bytes) (headerEnd : Nat) : headLength text headerEnd ≤ longMax := by
  rw [headLength]
  split
  · decide
  split
  · exact (strtol_bounds _).2
  · decide

theorem scanHead_holds {scanned : ConnectionState} (holds : HoldsBuffer allocated conn)
    (found : scanHead conn = some scanned) : HoldsBuffer allocated scanned := by
  obtain ⟨fromHeaderEnd, result, rfl⟩ := Option.map_eq_some_iff.mp found
  refine ⟨holds.room, holds.bounded, holds.isAllocated, ?_, headLength_le _ _⟩
  -- the head end itself lies within the text, and the text within what was received
  have leads := (strstr_suffix result).1.length_le
  have within := (strstr_suffix result).2.length_le
  have text : (cString conn.buffer).length ≤ conn.buffer.length :=
    (List.takeWhile_prefix _).length_le
  have four : headEnd.length = 4 := rfl
  change (cString conn.buffer).length - fromHeaderEnd.length + 4 ≤ conn.buffer.length
  omega

theorem connectionHasCompleteRequestLogged_meets (settled : Settled allocated conn) :
    bufferAudit.Meets allocated (connectionHasCompleteRequestLogged realloc conn) Scanned := by
  rw [connectionHasCompleteRequestLogged]
  refine meets_note_bind ?_ fun _ => ?_
  · intro _
    change conn.received < allocated
    rw [← settled.isAllocated]
    exact settled.room
  split
  · cases found : scanHead conn with
    | none => exact meets_pure ⟨fun _ => settled, fun impossible => by cases impossible⟩
    | some scanned =>
        have holds := scanHead_holds settled.toHoldsBuffer found
        refine meets_note_bind (fun _ => holds) fun _ => ?_
        split
        · exact meets_pure (Scanned.refused (by decide) (by decide))
        · next notNegative =>
          exact bodyIsCompleteLogged_meets holds (Int.not_lt.mp notNegative)
  · next isScanned =>
    exact bodyIsCompleteLogged_meets settled.toHoldsBuffer (settled.measured isScanned)

/-- How a connection stands after a turn. -/
def Standing (reached : Nat) : Progress → Prop
  | .waiting conn => Settled reached conn
  | .dispatched conn => 0 ≤ conn.contentLength ∧
      conn.headerBytes + conn.contentLength + 1 ≤ SERVER_MAX_REQUEST_SIZE
  | .refused _ | .closed => True

theorem handleClientEventLogged_meets {turn : Turn} (settled : Settled allocated conn) :
    bufferAudit.Meets allocated (handleClientEventLogged turn conn) Standing := by
  rw [handleClientEventLogged]
  split
  · exact meets_pure trivial
  refine meets_bind (makeRoomLogged_meets settled) ?_
  rintro reached ⟨made, roomy⟩ settled
  cases made with
  | false => exact meets_pure trivial
  | true =>
      replace settled : Settled reached roomy := settled rfl
      have room := settled.room
      refine meets_note_bind (fun _ => room) fun _ => ?_
      refine meets_note_bind (fun _ => ⟨settled.toHoldsBuffer, Nat.le_refl _⟩) fun delivers => ?_
      cases received : turn.recv with
      | failed => exact meets_pure trivial
      | interrupted => exact meets_pure settled
      | wouldBlock => exact meets_pure settled
      | data bytes =>
          cases bytes with
          | nil => exact meets_pure trivial
          | cons first rest =>
              have within : (first :: rest).length ≤ roomy.capacity - roomy.received - 1 := by
                have isBytes : turn.bytes = first :: rest := by
                  simp only [Turn.bytes, received]
                rw [← isBytes]
                exact delivers
              have length : (roomy.buffer ++ first :: rest).length =
                  roomy.received + (first :: rest).length := List.length_append
              have grown : Settled reached
                  { roomy with buffer := roomy.buffer ++ first :: rest } := by
                refine ⟨⟨?_, settled.bounded, settled.isAllocated, ?_, settled.declared⟩,
                  settled.measured⟩
                · change (roomy.buffer ++ first :: rest).length < roomy.capacity
                  omega
                · have scanned := settled.scanned
                  change roomy.headerBytes ≤ (roomy.buffer ++ first :: rest).length
                  omega
              refine meets_note_bind (fun _ => grown.toHoldsBuffer) fun _ => ?_
              refine meets_bind (connectionHasCompleteRequestLogged_meets grown) ?_
              rintro reached ⟨completeness, next⟩ scanned
              cases completeness with
              | invalid => exact meets_pure trivial
              | tooLarge => exact meets_pure trivial
              | incomplete => exact meets_pure (scanned.incomplete rfl)
              | complete =>
                  refine meets_pure ?_
                  split
                  · exact scanned.complete rfl
                  · trivial

theorem ensureConnectionCapacityLogged_promised :
    (ensureConnectionCapacityLogged realloc conn requiredSize).All bufferAudit.promised := by
  rw [ensureConnectionCapacityLogged]
  split
  · exact all_pure _
  split
  · exact all_pure _
  refine all_bind (newCapacityLogged_all fun _ => trivial) ?_
  split
  · exact all_pure _
  refine all_bind (all_note trivial) ?_
  split
  · exact all_bind (all_note trivial) (all_pure _)
  · exact all_pure _

theorem makeRoomLogged_promised :
    (makeRoomLogged realloc conn).All bufferAudit.promised := by
  rw [makeRoomLogged]
  refine all_bind (all_note trivial) ?_
  split
  · split
    · exact all_bind (all_note trivial) ensureConnectionCapacityLogged_promised
    · exact ensureConnectionCapacityLogged_promised
  · exact all_pure _

theorem bodyIsCompleteLogged_promised :
    (bodyIsCompleteLogged realloc conn).All bufferAudit.promised := by
  rw [bodyIsCompleteLogged]
  refine all_bind (all_note trivial) (all_bind (all_note trivial) (all_bind (all_note trivial) ?_))
  split
  · exact all_pure _
  refine all_bind ensureConnectionCapacityLogged_promised ?_
  split <;> exact all_pure _

theorem connectionHasCompleteRequestLogged_promised :
    (connectionHasCompleteRequestLogged realloc conn).All bufferAudit.promised := by
  rw [connectionHasCompleteRequestLogged]
  refine all_bind (all_note trivial) ?_
  split
  · cases scanHead conn with
    | none => exact all_pure _
    | some scanned =>
        refine all_bind (all_note trivial) ?_
        split
        · exact all_pure _
        · exact bodyIsCompleteLogged_promised
  · exact bodyIsCompleteLogged_promised

/-- The contract of the `recv` of a turn, where the turn comes to it. -/
def WithinRoom (conn : ConnectionState) (turn : Turn) : Prop :=
  (makeRoom turn.realloc conn).isSome → turn.bytes.length ≤ roomFor turn.realloc conn

theorem handleClientEventLogged_promised {turn : Turn} (within : WithinRoom conn turn) :
    (handleClientEventLogged turn conn).All bufferAudit.promised := by
  rw [handleClientEventLogged]
  split
  · exact all_pure _
  refine all_bind makeRoomLogged_promised ?_
  rw [makeRoomLogged_value]
  rw [WithinRoom, roomFor] at within
  cases made : makeRoom turn.realloc conn with
  | none => exact all_pure _
  | some roomy =>
      rw [made] at within
      refine all_bind (all_note trivial) (all_bind (all_note (within rfl)) ?_)
      cases turn.recv with
      | failed => exact all_pure _
      | interrupted => exact all_pure _
      | wouldBlock => exact all_pure _
      | data bytes =>
          cases bytes with
          | nil => exact all_pure _
          | cons first rest =>
              refine all_bind (all_note trivial)
                (all_bind connectionHasCompleteRequestLogged_promised ?_)
              split <;> exact all_pure _

theorem handleClientEvent_standing {turn : Turn} (settled : Settled allocated conn)
    (within : WithinRoom conn turn) :
    ∃ reached, Standing reached (handleClientEvent turn conn) := by
  rw [← handleClientEventLogged_value]
  exact ⟨_, (handleClientEventLogged_meets settled
    (handleClientEventLogged_promised within)).2⟩

theorem serveConnectionLogged_meets {turns : List Turn} (settled : Settled allocated conn) :
    bufferAudit.Meets allocated (serveConnectionLogged conn turns) Standing := by
  induction turns generalizing allocated conn with
  | nil => exact meets_pure settled
  | cons turn turns induction =>
      rw [serveConnectionLogged]
      refine meets_bind (handleClientEventLogged_meets settled) ?_
      intro reached progress standing
      cases progress with
      | waiting next => exact induction standing
      | refused reply => exact meets_pure trivial
      | dispatched next => exact meets_pure standing
      | closed => exact meets_pure trivial

end Steps

theorem connectionLogged_meets (realloc : Nat → Bool) (turns : List Turn) :
    bufferAudit.Meets 0 (connectionLogged realloc turns) Standing := by
  rw [connectionLogged]
  refine meets_bind (@ensureConnectionCapacityLogged_meets realloc .unallocated 0
    SERVER_INITIAL_REQUEST_BUFFER_SIZE rfl (Nat.zero_le _) (Nat.le_refl 0) (by decide)
    (Nat.le_refl 0) (by decide)) ?_
  rintro reached ⟨added, conn⟩ ensured
  cases added with
  | false => exact meets_pure trivial
  | true =>
      obtain ⟨rfl, holds, _⟩ := ensured.succeeded rfl
      exact serveConnectionLogged_meets ⟨holds, fun scanned => absurd rfl scanned⟩

/-- On every run of a connection its buffer is used as allocated, what is dispatched fits,
and a failure to grow changes nothing. -/
theorem connectionBuffer_invariant {realloc : Nat → Bool} {turns : List Turn}
    (delivers : (connectionLogged realloc turns).All bufferAudit.promised) :
    bufferAudit.Passes 0 (connectionLogged realloc turns).log ∧
    (∀ conn, (connectionLogged realloc turns).value = .waiting conn →
      HoldsBuffer (bufferAudit.replay 0 (connectionLogged realloc turns).log) conn) ∧
    (∀ conn, (connectionLogged realloc turns).value = .dispatched conn →
      0 ≤ conn.contentLength ∧
        conn.headerBytes + conn.contentLength + 1 ≤ SERVER_MAX_REQUEST_SIZE) ∧
    ∀ (allocator : Nat → Bool) (conn : ConnectionState) (requiredSize : Nat),
      (ensureConnectionCapacityLogged allocator conn requiredSize).value.1 = false →
      (ensureConnectionCapacityLogged allocator conn requiredSize).value.2 = conn ∧
        (ensureConnectionCapacityLogged allocator conn requiredSize).All
          fun event => ∀ changed, event ≠ .assigned changed := by
  obtain ⟨passes, standing⟩ := connectionLogged_meets realloc turns delivers
  refine ⟨passes, ?_, ?_, fun _ _ _ => ensureConnectionCapacityLogged_failed⟩
  · intro conn waits
    rw [waits] at standing
    exact standing.toHoldsBuffer
  · intro conn dispatched
    rw [dispatched] at standing
    exact standing

instance : DecidablePred bufferAudit.promised
  | .received _ length count => inferInstanceAs (Decidable (count ≤ length))
  | .computed _ | .subtracted _ _ | .converted _ | .reallocated _ _ | .assigned _ |
    .stored _ => .isTrue trivial

def growingTurns : List Turn :=
  [.bringing (ascii "POST / HTTP/1.1\r\nContent-Length: 9000\r\n"), .bringing (ascii "\r\nhi")]

theorem connectionBuffer_invariant_growing :
    bufferAudit.Passes 0 (connectionLogged (fun _ => true) growingTurns).log ∧
      ∃ conn, (connectionLogged (fun _ => true) growingTurns).value = .waiting conn ∧
        HoldsBuffer (bufferAudit.replay 0 (connectionLogged (fun _ => true) growingTurns).log)
          conn := by
  have delivers : ∀ event ∈ (connectionLogged (fun _ => true) growingTurns).log,
      bufferAudit.promised event := by decide +kernel
  obtain ⟨passes, holds, _⟩ := connectionBuffer_invariant delivers
  have waits : (connectionLogged (fun _ => true) growingTurns).value = .waiting
      ⟨ascii "POST / HTTP/1.1\r\nContent-Length: 9000\r\n\r\nhi", 9000, 41, 16384⟩ := by
    decide +kernel
  exact ⟨passes, _, waits, holds _ waits⟩

end HttpFs.CProvider
