import HttpFs.Foundation.Audit
import HttpFs.Provider.Connections

namespace HttpFs.CProvider

open Logged

/-- What happens to the buffer of a connection and to the sizes that are computed for it.
Sums and products are those of integers, before they are stored in a `size_t`;
`converted` is a `long` that is made a `size_t`. -/
inductive BufferEvent where
  | computed (exact : Nat)
  | subtracted (minuend subtrahend : Nat)
  | converted (value : Int)
  | reallocated (newCapacity : Nat) (succeeds : Bool)
  | assigned (conn : ConnectionState)
  | received (conn : ConnectionState) (length count : Nat)
  | stored (index : Nat)
  deriving Repr, DecidableEq

def growCapacityLogged (requiredSize newCapacity : Nat) (positive : 0 < newCapacity) :
    Logged BufferEvent Nat :=
  if newCapacity < requiredSize then
    if newCapacity ≥ SERVER_MAX_REQUEST_SIZE / 2 then
      return SERVER_MAX_REQUEST_SIZE
    else do
      note (.computed (newCapacity * 2))
      growCapacityLogged requiredSize (newCapacity * 2) (doubled_positive positive)
  else
    return newCapacity
termination_by requiredSize - newCapacity

def newCapacityLogged (conn : ConnectionState) (requiredSize : Nat) : Logged BufferEvent Nat :=
  if positive : 0 < conn.capacity then
    growCapacityLogged requiredSize conn.capacity positive
  else
    growCapacityLogged requiredSize SERVER_INITIAL_REQUEST_BUFFER_SIZE initialSize_positive

/-- `ensure_connection_capacity` with the connection as it leaves it, also where it fails. -/
def ensureConnectionCapacityLogged (realloc : Nat → Bool) (conn : ConnectionState)
    (requiredSize : Nat) : Logged BufferEvent (Bool × ConnectionState) :=
  if requiredSize ≤ conn.capacity then
    return (true, conn)
  else if requiredSize > SERVER_MAX_REQUEST_SIZE then
    return (false, conn)
  else do
    let newCapacity ← newCapacityLogged conn requiredSize
    if newCapacity < requiredSize ∨ newCapacity > SERVER_MAX_REQUEST_SIZE then
      return (false, conn)
    else do
      note (.reallocated newCapacity (realloc newCapacity))
      if realloc newCapacity then do
        note (.assigned { conn with capacity := newCapacity })
        return (true, { conn with capacity := newCapacity })
      else
        return (false, conn)

def bodyIsCompleteLogged (realloc : Nat → Bool) (conn : ConnectionState) :
    Logged BufferEvent (Completeness × ConnectionState) := do
  let totalRequired := conn.headerBytes + conn.contentLength.toNat
  note (.converted conn.contentLength)
  note (.computed totalRequired)
  note (.computed (totalRequired + 1))
  if totalRequired + 1 > SERVER_MAX_REQUEST_SIZE then
    return (.tooLarge, conn)
  else do
    let ensured ← ensureConnectionCapacityLogged realloc conn (totalRequired + 1)
    if ensured.1 then
      return (if ensured.2.received ≥ totalRequired then .complete else .incomplete, ensured.2)
    else
      return (.tooLarge, ensured.2)

def connectionHasCompleteRequestLogged (realloc : Nat → Bool) (conn : ConnectionState) :
    Logged BufferEvent (Completeness × ConnectionState) := do
  note (.stored conn.received)
  if conn.headerBytes = 0 then
    match scanHead conn with
    | none => return (.incomplete, conn)
    | some conn => do
        note (.assigned conn)
        if conn.contentLength < 0 then
          return (.invalid, conn)
        else
          bodyIsCompleteLogged realloc conn
  else
    bodyIsCompleteLogged realloc conn

def makeRoomLogged (realloc : Nat → Bool) (conn : ConnectionState) :
    Logged BufferEvent (Bool × ConnectionState) := do
  note (.subtracted conn.capacity conn.received)
  if conn.capacity - conn.received ≤ 1 then
    if conn.capacity > 0 then do
      note (.computed (conn.capacity * 2))
      ensureConnectionCapacityLogged realloc conn
        (min (conn.capacity * 2) SERVER_MAX_REQUEST_SIZE)
    else
      ensureConnectionCapacityLogged realloc conn
        (min SERVER_INITIAL_REQUEST_BUFFER_SIZE SERVER_MAX_REQUEST_SIZE)
  else
    return (true, conn)

def handleClientEventLogged (turn : Turn) (conn : ConnectionState) :
    Logged BufferEvent Progress := do
  if turn.hangUp then
    return .closed
  else do
    let made ← makeRoomLogged turn.realloc conn
    if made.1 then do
      let conn := made.2
      note (.subtracted conn.capacity (conn.received + 1))
      note (.received conn (conn.capacity - conn.received - 1) turn.bytes.length)
      match turn.recv with
      | .data [] | .failed => return .closed
      | .interrupted | .wouldBlock => return .waiting conn
      | .data (first :: rest) => do
          let conn := { conn with buffer := conn.buffer ++ first :: rest }
          note (.assigned conn)
          let found ← connectionHasCompleteRequestLogged turn.realloc conn
          match found with
          | (.invalid, _) =>
              return .refused (sendErrorJson Errno.EINVAL (ascii "invalid http request"))
          | (.tooLarge, _) => return .refused requestTooLarge
          | (.incomplete, conn) => return .waiting conn
          | (.complete, conn) => return if turn.fcntl then .dispatched conn else .closed
    else
      return .refused requestTooLarge

def serveConnectionLogged : ConnectionState → List Turn → Logged BufferEvent Progress
  | conn, [] => return .waiting conn
  | conn, turn :: turns => do
      let progress ← handleClientEventLogged turn conn
      match progress with
      | .waiting conn => serveConnectionLogged conn turns
      | ended => return ended

/-- A connection as `calloc` and `add_client_to_worker` leave it, without a buffer. -/
def ConnectionState.unallocated : ConnectionState := ⟨[], -1, 0, 0⟩

/-- A connection from `add_client_to_worker` on; without a buffer it is not added. -/
def connectionLogged (realloc : Nat → Bool) (turns : List Turn) :
    Logged BufferEvent Progress := do
  let added ← ensureConnectionCapacityLogged realloc .unallocated
    SERVER_INITIAL_REQUEST_BUFFER_SIZE
  if added.1 then
    serveConnectionLogged added.2 turns
  else
    return .closed

/-! The recorded connection is that of the plain model. -/

theorem growCapacityLogged_value (requiredSize newCapacity : Nat) (positive : 0 < newCapacity) :
    (growCapacityLogged requiredSize newCapacity positive).value =
      growCapacity requiredSize newCapacity positive := by
  fun_induction growCapacity requiredSize newCapacity positive with
  | case1 newCapacity positive less large =>
      rw [growCapacityLogged, if_pos less, if_pos large]
      rfl
  | case2 newCapacity positive less small induction =>
      rw [growCapacityLogged, if_pos less, if_neg small]
      exact induction
  | case3 newCapacity positive enough =>
      rw [growCapacityLogged, if_neg enough]
      rfl

theorem newCapacityLogged_value (conn : ConnectionState) (requiredSize : Nat) :
    (newCapacityLogged conn requiredSize).value =
      if positive : 0 < conn.capacity then
        growCapacity requiredSize conn.capacity positive
      else
        growCapacity requiredSize SERVER_INITIAL_REQUEST_BUFFER_SIZE (by decide) := by
  rw [newCapacityLogged]
  split <;> exact growCapacityLogged_value _ _ _

theorem ensureConnectionCapacityLogged_value (realloc : Nat → Bool) (conn : ConnectionState)
    (requiredSize : Nat) :
    (ensureConnectionCapacityLogged realloc conn requiredSize).value =
      match ensureConnectionCapacity realloc conn requiredSize with
      | some conn => (true, conn)
      | none => (false, conn) := by
  rw [ensureConnectionCapacityLogged, ensureConnectionCapacity]
  split
  · rfl
  split
  · rfl
  rw [value_bind, newCapacityLogged_value]
  generalize (if positive : 0 < conn.capacity then
    growCapacity requiredSize conn.capacity positive
    else growCapacity requiredSize SERVER_INITIAL_REQUEST_BUFFER_SIZE (by decide)) = newCapacity
  by_cases unfit : newCapacity < requiredSize ∨ newCapacity > SERVER_MAX_REQUEST_SIZE
  · simp only [if_pos unfit, value_pure]
  · simp only [if_neg unfit, value_bind]
    split <;> rfl

theorem makeRoomLogged_value (realloc : Nat → Bool) (conn : ConnectionState) :
    (makeRoomLogged realloc conn).value =
      match makeRoom realloc conn with
      | some conn => (true, conn)
      | none => (false, conn) := by
  rw [makeRoomLogged, makeRoom, value_bind]
  split
  · split
    · rw [value_bind]
      exact ensureConnectionCapacityLogged_value _ _ _
    · exact ensureConnectionCapacityLogged_value _ _ _
  · rfl

theorem bodyIsCompleteLogged_value (realloc : Nat → Bool) (conn : ConnectionState) :
    (bodyIsCompleteLogged realloc conn).value = bodyIsComplete realloc conn := by
  simp only [bodyIsCompleteLogged, bodyIsComplete, value_bind]
  split
  · rfl
  rw [value_bind, ensureConnectionCapacityLogged_value]
  cases ensureConnectionCapacity realloc conn
      (conn.headerBytes + conn.contentLength.toNat + 1) <;> rfl

theorem connectionHasCompleteRequestLogged_value (realloc : Nat → Bool)
    (conn : ConnectionState) :
    (connectionHasCompleteRequestLogged realloc conn).value =
      connectionHasCompleteRequest realloc conn := by
  rw [connectionHasCompleteRequestLogged, connectionHasCompleteRequest, value_bind]
  split
  · cases scanHead conn with
    | none => rfl
    | some scanned =>
        simp only [value_bind]
        split
        · rfl
        · exact bodyIsCompleteLogged_value realloc scanned
  · exact bodyIsCompleteLogged_value realloc conn

theorem handleClientEventLogged_value (turn : Turn) (conn : ConnectionState) :
    (handleClientEventLogged turn conn).value = handleClientEvent turn conn := by
  rw [handleClientEventLogged, handleClientEvent]
  split
  · rfl
  rw [value_bind, makeRoomLogged_value]
  cases makeRoom turn.realloc conn with
  | none => rfl
  | some roomy =>
      simp only [if_true, value_bind]
      cases turn.recv with
      | failed => rfl
      | interrupted => rfl
      | wouldBlock => rfl
      | data bytes =>
          cases bytes with
          | nil => rfl
          | cons first rest =>
              simp only [value_bind, connectionHasCompleteRequestLogged_value]
              cases connectionHasCompleteRequest turn.realloc
                  { roomy with buffer := roomy.buffer ++ first :: rest } with
              | mk completeness next => cases completeness <;> rfl

theorem serveConnectionLogged_value (conn : ConnectionState) (turns : List Turn) :
    (serveConnectionLogged conn turns).value = serveConnection conn turns := by
  induction turns generalizing conn with
  | nil => rfl
  | cons turn turns induction =>
      rw [serveConnectionLogged, serveConnection, value_bind, handleClientEventLogged_value]
      cases handleClientEvent turn conn with
      | waiting next => exact induction next
      | refused reply => rfl
      | dispatched next => rfl
      | closed => rfl

theorem connectionLogged_value (realloc : Nat → Bool) (turns : List Turn) :
    (connectionLogged realloc turns).value =
      if realloc SERVER_INITIAL_REQUEST_BUFFER_SIZE then serveConnection .start turns
      else .closed := by
  rw [connectionLogged, value_bind, ensureConnectionCapacityLogged_value,
    ConnectionState.unallocated, ensureConnectionCapacity_initial]
  cases realloc SERVER_INITIAL_REQUEST_BUFFER_SIZE with
  | false => rfl
  | true => exact serveConnectionLogged_value .start turns

theorem growCapacityLogged_all {property : BufferEvent → Prop}
    (computed : ∀ exact, property (.computed exact)) {requiredSize newCapacity : Nat}
    (positive : 0 < newCapacity) :
    (growCapacityLogged requiredSize newCapacity positive).All property := by
  fun_induction growCapacityLogged requiredSize newCapacity positive with
  | case1 newCapacity positive less large => exact all_pure _
  | case2 newCapacity positive less small induction =>
      exact all_bind (all_note (computed _)) induction
  | case3 newCapacity positive enough => exact all_pure _

theorem newCapacityLogged_all {property : BufferEvent → Prop}
    (computed : ∀ exact, property (.computed exact)) {conn : ConnectionState}
    {requiredSize : Nat} : (newCapacityLogged conn requiredSize).All property := by
  rw [newCapacityLogged]
  split <;> exact growCapacityLogged_all computed _

/-- Where `ensure_connection_capacity` fails, it has not assigned to the connection. -/
theorem ensureConnectionCapacityLogged_failed {realloc : Nat → Bool} {conn : ConnectionState}
    {requiredSize : Nat}
    (failed : (ensureConnectionCapacityLogged realloc conn requiredSize).value.1 = false) :
    (ensureConnectionCapacityLogged realloc conn requiredSize).value.2 = conn ∧
      (ensureConnectionCapacityLogged realloc conn requiredSize).All
        fun event => ∀ changed, event ≠ .assigned changed := by
  rw [ensureConnectionCapacityLogged] at failed ⊢
  split at failed
  · contradiction
  next short =>
  rw [if_neg short]
  split at failed
  · next large =>
    rw [if_pos large]
    exact ⟨rfl, all_pure _⟩
  next within =>
  rw [if_neg within]
  rw [value_bind] at failed ⊢
  have computed := @newCapacityLogged_all (fun event => ∀ changed, event ≠ .assigned changed)
    (fun _ _ impossible => by cases impossible) conn requiredSize
  split at failed
  · next unfit =>
    rw [if_pos unfit]
    refine ⟨rfl, all_bind computed ?_⟩
    rw [if_pos unfit]
    exact all_pure _
  next fit =>
  rw [if_neg fit]
  rw [value_bind] at failed ⊢
  split at failed
  · contradiction
  · next refused =>
    rw [if_neg refused]
    refine ⟨rfl, all_bind computed ?_⟩
    rw [if_neg fit]
    refine all_bind (all_note fun _ impossible => by cases impossible) ?_
    rw [if_neg refused]
    exact all_pure _

end HttpFs.CProvider
