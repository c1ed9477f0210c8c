import HttpFs.Provider.Requests

namespace HttpFs.CProvider

def SERVER_INITIAL_REQUEST_BUFFER_SIZE : Nat := 8192

def SERVER_MAX_REQUEST_SIZE : Nat := 8 * 1024 * 1024

/-- A connection. Its `buffer` are the bytes received, for which `capacity` bytes of
memory are there. -/
structure ConnectionState where
  buffer : Bytes
  contentLength : Int
  headerBytes : Nat
  capacity : Nat
  deriving Repr, DecidableEq

namespace ConnectionState

def received (conn : ConnectionState) : Nat := conn.buffer.length

def start : ConnectionState := ⟨[], -1, 0, SERVER_INITIAL_REQUEST_BUFFER_SIZE⟩

end ConnectionState

theorem initialSize_positive : 0 < SERVER_INITIAL_REQUEST_BUFFER_SIZE := by decide

theorem doubled_positive {capacity : Nat} (positive : 0 < capacity) : 0 < capacity * 2 := by
  omega

/-- The loop of `ensure_connection_capacity`. -/
def growCapacity (requiredSize newCapacity : Nat) (positive : 0 < newCapacity) : Nat :=
  if newCapacity < requiredSize then
    if newCapacity ≥ SERVER_MAX_REQUEST_SIZE / 2 then
      SERVER_MAX_REQUEST_SIZE
    else
      growCapacity requiredSize (newCapacity * 2) (doubled_positive positive)
  else
    newCapacity
termination_by requiredSize - newCapacity

/-- `realloc` tells which sizes can be had; `none` is the return value -1. -/
def ensureConnectionCapacity (realloc : Nat → Bool) (conn : ConnectionState)
    (requiredSize : Nat) : Option ConnectionState :=
  if requiredSize ≤ conn.capacity then
    some conn
  else if requiredSize > SERVER_MAX_REQUEST_SIZE then
    none
  else
    let newCapacity :=
      if positive : 0 < conn.capacity then
        growCapacity requiredSize conn.capacity positive
      else
        growCapacity requiredSize SERVER_INITIAL_REQUEST_BUFFER_SIZE initialSize_positive
    if newCapacity < requiredSize ∨ newCapacity > SERVER_MAX_REQUEST_SIZE then
      none
    else if realloc newCapacity then
      some { conn with capacity := newCapacity }
    else
      none

theorem ensureConnectionCapacity_initial (realloc : Nat → Bool) :
    ensureConnectionCapacity realloc ⟨[], -1, 0, 0⟩ SERVER_INITIAL_REQUEST_BUFFER_SIZE =
      if realloc SERVER_INITIAL_REQUEST_BUFFER_SIZE then some ConnectionState.start else none := by
  have grown : growCapacity SERVER_INITIAL_REQUEST_BUFFER_SIZE
      SERVER_INITIAL_REQUEST_BUFFER_SIZE initialSize_positive =
        SERVER_INITIAL_REQUEST_BUFFER_SIZE := by
    rw [growCapacity, if_neg (Nat.lt_irrefl _)]
  rw [ensureConnectionCapacity, if_neg (by decide), if_neg (by decide), dif_neg (by decide)]
  simp only [grown]
  rw [if_neg (by decide)]
  rfl

/-- The length of the body, from the text of a buffer whose head ends at `headerEnd`. -/
def headLength (text : Bytes) (headerEnd : Nat) : Int :=
  match strstr contentLengthName text with
  | none => 0
  | some found =>
      if text.length - found.length < headerEnd then
        (strtol (found.drop contentLengthName.length)).value
      else
        0

def scanHead (conn : ConnectionState) : Option ConnectionState :=
  let text := cString conn.buffer
  (strstr headEnd text).map fun fromHeaderEnd =>
    let headerEnd := text.length - fromHeaderEnd.length
    { conn with
      headerBytes := headerEnd + 4
      contentLength := headLength text headerEnd }

/-- The return values -1, -2, 0 and 1 of `connection_has_complete_request`. -/
inductive Completeness where
  | invalid
  | tooLarge
  | incomplete
  | complete
  deriving Repr, DecidableEq

def bodyIsComplete (realloc : Nat → Bool) (conn : ConnectionState) :
    Completeness × ConnectionState :=
  let totalRequired := conn.headerBytes + conn.contentLength.toNat
  if totalRequired + 1 > SERVER_MAX_REQUEST_SIZE then
    (.tooLarge, conn)
  else
    match ensureConnectionCapacity realloc conn (totalRequired + 1) with
    | none => (.tooLarge, conn)
    | some conn =>
        (if conn.received ≥ totalRequired then .complete else .incomplete, conn)

def connectionHasCompleteRequest (realloc : Nat → Bool) (conn : ConnectionState) :
    Completeness × ConnectionState :=
  if conn.headerBytes = 0 then
    match scanHead conn with
    | none => (.incomplete, conn)
    | some conn =>
        if conn.contentLength < 0 then
          (.invalid, conn)
        else
          bodyIsComplete realloc conn
  else
    bodyIsComplete realloc conn

inductive RecvResult where
  | data (bytes : Bytes)
  | interrupted
  | wouldBlock
  | failed
  deriving Repr, DecidableEq

/-- One turn of the loop of `handle_client_event`, by what the system answers in it. -/
structure Turn where
  hangUp : Bool
  realloc : Nat → Bool
  recv : RecvResult
  fcntl : Bool

/-- How a connection stands after a turn: a turn that waits is followed by another, in
the same event or in a later one; all others close the connection. -/
inductive Progress where
  | waiting (conn : ConnectionState)
  | refused (reply : HttpReply)
  | dispatched (conn : ConnectionState)
  | closed
  deriving Repr, DecidableEq

/-- The part of a turn that makes room for what `recv` will bring. -/
def makeRoom (realloc : Nat → Bool) (conn : ConnectionState) : Option ConnectionState :=
  if conn.capacity - conn.received ≤ 1 then
    let nextCapacity :=
      if conn.capacity > 0 then conn.capacity * 2 else SERVER_INITIAL_REQUEST_BUFFER_SIZE
    ensureConnectionCapacity realloc conn (min nextCapacity SERVER_MAX_REQUEST_SIZE)
  else
    some conn

def requestTooLarge : HttpReply := sendErrorJson Errno.ENOBUFS (ascii "request too large")

def handleClientEvent (turn : Turn) (conn : ConnectionState) : Progress :=
  if turn.hangUp then
    .closed
  else
    match makeRoom turn.realloc conn with
    | none => .refused requestTooLarge
    | some conn =>
        match turn.recv with
        | .data [] | .failed => .closed
        | .interrupted | .wouldBlock => .waiting conn
        | .data (first :: rest) =>
            let conn := { conn with buffer := conn.buffer ++ first :: rest }
            match connectionHasCompleteRequest turn.realloc conn with
            | (.invalid, _) =>
                .refused (sendErrorJson Errno.EINVAL (ascii "invalid http request"))
            | (.tooLarge, _) => .refused requestTooLarge
            | (.incomplete, conn) => .waiting conn
            | (.complete, conn) => if turn.fcntl then .dispatched conn else .closed

/-- The turns of a connection, up to the one that closes it. -/
def serveConnection : ConnectionState → List Turn → Progress
  | conn, [] => .waiting conn
  | conn, turn :: turns =>
      match handleClientEvent turn conn with
      | .waiting conn => serveConnection conn turns
      | ended => ended

def roomFor (realloc : Nat → Bool) (conn : ConnectionState) : Nat :=
  match makeRoom realloc conn with
  | none => 0
  | some conn => conn.capacity - conn.received - 1

def Turn.bytes (turn : Turn) : Bytes :=
  match turn.recv with
  | .data bytes => bytes
  | _ => []

def arrived (turns : List Turn) : Bytes := (turns.map Turn.bytes).flatten

end HttpFs.CProvider
