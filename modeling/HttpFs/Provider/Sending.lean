import HttpFs.Foundation.Routine
import HttpFs.Provider.Handlers

namespace HttpFs.CProvider

open Routine

/-- The machine, and the replies that have been sent to a client. -/
structure Serving (κ : Type) where
  host : Host κ
  replies : List HttpReply

/-- A handler, statement by statement; its early exit is the `return` of the handler. -/
abbrev ServeM (κ : Type) := Routine (Serving κ)

variable {κ α : Type}

namespace ServeM

def send (reply : HttpReply) : ServeM κ Unit :=
  modify fun serving => { serving with replies := serving.replies ++ [reply] }

def sendLast (reply : HttpReply) : ServeM κ α := do
  send reply
  fail

def require (condition : Bool) (reply : HttpReply) : ServeM κ Unit :=
  if condition then pure () else sendLast reply

def obtainOr (reply : HttpReply) : Option α → ServeM κ α
  | some value => pure value
  | none => sendLast reply

def passOn : Except HttpfsError α → ServeM κ α
  | .ok value => pure value
  | .error error => sendLast (sendErrorJson error.errnoValue error.message)

def ask (answer : Host κ → α × Host κ) : ServeM κ α :=
  call fun serving =>
    let (value, host) := answer serving.host
    (value, { serving with host })

def system (kernel : Kernel κ) (answer : Host κ → Except Int α × Host κ) : ServeM κ α := do
  let result ← ask answer
  match result with
  | .ok value => pure value
  | .error errnoValue => sendLast (sendErrno kernel errnoValue)

def look (kernel : Kernel κ) (answer : Host κ → Except Int α) : ServeM κ α :=
  system kernel fun host => (answer host, host)

end ServeM

open ServeM

namespace Sending

def handleMeta (kernel : Kernel κ) (request : RequestContext) : ServeM κ Unit := do
  let (path, localPath) ←
    obtainOr (sendErrorJson Errno.EINVAL (ascii "invalid path")) (queryPath request)
  let status ← look kernel fun host => kernel.lstat host.names host.contents localPath
  let allocated ← ask Host.malloc
  require allocated (sendErrorJson Errno.ENOMEM (ascii "memory allocation failed"))
  send (sendOk (statToJson path status (path.length + 256)))

def listEntries (kernel : Kernel κ) (localPath : Bytes) :
    Bool → List Bytes → Bytes → Nat → ServeM κ Bytes
  | _, [], payload, pos =>
      pure (payload ++ snprintf (SERVER_LIST_PAYLOAD_SIZE - pos) (ascii "]\x7d"))
  | first, name :: names, payload, pos => do
      let entryPath := localPath ++ ascii "/" ++ name
      require (entryPath.length < 4096)
        (sendErrorJson Errno.ENAMETOOLONG (ascii "entry path too long"))
      let type ← ask fun host => (entryType kernel host entryPath, host)
      let escaped ← obtainOr (sendErrorJson Errno.EIO (ascii "entry name escape failed"))
        (jsonEscapeString name 512)
      let entry := entryText first escaped type
      require (pos + entry.length + 64 < SERVER_LIST_PAYLOAD_SIZE)
        (sendErrorJson Errno.ENOBUFS (ascii "too many entries"))
      listEntries kernel localPath false names
        (payload ++ snprintf (SERVER_LIST_PAYLOAD_SIZE - pos) entry) (pos + entry.length)

def handleList (kernel : Kernel κ) (request : RequestContext) : ServeM κ Unit := do
  let (_, localPath) ←
    obtainOr (sendErrorJson Errno.EINVAL (ascii "invalid path")) (queryPath request)
  let names ← look kernel fun host => kernel.opendir host.names localPath
  let payload ← listEntries kernel localPath true names listHead listHead.length
  send (sendOk payload)

def handleRead (kernel : Kernel κ) (request : RequestContext) : ServeM κ Unit := do
  let range ← passOn (readRange request)
  let file ← look kernel fun host => kernel.openFile host.names range.localPath .readOnly
  let allocated ← ask Host.malloc
  require allocated (sendErrorJson Errno.ENOMEM (ascii "memory allocation failed"))
  let buffer ← system kernel fun host => host.pread file range.size.toNat range.offset.toNat
  let contentMd5 ← obtainOr
    (sendErrorJson Errno.EIO (ascii "failed to compute read content md5"))
    (httpfsSparseMd5Hex buffer range.offset)
  send (sendBinary buffer contentMd5)

def handleWrite (kernel : Kernel κ) (request : RequestContext) : ServeM κ Unit := do
  let target ← passOn (writeTarget request)
  let file ← look kernel fun host => kernel.openFile host.names target.localPath .readWrite
  let written ← system kernel fun host =>
    host.pwriteFull file request.body target.offset.toNat
  require (written == request.body.length) (sendErrorJson Errno.EIO (ascii "short write"))
  let allocated ← ask Host.malloc
  require allocated (sendErrorJson Errno.ENOMEM (ascii "memory allocation failed"))
  let verifyBuffer ← system kernel fun host =>
    host.preadFull file request.body.length target.offset.toNat
  let failed := sendErrorJson Errno.EIO (ascii "stored content md5 verification failed")
  require (verifyBuffer.length == request.body.length) failed
  let actualMd5 ← obtainOr failed (httpfsSparseMd5Hex verifyBuffer target.offset)
  require (actualMd5 == target.expectedMd5) failed
  send (sendOk (writtenPayload request.body.length actualMd5))

def handleChange (kernel : Kernel κ) (decoded : Option Change) (invalid : Bytes) :
    ServeM κ Unit := do
  let change ← obtainOr (sendErrorJson Errno.EINVAL invalid) decoded
  let _ ← system kernel fun host =>
    match kernel.change change host.names host.contents with
    | .error errnoValue => (.error errnoValue, host)
    | .ok (names, contents) => (.ok (), { host with names, contents })
  send (sendOk (ascii "\x7b\"status\":\"ok\"\x7d"))

/-- What the handler of an endpoint that changes a path decodes from its request, and
the message with which it refuses what it cannot decode. -/
structure ChangeRequest where
  decode : RequestContext → Option Change
  invalid : Bytes

def createFile : ChangeRequest where
  decode := fun request => do
    let (path, mode) ← decodePathLong (ascii "mode") request.body
    let localPath ← resolvePath request.rootDir path 4096
    return .createFile localPath (.ofInt mode)
  invalid := ascii "invalid create-file body"

def createDir : ChangeRequest where
  decode := fun request => do
    let (path, mode) ← decodePathLong (ascii "mode") request.body
    let localPath ← resolvePath request.rootDir path 4096
    return .mkdir localPath (.ofInt mode)
  invalid := ascii "invalid create-dir body"

def removeFile : ChangeRequest where
  decode := fun request => do
    let path ← decodePath request.body
    let localPath ← resolvePath request.rootDir path 4096
    return .unlink localPath
  invalid := ascii "invalid remove-file body"

def removeDir : ChangeRequest where
  decode := fun request => do
    let path ← decodePath request.body
    let localPath ← resolvePath request.rootDir path 4096
    return .rmdir localPath
  invalid := ascii "invalid remove-dir body"

def rename : ChangeRequest where
  decode := fun request => do
    let (oldPath, newPath) ← decodeRename request.body
    let localOld ← resolvePath request.rootDir oldPath 4096
    let localNew ← resolvePath request.rootDir newPath 4096
    return .rename localOld localNew
  invalid := ascii "invalid rename body"

def truncate : ChangeRequest where
  decode := fun request => do
    let (path, size) ← decodePathLong (ascii "size") request.body
    let localPath ← resolvePath request.rootDir path 4096
    return .truncate localPath (.ofInt size)
  invalid := ascii "invalid truncate body"

def utimens : ChangeRequest where
  decode := fun request => do
    let (path, atime, mtime) ← decodeUtimens request.body
    let localPath ← resolvePath request.rootDir path 4096
    return .utimens localPath atime mtime
  invalid := ascii "invalid utimens body"

/-- One `if` of `dispatch_request`: the handler runs to its end, then the dispatcher
returns. -/
def endpoint (request : RequestContext) (method path : String) (handler : ServeM κ Unit) :
    ServeM κ Unit :=
  if request.method == ascii method && request.path == ascii path then do
    modify fun serving => (handler serving).2
    fail
  else
    pure ()

def dispatchRequest (kernel : Kernel κ) (request : RequestContext) : ServeM κ Unit := do
  let change (asked : ChangeRequest) : ServeM κ Unit :=
    handleChange kernel (asked.decode request) asked.invalid
  endpoint request "GET" "/v1/meta" (handleMeta kernel request)
  endpoint request "GET" "/v1/list" (handleList kernel request)
  endpoint request "GET" "/v1/read" (handleRead kernel request)
  endpoint request "POST" "/v1/write" (handleWrite kernel request)
  endpoint request "POST" "/v1/create-file" (change createFile)
  endpoint request "POST" "/v1/create-dir" (change createDir)
  endpoint request "POST" "/v1/remove-file" (change removeFile)
  endpoint request "POST" "/v1/remove-dir" (change removeDir)
  endpoint request "POST" "/v1/rename" (change rename)
  endpoint request "POST" "/v1/truncate" (change truncate)
  endpoint request "POST" "/v1/utimens" (change utimens)
  send (sendErrorJson Errno.ENOSYS (ascii "unknown endpoint"))

/-- A routine sends one reply, and leaves the machine behind. -/
def Answers (routine : ServeM κ Unit) (host : Host κ) (answer : HttpReply × Host κ) : Prop :=
  ∀ replies, (routine ⟨host, replies⟩).2 = ⟨answer.2, replies ++ [answer.1]⟩

section Rules

variable {routine : ServeM κ Unit} {next : α → ServeM κ Unit} {host : Host κ}
  {answer : HttpReply × Host κ} {reply : HttpReply} {kernel : Kernel κ}

theorem answers_send : Answers (send reply) host (reply, host) := fun _ => rfl

theorem answers_sendLast : Answers (sendLast reply >>= next) host (reply, host) := fun _ => rfl

theorem answers_require {condition : Bool} {rest : Unit → ServeM κ Unit}
    (continues : condition = true → Answers (rest ()) host answer)
    (refuses : condition = false → (reply, host) = answer) :
    Answers (require condition reply >>= rest) host answer := by
  cases condition with
  | true => exact continues rfl
  | false =>
      rw [← refuses rfl]
      exact answers_sendLast

theorem answers_obtainOr {found : Option α}
    (continues : ∀ value, found = some value → Answers (next value) host answer)
    (refuses : found = none → (reply, host) = answer) :
    Answers (obtainOr reply found >>= next) host answer := by
  cases found with
  | some value => exact continues value rfl
  | none =>
      rw [← refuses rfl]
      exact answers_sendLast

theorem answers_passOn {found : Except HttpfsError α}
    (continues : ∀ value, found = .ok value → Answers (next value) host answer)
    (refuses : ∀ error, found = .error error →
      (sendErrorJson error.errnoValue error.message, host) = answer) :
    Answers (passOn found >>= next) host answer := by
  cases found with
  | ok value => exact continues value rfl
  | error error =>
      rw [← refuses error rfl]
      exact answers_sendLast

theorem answers_ask {called : Host κ → α × Host κ}
    (continues : Answers (next (called host).1) (called host).2 answer) :
    Answers (ask called >>= next) host answer :=
  fun replies => continues replies

theorem answers_system {called : Host κ → Except Int α × Host κ}
    (continues : ∀ value, (called host).1 = .ok value →
      Answers (next value) (called host).2 answer)
    (refuses : ∀ errnoValue, (called host).1 = .error errnoValue →
      (sendErrno kernel errnoValue, (called host).2) = answer) :
    Answers (system kernel called >>= next) host answer := by
  intro replies
  have run : (ask called : ServeM κ (Except Int α)) ⟨host, replies⟩ =
      (some (called host).1, ⟨(called host).2, replies⟩) := rfl
  cases result : (called host).1 with
  | ok value =>
      rw [result] at run
      have passed : (system kernel called : ServeM κ α) ⟨host, replies⟩ =
          (some value, ⟨(called host).2, replies⟩) := by
        rw [system, run_bind_some run]
        rfl
      rw [run_bind_some passed]
      exact continues value result replies
  | error errnoValue =>
      rw [result] at run
      rw [← refuses errnoValue result]
      have failed : (system kernel called : ServeM κ α) ⟨host, replies⟩ =
          (none, ⟨(called host).2, replies ++ [sendErrno kernel errnoValue]⟩) := by
        rw [system, run_bind_some run]
        rfl
      rw [run_bind_none failed]

theorem answers_look {looked : Host κ → Except Int α}
    (continues : ∀ value, looked host = .ok value → Answers (next value) host answer)
    (refuses : ∀ errnoValue, looked host = .error errnoValue →
      (sendErrno kernel errnoValue, host) = answer) :
    Answers (look kernel looked >>= next) host answer :=
  answers_system continues refuses

end Rules

section Handlers

variable {kernel : Kernel κ} {request : RequestContext} {host : Host κ}

theorem answers_handleMeta :
    Answers (handleMeta kernel request) host (CProvider.handleMeta kernel request host) := by
  unfold handleMeta CProvider.handleMeta
  apply answers_obtainOr
  · rintro ⟨path, localPath⟩ resolved
    simp only [resolved]
    apply answers_look
    · intro status found
      simp only [found]
      apply answers_ask
      apply answers_require
      · intro allocated
        rw [if_pos allocated]
        exact answers_send
      · intro refused
        rw [if_neg (by simp [refused])]
    · intro errnoValue failed
      simp only [failed]
  · intro unresolved
    rw [unresolved]

theorem answers_handleRead :
    Answers (handleRead kernel request) host (CProvider.handleRead kernel request host) := by
  unfold handleRead CProvider.handleRead
  apply answers_passOn
  · intro range checked
    simp only [checked]
    apply answers_look
    · intro file opened
      simp only [opened]
      apply answers_ask
      apply answers_require
      · intro allocated
        rw [if_pos allocated]
        cases read : host.malloc.2.pread file range.size.toNat range.offset.toNat with
        | mk result reached =>
        apply answers_system <;> rw [read]
        · rintro buffer rfl
          apply answers_obtainOr
          · intro contentMd5 digest
            simp only [digest]
            exact answers_send
          · intro failed
            simp only [failed]
        · rintro errnoValue rfl
          rfl
      · intro refused
        rw [if_neg (by simp [refused])]
    · intro errnoValue failed
      simp only [failed]
  · intro error refused
    simp only [refused]

theorem answers_listEntries {localPath : Bytes} {first : Bool} {names : List Bytes}
    {payload : Bytes} {pos : Nat} {next : Bytes → ServeM κ Unit}
    {answer : HttpReply × Host κ}
    (continues : ∀ whole, listPayload kernel host localPath first names payload pos = .ok whole →
      Answers (next whole) host answer)
    (refuses : ∀ error,
      listPayload kernel host localPath first names payload pos = .error error →
        (sendErrorJson error.errnoValue error.message, host) = answer) :
    Answers (listEntries kernel localPath first names payload pos >>= next) host answer := by
  induction names generalizing first payload pos with
  | nil => exact continues _ rfl
  | cons name names induction =>
      simp only [listEntries, bind_assoc]
      simp only [listPayload] at continues refuses
      apply answers_require
      · intro fits
        rw [if_neg (by simpa using fits)] at continues refuses
        apply answers_ask
        simp only
        apply answers_obtainOr
        · intro escaped isEscaped
          simp only [isEscaped] at continues refuses
          apply answers_require
          · intro room
            rw [if_neg (Nat.not_le.mpr (of_decide_eq_true room))] at continues refuses
            exact induction continues refuses
          · intro full
            rw [if_pos (Nat.not_lt.mp (of_decide_eq_false full))] at refuses
            have answered := refuses _ rfl
            exact answered
        · intro tooLong
          simp only [tooLong] at refuses
          have answered := refuses _ rfl
          exact answered
      · intro tooLong
        rw [if_pos (by simpa using tooLong)] at refuses
        have answered := refuses _ rfl
        exact answered

theorem answers_handleList :
    Answers (handleList kernel request) host (CProvider.handleList kernel request host) := by
  unfold handleList CProvider.handleList
  apply answers_obtainOr
  · rintro ⟨path, localPath⟩ resolved
    simp only [resolved]
    apply answers_look
    · intro names opened
      simp only [opened]
      apply answers_listEntries
      · intro payload whole
        simp only [whole]
        exact answers_send
      · intro error refused
        simp only [refused]
    · intro errnoValue failed
      simp only [failed]
  · intro unresolved
    rw [unresolved]

theorem answers_handleWrite :
    Answers (handleWrite kernel request) host (CProvider.handleWrite kernel request host) := by
  unfold handleWrite CProvider.handleWrite
  apply answers_passOn
  · intro target checked
    simp only [checked]
    apply answers_look
    · intro file opened
      simp only [opened]
      cases stored : host.pwriteFull file request.body target.offset.toNat with
      | mk result reached =>
      apply answers_system <;> rw [stored]
      · rintro written rfl
        simp only
        apply answers_require
        · intro whole
          rw [if_neg (by simpa using whole)]
          simp only [verifyStored]
          apply answers_ask
          apply answers_require
          · intro allocated
            rw [if_pos allocated]
            cases read : reached.malloc.2.preadFull file request.body.length
              target.offset.toNat with
            | mk result after =>
            apply answers_system <;> rw [read]
            · rintro verifyBuffer rfl
              simp only
              apply answers_require
              · intro same
                rw [if_neg (by simpa using same)]
                apply answers_obtainOr
                · intro actualMd5 digest
                  simp only [digest]
                  apply answers_require
                  · intro equal
                    rw [if_neg (by simpa using equal)]
                    exact answers_send
                  · intro differs
                    rw [if_pos (by simpa using differs)]
                · intro failed
                  simp only [failed]
              · intro differs
                rw [if_pos (by simpa using differs)]
            · rintro errnoValue rfl
              rfl
          · intro refused
            rw [if_neg (by simp [refused])]
        · intro short
          rw [if_pos (by simpa using short)]
      · rintro errnoValue rfl
        rfl
    · intro errnoValue failed
      simp only [failed]
  · intro error refused
    simp only [refused]

theorem answers_handleChange (decoded : Option Change) (invalid : Bytes) :
    Answers (handleChange kernel decoded invalid) host
      (CProvider.handleChange kernel decoded invalid host) := by
  unfold handleChange CProvider.handleChange
  apply answers_obtainOr
  · rintro change rfl
    cases changed : kernel.change change host.names host.contents with
    | error errnoValue =>
        apply answers_system <;> simp only [changed]
        · simp
        · rintro _ ⟨rfl⟩
          rfl
    | ok files =>
        apply answers_system <;> simp only [changed]
        · intro _ _
          exact answers_send
        · simp
  · rintro rfl
    rfl

theorem answers_endpoint {method path : String} {handler rest : ServeM κ Unit}
    {found otherwise : HttpReply × Host κ} (answers : Answers handler host found)
    (continues : Answers rest host otherwise) :
    Answers (endpoint request method path handler >>= fun _ => rest) host
      (if request.method == ascii method && request.path == ascii path then found
        else otherwise) := by
  cases asked : request.method == ascii method && request.path == ascii path with
  | true =>
      simp only [endpoint, asked, if_true]
      exact answers
  | false =>
      simp only [endpoint, asked]
      exact continues

/-- Whatever the request, one reply is sent, and it is the one the handlers are said to
give. -/
theorem answers_dispatchRequest :
    Answers (dispatchRequest kernel request) host
      (CProvider.dispatchRequest kernel request host) := by
  unfold dispatchRequest CProvider.dispatchRequest
  apply answers_endpoint answers_handleMeta
  apply answers_endpoint answers_handleList
  apply answers_endpoint answers_handleRead
  apply answers_endpoint answers_handleWrite
  apply answers_endpoint (answers_handleChange _ _)
  apply answers_endpoint (answers_handleChange _ _)
  apply answers_endpoint (answers_handleChange _ _)
  apply answers_endpoint (answers_handleChange _ _)
  apply answers_endpoint (answers_handleChange _ _)
  apply answers_endpoint (answers_handleChange _ _)
  apply answers_endpoint (answers_handleChange _ _)
  exact answers_send

end Handlers

end Sending

end HttpFs.CProvider
