import HttpFs.Provider.GuardedWrite
import HttpFs.Provider.Sending

namespace HttpFs.CProvider

open Region

variable {κ : Type}

abbrev Files (κ : Type) := κ × Contents

def Host.files (host : Host κ) : Files κ := (host.names, host.contents)

inductive Operation where
  | look
  | write (localPath : Bytes) (offset : Nat) (data : Bytes)
  | change (change : Change)

/-- The documented effect of an operation that succeeds. -/
inductive Effect (kernel : Kernel κ) : Operation → Files κ → Files κ → Prop where
  | look (files : Files κ) : Effect kernel .look files files
  | write {names : κ} {before after : Contents} {localPath data : Bytes} {file offset : Nat}
      (opened : kernel.openFile names localPath .readWrite = .ok file)
      (stored : ExactWrite before after file offset data) :
      Effect kernel (.write localPath offset data) (names, before) (names, after)
  | change {change : Change} {names : κ} {contents : Contents} {after : Files κ}
      (changed : kernel.change change names contents = .ok after) :
      Effect kernel (.change change) (names, contents) after

theorem Effect.unchanged {kernel : Kernel κ} {before after : Files κ}
    (effect : Effect kernel .look before after) : after = before := by
  cases effect with
  | look files => rfl

def readOperation (request : RequestContext) : Option Operation := do
  let _ ← queryPath request
  let offset ← requestOffset request
  let size ← requestSize request
  if 0 ≤ offset ∧ 0 ≤ size then some .look else none

def writeOperation (request : RequestContext) : Option Operation := do
  let (_, localPath) ← queryPath request
  let offset ← requestOffset request
  if 0 ≤ offset ∧ httpfsIsValidMd5Hex request.contentMd5 = true ∧
      httpfsSparseMd5Hex request.body offset = some request.contentMd5 then
    some (.write localPath offset.toNat request.body)
  else
    none

/-- The operation a request asks for, if it names an endpoint and all the fields of that
endpoint can be decoded and its paths resolved. -/
def operationOf (request : RequestContext) : Option Operation :=
  let asks (method path : String) : Bool :=
    request.method == ascii method && request.path == ascii path
  let change (asked : Sending.ChangeRequest) : Option Operation :=
    (asked.decode request).map Operation.change
  if asks "GET" "/v1/meta" then (queryPath request).map fun _ => .look
  else if asks "GET" "/v1/list" then (queryPath request).map fun _ => .look
  else if asks "GET" "/v1/read" then readOperation request
  else if asks "POST" "/v1/write" then writeOperation request
  else if asks "POST" "/v1/create-file" then change Sending.createFile
  else if asks "POST" "/v1/create-dir" then change Sending.createDir
  else if asks "POST" "/v1/remove-file" then change Sending.removeFile
  else if asks "POST" "/v1/remove-dir" then change Sending.removeDir
  else if asks "POST" "/v1/rename" then change Sending.rename
  else if asks "POST" "/v1/truncate" then change Sending.truncate
  else if asks "POST" "/v1/utimens" then change Sending.utimens
  else none

def IsError (reply : HttpReply) : Prop :=
  ∃ errnoValue message, reply = sendErrorJson errnoValue message

def IsSuccess (reply : HttpReply) : Prop :=
  (∃ payload, okHead <+: payload ∧ reply = sendOk payload) ∨
    ∃ buffer contentMd5, reply = sendBinary buffer contentMd5

theorem not_isError_of_isSuccess {reply : HttpReply} (success : IsSuccess reply) :
    ¬ IsError reply := by
  rintro ⟨errnoValue, message, rfl⟩
  obtain ⟨payload, ok, same⟩ | ⟨buffer, contentMd5, same⟩ := success
  · have body := congrArg HttpReply.body same
    apply not_okHead_error errnoValue message
    rw [body]
    exact ok
  · have lines := congrArg HttpReply.headers same
    simp only [sendErrorJson, sendJson, sendBinary, headerLines, List.map_cons,
      List.cons_append, List.nil_append, List.cons.injEq] at lines
    exact absurd lines.2.1 (by decide)

/-- How a request can end: with an error and nothing done, with an error in the middle of
a write or behind it, or with success and the effect of its operation. -/
inductive Outcome (kernel : Kernel κ) (before : Host κ) :
    Option Operation → HttpReply × Host κ → Prop where
  | rejected {reply : HttpReply} (isError : IsError reply) :
      Outcome kernel before none (reply, before)
  | failed {operation : Operation} {reply : HttpReply} {after : Host κ}
      (isError : IsError reply) (unchanged : after.files = before.files) :
      Outcome kernel before (some operation) (reply, after)
  | interrupted {localPath data : Bytes} {offset : Nat} {reply : HttpReply} {after : Host κ}
      (isError : IsError reply) (moved : Nat)
      (part : Effect kernel (.write localPath offset (data.take moved)) before.files
        after.files) :
      Outcome kernel before (some (.write localPath offset data)) (reply, after)
  | done {operation : Operation} {reply : HttpReply} {after : Host κ}
      (isSuccess : IsSuccess reply) (effect : Effect kernel operation before.files after.files) :
      Outcome kernel before (some operation) (reply, after)

theorem isError_sendErrorJson (errnoValue : Int) (message : Bytes) :
    IsError (sendErrorJson errnoValue message) := ⟨errnoValue, message, rfl⟩

theorem isSuccess_sendOk {payload : Bytes} (ok : okHead <+: payload) :
    IsSuccess (sendOk payload) := .inl ⟨payload, ok, rfl⟩

theorem okHead_snprintf {size : Nat} {text : Bytes} (ok : okHead <+: text)
    (room : okHead.length < size) : okHead <+: snprintf size text := by
  rw [snprintf, List.prefix_take_iff]
  exact ⟨ok, by omega⟩

section Handlers

variable {kernel : Kernel κ} {request : RequestContext} {before : Host κ}

theorem Outcome.refused {operation : Option Operation} {reply : HttpReply}
    (isError : IsError reply) : Outcome kernel before operation (reply, before) := by
  cases operation with
  | none => exact .rejected isError
  | some operation => exact .failed isError rfl

theorem handleMeta_outcome :
    Outcome kernel before ((queryPath request).map fun _ => .look)
      (handleMeta kernel request before) := by
  rw [handleMeta]
  cases queryPath request with
  | none => exact .rejected (isError_sendErrorJson _ _)
  | some paths =>
      obtain ⟨path, localPath⟩ := paths
      simp only [Option.map_some]
      cases kernel.lstat before.names before.contents localPath with
      | error errnoValue => exact .refused (isError_sendErrorJson _ _)
      | ok status =>
          cases before.malloc.1 with
          | false =>
              simp only [Bool.false_eq_true, if_false]
              exact .failed (isError_sendErrorJson _ _) rfl
          | true =>
              simp only [if_true]
              refine .done (isSuccess_sendOk (okHead_snprintf ?_ ?_)) (.look _)
              · simp only [List.append_assoc]
                exact (show okHead <+: _ by decide).trans (List.prefix_append _ _)
              · have short : okHead.length = 14 := rfl
                omega

theorem listPayload_ok {localPath whole : Bytes} {first : Bool} {names : List Bytes}
    {payload : Bytes} {pos : Nat} (ok : okHead <+: payload)
    (listed : listPayload kernel before localPath first names payload pos = .ok whole) :
    okHead <+: whole := by
  induction names generalizing first payload pos with
  | nil =>
      simp only [listPayload, Except.ok.injEq] at listed
      rw [← listed]
      exact ok.trans (List.prefix_append _ _)
  | cons name names induction =>
      obtain ⟨escaped, _, _, continues⟩ := listPayload_cons listed
      exact induction (ok.trans (List.prefix_append _ _)) continues

theorem handleList_outcome :
    Outcome kernel before ((queryPath request).map fun _ => .look)
      (handleList kernel request before) := by
  rw [handleList]
  cases queryPath request with
  | none => exact .rejected (isError_sendErrorJson _ _)
  | some paths =>
      obtain ⟨path, localPath⟩ := paths
      simp only [Option.map_some]
      cases kernel.opendir before.names localPath with
      | error errnoValue => exact .refused (isError_sendErrorJson _ _)
      | ok names =>
          simp only
          cases listed : listPayload kernel before localPath true names listHead
            listHead.length with
          | error error => exact .refused (isError_sendErrorJson _ _)
          | ok payload =>
              have ok : okHead <+: payload :=
                listPayload_ok (show okHead <+: listHead by decide) listed
              exact .done (isSuccess_sendOk ok) (.look _)

theorem readOperation_of_ok {range : ReadRange} (passed : readRange request = .ok range) :
    readOperation request = some .look := by
  obtain ⟨⟨path, resolved⟩, hasOffset, hasSize, notNegative⟩ := readRange_ok passed
  simp [readOperation, resolved, hasOffset, hasSize, notNegative]

theorem handleRead_outcome :
    Outcome kernel before (readOperation request) (handleRead kernel request before) := by
  rw [handleRead]
  cases checked : readRange request with
  | error error => exact .refused (isError_sendErrorJson _ _)
  | ok range =>
      rw [readOperation_of_ok checked]
      simp only
      cases kernel.openFile before.names range.localPath .readOnly with
      | error errnoValue => exact .refused (isError_sendErrorJson _ _)
      | ok file =>
          cases before.malloc.1 with
          | false =>
              simp only [Bool.false_eq_true, if_false]
              exact .failed (isError_sendErrorJson _ _) rfl
          | true =>
              simp only [if_true, Host.pread]
              cases (FullTransfer.once (before.malloc.2.available file range.size.toNat
                range.offset.toNat) before.malloc.2.preads).1 with
              | error errnoValue => exact .failed (isError_sendErrorJson _ _) rfl
              | ok count =>
                  simp only [Except.map]
                  split
                  · exact .failed (isError_sendErrorJson _ _) rfl
                  · exact .done (.inr ⟨_, _, rfl⟩) (.look _)

theorem writeOperation_of_ok {target : WriteTarget}
    (passed : writeTarget request = .ok target) :
    writeOperation request =
      some (.write target.localPath target.offset.toNat request.body) := by
  obtain ⟨hasOffset, notNegative, _, ⟨valid, offset, sameOffset, digest⟩, _⟩ :=
    writeTarget_ok passed
  obtain ⟨path, resolved⟩ := queryPath_of_writeTarget passed
  rw [hasOffset, Option.some.injEq] at sameOffset
  rw [← sameOffset] at digest
  simp [writeOperation, resolved, hasOffset, notNegative, valid, digest]

theorem verifyStored_outcome {target : WriteTarget} {body : Bytes} {file : Nat} :
    (verifyStored kernel target body file before).2.files = before.files ∧
      (IsError (verifyStored kernel target body file before).1 ∨
        IsSuccess (verifyStored kernel target body file before).1) := by
  obtain ⟨allocated, mallocs, malloc⟩ := before.malloc_eq
  simp only [verifyStored, malloc]
  cases allocated with
  | false => exact ⟨rfl, .inl (isError_sendErrorJson _ _)⟩
  | true =>
      obtain ⟨result, preads, read⟩ := Host.preadFull_eq { before with mallocs } file
        body.length target.offset.toNat
      simp only [if_true, read]
      cases result with
      | error errnoValue => exact ⟨rfl, .inl (isError_sendErrorJson _ _)⟩
      | ok verifyBuffer =>
          simp only
          split
          · exact ⟨rfl, .inl (isError_sendErrorJson _ _)⟩
          split
          · exact ⟨rfl, .inl (isError_sendErrorJson _ _)⟩
          split
          · exact ⟨rfl, .inl (isError_sendErrorJson _ _)⟩
          refine ⟨rfl, .inr (isSuccess_sendOk (okHead_snprintf ?_ (by decide)))⟩
          simp only [List.append_assoc]
          exact (show okHead <+: _ by decide).trans (List.prefix_append _ _)

theorem handleWrite_outcome :
    Outcome kernel before (writeOperation request) (handleWrite kernel request before) := by
  rw [handleWrite]
  cases checked : writeTarget request with
  | error error => exact .refused (isError_sendErrorJson _ _)
  | ok target =>
      rw [writeOperation_of_ok checked]
      simp only
      cases opened : kernel.openFile before.names target.localPath .readWrite with
      | error errnoValue => exact .refused (isError_sendErrorJson _ _)
      | ok file =>
          obtain ⟨result, moved, pwrites, stored, within, isMoved⟩ :=
            before.pwriteFull_moves file target.offset.toNat request.body
          simp only [stored]
          generalize isAfter : ({ before.setContents file (overwrite 0 (before.contents file)
            target.offset.toNat (request.body.take moved)) with pwrites } : Host κ) = after
          have part : Effect kernel (.write target.localPath target.offset.toNat
              (request.body.take moved)) before.files after.files := by
            rw [← isAfter]
            exact .write opened (exactWrite_overwrite before file _ _)
          cases result with
          | error errnoValue => exact .interrupted (isError_sendErrorJson _ _) moved part
          | ok written =>
              obtain rfl := isMoved written rfl
              simp only
              split
              · exact .interrupted (isError_sendErrorJson _ _) written part
              next whole =>
              obtain ⟨unchanged, error | success⟩ :=
                @verifyStored_outcome κ kernel after target request.body file
              · exact .interrupted error written (unchanged ▸ part)
              · rw [List.take_of_length_le (by omega)] at part
                exact .done success (unchanged ▸ part)

theorem handleChange_outcome (decoded : Option Change) (invalid : Bytes) :
    Outcome kernel before (decoded.map Operation.change)
      (handleChange kernel decoded invalid before) := by
  unfold handleChange
  cases decoded with
  | none => exact .rejected (isError_sendErrorJson _ _)
  | some change =>
      simp only [Option.map_some]
      cases changed : kernel.change change before.names before.contents with
      | error errnoValue => exact .refused (isError_sendErrorJson _ _)
      | ok files =>
          exact .done (isSuccess_sendOk (show okHead <+: _ by decide)) (.change changed)

theorem outcome_ite {condition : Bool} {asked other : Option Operation}
    {answer otherwise : HttpReply × Host κ} (first : Outcome kernel before asked answer)
    (rest : Outcome kernel before other otherwise) :
    Outcome kernel before (if condition then asked else other)
      (if condition then answer else otherwise) := by
  cases condition with
  | true => exact first
  | false => exact rest

theorem dispatchRequest_outcome :
    Outcome kernel before (operationOf request) (dispatchRequest kernel request before) := by
  apply outcome_ite handleMeta_outcome
  apply outcome_ite handleList_outcome
  apply outcome_ite handleRead_outcome
  apply outcome_ite handleWrite_outcome
  apply outcome_ite (handleChange_outcome _ _)
  apply outcome_ite (handleChange_outcome _ _)
  apply outcome_ite (handleChange_outcome _ _)
  apply outcome_ite (handleChange_outcome _ _)
  apply outcome_ite (handleChange_outcome _ _)
  apply outcome_ite (handleChange_outcome _ _)
  apply outcome_ite (handleChange_outcome _ _)
  exact .rejected (isError_sendErrorJson _ _)

theorem operationOf_get (isGet : request.method = ascii "GET") {operation : Operation}
    (asked : operationOf request = some operation) : operation = .look := by
  have notPost : ∀ path : String,
      (request.method == ascii "POST" && request.path == ascii path) = false := by
    intro path
    have differs : (ascii "GET" == ascii "POST") = false := by decide
    rw [isGet, differs, Bool.false_and]
  have looks : ∀ {condition : Bool} {first rest : Option Operation},
      (first = some operation → operation = .look) →
      (rest = some operation → operation = .look) →
      (if condition then first else rest) = some operation → operation = .look := by
    intro condition first rest whenTrue whenFalse
    cases condition with
    | true => exact whenTrue
    | false => exact whenFalse
  have path : ((queryPath request).map fun _ => Operation.look) = some operation →
      operation = .look := by
    intro found
    obtain ⟨_, _, rfl⟩ := Option.map_eq_some_iff.mp found
    rfl
  have read : readOperation request = some operation → operation = .look := by
    intro found
    simp only [readOperation, Option.bind_eq_bind, Option.bind_eq_some_iff] at found
    obtain ⟨_, _, _, _, _, _, last⟩ := found
    split at last
    · exact (Option.some.inj last).symm
    · contradiction
  simp only [operationOf, notPost, Bool.false_eq_true, if_false] at asked
  exact looks path (looks path (looks read (by simp))) asked

/-- Every request is answered once, and is one operation on the files or none. -/
theorem dispatchRequest_isOneOperation (kernel : Kernel κ) (request : RequestContext)
    (before : Host κ) (replies : List HttpReply) :
    ∃ reply after, (Sending.dispatchRequest kernel request ⟨before, replies⟩).2 =
        ⟨after, replies ++ [reply]⟩ ∧
      Outcome kernel before (operationOf request) (reply, after) ∧
      (operationOf request = none → IsError reply ∧ after = before) ∧
      (request.method = ascii "GET" → after.files = before.files) := by
  have sent := @Sending.answers_dispatchRequest κ kernel request before replies
  have outcome := @dispatchRequest_outcome κ kernel request before
  generalize dispatchRequest kernel request before = answer at sent outcome
  obtain ⟨reply, after⟩ := answer
  refine ⟨reply, after, sent, outcome, ?_, ?_⟩
  · intro nothing
    rw [nothing] at outcome
    cases outcome with
    | rejected isError => exact ⟨isError, rfl⟩
  · intro isGet
    have looks := @operationOf_get request isGet
    generalize operationOf request = asked at outcome looks
    cases outcome with
    | rejected isError => rfl
    | failed isError unchanged => exact unchanged
    | interrupted isError moved part =>
        have impossible := looks rfl
        contradiction
    | done isSuccess effect =>
        obtain rfl := looks rfl
        exact effect.unchanged

end Handlers

end HttpFs.CProvider
