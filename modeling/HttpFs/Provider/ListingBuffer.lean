import HttpFs.BoundedEscape
import HttpFs.Provider.Handlers
import HttpFs.Provider.PostBodies

namespace HttpFs.CProvider

open Audit Logged

/-! `handle_list` with its array `payload`, and every byte that it stores there. -/

variable {κ : Type}

/-- The difference of two values of `size_t`. -/
def sizeSub (minuend subtrahend : Nat) : Nat := (2 ^ 64 + minuend - subtrahend) % 2 ^ 64

/-- The array `payload`, which starts with what the stack held. -/
structure PayloadBuffer where
  bytes : Bytes
  length_eq : bytes.length = SERVER_LIST_PAYLOAD_SIZE

inductive ListEvent where
  | remaining (pos : Nat)
  | stored (store : ByteStore)
  deriving Repr, DecidableEq

/-- The difference `sizeof(payload) - pos` is one of integers, and a byte is stored inside
of the array. -/
def ListEvent.Bounded : ListEvent → Prop
  | .remaining pos => pos ≤ SERVER_LIST_PAYLOAD_SIZE
  | .stored store => store.index < SERVER_LIST_PAYLOAD_SIZE

/-- `pos + snprintf(payload + pos, sizeof(payload) - pos, ...)`. -/
def formatAt (pos : Nat) (text : Bytes) : Logged ListEvent Nat := do
  note (.remaining pos)
  (snprintfInto pos (sizeSub SERVER_LIST_PAYLOAD_SIZE pos) text).relabel .stored
  return pos + text.length

/-- The loop of `handle_list` and the text behind it. -/
def listEntriesLogged (kernel : Kernel κ) (host : Host κ) (localPath : Bytes) :
    Bool → List Bytes → Nat → Logged ListEvent (Except HttpfsError Unit)
  | _, [], pos => do
      let _ ← formatAt pos (ascii "]\x7d")
      return .ok ()
  | first, name :: names, pos =>
      let entryPath := localPath ++ ascii "/" ++ name
      if entryPath.length ≥ 4096 then
        return .error ⟨Errno.ENAMETOOLONG, ascii "entry path too long"⟩
      else
        match jsonEscapeString name 512 with
        | none => return .error ⟨Errno.EIO, ascii "entry name escape failed"⟩
        | some escaped => do
            let pos ← formatAt pos
              (entryText first escaped (entryType kernel host entryPath))
            if pos + 64 ≥ SERVER_LIST_PAYLOAD_SIZE then
              return .error ⟨Errno.ENOBUFS, ascii "too many entries"⟩
            else
              listEntriesLogged kernel host localPath false names pos

def listNamesLogged (kernel : Kernel κ) (host : Host κ) (localPath : Bytes)
    (names : List Bytes) : Logged ListEvent (Except HttpfsError Unit) := do
  let pos ← formatAt 0 listHead
  listEntriesLogged kernel host localPath true names pos

/-- The stores change the array. -/
def listAudit : Audit Bytes ListEvent where
  after buffer event :=
    match event with
    | .remaining _ => buffer
    | .stored store => storeAudit.after buffer store
  promised _ := True
  sound buffer event :=
    match event with
    | .remaining pos => pos ≤ buffer.length
    | .stored store => storeAudit.sound buffer store

/-- `handle_list` from an array `payload`: `send_ok` sends the string that it then holds. -/
def handleListLogged (kernel : Kernel κ) (request : RequestContext) (host : Host κ)
    (payload : PayloadBuffer) : Logged ListEvent HttpReply :=
  match queryPath request with
  | none => return sendErrorJson Errno.EINVAL (ascii "invalid path")
  | some (_, localPath) =>
      match kernel.opendir host.names localPath with
      | .error errnoValue => return sendErrno kernel errnoValue
      | .ok names =>
          let listed := listNamesLogged kernel host localPath names
          match listed.value with
          | .error error => ⟨sendErrorJson error.errnoValue error.message, listed.log⟩
          | .ok () =>
              ⟨sendOk (cString (listAudit.replay payload.bytes listed.log)), listed.log⟩

/-- The object of an entry. -/
def entryObject (kernel : Kernel κ) (host : Host κ) (localPath name : Bytes) : Bytes :=
  ascii "\x7b\"name\":\"" ++ escapedText (cString name) ++ ascii "\",\"type\":\"" ++
    entryType kernel host (localPath ++ ascii "/" ++ name) ++ ascii "\"\x7d"

/-- All of a directory, with an object for every entry in the order of the entries. -/
def listingText (kernel : Kernel κ) (host : Host κ) (localPath : Bytes) (names : List Bytes) :
    Bytes :=
  listHead ++ (ascii ",").intercalate (names.map (entryObject kernel host localPath)) ++
    ascii "]\x7d"

/-- The replies that say all about a directory or that nothing can be said about it. -/
inductive CompleteOrError (kernel : Kernel κ) (host : Host κ) (request : RequestContext) :
    HttpReply → Prop where
  | complete (path localPath : Bytes) (names : List Bytes)
      (asked : queryPath request = some (path, localPath))
      (opened : kernel.opendir host.names localPath = .ok names) :
      CompleteOrError kernel host request
        (sendOk (listingText kernel host localPath names))
  | refused (errnoValue : Int) (message : Bytes) :
      CompleteOrError kernel host request (sendErrorJson errnoValue message)

theorem sizeSub_of_le {minuend subtrahend : Nat} (notMore : subtrahend ≤ minuend)
    (small : minuend < 2 ^ 64) : sizeSub minuend subtrahend = minuend - subtrahend := by
  unfold sizeSub
  omega

theorem listAudit_comap : listAudit.comap .stored = storeAudit := rfl

theorem events_bounded {buffer : Bytes} {events : List ListEvent}
    (length : buffer.length = SERVER_LIST_PAYLOAD_SIZE)
    (passes : listAudit.Passes buffer events) : ∀ event ∈ events, event.Bounded := by
  induction events generalizing buffer with
  | nil => simp
  | cons event events induction =>
      obtain ⟨sound, later⟩ := passes
      cases event with
      | remaining pos =>
          have bounded : (ListEvent.remaining pos).Bounded :=
            Nat.le_trans sound (Nat.le_of_eq length)
          exact List.forall_mem_cons.mpr ⟨bounded, induction length later⟩
      | stored store =>
          have bounded : (ListEvent.stored store).Bounded :=
            Nat.lt_of_lt_of_eq sound length
          have kept : (listAudit.after buffer (.stored store)).length =
              SERVER_LIST_PAYLOAD_SIZE :=
            List.length_set.trans length
          exact List.forall_mem_cons.mpr ⟨bounded, induction kept later⟩

section Meets

variable {output buffer : Bytes} {pos : Nat}

theorem meets_formatAt (text : Bytes) (holds : Holds SERVER_LIST_PAYLOAD_SIZE output buffer)
    (isNext : pos = output.length) (room : pos < SERVER_LIST_PAYLOAD_SIZE) :
    listAudit.Meets buffer (formatAt pos text)
      (fun reached next => next = pos + text.length ∧
        Holds SERVER_LIST_PAYLOAD_SIZE
          (output ++ (snprintf (SERVER_LIST_PAYLOAD_SIZE - pos) text ++ [0])) reached) := by
  have small : SERVER_LIST_PAYLOAD_SIZE < 2 ^ 64 := by decide
  unfold formatAt
  apply meets_note_bind
  · intro _
    exact Nat.le_of_lt (holds.1.symm ▸ room)
  intro _
  rw [sizeSub_of_le (Nat.le_of_lt room) small]
  apply meets_bind
  · apply meets_relabel
    rw [listAudit_comap]
    exact meets_snprintfInto text holds isNext room
  intro reached _ held
  exact meets_pure ⟨rfl, held⟩

/-- What the array holds is the text that `listPayload` builds, with a NUL behind it. -/
theorem meets_listEntriesLogged {kernel : Kernel κ} {host : Host κ} {localPath : Bytes}
    (first : Bool) (names : List Bytes)
    (holds : Holds SERVER_LIST_PAYLOAD_SIZE output buffer) (isNext : pos = output.length)
    (slack : pos + 64 < SERVER_LIST_PAYLOAD_SIZE) :
    listAudit.Meets buffer (listEntriesLogged kernel host localPath first names pos)
      (fun reached result =>
        match listPayload kernel host localPath first names output pos with
        | .error error => result = .error error
        | .ok whole =>
            result = .ok () ∧ Holds SERVER_LIST_PAYLOAD_SIZE (whole ++ [0]) reached) := by
  induction names generalizing first output buffer pos with
  | nil =>
      apply meets_bind (meets_formatAt _ holds isNext (by omega))
      intro reached _ held
      rw [← List.append_assoc] at held
      exact meets_pure ⟨rfl, held.2⟩
  | cons name names induction =>
      simp only [listEntriesLogged, listPayload]
      split
      · exact meets_pure rfl
      cases jsonEscapeString name 512 with
      | none => exact meets_pure rfl
      | some escaped =>
          simp only
          generalize entryText first escaped (entryType kernel host _) = entry
          apply meets_bind (meets_formatAt entry holds isNext (by omega))
          intro reached next formatted
          obtain ⟨isLater, held⟩ := formatted
          subst isLater
          split
          · exact meets_pure rfl
          next room =>
          rw [← List.append_assoc] at held
          apply induction false held.shorten _ (by omega)
          rw [List.length_append, snprintf_of_lt (by omega), isNext]

end Meets

section Text

variable {kernel : Kernel κ} {host : Host κ} {localPath whole output : Bytes} {first : Bool}
  {names : List Bytes}

theorem entryText_eq {name escaped : Bytes}
    (isEscaped : jsonEscapeString name 512 = some escaped) :
    entryText first escaped (entryType kernel host (localPath ++ ascii "/" ++ name)) =
      (if first then [] else ascii ",") ++ entryObject kernel host localPath name := by
  rw [jsonEscapeString_eq isEscaped]
  simp only [entryText, entryObject, escapedText, List.append_assoc]

theorem separated_intercalate (separator : Bytes) (first : Bool) (item : Bytes)
    (items : List Bytes) :
    (if first then [] else separator) ++ item ++
        (items.map (separator ++ ·)).flatten =
      if first then separator.intercalate (item :: items)
      else ((item :: items).map (separator ++ ·)).flatten := by
  induction items generalizing first item with
  | nil => cases first <;> simp
  | cons next items induction =>
      have rest := induction true next
      cases first with
      | false => simp
      | true => simpa using rest

/-- A list that is built holds every entry in full. -/
theorem listPayload_eq {pos : Nat} (isNext : pos = output.length)
    (slack : pos + 64 < SERVER_LIST_PAYLOAD_SIZE)
    (listed : listPayload kernel host localPath first names output pos = .ok whole) :
    whole = output ++
      (if first then (ascii ",").intercalate (names.map (entryObject kernel host localPath))
        else ((names.map (entryObject kernel host localPath)).map (ascii "," ++ ·)).flatten) ++
      ascii "]\x7d" := by
  induction names generalizing first output pos with
  | nil =>
      have brackets : (ascii "]\x7d").length = 2 := rfl
      simp only [listPayload, Except.ok.injEq] at listed
      rw [← listed, snprintf_of_lt (by omega)]
      cases first <;> simp
  | cons name names induction =>
      obtain ⟨escaped, isEscaped, room, continues⟩ := listPayload_cons listed
      rw [snprintf_of_lt (by omega)] at continues
      rw [induction (by rw [List.length_append, isNext]) room continues,
        entryText_eq isEscaped, List.map_cons, ← separated_intercalate]
      simp only [Bool.false_eq_true, if_false, List.append_assoc]

theorem listPayload_listHead
    (listed : listPayload kernel host localPath true names listHead listHead.length =
      .ok whole) : whole = listingText kernel host localPath names :=
  listPayload_eq rfl (by decide) listed

theorem zero_not_mem_entryType (entryPath : Bytes) : 0 ∉ entryType kernel host entryPath := by
  unfold entryType
  split
  · split <;> decide
  · decide

theorem zero_not_mem_entryObject (name : Bytes) :
    0 ∉ entryObject kernel host localPath name := by
  simp only [entryObject, List.mem_append, not_or]
  exact ⟨⟨⟨⟨by decide, zero_not_mem_escapedText (zero_not_mem_cString name)⟩, by decide⟩,
    zero_not_mem_entryType _⟩, by decide⟩

theorem zero_not_mem_intercalate {separator : Bytes} (noNul : 0 ∉ separator)
    {items : List Bytes} (without : ∀ item ∈ items, 0 ∉ item) :
    0 ∉ separator.intercalate items := by
  induction items with
  | nil => simp
  | cons item items induction =>
      obtain ⟨ofItem, ofItems⟩ := List.forall_mem_cons.mp without
      cases items with
      | nil => rwa [List.intercalate_singleton]
      | cons next items =>
          rw [List.intercalate_cons_cons]
          simp only [List.mem_append, not_or]
          exact ⟨⟨ofItem, noNul⟩, induction ofItems⟩

theorem zero_not_mem_listingText (names : List Bytes) :
    0 ∉ listingText kernel host localPath names := by
  simp only [listingText, List.mem_append, not_or]
  refine ⟨⟨by decide, zero_not_mem_intercalate (by decide) ?_⟩, by decide⟩
  intro item member
  obtain ⟨name, _, rfl⟩ := List.mem_map.mp member
  exact zero_not_mem_entryObject name

end Text

/-- What `send_ok` finds in the array, behind the calls that `listNamesLogged` records. -/
theorem listNamesLogged_meets {kernel : Kernel κ} {host : Host κ} {localPath : Bytes}
    (names : List Bytes) (payload : PayloadBuffer) :
    listAudit.Meets payload.bytes (listNamesLogged kernel host localPath names)
      (fun reached result =>
        match listPayload kernel host localPath true names listHead listHead.length with
        | .error error => result = .error error
        | .ok whole => result = .ok () ∧ cString reached = whole ∧
            whole = listingText kernel host localPath names) := by
  have head : listHead.length + 64 < SERVER_LIST_PAYLOAD_SIZE := by decide
  have start : Holds SERVER_LIST_PAYLOAD_SIZE [] payload.bytes :=
    ⟨payload.length_eq, List.nil_prefix⟩
  unfold listNamesLogged
  apply meets_bind (meets_formatAt listHead start rfl (by decide))
  intro reached pos formatted
  obtain ⟨isNext, held⟩ := formatted
  rw [snprintf_of_lt (by decide), List.nil_append] at held
  rw [List.length_nil, Nat.zero_add] at isNext
  subst isNext
  apply meets_mono (meets_listEntriesLogged true names held.shorten rfl head)
  intro last result ended
  cases listed : listPayload kernel host localPath true names listHead listHead.length with
  | error error =>
      rw [listed] at ended
      exact ended
  | ok whole =>
      rw [listed] at ended
      obtain ⟨done, _, terminated⟩ := ended
      have complete := listPayload_listHead listed
      refine ⟨done, cString_of_terminated ?_ terminated, complete⟩
      rw [complete]
      exact zero_not_mem_listingText names

/-- `handle_list` answers with all of a directory or with an error, and what it computes of
its array stays in the array. -/
theorem handleListLogged_complete (kernel : Kernel κ) (request : RequestContext)
    (host : Host κ) (payload : PayloadBuffer) :
    (∀ event ∈ (handleListLogged kernel request host payload).log, event.Bounded) ∧
      (handleListLogged kernel request host payload).value =
        (handleList kernel request host).1 ∧
      CompleteOrError kernel host request
        (handleListLogged kernel request host payload).value := by
  unfold handleListLogged handleList
  cases asked : queryPath request with
  | none => exact ⟨by simp, rfl, .refused _ _⟩
  | some paths =>
      obtain ⟨path, localPath⟩ := paths
      simp only
      cases opened : kernel.opendir host.names localPath with
      | error errnoValue => exact ⟨by simp, rfl, .refused _ _⟩
      | ok names =>
          obtain ⟨passes, reached⟩ := @listNamesLogged_meets κ kernel host localPath names
            payload fun _ _ => trivial
          have bounded := events_bounded payload.length_eq passes
          simp only
          cases listed : listPayload kernel host localPath true names listHead
              listHead.length with
          | error error =>
              rw [listed] at reached
              rw [reached]
              exact ⟨bounded, rfl, .refused _ _⟩
          | ok whole =>
              rw [listed] at reached
              obtain ⟨done, inBuffer, complete⟩ := reached
              rw [done]
              simp only
              rw [inBuffer, complete]
              exact ⟨bounded, rfl, .complete path localPath names asked opened⟩

end HttpFs.CProvider
