import Mathlib.Data.List.Induction
import HttpFs.Client.WriteOutcome

namespace HttpFs

open Routine ClientM Region

variable {σ : Type}

/-! What holds of the surroundings and the trace after every call of the library holds
throughout a write. -/

structure TraceInvariant (curl : Curl σ) (inv : σ → List Exchange → Prop) : Prop where
  easyInit : ∀ {host exchanges}, inv host exchanges → inv (curl.easyInit host).2 exchanges
  easyEscape : ∀ {host exchanges} text, inv host exchanges →
    inv (curl.easyEscape text host).2 exchanges
  malloc : ∀ {host exchanges} size, inv host exchanges →
    inv (curl.malloc size host).2 exchanges
  easyPerform : ∀ {host exchanges} request, inv host exchanges →
    inv (curl.easyPerform request host).2
      (exchanges ++ [⟨request, (curl.easyPerform request host).1⟩])

namespace TraceInvariant

variable {curl : Curl σ} {inv : σ → List Exchange → Prop}

/-- A routine that keeps the invariant at both of its exits. -/
abbrev Keeps {α : Type} (inv : σ → List Exchange → Prop) (routine : ClientM σ α) : Prop :=
  Triple (fun state => inv state.host state.exchanges) routine
    (fun _ state => inv state.host state.exchanges)
    (fun state => inv state.host state.exchanges)

theorem keeps_ask {α : Type} {answer : σ → α × σ}
    (kept : ∀ {host exchanges}, inv host exchanges → inv (answer host).2 exchanges) :
    Keeps inv (ask answer) :=
  triple_call fun _ holds => kept holds

theorem keeps_require (condition : Bool) (errnoValue : Int) (message : Bytes) :
    Keeps inv (require condition errnoValue message) :=
  triple_require (fun _ _ holds => holds) fun _ _ holds => holds

theorem keeps_obtainOr {α : Type} (result : Option α) (errnoValue : Int) (message : Bytes) :
    Keeps inv (obtainOr errnoValue message result) :=
  triple_obtainOr (fun _ _ _ holds => holds) fun _ _ holds => holds

theorem keeps_passOn {α : Type} (result : Except HttpfsError α) : Keeps inv (passOn result) :=
  triple_passOn (fun _ _ _ holds => holds) fun _ _ _ holds => holds

theorem keeps_pure {α : Type} (value : α) : Keeps inv (pure value) :=
  triple_pure fun _ holds => holds

theorem buildEndpoint (kept : TraceInvariant curl inv) (path : Bytes)
    (format : Bytes → Bytes) (endpointSize : Nat) :
    Keeps inv (buildEndpoint curl path format endpointSize) := by
  apply triple_bind (keeps_ask kept.easyInit)
  intro initialised
  apply triple_ite
  · intro _
    apply triple_bind (keeps_ask (kept.easyEscape path))
    intro escapedPath
    cases escapedPath <;> exact keeps_pure _
  · intro _
    exact keeps_pure _

theorem httpRequestEx (kept : TraceInvariant curl inv) (client : HttpfsClient)
    (method : HttpMethod) (endpoint : Bytes) (body contentType contentMd5 : Option Bytes) :
    Keeps inv (httpRequestEx curl client method endpoint body contentType contentMd5) := by
  apply triple_bind (keeps_require _ _ _)
  intro _
  apply triple_bind (keeps_ask kept.easyInit)
  intro initialised
  apply triple_bind (keeps_require _ _ _)
  intro _
  apply triple_bind (keeps_passOn _)
  intro request
  have performed : Keeps inv (HttpFs.easyPerform curl request) :=
    triple_call fun state holds => kept.easyPerform request holds
  apply triple_bind performed
  intro outcome
  cases outcome with
  | failed message => exact triple_raise fun _ holds => holds
  | received statusCode headers chunks =>
      simp only [foldl_writeCallback]
      split
      · next silent =>
        split at silent
        · contradiction
        · exact keeps_pure _
      · apply triple_bind (keeps_ask (kept.malloc 1))
        intro allocated
        apply triple_bind (keeps_require _ _ _)
        intro _
        exact keeps_pure _

theorem writeChunk (kept : TraceInvariant curl inv) (client : HttpfsClient) (path : Bytes)
    (offset : Int) (chunk : Bytes) : Keeps inv (writeChunk curl client path offset chunk) := by
  apply triple_bind (kept.buildEndpoint path _ _)
  intro endpoint
  apply triple_bind (keeps_obtainOr _ _ _)
  intro endpoint
  apply triple_bind (keeps_obtainOr _ _ _)
  intro expectedMd5
  have requested : ∀ statusMessage,
      Keeps inv (requestOk curl client .post endpoint (some chunk)
        (some (ascii "application/octet-stream")) (some expectedMd5) statusMessage 256) := by
    intro statusMessage
    apply triple_bind (kept.httpRequestEx client _ _ _ _ _)
    intro reply
    apply triple_bind (keeps_require _ _ _)
    intro _
    have parsed : Keeps inv (parseOkInto 256 (cString reply.response)) := by
      refine triple_bind ?_ fun _ => keeps_passOn _
      exact triple_modify fun _ holds => holds
    apply triple_bind parsed
    intro tokens
    exact keeps_pure _
  apply triple_bind (requested _)
  intro reply
  apply triple_bind (keeps_obtainOr _ _ _)
  intro serverBytesWritten
  apply triple_bind (keeps_obtainOr _ _ _)
  intro responseMd5
  apply triple_bind (keeps_require _ _ _)
  intro _
  exact keeps_require _ _ _

theorem writeFile (kept : TraceInvariant curl inv) (client : HttpfsClient)
    (path buffer : Bytes) (offset : Int) :
    Keeps inv (httpfsWriteFile curl client path offset buffer) := by
  have rule := @httpfsWriteFile_rule σ curl client path buffer offset
    (fun state => inv state.host state.exchanges)
    (fun _ state => inv state.host state.exchanges)
    (fun state => inv state.host state.exchanges) (fun _ holds => holds)
    (fun k _ => kept.writeChunk client path _ _)
  refine triple_consequence rule (fun _ start => start) ?_ fun _ failed => failed
  rintro _ after ⟨_, state, _, holds, rfl⟩
  exact holds

end TraceInvariant

/-! A server that stores a chunk when it acknowledges it, and otherwise leaves the file
alone. -/

/-- What one exchange of a write does to the file. -/
def StoresChunk (client : HttpfsClient) (exchange : Exchange) (old new : Bytes) : Prop :=
  ∀ offset chunk, Sends client offset chunk exchange →
    (Acknowledges offset chunk exchange → new = overwrite 0 old offset.toNat chunk) ∧
    (¬ Acknowledges offset chunk exchange → new = old)

structure StoresAcknowledged (client : HttpfsClient) (curl : Curl σ)
    (contents : σ → Bytes) : Prop where
  easyInit : ∀ host, contents (curl.easyInit host).2 = contents host
  easyEscape : ∀ text host, contents (curl.easyEscape text host).2 = contents host
  malloc : ∀ size host, contents (curl.malloc size host).2 = contents host
  easyPerform : ∀ request host,
    StoresChunk client ⟨request, (curl.easyPerform request host).1⟩ (contents host)
      (contents (curl.easyPerform request host).2)

/-- The exchanges, one after the other, turn the first contents into the last. -/
def StoresAll (client : HttpfsClient) : List Exchange → Bytes → Bytes → Prop
  | [], old, new => new = old
  | exchange :: rest, old, new =>
      ∃ middle, StoresChunk client exchange old middle ∧ StoresAll client rest middle new

variable {client : HttpfsClient}

theorem storesAll_append {first second : List Exchange} {old new : Bytes} :
    StoresAll client (first ++ second) old new ↔
      ∃ middle, StoresAll client first old middle ∧ StoresAll client second middle new := by
  induction first generalizing old with
  | nil => simp [StoresAll]
  | cons exchange rest induction =>
      simp only [List.cons_append, StoresAll, induction]
      constructor
      · rintro ⟨start, stores, middle, first, second⟩
        exact ⟨middle, ⟨start, stores, first⟩, second⟩
      · rintro ⟨middle, ⟨start, stores, first⟩, second⟩
        exact ⟨start, stores, middle, first, second⟩

theorem traceInvariant_contents {curl : Curl σ} {contents : σ → Bytes}
    (stores : StoresAcknowledged client curl contents) (start : List Exchange)
    (old : Bytes) :
    TraceInvariant curl fun host exchanges => ∃ added, exchanges = start ++ added ∧
      StoresAll client added old (contents host) := by
  constructor
  · rintro host exchanges ⟨added, isAdded, reached⟩
    exact ⟨added, isAdded, by rwa [stores.easyInit]⟩
  · rintro host exchanges text ⟨added, isAdded, reached⟩
    exact ⟨added, isAdded, by rwa [stores.easyEscape]⟩
  · rintro host exchanges size ⟨added, isAdded, reached⟩
    exact ⟨added, isAdded, by rwa [stores.malloc]⟩
  · rintro host exchanges request ⟨added, isAdded, reached⟩
    refine ⟨added ++ [⟨request, (curl.easyPerform request host).1⟩], ?_, ?_⟩
    · rw [isAdded, List.append_assoc]
    · rw [storesAll_append]
      exact ⟨_, reached, _, stores.easyPerform request host, rfl⟩

theorem Sends.notNegative {offset : Int} {chunk : Bytes} {exchange : Exchange}
    (sends : Sends client offset chunk exchange) : 0 ≤ offset := by
  obtain ⟨_, digest, computed, _⟩ := sends
  rw [httpfsSparseMd5Hex] at computed
  split at computed
  · contradiction
  · omega

theorem StoredChunks.notNegative {offset : Int} {buffer : Bytes} {exchange : Exchange}
    {acknowledged : List Exchange} (stored : StoredChunks client offset buffer acknowledged)
    (first : acknowledged[0]? = some exchange) : 0 ≤ offset := by
  have bound := (stored 0 exchange first).2.1.notNegative
  simpa [writeOffset] using bound

theorem StoredChunks.contents {offset : Int} {buffer old new : Bytes}
    {acknowledged : List Exchange}
    (stored : StoredChunks client offset buffer acknowledged)
    (reached : StoresAll client acknowledged old new) :
    new = overwrite 0 old offset.toNat (sentBefore buffer acknowledged.length) := by
  induction acknowledged using List.reverseRecOn generalizing new with
  | nil => rw [List.length_nil, sentBefore_zero, overwrite_nil, reached]
  | append_singleton first last induction =>
      obtain ⟨middle, before, final, stores, rfl⟩ := storesAll_append.mp reached
      obtain ⟨inside, sends, isAcknowledged⟩ := stored first.length last (by simp)
      have earlier : StoredChunks client offset buffer first := by
        intro k exchange found
        exact stored k exchange
          (by rw [List.getElem?_append_left (List.getElem?_eq_some_iff.mp found).1, found])
      have notNegative : 0 ≤ offset := by
        cases shape : first ++ [last] with
        | nil => simp at shape
        | cons head tail =>
            exact @StoredChunks.notNegative client offset buffer head _ stored (by simp [shape])
      have isMiddle := induction earlier before
      rw [(stores _ _ sends).1 isAcknowledged, isMiddle, List.length_append,
        List.length_singleton, ← sentBefore_succ, ← overwrite_append]
      congr 1
      rw [length_sentBefore, Nat.min_eq_right (Nat.le_of_lt inside), writeOffset]
      omega

end HttpFs
