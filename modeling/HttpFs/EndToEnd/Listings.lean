import HttpFs.Client.Listings
import HttpFs.EndToEnd.Writes
import HttpFs.Provider.ListingBuffer

namespace HttpFs

open Routine ClientM CProvider Json

structure FileName where
  bytes : Bytes
  short : bytes.length ≤ 255
  noNul : 0 ∉ bytes
  noSlash : byte '/' ∉ bytes

/-- A directory entry in the form in which a provider sends it: `raw` is the inside of
the JSON string that stands for its name. -/
structure EncodedEntry where
  name : FileName
  raw : Bytes
  denotes : Denotes raw name.bytes
  type : Bytes
  isType : type = ascii "file" ∨ type = ascii "dir"

namespace EncodedEntry

def entry (encoded : EncodedEntry) : HttpfsDirEntry := ⟨encoded.name.bytes, encoded.type⟩

def sent (encoded : EncodedEntry) : HttpfsDirEntry := ⟨encoded.raw, encoded.type⟩

theorem sent_eq_iff (encoded : EncodedEntry) :
    encoded.sent = encoded.entry ↔ byte '\\' ∉ encoded.raw := by
  rw [← encoded.denotes.eq_iff]
  constructor
  · intro same
    exact congrArg HttpfsDirEntry.name same
  · intro same
    rw [sent, entry, same]

theorem fits_of_plain {encoded : EncodedEntry} (plain : byte '\\' ∉ encoded.raw) :
    EntryFits encoded.sent := by
  have short := encoded.name.short
  have same := encoded.denotes.eq_of_plain plain
  constructor
  · simp only [sent, same]
    omega
  · obtain isFile | isDir := encoded.isType
    · simp [sent, isFile, ascii]
    · simp [sent, isDir, ascii]

end EncodedEntry

/-- A JSON document that answers a request for a listing. -/
structure ListingDocument (listing : List EncodedEntry) where
  before : Bytes
  members : Members
  after : Bytes
  items : Items
  beforeGap : isGap before = true
  afterGap : isGap after = true
  scannable : Scannable (.object members)
  status : members.find (ascii "status") = some (.string (ascii "ok"))
  entries : members.find (ascii "entries") = some (.array items)
  carries : List.Forall₂ IsEntry items.toList (listing.map EncodedEntry.sent)
  noNul : 0 ∉ before ++ ((Value.object members).text ++ after)

def ListingDocument.text {listing : List EncodedEntry} (document : ListingDocument listing) :
    Bytes :=
  document.before ++ ((Value.object document.members).text ++ document.after)

structure ListingReply (listing : List EncodedEntry) extends ListingDocument listing where
  room : (Value.object members).count ≤ OK_RESPONSE_TOKENS

def listEndpoint (path : Bytes) : Bytes :=
  simpleGetEndpoint (ascii "/v1/list") (percentEncode path)

def listTransfer (client : HttpfsClient) (path : Bytes) : HttpRequest :=
  ⟨client.baseUrl ++ listEndpoint path, client.timeoutMs, client.verbose, none⟩

section Calls

variable {σ : Type} {reached : σ} {curl : Curl σ} {client : HttpfsClient}
  {before : ClientState σ} {path : Bytes} {headers chunks : List Bytes}
  {listing : List EncodedEntry}

theorem httpfsListDir_received (reply : ListingReply listing)
    (dependable : Dependable curl before.host) (after : Dependable curl reached)
    (fits : (client.baseUrl ++ listEndpoint path).length < 1024)
    (performed : curl.easyPerform (listTransfer client path) before.host =
      (.received 200 headers chunks, reached))
    (answered : chunks.flatten = reply.text) (maxEntries : Nat) :
    Triple (Reached before before.host) (httpfsListDir curl client path maxEntries)
      (fun entries _ =>
        storeEntries maxEntries [] (listing.map EncodedEntry.sent) = .ok entries)
      (fun state : ClientState σ => ∃ error,
        storeEntries maxEntries [] (listing.map EncodedEntry.sent) = .error error ∧
          state.error.map HttpfsError.errnoValue = some error.errnoValue) := by
  obtain ⟨tokens, parsed, placed⟩ := parseOkResponse_document reply.scannable reply.status
    reply.room reply.beforeGap reply.afterGap
  have entries := parseEntries_placed placed reply.scannable reply.entries reply.carries
    maxEntries
  rw [← entries]
  change parseOkResponse reply.text = .ok tokens at parsed
  change Triple _ _ (fun entries _ => parseEntries reply.text tokens maxEntries = .ok entries)
    (fun state : ClientState σ => ∃ error,
      parseEntries reply.text tokens maxEntries = .error error ∧
        state.error.map HttpfsError.errnoValue = some error.errnoValue)
  rw [← answered] at parsed ⊢
  have noNul : 0 ∉ chunks.flatten := by
    rw [answered]
    exact reply.noNul
  have short : (listEndpoint path).length < 1024 := by
    rw [List.length_append] at fits
    omega
  unfold httpfsListDir
  apply triple_bind_value (succeeds_buildEndpoint dependable short).triple
  apply triple_bind_value succeeds_obtainOr.triple
  apply triple_bind_value (succeeds_requestOk dependable after fits rfl performed noNul
    parsed).triple
  apply triple_passOn
  · intro value isOk _ _
    exact isOk
  · intro error isError _ _
    exact ⟨error, isError, rfl⟩

/-- The client returns the entries of a listing as they were meant just when the caller
has room for them and no name was sent with an escape in it. -/
theorem httpfsListDir_exact_iff (reply : ListingReply listing)
    (dependable : Dependable curl before.host) (after : Dependable curl reached)
    (fits : (client.baseUrl ++ listEndpoint path).length < 1024)
    (performed : curl.easyPerform (listTransfer client path) before.host =
      (.received 200 headers chunks, reached))
    (answered : chunks.flatten = reply.text) (maxEntries : Nat) :
    (httpfsListDir curl client path maxEntries before).1 =
        some (listing.map EncodedEntry.entry) ↔
      listing.length ≤ maxEntries ∧ ∀ encoded ∈ listing, byte '\\' ∉ encoded.raw := by
  have returned : (httpfsListDir curl client path maxEntries before).1 =
      (storeEntries maxEntries [] (listing.map EncodedEntry.sent)).toOption := by
    refine triple_result (triple_consequence (httpfsListDir_received reply dependable after
      fits performed answered maxEntries) (fun _ start => start) ?_ ?_) (Reached.refl before)
    · intro entries _ isOk
      rw [isOk]
      rfl
    · rintro _ ⟨error, isError, _⟩
      rw [isError]
      rfl
  have exact_iff : listing.map EncodedEntry.sent = listing.map EncodedEntry.entry ↔
      ∀ encoded ∈ listing, byte '\\' ∉ encoded.raw := by
    rw [List.map_inj_left]
    exact forall₂_congr fun encoded _ => encoded.sent_eq_iff
  rw [returned, ← exact_iff]
  constructor
  · intro accepted
    cases stored : storeEntries maxEntries [] (listing.map EncodedEntry.sent) with
    | error error => simp [stored, Except.toOption] at accepted
    | ok entries =>
        have isSent := stored
        rw [storeEntries_fitting (Nat.zero_le maxEntries) (storeEntries_ok stored)] at isSent
        split at isSent
        · next room =>
          rw [List.nil_append, Except.ok.injEq] at isSent
          rw [stored, ← isSent] at accepted
          exact ⟨by simpa using room, Option.some.inj accepted⟩
        · contradiction
  · rintro ⟨room, same⟩
    have plain := exact_iff.mp same
    rw [storeEntries_fitting (Nat.zero_le maxEntries)
      (by
        simp only [List.forall_mem_map]
        exact fun encoded member => EncodedEntry.fits_of_plain (plain encoded member)),
      if_pos (by simpa using room), same]
    rfl

end Calls

/-! The listing of the C provider. -/

namespace CProvider

variable {κ : Type}

private def member (key : String) (value : Value) (rest : Members) : Members :=
  .cons [] (ascii key) [] [] value [] rest

def entryItems (kernel : Kernel κ) (host : Host κ) (localPath : Bytes) : List Bytes → Items
  | [] => .nil []
  | name :: names =>
      .cons [] (.object (member "name" (.string (escapedText name))
        (member "type" (.string (entryType kernel host (localPath ++ ascii "/" ++ name)))
          (.nil [])))) [] (entryItems kernel host localPath names)

def listMembers (items : Items) : Members :=
  member "status" (.string (ascii "ok")) (member "entries" (.array items) (.nil []))

theorem listMembers_text (items : Items) :
    (Value.object (listMembers items)).text = listHead ++ items.text ++ ascii "]\x7d" := by
  simp [Value.text, listMembers, member, Members.text, Members.separator, quoted, listHead,
    ascii, byte]

def servedEntry (kernel : Kernel κ) (host : Host κ) (localPath : Bytes) (name : FileName) :
    EncodedEntry where
  name := name
  raw := escapedText name.bytes
  denotes := denotes_escapedText name.bytes
  type := entryType kernel host (localPath ++ ascii "/" ++ name.bytes)
  isType := by
    unfold entryType
    split
    · split
      · exact .inr rfl
      · exact .inl rfl
    · exact .inl rfl

theorem isStringBody_type (encoded : EncodedEntry) :
    isStringBody .plain encoded.type = true := by
  obtain isFile | isDir := encoded.isType
  · rw [isFile]
    decide
  · rw [isDir]
    decide

section Listing

variable (kernel : Kernel κ) (host : Host κ) (localPath : Bytes)

theorem entryItems_carries (names : List FileName) :
    List.Forall₂ IsEntry
      (entryItems kernel host localPath (names.map FileName.bytes)).toList
      ((names.map (servedEntry kernel host localPath)).map EncodedEntry.sent) := by
  induction names with
  | nil => exact .nil
  | cons name names induction => exact .cons ⟨_, rfl, rfl, rfl⟩ induction

theorem entryItems_scannable (names : List FileName) :
    (entryItems kernel host localPath (names.map FileName.bytes)).Lexical
      (isStringBody .plain) isPrimitiveBody := by
  induction names with
  | nil => rfl
  | cons name names induction =>
      have raw := isStringBody_of_denotes (denotes_escapedText name.bytes)
      have type := isStringBody_type (servedEntry kernel host localPath name)
      exact ⟨rfl, ⟨rfl, by decide, rfl, rfl, raw, rfl, rfl, by decide, rfl, rfl, type, rfl,
        rfl⟩, rfl, induction⟩

theorem entryItems_count (names : List FileName) :
    (entryItems kernel host localPath (names.map FileName.bytes)).count =
      5 * names.length := by
  induction names with
  | nil => rfl
  | cons name names induction =>
      simp only [List.map_cons, entryItems, Items.count, Value.count, member, Members.count,
        induction, List.length_cons]
      omega

theorem zero_not_mem_entryItems (names : List FileName) :
    0 ∉ (entryItems kernel host localPath (names.map FileName.bytes)).text := by
  induction names with
  | nil => simp [entryItems, Items.text]
  | cons name names induction =>
      have raw := zero_not_mem_escapedText name.noNul
      have type : 0 ∉ entryType kernel host (localPath ++ ascii "/" ++ name.bytes) := by
        obtain isFile | isDir := (servedEntry kernel host localPath name).isType
        · change 0 ∉ (servedEntry kernel host localPath name).type
          rw [isFile]
          decide
        · change 0 ∉ (servedEntry kernel host localPath name).type
          rw [isDir]
          decide
      have comma : 0 ∉ (entryItems kernel host localPath
          (names.map FileName.bytes)).separator := by
        cases names with
        | nil => simp [entryItems, Items.separator]
        | cons => simp [entryItems, Items.separator, byte]
      simp only [List.map_cons, entryItems, Items.text, Value.text, Members.text, member,
        Members.separator, quoted, List.mem_append, List.mem_cons, List.not_mem_nil,
        List.nil_append, not_or, or_false]
      generalize entryType kernel host (localPath ++ ascii "/" ++ name.bytes) = kind at type ⊢
      simp [raw, type, comma, induction, ascii, byte]

def listingDocument (names : List FileName) :
    ListingDocument (names.map (servedEntry kernel host localPath)) where
  before := []
  members := listMembers (entryItems kernel host localPath (names.map FileName.bytes))
  after := []
  items := entryItems kernel host localPath (names.map FileName.bytes)
  beforeGap := isGap_nil
  afterGap := isGap_nil
  scannable := ⟨rfl, by decide, rfl, rfl, show isStringBody .plain (ascii "ok") = true by decide,
    rfl, rfl, by decide, rfl, rfl, entryItems_scannable kernel host localPath names, rfl, rfl⟩
  status := rfl
  entries := rfl
  carries := entryItems_carries kernel host localPath names
  noNul := by
    rw [listMembers_text, List.nil_append, List.append_nil, List.mem_append, List.mem_append,
      not_or, not_or]
    exact ⟨⟨by decide, zero_not_mem_entryItems kernel host localPath names⟩, by decide⟩

theorem listingDocument_count (names : List FileName) :
    (Value.object (listingDocument kernel host localPath names).members).count =
      5 * names.length + 5 := by
  simp only [listingDocument, Value.count, listMembers, member, Members.count,
    entryItems_count kernel host localPath names]
  omega

def listingReply (names : List FileName)
    (room : 5 * names.length + 5 ≤ OK_RESPONSE_TOKENS) :
    ListingReply (names.map (servedEntry kernel host localPath)) where
  toListingDocument := listingDocument kernel host localPath names
  room := by
    rw [listingDocument_count]
    exact room

end Listing

def quotedName : FileName := ⟨ascii "a\"b", by decide, by decide, by decide⟩

def quotedKernel : Kernel Unit :=
  { Kernel.single (ascii "/srv/a\"b") with opendir := fun _ _ => .ok [quotedName.bytes] }

end CProvider

open CProvider

def quotedCurl : Curl (Host Unit) := directCurl quotedKernel (ascii "/srv") localClient.baseUrl

/-- The name comes back with the backslash that the provider put before the quote. -/
theorem quotedName_changed :
    quotedKernel.opendir () (ascii "/srv") = .ok [ascii "a\"b"] ∧
      (httpfsListDir quotedCurl localClient (ascii "/") 512 (.start (.calm []) [])).1 =
        some [⟨ascii "a\\\"b", ascii "file"⟩] ∧
      ascii "a\\\"b" ≠ ascii "a\"b" :=
  ⟨rfl, by decide +kernel, by decide⟩

def quotedReply : ListingReply [servedEntry quotedKernel (.calm []) (ascii "/srv") quotedName] :=
  listingReply quotedKernel (.calm []) (ascii "/srv") [quotedName] (by decide)

theorem httpfsListDir_exact_iff_quoted :
    (httpfsListDir quotedCurl localClient (ascii "/") 512 (.start (.calm []) [])).1 =
        some ([servedEntry quotedKernel (.calm []) (ascii "/srv") quotedName].map
          EncodedEntry.entry) ↔
      [servedEntry quotedKernel (.calm []) (ascii "/srv") quotedName].length ≤ 512 ∧
        ∀ encoded ∈ [servedEntry quotedKernel (.calm []) (ascii "/srv") quotedName],
          byte '\\' ∉ encoded.raw :=
  have dependable (host : Host Unit) : Dependable quotedCurl host :=
    ⟨rfl, fun _ => rfl, fun _ => rfl⟩
  have performed : (quotedCurl.easyPerform (listTransfer localClient (ascii "/"))
      (.calm [])).1 = .received 200 (sendOk quotedReply.text).headers [quotedReply.text] := by
    decide +kernel
  httpfsListDir_exact_iff quotedReply (dependable (.calm [])) (dependable _) (by decide)
    (Prod.ext performed rfl) (List.flatten_singleton) 512

end HttpFs
