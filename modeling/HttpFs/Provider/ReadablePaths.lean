import HttpFs.Provider.PostBodies

namespace HttpFs

open Json

/-- A byte whose escape sequence `json_get_string` knows, or which has none. -/
def ReadableByte (ch : UInt8) : Prop :=
  0x20 ≤ ch ∨ ch = byte '\t' ∨ ch = byte '\n' ∨ ch = byte '\r'

instance (ch : UInt8) : Decidable (ReadableByte ch) :=
  inferInstanceAs (Decidable (_ ∨ _))

theorem knownEscapes_escapeByte (ch : UInt8) :
    KnownEscapes (escapeByte ch) ↔ ReadableByte ch := by
  have row := of_table (p := fun ch =>
    decide (KnownEscapes (escapeByte ch)) == decide (ReadableByte ch)) (by decide +kernel) ch
  simpa using row

theorem knownEscapes_escapedText (content : Bytes) :
    KnownEscapes (escapedText content) ↔ ∀ ch ∈ content, ReadableByte ch := by
  induction content with
  | nil => simp [KnownEscapes, escapedText, escapeLetters]
  | cons ch rest induction =>
      have shape : escapedText (ch :: rest) = escapeByte ch ++ escapedText rest := rfl
      rw [shape, KnownEscapes, (denotes_escapeByte ch).escapeLetters_append,
        List.forall_mem_append, List.forall_mem_cons, ← knownEscapes_escapeByte, ← induction]
      rfl

theorem jsonGetString_string {key content : Bytes} {fields before after : List Field}
    {outputSize : Nat} (shape : fields = before ++ ⟨key, .string content⟩ :: after)
    (plain : PlainKey key) (short : key.length < 100)
    (others : ∀ other ∈ before, PlainKey other.key ∧ other.key ≠ key)
    (room : 1 < outputSize) :
    jsonGetString (objectText fields) key outputSize =
      if (∀ ch ∈ content, ReadableByte ch) ∧ content.length + 1 < outputSize then some content
      else none := by
  have fits : snprintf 128 (stringPattern key) = stringPattern key := by
    apply snprintf_of_lt
    simp [stringPattern, keyPattern]
    omega
  have sameRoom : (content = [] ∨ ([] : Bytes).length + content.length + 1 < outputSize) ↔
      content.length + 1 < outputSize := by
    constructor
    · rintro (rfl | fits)
      · exact room
      · simpa using fits
    · exact fun fits => .inr (by simpa using fits)
  rw [jsonGetString, fits, shape, behind_string plain others, Option.bind_some,
    jsonGetStringLoop_denotes (denotes_escapedText content), List.nil_append]
  simp only [sameRoom, knownEscapes_escapedText]

theorem jsonGetString_readable {key content : Bytes} {fields before after : List Field}
    (shape : fields = before ++ ⟨key, .string content⟩ :: after)
    (plain : PlainKey key) (short : key.length < 100)
    (others : ∀ other ∈ before, PlainKey other.key ∧ other.key ≠ key)
    (fitsOutput : content.length ≤ 2046) :
    jsonGetString (objectText fields) key 2048 =
      if ∀ ch ∈ content, ReadableByte ch then some content else none := by
  have room : content.length + 1 < 2048 := by omega
  rw [jsonGetString_string shape plain short others (by decide)]
  simp only [room, and_true]

/-- The string members of the body of a request, with the path each one carries. -/
def PostRequest.pathMembers : PostRequest → List (Bytes × Bytes)
  | createFile path _ | createDir path _ | removeFile path | removeDir path
  | truncate path _ | utimens path _ _ => [(ascii "path", path)]
  | rename oldPath newPath => [(ascii "old_path", oldPath), (ascii "new_path", newPath)]

theorem PostRequest.mem_paths {request : PostRequest} {member : Bytes × Bytes}
    (isMember : member ∈ request.pathMembers) : member.2 ∈ request.paths := by
  cases request <;> simp only [pathMembers, List.mem_cons, List.not_mem_nil, or_false]
    at isMember
  case rename => obtain rfl | rfl := isMember <;> simp [paths]
  all_goals
    subst isMember
    simp [paths]

theorem PostRequest.pathMembers_located {request : PostRequest} {member : Bytes × Bytes}
    (noNul : 0 ∉ member.2) (isMember : member ∈ request.pathMembers) :
    ∃ before after, request.fields = before ++ ⟨member.1, .string member.2⟩ :: after ∧
      PlainKey member.1 ∧ member.1.length < 100 ∧
      ∀ other ∈ before, PlainKey other.key ∧ other.key ≠ member.1 := by
  have kept := cString_of_noNul noNul
  have first : ∀ path rest, request.fields = pathField path :: rest →
      member = (ascii "path", path) →
      ∃ before after, request.fields = before ++ ⟨member.1, .string member.2⟩ :: after ∧
        PlainKey member.1 ∧ member.1.length < 100 ∧
        ∀ other ∈ before, PlainKey other.key ∧ other.key ≠ member.1 := by
    intro path rest shape same
    subst same
    refine ⟨[], rest, ?_, (by decide : PlainKey (ascii "path")),
      (by decide : (ascii "path").length < 100), by simp⟩
    rw [shape, pathField, kept]
    rfl
  cases request with
  | createFile path _ | createDir path _ | removeFile path | removeDir path
  | truncate path _ | utimens path _ _ =>
      exact first path _ rfl (List.mem_singleton.mp isMember)
  | rename oldPath newPath =>
      simp only [pathMembers, List.mem_cons, List.not_mem_nil, or_false] at isMember
      obtain rfl | rfl := isMember
      · refine ⟨[], [⟨ascii "new_path", .string (cString newPath)⟩], ?_,
          (by decide : PlainKey (ascii "old_path")),
          (by decide : (ascii "old_path").length < 100), by simp⟩
        simp only [fields, kept, List.nil_append]
      · refine ⟨[⟨ascii "old_path", .string (cString oldPath)⟩], [], ?_,
          (by decide : PlainKey (ascii "new_path")),
          (by decide : (ascii "new_path").length < 100), ?_⟩
        · simp only [fields, kept, List.cons_append, List.nil_append]
        · simp only [List.mem_singleton, forall_eq]
          decide

/-- The provider reads a path back from the body that the client builds for it if and
only if the path has no control byte other than a tab, a line feed or a carriage
return. -/
theorem jsonGetString_body_iff {request : PostRequest} {text : Bytes}
    (noNul : ∀ path ∈ request.paths, 0 ∉ path)
    (fits : ∀ path ∈ request.paths, path.length ≤ 2046)
    (built : request.body = some text) :
    ∀ member ∈ request.pathMembers,
      (jsonGetString (cString text) member.1 2048).isSome ↔
        ∀ ch ∈ member.2, ReadableByte ch := by
  intro member isMember
  obtain ⟨before, after, shape, plain, short, others⟩ :=
    PostRequest.pathMembers_located (noNul member.2 (PostRequest.mem_paths isMember)) isMember
  obtain rfl := PostRequest.body_eq built
  rw [request.cString_fields, jsonGetString_readable shape plain short others
    (fits member.2 (PostRequest.mem_paths isMember))]
  by_cases readable : ∀ ch ∈ member.2, ReadableByte ch
  · simp
  · simp [readable]

def renameRequest : PostRequest := .rename (ascii "/a \"b\"\n") (ascii "/c\\d")

theorem jsonGetString_body_renamed :
    (jsonGetString (cString (ascii "\x7b\"old_path\":\"/a \\\"b\\\"\\n\",\"new_path\":\"/c\\\\d\"\x7d"))
      (ascii "old_path") 2048).isSome := by
  have built : renameRequest.body =
      some (ascii "\x7b\"old_path\":\"/a \\\"b\\\"\\n\",\"new_path\":\"/c\\\\d\"\x7d") := by
    decide +kernel
  have noNul : ∀ path ∈ renameRequest.paths, 0 ∉ path := by decide
  exact (jsonGetString_body_iff noNul (by decide) built
    (ascii "old_path", ascii "/a \"b\"\n") (by decide)).mpr (by decide)

/-- The escape sequence for a backspace is one that the provider does not know. -/
theorem jsonGetString_backspace :
    ¬ ∀ (request : PostRequest) (text : Bytes),
      (∀ path ∈ request.paths, 0 ∉ path) →
      (∀ path ∈ request.paths, path.length ≤ 2046) → request.body = some text →
      ∀ member ∈ request.pathMembers,
        (jsonGetString (cString text) member.1 2048).isSome := by
  intro readable
  have built : (PostRequest.removeFile [byte '/', 8]).body =
      some (ascii "\x7b\"path\":\"/\\b\"\x7d") := by decide +kernel
  have succeeds := readable (.removeFile [byte '/', 8]) _ (by decide) (by decide) built
    (ascii "path", [byte '/', 8]) (by decide)
  exact absurd succeeds (by decide +kernel)

end HttpFs
