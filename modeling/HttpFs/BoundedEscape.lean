import HttpFs.Foundation.Audit
import HttpFs.JsonUtils

namespace HttpFs

open Json Logged

/-! `json_escape_string` with every byte that it stores. -/

structure ByteStore where
  index : Nat
  value : UInt8
  deriving Repr, DecidableEq

def put (index : Nat) (value : UInt8) : Logged ByteStore Unit := note ⟨index, value⟩

def putAll : Nat → Bytes → Logged ByteStore Unit
  | _, [] => pure ()
  | index, value :: rest => do
      put index value
      putAll (index + 1) rest

/-- `snprintf(output + index, size, ...)` of a text, which ends what it stores with a NUL. -/
def snprintfInto (index size : Nat) (text : Bytes) : Logged ByteStore Unit :=
  if size = 0 then pure () else putAll index (snprintf size text ++ [0])

/-- The loop of `json_escape_string`; `true` is the return value 0. -/
def jsonEscapeLoopLogged (outputSize : Nat) : Bytes → Nat → Logged ByteStore Bool
  | [], outPos => do
      put outPos 0
      return true
  | ch :: rest, outPos =>
      if outPos + 2 ≥ outputSize then
        return false
      else
        match shortEscape ch with
        | some letter => do
            put outPos (byte '\\')
            put (outPos + 1) letter
            jsonEscapeLoopLogged outputSize rest (outPos + 2)
        | none =>
            if ch < 0x20 then
              if outPos + 6 ≥ outputSize then
                return false
              else do
                snprintfInto outPos (outputSize - outPos) (unicodeEscape ch)
                jsonEscapeLoopLogged outputSize rest (outPos + 6)
            else do
              put outPos ch
              jsonEscapeLoopLogged outputSize rest (outPos + 1)

def jsonEscapeStringLogged (input : Bytes) (outputSize : Nat) : Logged ByteStore Bool :=
  if outputSize = 0 then return false else jsonEscapeLoopLogged outputSize (cString input) 0

/-- The stores change an array, and none may lie outside of it. -/
def storeAudit : Audit Bytes ByteStore where
  after := fun buffer store => buffer.set store.index store.value
  promised := fun _ => True
  sound := fun buffer store => store.index < buffer.length

/-- The array has kept its size and starts with what has been written. -/
def Holds (size : Nat) (output buffer : Bytes) : Prop :=
  buffer.length = size ∧ output <+: buffer

theorem prefix_set {output buffer : Bytes} (isPrefix : output <+: buffer) (value : UInt8)
    (room : output.length < buffer.length) :
    output ++ [value] <+: buffer.set output.length value := by
  obtain ⟨rest, rfl⟩ := isPrefix
  rw [List.set_append_right _ _ (Nat.le_refl _), Nat.sub_self]
  cases rest with
  | nil => simp at room
  | cons first rest => exact ⟨rest, by simp⟩

section Stores

variable {size : Nat} {output buffer : Bytes}

theorem meets_put {index : Nat} (value : UInt8) (holds : Holds size output buffer)
    (isNext : index = output.length) (room : index < size) :
    storeAudit.Meets buffer (put index value)
      (fun reached _ => Holds size (output ++ [value]) reached) := by
  obtain ⟨length, isPrefix⟩ := holds
  subst isNext
  apply Audit.meets_note
  intro _
  refine ⟨by rwa [← length] at room, ?_, prefix_set isPrefix value (by rwa [length])⟩
  change (buffer.set _ _).length = size
  rw [List.length_set, length]

theorem meets_putAll {index : Nat} (text : Bytes) (holds : Holds size output buffer)
    (isNext : index = output.length) (room : index + text.length ≤ size) :
    storeAudit.Meets buffer (putAll index text)
      (fun reached _ => Holds size (output ++ text) reached) := by
  induction text generalizing index output buffer with
  | nil =>
      rw [List.append_nil]
      exact Audit.meets_pure holds
  | cons value rest induction =>
      rw [List.length_cons] at room
      apply Audit.meets_bind (meets_put value holds isNext (by omega))
      intro reached _ held
      have next := @induction _ reached (index + 1) held
        (by rw [List.length_append, isNext]; rfl) (by omega)
      rwa [List.append_assoc] at next

theorem Holds.shorten {longer : Bytes} (holds : Holds size (output ++ longer) buffer) :
    Holds size output buffer :=
  ⟨holds.1, (List.prefix_append output longer).trans holds.2⟩

/-- A formatted text and the NUL behind it stay in the room that is left. -/
theorem meets_snprintfInto {index : Nat} (text : Bytes) (holds : Holds size output buffer)
    (isNext : index = output.length) (room : index < size) :
    storeAudit.Meets buffer (snprintfInto index (size - index) text)
      (fun reached _ => Holds size (output ++ (snprintf (size - index) text ++ [0])) reached) := by
  have bound : (snprintf (size - index) text).length ≤ size - index - 1 := List.length_take_le ..
  rw [snprintfInto, if_neg (by omega)]
  apply meets_putAll _ holds isNext
  rw [List.length_append, List.length_singleton]
  omega

theorem meets_jsonEscapeLoopLogged {index : Nat} (input : Bytes)
    (holds : Holds size output buffer) (isNext : index = output.length)
    (room : index < size) :
    storeAudit.Meets buffer (jsonEscapeLoopLogged size input index)
      (fun reached returned => returned = true →
        Holds size (output ++ (input.flatMap escapeByte ++ [0])) reached) := by
  induction input generalizing index output buffer with
  | nil =>
      apply Audit.meets_bind (meets_put 0 holds isNext room)
      intro reached _ held
      exact Audit.meets_pure fun _ => held
  | cons ch rest induction =>
      have continues {reached : Bytes} {next : Nat}
          (held : Holds size (output ++ escapeByte ch) reached)
          (isLater : next = index + (escapeByte ch).length) (inside : next < size) :
          storeAudit.Meets reached (jsonEscapeLoopLogged size rest next)
            (fun reached returned => returned = true →
              Holds size (output ++ ((ch :: rest).flatMap escapeByte ++ [0])) reached) := by
        have later := @induction _ reached next held
          (by rw [List.length_append, ← isNext]; exact isLater) inside
        rwa [List.append_assoc, ← List.append_assoc (escapeByte ch),
          ← List.flatMap_cons] at later
      simp only [jsonEscapeLoopLogged]
      split
      · exact Audit.meets_pure fun returned => Bool.noConfusion returned
      next two =>
      split
      · next letter short =>
        have shape : escapeByte ch = [byte '\\'] ++ [letter] := by
          simp only [escapeByte, short, List.cons_append, List.nil_append]
        apply Audit.meets_bind (meets_put _ holds isNext room)
        intro first _ heldFirst
        apply Audit.meets_bind (meets_put letter heldFirst
          (by rw [List.length_append, isNext]; rfl) (by omega))
        intro second _ heldSecond
        rw [List.append_assoc, ← shape] at heldSecond
        exact continues heldSecond (by rw [shape]; rfl) (by omega)
      · next short =>
        split
        · next control =>
          have shape : escapeByte ch = unicodeEscape ch := by
            simp only [escapeByte, short, control, if_true]
          split
          · exact Audit.meets_pure fun returned => Bool.noConfusion returned
          next six =>
          have length : (unicodeEscape ch).length = 6 := rfl
          apply Audit.meets_bind (meets_snprintfInto (unicodeEscape ch) holds isNext room)
          intro reached _ held
          rw [snprintf_of_lt (by rw [length]; omega), ← List.append_assoc, ← shape] at held
          exact continues held.shorten (by rw [shape]; rfl) (by omega)
        · next printable =>
          have shape : escapeByte ch = [ch] := by
            simp only [escapeByte, short, printable, if_false]
          apply Audit.meets_bind (meets_put ch holds isNext room)
          intro reached _ held
          rw [← shape] at held
          exact continues held (by rw [shape]; rfl) (by omega)

end Stores

theorem jsonEscapeLoopLogged_value {outputSize outPos : Nat} {input output : Bytes}
    (same : outPos = output.length) :
    (jsonEscapeLoopLogged outputSize input outPos).value =
      (jsonEscapeLoop outputSize input output).isSome := by
  induction input generalizing outPos output with
  | nil => rfl
  | cons ch rest induction =>
      subst same
      simp only [jsonEscapeLoopLogged, jsonEscapeLoop]
      split
      · rfl
      cases shortEscape ch with
      | some letter => exact @induction _ (output ++ [byte '\\', letter]) (by simp)
      | none =>
          simp only
          split
          · split
            · rfl
            · have length : (unicodeEscape ch).length = 6 := rfl
              exact @induction _ (output ++ unicodeEscape ch)
                (by rw [List.length_append, length])
          · exact @induction _ (output ++ [ch]) (by simp)

/-- The stores are those of the function that the client's requests are made with. -/
theorem jsonEscapeStringLogged_value (input : Bytes) (outputSize : Nat) :
    (jsonEscapeStringLogged input outputSize).value =
      (jsonEscapeString input outputSize).isSome := by
  unfold jsonEscapeStringLogged jsonEscapeString
  split
  · rfl
  · exact jsonEscapeLoopLogged_value rfl

/-- The call on this input, with this array for its output, returns 0. -/
def Accepted (input buffer : Bytes) : Prop :=
  (jsonEscapeStringLogged input buffer.length).value = true

instance (input buffer : Bytes) : Decidable (Accepted input buffer) :=
  inferInstanceAs (Decidable (_ = true))

/-- What the array holds after the call. -/
def bufferAfter (input buffer : Bytes) : Bytes :=
  storeAudit.replay buffer (jsonEscapeStringLogged input buffer.length).log

/-- Nothing is stored outside of the array; when the call returns 0, the array holds a
string that a JSON parser reads as the input. -/
structure EncodesWithin (input buffer : Bytes) : Prop where
  inside : ∀ store ∈ (jsonEscapeStringLogged input buffer.length).log,
    store.index < buffer.length
  ended : Accepted input buffer →
    cString (bufferAfter input buffer) ++ [0] <+: bufferAfter input buffer
  printable : Accepted input buffer → ∀ c ∈ cString (bufferAfter input buffer), 0x20 ≤ c
  quoted : Accepted input buffer → hasBareQuote (cString (bufferAfter input buffer)) = false
  decoded : Accepted input buffer →
    unescape (cString (bufferAfter input buffer)) = some (cString input)
  distinct : Accepted input buffer → ∀ other otherBuffer, Accepted other otherBuffer →
    cString input ≠ cString other →
      cString (bufferAfter input buffer) ≠ cString (bufferAfter other otherBuffer)

theorem stores_inside {buffer : Bytes} {stores : List ByteStore}
    (passes : storeAudit.Passes buffer stores) :
    ∀ store ∈ stores, store.index < buffer.length := by
  induction stores generalizing buffer with
  | nil => simp
  | cons first rest induction =>
      obtain ⟨sound, later⟩ := passes
      have inRest := induction later
      have length : (storeAudit.after buffer first).length = buffer.length := List.length_set
      rw [length] at inRest
      exact List.forall_mem_cons.mpr ⟨sound, inRest⟩

theorem jsonEscapeStringLogged_meets (input buffer : Bytes) :
    (∀ store ∈ (jsonEscapeStringLogged input buffer.length).log,
        store.index < buffer.length) ∧
      (Accepted input buffer →
        (cString input).flatMap escapeByte ++ [0] <+: bufferAfter input buffer) := by
  simp only [Accepted, bufferAfter, jsonEscapeStringLogged]
  split
  · exact ⟨by simp, fun accepted => Bool.noConfusion accepted⟩
  · next nonempty =>
    have start : Holds buffer.length [] buffer := ⟨rfl, List.nil_prefix⟩
    obtain ⟨passes, written⟩ := meets_jsonEscapeLoopLogged (cString input) start rfl
      (Nat.pos_of_ne_zero nonempty) fun _ _ => trivial
    refine ⟨stores_inside passes, ?_⟩
    intro accepted
    simpa using (written accepted).2

theorem cString_bufferAfter {input buffer : Bytes} (accepted : Accepted input buffer) :
    cString (bufferAfter input buffer) = (cString input).flatMap escapeByte := by
  have noNul : 0 ∉ (cString input).flatMap escapeByte := by
    simp only [List.mem_flatMap, not_exists, not_and]
    intro ch member
    apply zero_not_mem_escapeByte
    rintro rfl
    exact zero_not_mem_cString input member
  exact cString_of_terminated noNul ((jsonEscapeStringLogged_meets input buffer).2 accepted)

theorem denotes_bufferAfter {input buffer : Bytes} (accepted : Accepted input buffer) :
    Denotes (cString (bufferAfter input buffer)) (cString input) := by
  rw [cString_bufferAfter accepted]
  exact Denotes.flatMap fun ch _ => denotes_escapeByte ch

/-- `json_escape_string` is a bounded encoder of strings. -/
theorem jsonEscapeString_encodesWithin (input buffer : Bytes) :
    EncodesWithin input buffer where
  inside := (jsonEscapeStringLogged_meets input buffer).1
  ended := by
    intro accepted
    rw [cString_bufferAfter accepted]
    exact (jsonEscapeStringLogged_meets input buffer).2 accepted
  printable := fun accepted => (denotes_bufferAfter accepted).printable
  quoted := fun accepted => (denotes_bufferAfter accepted).hasBareQuote_eq
  decoded := fun accepted => (denotes_bufferAfter accepted).unescape_eq
  distinct := by
    intro accepted other otherBuffer otherAccepted different same
    have decoded := (denotes_bufferAfter accepted).unescape_eq
    rw [same, (denotes_bufferAfter otherAccepted).unescape_eq] at decoded
    exact different (Option.some.inj decoded).symm

example : Accepted (ascii "a\"b\\c\n") (List.replicate 128 1) ∧
    cString (bufferAfter (ascii "a\"b\\c\n") (List.replicate 128 1)) =
      ascii "a\\\"b\\\\c\\n" := by
  decide +kernel

end HttpFs
