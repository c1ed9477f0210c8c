import Mathlib.Algebra.Group.Int.Defs
import Mathlib.Algebra.Group.Nat.Defs

namespace HttpFs

/-- The contents of a C character array. -/
abbrev Bytes := List UInt8

def byte (character : Char) : UInt8 := character.toNat.toUInt8

/-- The bytes of an ASCII string literal, without its terminating NUL. -/
def ascii (text : String) : Bytes := text.toList.map byte

instance (p : UInt8 → Prop) [DecidablePred p] (text : Bytes) : Decidable (∀ c ∈ text, p c) :=
  List.decidableBAll p text

theorem of_table {p : UInt8 → Bool} (table : ∀ n : Fin 256, p (UInt8.ofNat n.val) = true)
    (c : UInt8) : p c = true := by
  have entry := table ⟨c.toNat, c.toNat_lt⟩
  simpa using entry

/-- The C string that starts at the first byte of `memory`. -/
def cString (memory : Bytes) : Bytes := memory.takeWhile (fun b => b != 0)

theorem cString_of_noNul {text : Bytes} (noNul : 0 ∉ text) :
    cString text = text := by
  induction text with
  | nil => rfl
  | cons head tail induction =>
      simp only [List.mem_cons, not_or] at noNul
      have headKept : (head != 0) = true := bne_iff_ne.mpr (Ne.symm noNul.1)
      simp only [cString, List.takeWhile_cons, headKept, if_true]
      exact congrArg (List.cons head) (induction noNul.2)

theorem cString_append {text : Bytes} (noNul : 0 ∉ text) (rest : Bytes) :
    cString (text ++ rest) = text ++ cString rest := by
  apply List.takeWhile_append_of_pos
  intro b member
  rw [bne_iff_ne]
  rintro rfl
  exact noNul member

theorem cString_of_terminated {text memory : Bytes} (noNul : 0 ∉ text)
    (terminated : text ++ [0] <+: memory) : cString memory = text := by
  obtain ⟨rest, rfl⟩ := terminated
  have nothing : cString ([0] ++ rest) = [] := rfl
  rw [List.append_assoc, cString_append noNul, nothing, List.append_nil]

theorem zero_not_mem_cString (memory : Bytes) : 0 ∉ cString memory := by
  induction memory with
  | nil => simp [cString]
  | cons head tail induction =>
      simp only [cString, List.takeWhile_cons]
      split
      · next kept =>
        simp only [List.mem_cons, not_or]
        exact ⟨fun zero => by simp [← zero] at kept, induction⟩
      · simp

/-- `memcpy` to the place `index` of a buffer. -/
def copyInto (buffer : Bytes) (index : Nat) (input : Bytes) : Bytes :=
  buffer.take index ++ input ++ buffer.drop (index + input.length)

theorem take_copyInto {buffer input : Bytes} {start : Nat}
    (bound : start + input.length ≤ buffer.length) :
    (copyInto buffer start input).take (start + input.length) =
      buffer.take start ++ input := by
  have length : (buffer.take start ++ input).length = start + input.length := by
    simp
    omega
  rw [copyInto, ← length, List.take_left']
  rfl

theorem length_copyInto {buffer input : Bytes} {start : Nat}
    (bound : start + input.length ≤ buffer.length) :
    (copyInto buffer start input).length = buffer.length := by
  simp [copyInto]
  omega

/-- What `snprintf` leaves in a buffer of `size` bytes, its NUL left out. -/
def snprintf (size : Nat) (text : Bytes) : Bytes := text.take (size - 1)

theorem snprintf_of_lt {size : Nat} {text : Bytes} (fits : text.length < size) :
    snprintf size text = text :=
  List.take_of_length_le (by omega)

/-- `strstr`: the haystack from the first occurrence of the needle on. -/
def strstr (needle : Bytes) : Bytes → Option Bytes
  | [] => if needle = [] then some [] else none
  | head :: tail =>
      if needle <+: head :: tail then
        some (head :: tail)
      else
        strstr needle tail

theorem strstr_leading {needle haystack : Bytes}
    (occurs : needle <+: haystack) : strstr needle haystack = some haystack := by
  cases haystack with
  | nil => simp [strstr, List.prefix_nil.mp occurs]
  | cons head tail => simp [strstr, occurs]

theorem strstr_suffix {needle haystack found : Bytes}
    (result : strstr needle haystack = some found) :
    needle <+: found ∧ found <:+ haystack := by
  induction haystack with
  | nil =>
      simp only [strstr] at result
      split at result
      · next empty => cases result; simp [empty]
      · contradiction
  | cons head tail induction =>
      simp only [strstr] at result
      split at result
      · next occurs => cases result; exact ⟨occurs, List.suffix_rfl⟩
      · obtain ⟨occurs, suffix⟩ := induction result
        exact ⟨occurs, suffix.trans (List.suffix_cons head tail)⟩

theorem strstr_isSome_iff {needle haystack : Bytes} :
    (strstr needle haystack).isSome ↔ needle <:+: haystack := by
  constructor
  · intro found
    obtain ⟨suffix, result⟩ := Option.isSome_iff_exists.mp found
    obtain ⟨occurs, isSuffix⟩ := strstr_suffix result
    exact occurs.isInfix.trans isSuffix.isInfix
  · rintro ⟨before, after, rfl⟩
    induction before with
    | nil =>
        rw [List.nil_append, strstr_leading (List.prefix_append needle after)]
        rfl
    | cons head tail induction =>
        simp only [List.cons_append, List.append_assoc, strstr] at induction ⊢
        split
        · rfl
        · exact induction

/-- No occurrence of `needle` in `before ++ rest` starts inside `before`. -/
def Avoids (needle : Bytes) : Bytes → Bytes → Prop
  | [], _ => True
  | head :: tail, rest =>
      ¬ needle <+: head :: tail ++ rest ∧ Avoids needle tail rest

theorem Avoids.append {needle first second rest : Bytes}
    (firstAvoids : Avoids needle first (second ++ rest))
    (secondAvoids : Avoids needle second rest) :
    Avoids needle (first ++ second) rest := by
  induction first with
  | nil => exact secondAvoids
  | cons head tail induction =>
      refine ⟨?_, induction firstAvoids.2⟩
      simpa using firstAvoids.1

theorem strstr_append {needle before rest : Bytes}
    (avoids : Avoids needle before rest) :
    strstr needle (before ++ rest) = strstr needle rest := by
  induction before with
  | nil => rfl
  | cons head tail induction =>
      have absent : ¬ needle <+: head :: (tail ++ rest) := avoids.1
      simp only [List.cons_append, strstr, absent, if_false]
      exact induction avoids.2

theorem avoids_of_not_mem {first : UInt8} {needle before rest : Bytes}
    (absent : first ∉ before) : Avoids (first :: needle) before rest := by
  induction before with
  | nil => trivial
  | cons head tail induction =>
      simp only [List.mem_cons, not_or] at absent
      refine ⟨?_, induction absent.2⟩
      intro occurs
      exact absent.1 (List.cons_prefix_cons.mp occurs).1

theorem strstr_append_right {needle text found : Bytes} (more : Bytes)
    (result : strstr needle text = some found) :
    strstr needle (text ++ more) = some (found ++ more) := by
  induction text with
  | nil =>
      simp only [strstr] at result
      split at result
      · next empty =>
        cases result
        rw [empty, List.nil_append]
        exact strstr_leading List.nil_prefix
      · contradiction
  | cons head tail induction =>
      simp only [strstr] at result
      split at result
      · next occurs =>
        cases result
        exact strstr_leading (occurs.trans (List.prefix_append _ _))
      · next absent =>
        obtain ⟨isPrefix, isSuffix⟩ := strstr_suffix result
        have short : needle.length ≤ (head :: tail).length := by
          have needleLength := isPrefix.length_le
          have foundLength := isSuffix.length_le
          rw [List.length_cons]
          omega
        have stillAbsent : ¬ needle <+: head :: (tail ++ more) := by
          intro occurs
          exact absent (List.prefix_of_prefix_length_le occurs
            (List.prefix_append (head :: tail) more) short)
        simp only [List.cons_append, strstr, stillAbsent, if_false]
        exact induction result

/-- An occurrence of the needle cannot reach over a byte that is not in it. -/
theorem avoids_of_not_infix {needle text rest : Bytes} {stop : UInt8}
    (foreign : stop ∉ needle) (absent : ¬ needle <:+: text) :
    Avoids needle text (stop :: rest) := by
  induction text with
  | nil => trivial
  | cons c tail induction =>
      refine ⟨?_, induction fun inside => absent (inside.trans (List.suffix_cons c tail).isInfix)⟩
      intro occurs
      rcases Nat.lt_or_ge (c :: tail).length needle.length with long | short
      · have found : stop ∈ needle := by
          obtain ⟨after, whole⟩ := occurs
          have element : (needle ++ after)[(c :: tail).length]? = some stop := by
            rw [whole, List.getElem?_append_right (Nat.le_refl _)]
            simp
          rw [List.getElem?_append_left long] at element
          exact List.mem_of_getElem? element
        exact foreign found
      · have inner : needle <+: c :: tail :=
          List.prefix_of_prefix_length_le occurs (List.prefix_append _ _) short
        exact absent inner.isInfix

/-- A text that is followed by another is searched up to its last byte, then the other. -/
theorem strstr_beyond {needle front rest : Bytes} {stop : UInt8} (nonempty : needle ≠ [])
    (foreign : stop ∉ needle) :
    strstr needle (front ++ [stop] ++ rest) =
      ((strstr needle (front ++ [stop])).map fun found => found ++ rest).or
        (strstr needle rest) := by
  cases result : strstr needle (front ++ [stop]) with
  | some found => exact strstr_append_right rest result
  | none =>
      have absent : ¬ needle <:+: front := by
        intro inside
        have occurs := strstr_isSome_iff.mpr
          (inside.trans (List.prefix_append front [stop]).isInfix)
        rw [result] at occurs
        contradiction
      have notStop : Avoids needle [stop] rest := by
        cases needle with
        | nil => contradiction
        | cons first tail =>
            apply avoids_of_not_mem
            rw [List.mem_singleton]
            rintro rfl
            exact foreign (List.mem_cons_self)
      have inFront : Avoids needle front ([stop] ++ rest) :=
        avoids_of_not_infix foreign absent
      rw [strstr_append (Avoids.append inFront notStop)]
      rfl

/-- Up to its end, the first occurrence is the first one too. -/
theorem strstr_first {needle before after : Bytes}
    (result : strstr needle (before ++ needle ++ after) = some (needle ++ after)) :
    strstr needle (before ++ needle) = some needle := by
  have occurs : (strstr needle (before ++ needle)).isSome :=
    strstr_isSome_iff.mpr (List.suffix_append before needle).isInfix
  obtain ⟨start, isStart⟩ := Option.isSome_iff_exists.mp occurs
  have longer := strstr_append_right after isStart
  rw [result, Option.some.injEq] at longer
  rw [isStart, List.append_cancel_right longer]

def lowerCase (b : UInt8) : UInt8 :=
  if 65 ≤ b ∧ b ≤ 90 then b + 32 else b

/-- `strncasecmp(text, name, strlen(name)) == 0`. -/
def startsWithIgnoringCase (text name : Bytes) : Bool :=
  (text.take name.length).map lowerCase == name.map lowerCase

end HttpFs
