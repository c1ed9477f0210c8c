import Mathlib.Data.List.Nodup
import HttpFs.Foundation.Integers
import HttpFs.Foundation.Json
import HttpFs.Provider.FieldSearch

namespace HttpFs

open Json

/-! The bodies of `POST` requests in any layout. -/

abbrev Gap := {gap : Bytes // isGap gap = true}

def noGap : Gap := ⟨[], isGap_nil⟩

/-- The name of a member, written without escapes. -/
structure MemberName where
  bytes : Bytes
  plain : PlainKey bytes
  printable : ∀ c ∈ bytes, 0x20 ≤ c
  deriving DecidableEq

/-- The value of a member, with the text it is written as. -/
inductive RequestValue where
  | string (raw content : Bytes) (denotes : Denotes raw content)
  | integer (raw : Bytes) (value : Int) (literal : integerLiteral raw = some value)

def RequestValue.text : RequestValue → Bytes
  | .string raw _ _ => quoted raw
  | .integer raw _ _ => raw

structure LaidMember where
  before : Gap
  name : MemberName
  keyGap : Gap
  valueGap : Gap
  value : RequestValue
  after : Gap

namespace LaidMember

def field (member : LaidMember) : MemberName × RequestValue := (member.name, member.value)

def text (member : LaidMember) : Bytes :=
  member.before.val ++ (quoted member.name.bytes ++ (member.keyGap.val ++ byte ':' ::
    (member.valueGap.val ++ (member.value.text ++ member.after.val))))

end LaidMember

def separator : List LaidMember → Bytes
  | [] => []
  | _ :: _ => [byte ',']

def membersText : List LaidMember → Bytes
  | [] => []
  | member :: rest => member.text ++ (separator rest ++ membersText rest)

/-- An object of strings and integers, each name given once. -/
structure RequestBody where
  before : Gap
  members : List LaidMember
  inner : Gap
  after : Gap
  distinct : (members.map fun member => member.name.bytes).Nodup

def RequestBody.text (body : RequestBody) : Bytes :=
  body.before.val ++ byte '{' ::
    (membersText body.members ++ (body.inner.val ++ byte '}' :: body.after.val))

def RequestBody.fields (body : RequestBody) : List (MemberName × RequestValue) :=
  body.members.map LaidMember.field

theorem gap_ordinary {gap : Bytes} (isBlank : isGap gap = true) : ∀ c ∈ gap,
    isSpace c = true ∧ isDigit c = false ∧ c ≠ byte '"' ∧ c ≠ byte ':' ∧ c ≠ 0 := by
  intro c member
  have blank := List.all_eq_true.mp isBlank c member
  have row := of_table (p := fun c =>
    !(c == byte ' ' || c == byte '\t' || c == byte '\r' || c == byte '\n') ||
      (isSpace c && !isDigit c && c != byte '"' && c != byte ':' && c != 0))
    (by decide +kernel) c
  simpa [blank, and_assoc] using row

theorem Gap.noQuote (gap : Gap) : byte '"' ∉ gap.val :=
  fun member => (gap_ordinary gap.property _ member).2.2.1 rfl

/-- What follows a value: the end of the object or a comma, behind white space. -/
def EndsMember (rest : Bytes) : Prop :=
  ∃ (gap : Gap) (c : UInt8) (after : Bytes), rest = gap.val ++ c :: after ∧
    (c = byte ',' ∨ c = byte '}' ∧ byte '"' ∉ after)

namespace EndsMember

variable {rest : Bytes}

theorem behind_gap (ends : EndsMember rest) (gap : Gap) : EndsMember (gap.val ++ rest) := by
  obtain ⟨inner, c, after, rfl, closes⟩ := ends
  have joined : isGap (gap.val ++ inner.val) = true := by
    rw [isGap, List.all_append, Bool.and_eq_true]
    exact ⟨gap.property, inner.property⟩
  exact ⟨⟨gap.val ++ inner.val, joined⟩, c, after, by simp, closes⟩

theorem head_ordinary (ends : EndsMember rest) :
    ∀ c ∈ rest.head?, c ≠ byte ':' ∧ isDigit c = false := by
  obtain ⟨gap, c, after, rfl, closes⟩ := ends
  intro head isHead
  cases shape : gap.val with
  | nil =>
      obtain rfl : c = head := by simpa [shape] using isHead
      obtain rfl | ⟨rfl, _⟩ := closes <;> decide
  | cons b blanks =>
      obtain rfl : b = head := by simpa [shape] using isHead
      have ordinary := gap_ordinary gap.property b (by simp [shape])
      exact ⟨ordinary.2.2.2.1, ordinary.2.1⟩

theorem endsNumeral (ends : EndsMember rest) : EndsNumeral rest :=
  fun c isHead => (ends.head_ordinary c isHead).2

theorem noColon (ends : EndsMember rest) : rest.head? ≠ some (byte ':') :=
  fun isHead => (ends.head_ordinary _ isHead).1 rfl

theorem avoids_quote (ends : EndsMember rest) {key more : Bytes} (plain : PlainKey key) :
    Avoids (keyPattern key ++ more) [byte '"'] rest := by
  obtain ⟨gap, c, after, rfl, comma | ⟨rfl, noQuote⟩⟩ := ends
  · exact HttpFs.avoids_quote plain gap.val gap.noQuote (.inl comma)
  · refine ⟨?_, trivial⟩
    intro occurs
    have inside : byte '"' ∈ gap.val ++ byte '}' :: after := by
      apply ((List.prefix_cons_inj (byte '"')).mp occurs).subset
      simp
    simp only [List.mem_append, List.mem_cons] at inside
    obtain inGap | brace | later := inside
    · exact gap.noQuote inGap
    · exact absurd brace (by decide)
    · exact noQuote later

end EndsMember

section Search

variable {key more rest : Bytes} {member : LaidMember}

/-- The member is where the search for a name, its colon and `more` stops. -/
def LaidMember.Reads (member : LaidMember) (key more : Bytes) : Prop :=
  member.name.bytes = key ∧ member.keyGap.val = [] ∧
    more <+: member.valueGap.val ++ member.value.text

theorem RequestValue.text_ne_nil (value : RequestValue) : value.text ≠ [] := by
  cases value with
  | string raw content denotes => simp [text, quoted]
  | integer raw value literal =>
      rintro rfl
      simp [integerLiteral] at literal

theorem RequestValue.avoids (value : RequestValue) (plain : PlainKey key)
    (ends : EndsMember rest) : Avoids (keyPattern key ++ more) value.text rest := by
  cases value with
  | integer raw value literal =>
      apply avoids_of_not_mem
      intro quote
      obtain minus | digit := ordinary_of_literal literal _ quote
      · exact absurd minus (by decide)
      · exact absurd digit (by decide)
  | string raw content denotes =>
      have shape : (RequestValue.string raw content denotes).text =
          [byte '"'] ++ (raw ++ [byte '"']) := rfl
      rw [shape]
      apply Avoids.append
      · refine ⟨?_, trivial⟩
        intro occurs
        apply not_name_in_string denotes (fun c member =>
          ⟨(plain.2 c member).1, (plain.2 c member).2.1⟩) ends.noColon
        simpa [keyPattern] using (List.cons_prefix_cons.mp occurs).2
      · exact Avoids.append (avoids_string denotes plain ends.noColon)
          (ends.avoids_quote plain)

theorem LaidMember.not_at_name (short : more.length ≤ 1)
    (passed : ¬ member.Reads key more) (plain : PlainKey key) :
    ¬ keyPattern key ++ more <+: quoted member.name.bytes ++ (member.keyGap.val ++
      byte ':' :: (member.valueGap.val ++ (member.value.text ++ rest))) := by
  intro occurs
  have behindQuote : key ++ byte '"' :: (byte ':' :: more) <+:
      member.name.bytes ++ byte '"' :: (member.keyGap.val ++
        byte ':' :: (member.valueGap.val ++ (member.value.text ++ rest))) := by
    simpa [keyPattern, quoted] using occurs
  by_cases same : member.name.bytes = key
  · rw [same, List.prefix_append_right_inj, List.cons_prefix_cons] at behindQuote
    cases gap : member.keyGap.val with
    | cons c blanks =>
        have blank := gap_ordinary member.keyGap.property c (by simp [gap])
        rw [gap, List.cons_append, List.cons_prefix_cons] at behindQuote
        exact blank.2.2.2.1 behindQuote.2.1.symm
    | nil =>
        rw [gap, List.nil_append, List.cons_prefix_cons, ← List.append_assoc] at behindQuote
        apply passed ⟨same, gap, ?_⟩
        apply List.prefix_of_prefix_length_le behindQuote.2.2 (List.prefix_append _ _)
        have nonempty := List.length_pos_iff.mpr member.value.text_ne_nil
        simp only [List.length_append]
        omega
  · exact not_other_name same (fun c inKey => (plain.2 c inKey).1)
      (fun c inName => (member.name.plain.2 c inName).1) behindQuote

theorem LaidMember.avoids (short : more.length ≤ 1) (passed : ¬ member.Reads key more)
    (plain : PlainKey key) (ends : EndsMember rest) :
    Avoids (keyPattern key ++ more) member.text rest := by
  have shape : member.text = member.before.val ++ ([byte '"'] ++ (member.name.bytes ++
      ([byte '"'] ++ (member.keyGap.val ++ ([byte ':'] ++ (member.valueGap.val ++
        (member.value.text ++ member.after.val))))))) := by
    simp [text, quoted]
  have behindValue := ends.behind_gap member.after
  have colon : byte '"' ∉ [byte ':'] := by decide
  rw [shape]
  apply Avoids.append (avoids_of_not_mem member.before.noQuote)
  apply Avoids.append
  · refine ⟨?_, trivial⟩
    have absent := @LaidMember.not_at_name key more (member.after.val ++ rest) member short
      passed plain
    simpa [keyPattern, quoted] using absent
  apply Avoids.append
  · apply avoids_of_not_mem
    intro quote
    exact (member.name.plain.2 _ quote).1 rfl
  apply Avoids.append
  · have quote : Avoids (keyPattern key ++ more) [byte '"'] (member.keyGap.val ++ byte ':' ::
        (member.valueGap.val ++ (member.value.text ++ (member.after.val ++ rest)))) :=
      avoids_quote plain member.keyGap.val member.keyGap.noQuote (.inr rfl)
    simpa [keyPattern] using quote
  apply Avoids.append (avoids_of_not_mem member.keyGap.noQuote)
  apply Avoids.append (avoids_of_not_mem colon)
  apply Avoids.append (avoids_of_not_mem member.valueGap.noQuote)
  apply Avoids.append (member.value.avoids plain behindValue)
  exact avoids_of_not_mem member.after.noQuote

theorem ends_before_rest {members : List LaidMember} {tail : Bytes} (ends : EndsMember tail) :
    EndsMember (separator members ++ (membersText members ++ tail)) := by
  cases members with
  | nil => exact ends
  | cons member members => exact ⟨noGap, byte ',', _, rfl, .inl rfl⟩

private theorem strstr_behind {before : Bytes} (noQuote : byte '"' ∉ before) (rest : Bytes) :
    strstr (keyPattern key ++ more) (before ++ rest) =
      strstr (keyPattern key ++ more) rest :=
  strstr_append (avoids_of_not_mem noQuote : Avoids (keyPattern key ++ more) before rest)

/-- The search for a name, its colon and `more` stops at the first member that reads so,
and nowhere else. -/
theorem strstr_members {members : List LaidMember} {tail : Bytes} (short : more.length ≤ 1)
    (plain : PlainKey key) (ends : EndsMember tail) (noQuote : byte '"' ∉ tail) :
    (∃ member ∈ members, member.Reads key more ∧ ∃ rest, EndsMember rest ∧
      strstr (keyPattern key ++ more) (membersText members ++ tail) =
        some (keyPattern key ++ (member.valueGap.val ++ (member.value.text ++ rest)))) ∨
    (∀ member ∈ members, ¬ member.Reads key more) ∧
      strstr (keyPattern key ++ more) (membersText members ++ tail) = none := by
  induction members with
  | nil =>
      right
      have skipped : strstr (keyPattern key ++ more) (tail ++ []) =
          strstr (keyPattern key ++ more) [] := strstr_behind noQuote []
      refine ⟨by simp, ?_⟩
      rw [membersText, List.nil_append]
      simpa [strstr, keyPattern] using skipped
  | cons member members induction =>
      have endsRest : EndsMember (separator members ++ (membersText members ++ tail)) :=
        ends_before_rest ends
      have text : membersText (member :: members) ++ tail =
          member.text ++ (separator members ++ (membersText members ++ tail)) := by
        simp [membersText]
      by_cases reads : member.Reads key more
      · left
        refine ⟨member, by simp, reads, _, endsRest.behind_gap member.after, ?_⟩
        obtain ⟨named, noKeyGap, follows⟩ := reads
        have shape : member.text ++ (separator members ++ (membersText members ++ tail)) =
            member.before.val ++ (keyPattern key ++ (member.valueGap.val ++
              (member.value.text ++ (member.after.val ++
                (separator members ++ (membersText members ++ tail)))))) := by
          simp [LaidMember.text, quoted, keyPattern, named, noKeyGap]
        rw [text, shape, strstr_behind member.before.noQuote]
        apply strstr_leading
        rw [List.prefix_append_right_inj, ← List.append_assoc]
        exact follows.trans (List.prefix_append _ _)
      · have separated : byte '"' ∉ separator members := by
          cases members with
          | nil => simp [separator]
          | cons other others =>
              simp only [separator]
              decide
        rw [text, strstr_append (LaidMember.avoids short reads plain endsRest),
          strstr_behind separated]
        obtain ⟨found, isMember, foundReads⟩ | ⟨none, absent⟩ := induction
        · exact .inl ⟨found, List.mem_cons_of_mem _ isMember, foundReads⟩
        · exact .inr ⟨List.forall_mem_cons.mpr ⟨reads, none⟩, absent⟩

theorem RequestBody.behind_name (body : RequestBody) (short : more.length ≤ 1)
    (plain : PlainKey key) :
    (∃ member ∈ body.members, member.Reads key more ∧ ∃ rest, EndsMember rest ∧
      behind (keyPattern key ++ more) body.text =
        some ((member.valueGap.val ++ (member.value.text ++ rest)).drop more.length)) ∨
    (∀ member ∈ body.members, ¬ member.Reads key more) ∧
      behind (keyPattern key ++ more) body.text = none := by
  have brace : byte '"' ∉ [byte '{'] := by decide
  have tailEnds : EndsMember (body.inner.val ++ byte '}' :: body.after.val) :=
    ⟨body.inner, byte '}', body.after.val, rfl, .inr ⟨rfl, body.after.noQuote⟩⟩
  have tailNoQuote : byte '"' ∉ body.inner.val ++ byte '}' :: body.after.val := by
    simp only [List.mem_append, List.mem_cons, not_or]
    exact ⟨body.inner.noQuote, by decide, body.after.noQuote⟩
  have opening : strstr (keyPattern key ++ more) body.text =
      strstr (keyPattern key ++ more) (membersText body.members ++
        (body.inner.val ++ byte '}' :: body.after.val)) := by
    have shape : body.text = body.before.val ++ ([byte '{'] ++ (membersText body.members ++
        (body.inner.val ++ byte '}' :: body.after.val))) := rfl
    rw [shape, strstr_behind body.before.noQuote, strstr_behind brace]
  obtain ⟨member, isMember, reads, rest, ends, found⟩ | ⟨none, absent⟩ :=
    strstr_members short plain tailEnds tailNoQuote
  · refine .inl ⟨member, isMember, reads, rest, ends, ?_⟩
    rw [behind, opening, found, Option.map_some, List.length_append, ← List.drop_drop,
      List.drop_left]
  · exact .inr ⟨none, by rw [behind, opening, absent, Option.map_none]⟩

end Search

/-! What the two readers of the provider find in a body. -/

def RequestValue.stringResult : RequestValue → Option Bytes
  | .string raw content _ =>
      if KnownEscapes raw ∧ (content = [] ∨ content.length + 1 < 2048) then some content else none
  | .integer _ _ _ => none

def RequestValue.longResult : RequestValue → Option Int
  | .string _ _ _ => none
  | .integer _ value _ => some (clampLong value)

theorem RequestValue.zero_not_mem_text (value : RequestValue) : 0 ∉ value.text := by
  cases value with
  | string raw content denotes =>
      simp only [text, quoted, List.mem_cons, List.mem_append, List.not_mem_nil, or_false,
        not_or]
      exact ⟨by decide, fun member => absurd (denotes.printable 0 member) (by decide),
        by decide⟩
  | integer raw value literal =>
      intro member
      obtain minus | digit := ordinary_of_literal literal 0 member
      · exact absurd minus (by decide)
      · exact absurd digit (by decide)

theorem Gap.zero_not_mem (gap : Gap) : 0 ∉ gap.val :=
  fun member => (gap_ordinary gap.property 0 member).2.2.2.2 rfl

theorem LaidMember.zero_not_mem_text (member : LaidMember) : 0 ∉ member.text := by
  have name : 0 ∉ member.name.bytes :=
    fun inName => absurd (member.name.printable 0 inName) (by decide)
  simp only [text, quoted, List.mem_append, List.mem_cons, List.not_mem_nil, or_false, not_or]
  exact ⟨member.before.zero_not_mem, ⟨by decide, name, by decide⟩,
    member.keyGap.zero_not_mem, by decide, member.valueGap.zero_not_mem,
    member.value.zero_not_mem_text, member.after.zero_not_mem⟩

theorem RequestBody.cString_text (body : RequestBody) : cString body.text = body.text := by
  have members : ∀ members : List LaidMember, 0 ∉ membersText members := by
    intro members
    induction members with
    | nil => simp [membersText]
    | cons member rest induction =>
        have separated : 0 ∉ separator rest := by
          cases rest with
          | nil => simp [separator]
          | cons other others =>
              simp only [separator]
              decide
        simp only [membersText, List.mem_append, not_or]
        exact ⟨member.zero_not_mem_text, separated, induction⟩
  apply cString_of_noNul
  simp only [text, List.mem_append, List.mem_cons, not_or]
  exact ⟨body.before.zero_not_mem, by decide, members body.members, body.inner.zero_not_mem,
    by decide, body.after.zero_not_mem⟩

theorem RequestBody.same_member {body : RequestBody} {first second : LaidMember}
    (isFirst : first ∈ body.members) (isSecond : second ∈ body.members)
    (named : first.name.bytes = second.name.bytes) : first = second :=
  List.inj_on_of_nodup_map body.distinct isFirst isSecond named

theorem LaidMember.reads_string_iff {member : LaidMember} {key : Bytes} :
    member.Reads key [byte '"'] ↔ member.name.bytes = key ∧ member.keyGap.val = [] ∧
      member.valueGap.val = [] ∧ ∃ raw content denotes,
        member.value = .string raw content denotes := by
  simp only [Reads]
  constructor
  · rintro ⟨named, noKeyGap, follows⟩
    have noValueGap : member.valueGap.val = [] := by
      cases gap : member.valueGap.val with
      | nil => rfl
      | cons c blanks =>
          rw [gap, List.cons_append, List.cons_prefix_cons] at follows
          exact absurd follows.1.symm
            (gap_ordinary member.valueGap.property c (by simp [gap])).2.2.1
    refine ⟨named, noKeyGap, noValueGap, ?_⟩
    cases value : member.value with
    | string raw content denotes => exact ⟨raw, content, denotes, rfl⟩
    | integer raw number literal =>
        rw [noValueGap, value, List.nil_append, RequestValue.text] at follows
        cases raw with
        | nil => simp at follows
        | cons c rest =>
            obtain rfl := (List.cons_prefix_cons.mp follows).1
            obtain minus | digit := ordinary_of_literal literal (byte '"') (by simp)
            · exact absurd minus (by decide)
            · exact absurd digit (by decide)
  · rintro ⟨named, noKeyGap, noValueGap, raw, content, denotes, value⟩
    refine ⟨named, noKeyGap, ?_⟩
    rw [noValueGap, value]
    exact ⟨raw ++ [byte '"'], rfl⟩

section Results

variable {body : RequestBody} {key : Bytes}

theorem jsonGetString_text (short : key.length ≤ 123) :
    jsonGetString (cString body.text) key 2048 =
      (behind (stringPattern key) body.text).bind fun start =>
        jsonGetStringLoop 2048 false start [] := by
  have fits : snprintf 128 (stringPattern key) = stringPattern key := by
    apply snprintf_of_lt
    simp [stringPattern, keyPattern]
    omega
  rw [jsonGetString, fits, body.cString_text]

theorem jsonGetString_layout {member : LaidMember} (isMember : member ∈ body.members)
    (named : member.name.bytes = key) (plain : PlainKey key) (short : key.length ≤ 123) :
    jsonGetString (cString body.text) key 2048 =
      if member.keyGap.val = [] ∧ member.valueGap.val = [] then member.value.stringResult
      else none := by
  rw [jsonGetString_text short]
  obtain ⟨found, isFound, reads, rest, _, start⟩ | ⟨none, absent⟩ :=
    body.behind_name (by simp : [byte '"'].length ≤ 1) plain
  · obtain ⟨foundNamed, noKeyGap, noValueGap, raw, content, denotes, value⟩ :=
      LaidMember.reads_string_iff.mp reads
    obtain rfl := RequestBody.same_member isMember isFound (named.trans foundNamed.symm)
    have text : (member.valueGap.val ++ (member.value.text ++ rest)).drop
        [byte '"'].length = raw ++ byte '"' :: rest := by
      simp [noValueGap, value, RequestValue.text, quoted]
    rw [stringPattern, start, text, Option.bind_some, if_pos ⟨noKeyGap, noValueGap⟩, value,
      RequestValue.stringResult, jsonGetStringLoop_denotes denotes]
    simp only [List.length_nil, List.nil_append, Nat.zero_add]
  · rw [stringPattern, absent, Option.bind_none]
    have passed := none member isMember
    rw [LaidMember.reads_string_iff] at passed
    split
    · next tight =>
      cases value : member.value with
      | integer raw number literal => rfl
      | string raw content denotes =>
          exact absurd ⟨named, tight.1, tight.2, raw, content, denotes, value⟩ passed
    · rfl

theorem jsonGetString_absent (absent : ∀ member ∈ body.members, member.name.bytes ≠ key)
    (plain : PlainKey key) (short : key.length ≤ 123) :
    jsonGetString (cString body.text) key 2048 = none := by
  rw [jsonGetString_text short, stringPattern]
  obtain ⟨found, isFound, reads, _⟩ | ⟨_, none⟩ :=
    body.behind_name (by simp : [byte '"'].length ≤ 1) plain
  · exact absurd reads.1 (absent found isFound)
  · rw [none, Option.bind_none]

theorem jsonGetLong_text (short : key.length ≤ 123) :
    jsonGetLong (cString body.text) key =
      (behind (keyPattern key) body.text).bind fun start =>
        (leadingInteger start).map fun number => clampLong number.1 := by
  have fits : snprintf 128 (keyPattern key) = keyPattern key := by
    apply snprintf_of_lt
    simp [keyPattern]
    omega
  rw [jsonGetLong, fits, body.cString_text]
  congr 1
  funext start
  rw [strtol_eq]
  cases leading : leadingInteger start with
  | none => simp
  | some number =>
      have shorter := length_of_leadingInteger leading
      simp only [Option.map_some]
      rw [if_neg (by omega)]

theorem jsonGetLong_layout {member : LaidMember} (isMember : member ∈ body.members)
    (named : member.name.bytes = key) (plain : PlainKey key) (short : key.length ≤ 123) :
    jsonGetLong (cString body.text) key =
      if member.keyGap.val = [] then member.value.longResult else none := by
  rw [jsonGetLong_text short]
  obtain ⟨found, isFound, reads, rest, ends, start⟩ | ⟨none, absent⟩ :=
    body.behind_name (by simp : ([] : Bytes).length ≤ 1) plain
  · obtain rfl := RequestBody.same_member isMember isFound (named.trans reads.1.symm)
    have blanks : ∀ c ∈ member.valueGap.val, isSpace c = true :=
      fun c inGap => (gap_ordinary member.valueGap.property c inGap).1
    rw [List.append_nil, List.length_nil, List.drop_zero] at start
    rw [start, Option.bind_some, leadingInteger_blanks blanks, if_pos reads.2.1]
    cases member.value with
    | string raw content denotes => rfl
    | integer raw number literal =>
        rw [RequestValue.text, leadingInteger_of_literal literal ends.endsNumeral,
          Option.map_some, RequestValue.longResult]
  · rw [List.append_nil] at absent
    rw [absent, Option.bind_none, if_neg]
    exact fun noKeyGap => none member isMember ⟨named, noKeyGap, List.nil_prefix⟩

theorem jsonGetLong_absent (absent : ∀ member ∈ body.members, member.name.bytes ≠ key)
    (plain : PlainKey key) (short : key.length ≤ 123) :
    jsonGetLong (cString body.text) key = none := by
  rw [jsonGetLong_text short]
  obtain ⟨found, isFound, reads, _⟩ | ⟨_, none⟩ :=
    body.behind_name (by simp : ([] : Bytes).length ≤ 1) plain
  · exact absurd reads.1 (absent found isFound)
  · rw [List.append_nil] at none
    rw [none, Option.bind_none]

end Results

/-- The layouts of a member agree on the blanks that the readers stumble over: those
before the colon, and for a string they can read also those behind it. -/
def SameSpacing (first second : LaidMember) : Prop :=
  match first.value with
  | .string raw content _ =>
      KnownEscapes raw ∧ (content = [] ∨ content.length + 1 < 2048) →
        (first.keyGap.val = [] ∧ first.valueGap.val = [] ↔
          second.keyGap.val = [] ∧ second.valueGap.val = [])
  | .integer _ _ _ => first.keyGap.val = [] ↔ second.keyGap.val = []

private theorem ite_some_eq_iff {p q : Prop} [Decidable p] [Decidable q] {α : Type} (a : α) :
    (if p then some a else none) = (if q then some a else none) ↔ (p ↔ q) := by
  by_cases p <;> by_cases q <;> simp [*]

theorem same_results_iff {first second : LaidMember} (same : first.value = second.value) :
    ((if first.keyGap.val = [] ∧ first.valueGap.val = [] then first.value.stringResult
        else none) =
        (if second.keyGap.val = [] ∧ second.valueGap.val = [] then second.value.stringResult
        else none) ∧
      (if first.keyGap.val = [] then first.value.longResult else none) =
        if second.keyGap.val = [] then second.value.longResult else none) ↔
      SameSpacing first second := by
  rw [SameSpacing, ← same]
  cases first.value with
  | string raw content denotes =>
      simp only [RequestValue.stringResult, RequestValue.longResult, ite_self, and_true]
      by_cases readable : KnownEscapes raw ∧ (content = [] ∨ content.length + 1 < 2048)
      · rw [if_pos readable]
        exact (ite_some_eq_iff content).trans
          ⟨fun alike _ => alike, fun spaced => spaced readable⟩
      · rw [if_neg readable]
        simp only [ite_self, true_iff]
        exact fun known => absurd known readable
  | integer raw value literal =>
      simp only [RequestValue.stringResult, RequestValue.longResult, ite_self, true_and]
      exact ite_some_eq_iff _

/-- Two layouts of one object give both readers the same results for a key if and only if
they space the member of that key alike. -/
theorem jsonGet_layout_iff {first second : RequestBody}
    (same : first.fields.Perm second.fields) {key : Bytes} (plain : PlainKey key)
    (short : key.length ≤ 123) :
    (jsonGetString (cString first.text) key 2048 =
        jsonGetString (cString second.text) key 2048 ∧
      jsonGetLong (cString first.text) key = jsonGetLong (cString second.text) key) ↔
    ∀ laid ∈ first.members, ∀ other ∈ second.members, laid.name.bytes = key →
      other.name.bytes = key → SameSpacing laid other := by
  by_cases named : ∃ laid ∈ first.members, laid.name.bytes = key
  · obtain ⟨laid, isMember, isNamed⟩ := named
    have moved : laid.field ∈ second.fields :=
      same.mem_iff.mp (List.mem_map_of_mem isMember)
    obtain ⟨other, isOther, sameField⟩ := List.mem_map.mp moved
    have otherNamed : other.name.bytes = key := by
      rw [← isNamed]
      exact congrArg (fun field => field.1.bytes) sameField
    have sameValue : laid.value = other.value := congrArg Prod.snd sameField.symm
    rw [jsonGetString_layout isMember isNamed plain short,
      jsonGetString_layout isOther otherNamed plain short,
      jsonGetLong_layout isMember isNamed plain short,
      jsonGetLong_layout isOther otherNamed plain short, same_results_iff sameValue]
    constructor
    · intro spaced laid' isMember' other' isOther' isNamed' otherNamed'
      obtain rfl := RequestBody.same_member isMember isMember' (isNamed.trans isNamed'.symm)
      obtain rfl := RequestBody.same_member isOther isOther'
        (otherNamed.trans otherNamed'.symm)
      exact spaced
    · intro spaced
      exact spaced laid isMember other isOther isNamed otherNamed
  · have absent : ∀ laid ∈ first.members, laid.name.bytes ≠ key :=
      fun laid isMember isNamed => named ⟨laid, isMember, isNamed⟩
    have otherAbsent : ∀ other ∈ second.members, other.name.bytes ≠ key := by
      intro other isOther otherNamed
      have moved : other.field ∈ first.fields :=
        same.mem_iff.mpr (List.mem_map_of_mem isOther)
      obtain ⟨laid, isMember, sameField⟩ := List.mem_map.mp moved
      apply absent laid isMember
      rw [← otherNamed]
      exact congrArg (fun field => field.1.bytes) sameField
    rw [jsonGetString_absent absent plain short, jsonGetString_absent otherAbsent plain short,
      jsonGetLong_absent absent plain short, jsonGetLong_absent otherAbsent plain short]
    constructor
    · intro _ laid isMember other _ isNamed
      exact absurd isNamed (absent laid isMember)
    · exact fun _ => ⟨rfl, rfl⟩

private def memberName (bytes : Bytes) (plain : PlainKey bytes)
    (printable : ∀ c ∈ bytes, 0x20 ≤ c) : MemberName := ⟨bytes, plain, printable⟩

private def pathMember (before valueGap : Gap) : LaidMember where
  before := before
  name := memberName (ascii "path") (by decide) (by decide)
  keyGap := noGap
  valueGap := valueGap
  value := .string (escapedText (ascii "/new.txt")) (ascii "/new.txt") (denotes_escapedText _)
  after := noGap

private def modeMember (before valueGap : Gap) : LaidMember where
  before := before
  name := memberName (ascii "mode") (by decide) (by decide)
  keyGap := noGap
  valueGap := valueGap
  value := .integer (ascii "420") 420 (by decide +kernel)
  after := noGap

/-- The example of a create request in the protocol document, in its own layout, and as
the client writes it with the members exchanged. -/
def documentedBody : RequestBody where
  before := noGap
  members := [pathMember ⟨ascii "\n  ", rfl⟩ ⟨ascii " ", rfl⟩,
    modeMember ⟨ascii "\n  ", rfl⟩ ⟨ascii " ", rfl⟩]
  inner := ⟨ascii "\n", rfl⟩
  after := noGap
  distinct := by decide

def compactBody : RequestBody where
  before := noGap
  members := [modeMember noGap noGap, pathMember noGap noGap]
  inner := noGap
  after := noGap
  distinct := by decide

theorem documentedBody_perm : documentedBody.fields.Perm compactBody.fields :=
  .swap _ _ []

theorem jsonGet_documentedBody_mode :
    jsonGetLong (cString documentedBody.text) (ascii "mode") =
      jsonGetLong (cString compactBody.text) (ascii "mode") := by
  have alike := (jsonGet_layout_iff documentedBody_perm (by decide : PlainKey (ascii "mode"))
    (by decide)).mpr
  exact (alike (by
    intro laid isMember other isOther named otherNamed
    simp only [documentedBody, compactBody, List.mem_cons, List.not_mem_nil, or_false]
      at isMember isOther
    obtain rfl | rfl := isMember
    · exact absurd named (by decide)
    · obtain rfl | rfl := isOther
      · exact Iff.rfl
      · exact absurd otherNamed (by decide))).2

/-- A space behind the colon, as in the protocol document, hides a path. -/
theorem jsonGetString_documented_path :
    ¬ ∀ first second : RequestBody, first.fields.Perm second.fields →
      ∀ key, PlainKey key → key.length ≤ 123 →
        jsonGetString (cString first.text) key 2048 =
            jsonGetString (cString second.text) key 2048 ∧
          jsonGetLong (cString first.text) key = jsonGetLong (cString second.text) key := by
  intro alike
  have paths := (alike documentedBody compactBody documentedBody_perm (ascii "path")
    (by decide) (by decide)).1
  exact absurd paths (by decide +kernel)

end HttpFs
