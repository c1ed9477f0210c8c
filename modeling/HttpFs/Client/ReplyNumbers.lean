import HttpFs.Client.OkDocuments
import HttpFs.Foundation.Integers
import HttpFs.Jsmn.Lookup

namespace HttpFs

open Json

/-! The numbers of a reply, as they are written and as the client reads them. -/

section Token

variable {json text : Bytes} {token : JsmnToken}

/-- `token_to_long` takes a text that is a number as a whole, and clamps it. -/
theorem tokenLong?_eq (isText : tokenText json token = some text) :
    tokenLong? json token =
      if text.length < 64 then (wholeInteger text).map clampLong else none := by
  by_cases short : text.length < 64
  · simp only [tokenLong?, tokenToLong, tokenToString_of_text isText short, if_pos short,
      strtol_eq, wholeInteger]
    cases leading : leadingInteger text with
    | none => simp
    | some found =>
        obtain ⟨value, rest⟩ := found
        cases rest with
        | nil =>
            have nonempty : text ≠ [] := by
              rintro rfl
              simp [leadingInteger] at leading
            have consumed : ¬ 0 = text.length :=
              fun zero => nonempty (List.length_eq_zero_iff.mp zero.symm)
            simp [consumed]
        | cons c rest => simp
  · have long : tokenToString json token 64 = none := by
      simp only [tokenToString, isText]
      rw [if_pos (by omega)]
    simp only [tokenLong?, tokenToLong, long, if_neg short, Bool.false_eq_true, if_false]

end Token

private theorem word_exact (number : Int) :
    ((UInt32.ofInt (clampLong number)).toNat : Int) = number ↔
      0 ≤ number ∧ number ≤ 2 ^ 32 - 1 := by
  have narrowed : ((UInt32.ofInt (clampLong number)).toNat : Int) =
      clampLong number % 2 ^ 32 := by
    rw [UInt32.ofInt, UInt32.toNat_ofNat']
    omega
  rw [narrowed]
  simp only [clampLong, longMin, longMax]
  omega

private theorem doubleWord_exact (number : Int) :
    ((UInt64.ofInt (clampLong number)).toNat : Int) = number ↔
      0 ≤ number ∧ number ≤ longMax := by
  have narrowed : ((UInt64.ofInt (clampLong number)).toNat : Int) =
      clampLong number % 2 ^ 64 := by
    rw [UInt64.ofInt, UInt64.toNat_ofNat']
    omega
  rw [narrowed]
  simp only [clampLong, longMin, longMax]
  omega

private theorem long_exact (number : Int) :
    (Int64.ofInt (clampLong number)).toInt = number ↔
      longMin ≤ number ∧ number ≤ longMax := by
  have kept : (Int64.ofInt (clampLong number)).toInt = clampLong number := by
    apply Int64.toInt_ofInt_of_le
    · simp only [clampLong, longMin, longMax]
      omega
    · simp only [clampLong, longMin, longMax]
      omega
  rw [kept, clampLong_eq_iff]

/-- A numeric field of `httpfs_meta`: its cast keeps just the numbers from `low` to
`high`. -/
structure NumberField where
  key : String
  get : HttpfsMeta → Int
  cast : Int → Int
  low : Int
  high : Int
  cast_exact : ∀ number, cast (clampLong number) = number ↔ low ≤ number ∧ number ≤ high

def wordField (key : String) (get : HttpfsMeta → UInt32) : NumberField where
  key := key
  get := fun meta_ => (get meta_).toNat
  cast := fun number => (UInt32.ofInt number).toNat
  low := 0
  high := 2 ^ 32 - 1
  cast_exact := word_exact

def longField (key : String) (get : HttpfsMeta → Int64) : NumberField where
  key := key
  get := fun meta_ => (get meta_).toInt
  cast := fun number => (Int64.ofInt number).toInt
  low := longMin
  high := longMax
  cast_exact := long_exact

def nlinkField : NumberField where
  key := "nlink"
  get := fun meta_ => meta_.nlink.toNat
  cast := fun number => (UInt64.ofInt number).toNat
  low := 0
  high := longMax
  cast_exact := doubleWord_exact

def numberFields : List NumberField :=
  [wordField "mode" HttpfsMeta.mode, longField "size" HttpfsMeta.size,
    wordField "uid" HttpfsMeta.uid, wordField "gid" HttpfsMeta.gid, nlinkField,
    longField "atime" HttpfsMeta.atime, longField "mtime" HttpfsMeta.mtime,
    longField "ctime" HttpfsMeta.ctime]

def writtenNumber (members : Members) (key : String) : Option Int :=
  (members.find (ascii key)).bind fun value => wholeInteger value.content

def ShortMember (members : Members) (key : String) (size : Nat) : Prop :=
  ∃ value, members.find (ascii key) = some value ∧ value.content.length < size

/-- Every member that `parse_meta_object` reads is there, fits its buffer and, if it is
read as a number, is one. -/
structure MetaReadable (members : Members) : Prop where
  path : ShortMember members "path" HTTPFS_MAX_PATH
  type : ShortMember members "type" 8
  numbers : ∀ field ∈ numberFields, ShortMember members field.key 64 ∧
    (writtenNumber members field.key).isSome = true

/-- Every number that is written in the object is one of the target type. -/
def MetaFits (members : Members) : Prop :=
  ∀ field ∈ numberFields, ∀ number, writtenNumber members field.key = some number →
    field.low ≤ number ∧ number ≤ field.high

def MetaExact (members : Members) (meta_ : HttpfsMeta) : Prop :=
  ∀ field ∈ numberFields, writtenNumber members field.key = some (field.get meta_)

section MetaObject

variable {json : Bytes} {tokens : List JsmnToken} {index : Nat} {members : Members}

theorem stringMember_short (placed : Placed json tokens (.object members) index)
    (scannable : Scannable (.object members)) {key : String} {size : Nat} {token : JsmnToken}
    {text : Bytes} (found : findToken json tokens index (ascii key) = some token)
    (copied : tokenToString json token size = some text) : ShortMember members key size := by
  obtain ⟨value, present, isText⟩ := present_of_findToken placed scannable found
  refine ⟨value, present, ?_⟩
  simp only [tokenToString, isText] at copied
  split at copied
  · contradiction
  · omega

theorem stringMember_copied (placed : Placed json tokens (.object members) index)
    (scannable : Scannable (.object members)) {key : String} {size : Nat}
    (short : ShortMember members key size) :
    ∃ token text, findToken json tokens index (ascii key) = some token ∧
      tokenToString json token size = some text := by
  obtain ⟨value, present, fits⟩ := short
  obtain ⟨token, found, isText⟩ := findToken_some placed scannable present
  exact ⟨token, value.content, found, tokenToString_of_text isText fits⟩

theorem numberMember_written (placed : Placed json tokens (.object members) index)
    (scannable : Scannable (.object members)) {key : String} {token : JsmnToken}
    {number : Int} (found : findToken json tokens index (ascii key) = some token)
    (converted : tokenLong? json token = some number) :
    ShortMember members key 64 ∧
      ∃ written, writtenNumber members key = some written ∧ clampLong written = number := by
  obtain ⟨value, present, isText⟩ := present_of_findToken placed scannable found
  rw [tokenLong?_eq isText] at converted
  split at converted
  · next short =>
    obtain ⟨written, isWritten, clamped⟩ := Option.map_eq_some_iff.mp converted
    exact ⟨⟨value, present, short⟩, written, by simp [writtenNumber, present, isWritten],
      clamped⟩
  · contradiction

theorem numberMember_converted (placed : Placed json tokens (.object members) index)
    (scannable : Scannable (.object members)) {key : String}
    (short : ShortMember members key 64)
    (isNumber : (writtenNumber members key).isSome = true) :
    ∃ token number, findToken json tokens index (ascii key) = some token ∧
      tokenLong? json token = some number := by
  obtain ⟨value, present, fits⟩ := short
  obtain ⟨token, found, isText⟩ := findToken_some placed scannable present
  obtain ⟨written, isWritten⟩ := Option.isSome_iff_exists.mp isNumber
  rw [writtenNumber, present, Option.bind_some] at isWritten
  exact ⟨token, clampLong written, found, by
    rw [tokenLong?_eq isText, if_pos fits, isWritten, Option.map_some]⟩

theorem parseMetaObject_fields (placed : Placed json tokens (.object members) index)
    (scannable : Scannable (.object members)) {meta_ : HttpfsMeta}
    (parsed : parseMetaObject json tokens index = some meta_) :
    MetaReadable members ∧ ∀ field ∈ numberFields, ∃ written,
      writtenNumber members field.key = some written ∧
        field.get meta_ = field.cast (clampLong written) := by
  obtain ⟨⟨pathToken, pathFound, isPath⟩, ⟨typeToken, typeFound, isType⟩, mode, size, uid, gid,
    nlink, atime, mtime, ctime⟩ := parseMetaObject_some parsed
  have read (field : NumberField)
      (numbered : ∃ token number, findToken json tokens index (ascii field.key) = some token ∧
        tokenLong? json token = some number ∧ field.get meta_ = field.cast number) :
      ShortMember members field.key 64 ∧ ∃ written,
        writtenNumber members field.key = some written ∧
          field.get meta_ = field.cast (clampLong written) := by
    obtain ⟨token, number, found, converted, isCast⟩ := numbered
    obtain ⟨short, written, isWritten, rfl⟩ :=
      numberMember_written placed scannable found converted
    exact ⟨short, written, isWritten, isCast⟩
  have fields : ∀ field ∈ numberFields, ShortMember members field.key 64 ∧ ∃ written,
      writtenNumber members field.key = some written ∧
        field.get meta_ = field.cast (clampLong written) := by
    simp only [numberFields, List.forall_mem_cons]
    have word {key : String} {get : HttpfsMeta → UInt32}
        (numbered : ∃ token number, findToken json tokens index (ascii key) = some token ∧
          tokenLong? json token = some number ∧ get meta_ = UInt32.ofInt number) :=
      read (wordField key get) (by
        obtain ⟨token, number, found, converted, isCast⟩ := numbered
        exact ⟨token, number, found, converted, congrArg (fun cast => (cast.toNat : Int)) isCast⟩)
    have long {key : String} {get : HttpfsMeta → Int64}
        (numbered : ∃ token number, findToken json tokens index (ascii key) = some token ∧
          tokenLong? json token = some number ∧ get meta_ = Int64.ofInt number) :=
      read (longField key get) (by
        obtain ⟨token, number, found, converted, isCast⟩ := numbered
        exact ⟨token, number, found, converted, congrArg Int64.toInt isCast⟩)
    have links := read nlinkField (by
      obtain ⟨token, number, found, converted, isCast⟩ := nlink
      exact ⟨token, number, found, converted, congrArg (fun cast => (cast.toNat : Int)) isCast⟩)
    exact ⟨word mode, long size, word uid, word gid, links, long atime, long mtime, long ctime,
      fun _ none => absurd none List.not_mem_nil⟩
  refine ⟨⟨stringMember_short placed scannable pathFound isPath,
    stringMember_short placed scannable typeFound isType, fun field member => ?_⟩,
    fun field member => (fields field member).2⟩
  obtain ⟨short, written, isWritten, _⟩ := fields field member
  exact ⟨short, by rw [isWritten]; rfl⟩

theorem parseMetaObject_readable (placed : Placed json tokens (.object members) index)
    (scannable : Scannable (.object members)) (readable : MetaReadable members) :
    ∃ meta_, parseMetaObject json tokens index = some meta_ := by
  have number (field : NumberField) (member : field ∈ numberFields) :=
    numberMember_converted placed scannable (readable.numbers field member).1
      (readable.numbers field member).2
  obtain ⟨pathToken, path, pathFound, isPath⟩ :=
    stringMember_copied placed scannable readable.path
  obtain ⟨typeToken, type, typeFound, isType⟩ :=
    stringMember_copied placed scannable readable.type
  simp only [numberFields, List.forall_mem_cons, wordField, longField, nlinkField] at number
  obtain ⟨⟨_, mode, modeFound, isMode⟩, ⟨_, size, sizeFound, isSize⟩,
    ⟨_, uid, uidFound, isUid⟩, ⟨_, gid, gidFound, isGid⟩, ⟨_, nlink, nlinkFound, isNlink⟩,
    ⟨_, atime, atimeFound, isAtime⟩, ⟨_, mtime, mtimeFound, isMtime⟩,
    ⟨_, ctime, ctimeFound, isCtime⟩, _⟩ := number
  simp only [parseMetaObject, pathFound, typeFound, modeFound, sizeFound, uidFound, gidFound,
    nlinkFound, atimeFound, mtimeFound, ctimeFound, isPath, isType, isMode, isSize, isUid,
    isGid, isNlink, isAtime, isMtime, isCtime, Option.bind_eq_bind, Option.bind_some,
    Option.pure_def]
  exact ⟨_, rfl⟩

end MetaObject

/-- The numbers of a meta object are exact whenever it is accepted, just when those of an
object that can be read all fit their targets. -/
theorem parseMetaObject_exact_iff {numTokens : Nat} {document : Value} {before after : Bytes}
    (scannable : Scannable document) (beforeGap : isGap before = true)
    (afterGap : isGap after = true) (room : document.count ≤ numTokens)
    {index : Nat} {members : Members}
    (node : (index, Value.object members) ∈ document.nodes 0) :
    (∀ meta_, parseMetaObject (before ++ (document.text ++ after))
        (jsmnParse numTokens (before ++ (document.text ++ after))).parser.tokens index =
          some meta_ → MetaExact members meta_) ↔
      (MetaReadable members → MetaFits members) := by
  obtain ⟨run, rfl, _, _, root⟩ := placed_document scannable beforeGap afterGap room
  obtain ⟨objectScannable, placed⟩ := document.nodes_placed scannable root _ node
  constructor
  · intro exact_ readable field member number isNumber
    obtain ⟨meta_, parsed⟩ := parseMetaObject_readable placed objectScannable readable
    obtain ⟨_, fields⟩ := parseMetaObject_fields placed objectScannable parsed
    obtain ⟨written, isWritten, isCast⟩ := fields field member
    obtain rfl : written = number := Option.some.inj (isWritten.symm.trans isNumber)
    have same := Option.some.inj (isWritten.symm.trans (exact_ meta_ parsed field member))
    exact (field.cast_exact written).mp (isCast.symm.trans same.symm)
  · intro fits meta_ parsed field member
    obtain ⟨readable, fields⟩ := parseMetaObject_fields placed objectScannable parsed
    obtain ⟨written, isWritten, isCast⟩ := fields field member
    have kept := (field.cast_exact written).mpr (fits readable field member written isWritten)
    rw [isWritten, isCast, kept]

private def number (key : String) (digits : Bytes) (rest : Members) : Members :=
  .cons [] (ascii key) [] [] (.primitive digits) [] rest

def fileMembers (mode : Bytes) : Members :=
  .cons [] (ascii "path") [] [] (.string (ascii "/a")) []
    (.cons [] (ascii "type") [] [] (.string (ascii "file")) []
      (number "mode" mode (number "size" (ascii "5") (number "uid" (ascii "0")
        (number "gid" (ascii "0") (number "nlink" (ascii "1") (number "atime" (ascii "0")
          (number "mtime" (ascii "0") (number "ctime" (ascii "0") (.nil []))))))))))

def fileReply (mode : Bytes) : Value :=
  .object (.cons [] (ascii "status") [] [] (.string (ascii "ok")) []
    (.cons [] (ascii "meta") [] [] (.object (fileMembers mode)) [] (.nil [])))

/-- A mode of 33 bits loses its highest bit. -/
theorem parseMetaObject_wraps :
    (parseMetaObject (fileReply (ascii "4294967296")).text
        (jsmnParse 32 (fileReply (ascii "4294967296")).text).parser.tokens 4).map
          HttpfsMeta.mode = some 0 ∧
      writtenNumber (fileMembers (ascii "4294967296")) "mode" = some 4294967296 :=
  ⟨by decide +kernel, by decide +kernel⟩

theorem parseMetaObject_exact_iff_file :
    (∀ meta_, parseMetaObject ([] ++ ((fileReply (ascii "33188")).text ++ []))
        (jsmnParse 32
          ([] ++ ((fileReply (ascii "33188")).text ++ []))).parser.tokens 4 = some meta_ →
        MetaExact (fileMembers (ascii "33188")) meta_) ↔
      (MetaReadable (fileMembers (ascii "33188")) → MetaFits (fileMembers (ascii "33188"))) := by
  have body (text : String) (plain : isStringBody .plain (ascii text) = true) :
      Scannable (.string (ascii text)) := plain
  have digits (text : String) (isNumber : isPrimitiveBody (ascii text) = true) :
      Scannable (.primitive (ascii text)) := isNumber
  have inner : Scannable (.object (fileMembers (ascii "33188"))) :=
    ⟨rfl, by decide, rfl, rfl, body "/a" (by decide), rfl,
      rfl, by decide, rfl, rfl, body "file" (by decide), rfl,
      rfl, by decide, rfl, rfl, digits "33188" (by decide), rfl,
      rfl, by decide, rfl, rfl, digits "5" (by decide), rfl,
      rfl, by decide, rfl, rfl, digits "0" (by decide), rfl,
      rfl, by decide, rfl, rfl, digits "0" (by decide), rfl,
      rfl, by decide, rfl, rfl, digits "1" (by decide), rfl,
      rfl, by decide, rfl, rfl, digits "0" (by decide), rfl,
      rfl, by decide, rfl, rfl, digits "0" (by decide), rfl,
      rfl, by decide, rfl, rfl, digits "0" (by decide), rfl, rfl⟩
  have scannable : Scannable (fileReply (ascii "33188")) :=
    ⟨rfl, by decide, rfl, rfl, body "ok" (by decide), rfl,
      rfl, by decide, rfl, rfl, inner, rfl, rfl⟩
  have node : (4, Value.object (fileMembers (ascii "33188"))) ∈
      (fileReply (ascii "33188")).nodes 0 := by
    simp [fileReply, Value.nodes, Members.nodes, Value.count]
  exact parseMetaObject_exact_iff scannable rfl rfl (by decide) node

end HttpFs
