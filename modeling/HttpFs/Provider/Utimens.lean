import HttpFs.Protocol

namespace HttpFs

namespace GoProvider

/-! The times of `os.Chtimes`, as the Go provider makes them from a request. -/

/-- A `time.Time`: the seconds since the start of the year 1, and the nanoseconds. -/
structure Time where
  sec : Int64
  nsec : Int64
  deriving DecidableEq

def unixToInternal : Int64 := 62135596800

/-- `time.Unix`. -/
def unix (sec nsec : Int64) : Time :=
  if nsec < 0 ∨ 1000000000 ≤ nsec then
    let n := nsec / 1000000000
    let rest := nsec - n * 1000000000
    if rest < 0 then ⟨sec + n - 1 + unixToInternal, rest + 1000000000⟩
    else ⟨sec + n + unixToInternal, rest⟩
  else
    ⟨sec + unixToInternal, nsec⟩

/-- The nanoseconds since 1970 of the instant that a time stands for. -/
def Time.instant (time : Time) : Int :=
  (time.sec.toInt - unixToInternal.toInt) * 1000000000 + time.nsec.toInt

/-- A value as `reflect` shows it: an integer of any kind, or a structure with its fields. -/
inductive Reflected where
  | int (value : Int64)
  | struct (fields : List (String × Reflected))
  | other

/-- `FieldByName`; `none` is a field that is not valid. -/
def fieldByName (fields : List (String × Reflected)) (name : String) : Option Reflected :=
  (fields.find? fun field => field.1 == name).map (·.2)

/-- What a loop of `timespecNanoseconds` over names of a field finds; a later name counts
more than an earlier one. -/
def intField (fields : List (String × Reflected)) (names : List String) : Option Int64 :=
  names.foldl (fun found name =>
    match fieldByName fields name with
    | some (.int value) => some value
    | _ => found) none

def timespecNanoseconds : Option Reflected → Option Int64
  | some (.struct fields) =>
      match intField fields ["Sec", "Tv_sec"], intField fields ["Nsec", "Tv_nsec"] with
      | some sec, some nsec => some (sec * 1000000000 + nsec)
      | _, _ => none
  | _ => none

def reflectStatField (stat : List (String × Reflected)) (names : List String) :
    Option Reflected :=
  names.findSome? (fieldByName stat)

/-- An `os.FileInfo`; `sys` has the fields of its `*syscall.Stat_t`, if it is one. -/
structure FileInfo where
  sys : Option (List (String × Reflected))
  modTime : Time

def statTimestampNS (info : FileInfo) (names : List String) : Option Int64 :=
  info.sys.bind fun stat => timespecNanoseconds (reflectStatField stat names)

def utimeNow : Int64 := ((1 : Int64) <<< 30) - 1

def utimeOmit : Int64 := ((1 : Int64) <<< 30) - 2

def nanosecondsError : HttpfsError :=
  ⟨Errno.EINVAL, ascii "nanoseconds must be in [0, 1000000000)"⟩

/-- `normalizeUtimensTime`, with what `time.Now` returns. -/
def normalizeUtimensTime (now : Time) (info : FileInfo) (sec nsec : Int64)
    (isAtime : Bool) : Except HttpfsError Time :=
  if nsec = utimeNow then
    .ok now
  else if nsec = utimeOmit then
    let names := if isAtime then ["Atim", "Atimespec"] else ["Mtim", "Mtimespec"]
    match statTimestampNS info names with
    | some ns => .ok (unix 0 ns)
    | none => .ok info.modTime
  else if nsec < 0 ∨ 1000000000 ≤ nsec then
    .error nanosecondsError
  else
    .ok (unix sec nsec)

/-- The two ways in which systems name the times of a `syscall.Stat_t`. -/
inductive StatNames where
  | tim
  | timespec
  deriving DecidableEq

def reflectTimespec (value : Timespec) : Reflected :=
  .struct [("Sec", .int value.tvSec), ("Nsec", .int value.tvNsec)]

def StatNames.stat (atime mtime : Timespec) : StatNames → List (String × Reflected)
  | tim => [("Atim", reflectTimespec atime), ("Mtim", reflectTimespec mtime)]
  | timespec => [("Atimespec", reflectTimespec atime), ("Mtimespec", reflectTimespec mtime)]

/-- What `os.Lstat` returns for a file with these times. -/
def fileInfo (names : StatNames) (atime mtime : Timespec) : FileInfo where
  sys := some (names.stat atime mtime)
  modTime := unix mtime.tvSec mtime.tvNsec

end GoProvider

namespace PythonProvider

def UTIME_NOW : Int := 1073741823

def UTIME_OMIT : Int := 1073741822

/-- `normalize_utimens_value`, with what `time.time_ns` returns. -/
def normalizeUtimensValue (timeNs currentNs sec nsec : Int) : Except HttpfsError Int :=
  if nsec = UTIME_NOW then
    .ok timeNs
  else if nsec = UTIME_OMIT then
    .ok currentNs
  else if nsec < 0 ∨ nsec ≥ 1000000000 then
    .error ⟨Errno.EINVAL, ascii "nanoseconds must be in [0, 1000000000)"⟩
  else
    .ok (sec * 1000000000 + nsec)

end PythonProvider

/-- The nanoseconds since 1970 of a time of `stat`, such as `st_atime_ns` in Python. -/
def Timespec.nanoseconds (time : Timespec) : Int :=
  time.tvSec.toInt * 1000000000 + time.tvNsec.toInt

/-- Both providers refuse, or both set the same instant. -/
def SameInstant : Except HttpfsError GoProvider.Time → Except HttpfsError Int → Prop
  | .error _, .error _ => True
  | .ok time, .ok nanoseconds => time.instant = nanoseconds
  | _, _ => False

instance : (go : Except HttpfsError GoProvider.Time) → (python : Except HttpfsError Int) →
    Decidable (SameInstant go python)
  | .error _, .error _ => isTrue trivial
  | .ok time, .ok nanoseconds => inferInstanceAs (Decidable (time.instant = nanoseconds))
  | .error _, .ok _ => isFalse id
  | .ok _, .error _ => isFalse id

/-- The current time, to be kept, has a number of nanoseconds of 64 bits; seconds asked for
have a `time.Time`. -/
def Representable (current : Timespec) (sec nsec : Int64) : Prop :=
  if nsec = GoProvider.utimeNow then True
  else if nsec = GoProvider.utimeOmit then
    -2 ^ 63 ≤ current.nanoseconds ∧ current.nanoseconds < 2 ^ 63
  else 0 ≤ nsec → nsec < 1000000000 → sec.toInt + 62135596800 < 2 ^ 63

namespace GoProvider

structure FitsInt64 (value : Int) : Prop where
  lower : -2 ^ 63 ≤ value
  upper : value < 2 ^ 63

theorem fitsInt64_toInt (value : Int64) : FitsInt64 value.toInt :=
  ⟨value.le_toInt, value.toInt_lt⟩

theorem bmod_eq_iff_fits {value : Int} : value.bmod (2 ^ 64) = value ↔ FitsInt64 value := by
  constructor
  · intro same
    rw [← same]
    exact ⟨Int.le_bmod (by decide), Int.bmod_lt (by decide)⟩
  · intro fits
    obtain ⟨lower, upper⟩ := fits
    exact Int.bmod_eq_of_le (by omega) (by omega)

/-- A division that rounds towards zero leaves a rest with the sign of the dividend. -/
theorem tdiv_billion (value : Int) :
    ∃ rest, value = value.tdiv 1000000000 * 1000000000 + rest ∧
      (0 ≤ value ∧ 0 ≤ rest ∧ rest < 1000000000 ∨
        value < 0 ∧ -1000000000 < rest ∧ rest ≤ 0) := by
  have billion : (0 : Int) < 1000000000 := by decide
  refine ⟨value.tmod 1000000000, (Int.tdiv_mul_add_tmod value 1000000000).symm, ?_⟩
  by_cases nonnegative : 0 ≤ value
  · exact .inl ⟨nonnegative, Int.tmod_nonneg _ nonnegative, Int.tmod_lt_of_pos _ billion⟩
  · have opposite := Int.tmod_nonneg 1000000000 (show 0 ≤ -value by omega)
    rw [Int.neg_tmod] at opposite
    exact .inr ⟨by omega, Int.lt_tmod_of_pos _ billion, by omega⟩

theorem FitsInt64.toInt_add {a b : Int64} (fits : FitsInt64 (a.toInt + b.toInt)) :
    (a + b).toInt = a.toInt + b.toInt := by
  rw [Int64.toInt_add]
  exact bmod_eq_iff_fits.mpr fits

theorem FitsInt64.toInt_sub {a b : Int64} (fits : FitsInt64 (a.toInt - b.toInt)) :
    (a - b).toInt = a.toInt - b.toInt := by
  rw [Int64.toInt_sub]
  exact bmod_eq_iff_fits.mpr fits

theorem FitsInt64.toInt_mul {a b : Int64} (fits : FitsInt64 (a.toInt * b.toInt)) :
    (a * b).toInt = a.toInt * b.toInt := by
  rw [Int64.toInt_mul]
  exact bmod_eq_iff_fits.mpr fits

theorem toInt_billion : (1000000000 : Int64).toInt = 1000000000 := by decide

theorem toInt_unixToInternal : unixToInternal.toInt = 62135596800 := by decide

/-- A time whose seconds, counted from the year 1, have 64 bits stands for what it was
made from. -/
theorem instant_of_fits {sec nsec : Int64} (fits : FitsInt64 (sec.toInt + 62135596800)) :
    (Time.mk (sec + unixToInternal) nsec).instant = sec.toInt * 1000000000 + nsec.toInt := by
  rw [← toInt_unixToInternal] at fits
  rw [Time.instant, fits.toInt_add, Int.add_sub_cancel]

/-- Nanoseconds alone always have a time. -/
theorem instant_unix_zero (ns : Int64) : (unix 0 ns).instant = ns.toInt := by
  obtain ⟨lower, upper⟩ := fitsInt64_toInt ns
  obtain ⟨rest, division, sign⟩ := tdiv_billion ns.toInt
  have quotient : (ns / 1000000000).toInt = ns.toInt.tdiv 1000000000 := by
    rw [Int64.toInt_div_of_ne_right _ _ (by decide), toInt_billion]
  generalize ns.toInt.tdiv 1000000000 = seconds at division quotient
  have secondsBound : -9300000000 < seconds ∧ seconds < 9300000000 := by omega
  have productFits : FitsInt64 (seconds * 1000000000) := ⟨by omega, by omega⟩
  have product : (ns / 1000000000 * 1000000000).toInt = seconds * 1000000000 := by
    rw [← quotient, ← toInt_billion] at productFits
    rw [productFits.toInt_mul, quotient, toInt_billion]
  have difference : (ns - ns / 1000000000 * 1000000000).toInt = rest := by
    have same : ns.toInt - (ns / 1000000000 * 1000000000).toInt = rest := by
      rw [product]
      omega
    have fits : FitsInt64 (ns.toInt - (ns / 1000000000 * 1000000000).toInt) := by
      rw [same]
      exact ⟨by omega, by omega⟩
    rw [fits.toInt_sub, same]
  simp only [unix, Int64.zero_add]
  split
  · split
    · have one : (1 : Int64).toInt = 1 := by decide
      have before : (ns / 1000000000 - 1).toInt = seconds - 1 := by
        have fits : FitsInt64 ((ns / 1000000000).toInt - (1 : Int64).toInt) := by
          rw [quotient, one]
          exact ⟨by omega, by omega⟩
        rw [fits.toInt_sub, quotient, one]
      have positive : (ns - ns / 1000000000 * 1000000000 + 1000000000).toInt =
          rest + 1000000000 := by
        have fits : FitsInt64 ((ns - ns / 1000000000 * 1000000000).toInt +
            (1000000000 : Int64).toInt) := by
          rw [difference, toInt_billion]
          exact ⟨by omega, by omega⟩
        rw [fits.toInt_add, difference, toInt_billion]
      have fits : FitsInt64 ((ns / 1000000000 - 1).toInt + 62135596800) := by
        rw [before]
        exact ⟨by omega, by omega⟩
      rw [instant_of_fits fits, before, positive]
      omega
    · have fits : FitsInt64 ((ns / 1000000000).toInt + 62135596800) := by
        rw [quotient]
        exact ⟨by omega, by omega⟩
      rw [instant_of_fits fits, quotient, difference]
      omega
  · have zero : (0 : Int64).toInt = 0 := by decide
    have fits : FitsInt64 ((0 : Int64).toInt + 62135596800) := by
      rw [zero]
      exact ⟨by decide, by decide⟩
    rw [← Int64.zero_add unixToInternal, instant_of_fits fits, zero]
    omega

/-- Seconds asked for keep their instant exactly if a time has room for them. -/
theorem instant_unix_iff {sec nsec : Int64} (inRange : ¬ (nsec < 0 ∨ 1000000000 ≤ nsec)) :
    (unix sec nsec).instant = sec.toInt * 1000000000 + nsec.toInt ↔
      sec.toInt + 62135596800 < 2 ^ 63 := by
  obtain ⟨lower, upper⟩ := fitsInt64_toInt sec
  have fitsIff : FitsInt64 (sec.toInt + 62135596800) ↔ sec.toInt + 62135596800 < 2 ^ 63 :=
    ⟨FitsInt64.upper, fun below => ⟨by omega, below⟩⟩
  rw [unix, if_neg inRange, ← fitsIff]
  constructor
  · intro same
    simp only [Time.instant, Int64.toInt_add, toInt_unixToInternal] at same
    rw [← bmod_eq_iff_fits]
    omega
  · exact instant_of_fits

def keptTime (atime mtime : Timespec) (isAtime : Bool) : Timespec :=
  if isAtime then atime else mtime

theorem statTimestampNS_fileInfo (names : StatNames) (atime mtime : Timespec)
    (isAtime : Bool) :
    statTimestampNS (fileInfo names atime mtime)
        (if isAtime then ["Atim", "Atimespec"] else ["Mtim", "Mtimespec"]) =
      some ((keptTime atime mtime isAtime).tvSec * 1000000000 +
        (keptTime atime mtime isAtime).tvNsec) := by
  cases names <;> cases isAtime <;> rfl

theorem kept_instant_iff (kept : Timespec) :
    (unix 0 (kept.tvSec * 1000000000 + kept.tvNsec)).instant = kept.nanoseconds ↔
      FitsInt64 kept.nanoseconds := by
  rw [instant_unix_zero, Int64.toInt_add, Int64.toInt_mul, toInt_billion,
    Int.bmod_add_bmod, Timespec.nanoseconds, bmod_eq_iff_fits]

end GoProvider

open GoProvider PythonProvider

/-- The Go provider keeps a time in 64 bits of nanoseconds, and makes a time from seconds in
64 bits that it counts from the year 1. -/
theorem utimens_sameInstant_iff (names : StatNames) (now : Time) (atime mtime : Timespec)
    (sec nsec : Int64) (isAtime : Bool) :
    SameInstant (normalizeUtimensTime now (fileInfo names atime mtime) sec nsec isAtime)
        (normalizeUtimensValue now.instant (keptTime atime mtime isAtime).nanoseconds
          sec.toInt nsec.toInt) ↔
      Representable (keptTime atime mtime isAtime) sec nsec := by
  have nowSame : nsec.toInt = UTIME_NOW ↔ nsec = utimeNow := by
    rw [← Int64.toInt_inj]
    rfl
  have omitSame : nsec.toInt = UTIME_OMIT ↔ nsec = utimeOmit := by
    rw [← Int64.toInt_inj]
    rfl
  have below : nsec.toInt < 0 ↔ nsec < 0 := by
    rw [Int64.lt_iff_toInt_lt]
    rfl
  have above : nsec.toInt ≥ 1000000000 ↔ 1000000000 ≤ nsec := by
    rw [Int64.le_iff_toInt_le, toInt_billion]
  simp only [normalizeUtimensTime, normalizeUtimensValue, nowSame, omitSame, below, above,
    Representable]
  split
  · simp [SameInstant]
  split
  · rw [statTimestampNS_fileInfo]
    exact (kept_instant_iff _).trans
      ⟨fun fits => ⟨fits.lower, fits.upper⟩, fun fits => ⟨fits.1, fits.2⟩⟩
  split
  · next refused =>
    simp only [SameInstant, true_iff]
    intro atLeast less
    obtain negative | large := refused
    · exact absurd atLeast (Int64.not_le.mpr negative)
    · exact absurd less (Int64.not_lt.mpr large)
  · next accepted =>
    obtain ⟨notNegative, notLarge⟩ := not_or.mp accepted
    simp only [SameInstant, instant_unix_iff accepted]
    constructor
    · exact fun room _ _ => room
    · exact fun room => room (Int64.not_lt.mp notNegative) (Int64.not_le.mp notLarge)

/-- An access time in the year 2264, to be kept. -/
theorem utimens_farFuture :
    ¬ ∀ (names : StatNames) (now : Time) (atime mtime : Timespec) (sec nsec : Int64)
      (isAtime : Bool),
      SameInstant (normalizeUtimensTime now (fileInfo names atime mtime) sec nsec isAtime)
        (normalizeUtimensValue now.instant (keptTime atime mtime isAtime).nanoseconds
          sec.toInt nsec.toInt) := by
  intro same
  have kept := same .tim ⟨0, 0⟩ ⟨9300000000, 0⟩ ⟨0, 0⟩ 0 utimeOmit true
  exact absurd kept (by decide +kernel)

end HttpFs
