import HttpFs.Foundation.PathEncoding
import HttpFs.Provider.Containment

namespace HttpFs

open LexicalPath PathAlphabet

/-! Where the three providers put one path. -/

instance : PathAlphabet Char where
  slash := '/'
  dot := '.'
  slash_ne_dot := by decide

theorem utf8EncodeChar_ascii {c : Char} {b : UInt8} (member : b ∈ String.utf8EncodeChar c)
    (isAscii : b.toNat < 0x80) : c.toNat = b.toNat := by
  have tail (n m : Nat) (m_ge : 0x80 ≤ m) (small : n + m < 256) :
      b = UInt8.ofNat (n + m) → c.toNat = b.toNat := by
    rintro rfl
    rw [UInt8.toNat_ofNat'] at isAscii
    omega
  simp only [String.utf8EncodeChar] at member
  split at member
  · next small =>
    simp only [List.mem_cons, List.not_mem_nil, or_false] at member
    have same : c.val.toNat = c.toNat := rfl
    rw [member, UInt8.toNat_ofNat', same]
    omega
  · split at member
    · simp only [List.mem_cons, List.not_mem_nil, or_false] at member
      obtain isByte | isByte := member <;> exact tail _ _ (by omega) (by omega) isByte
    · split at member
      · simp only [List.mem_cons, List.not_mem_nil, or_false] at member
        obtain isByte | isByte | isByte := member <;>
          exact tail _ _ (by omega) (by omega) isByte
      · simp only [List.mem_cons, List.not_mem_nil, or_false] at member
        obtain isByte | isByte | isByte | isByte := member <;>
          exact tail _ _ (by omega) (by omega) isByte

/-- The bytes of a path, as the C and the Go provider have them. -/
def utf8 : PathEncoding Char UInt8 where
  encode := String.utf8EncodeChar
  encode_slash := by decide
  encode_dot := by decide
  nonempty := fun _ => String.utf8EncodeChar_ne_nil
  noSlash := fun _ different member =>
    different (Char.toNat_inj.mp (utf8EncodeChar_ascii member (by decide)))
  noDot := fun _ different member =>
    different (Char.toNat_inj.mp (utf8EncodeChar_ascii member (by decide)))

theorem toNat_lt_codePoints (c : Char) : c.toNat < 0x110000 := by
  obtain lower | ⟨_, upper⟩ := c.valid
  · exact Nat.lt_trans lower (by decide)
  · exact upper

/-- The code points of a path, as the Python provider has them. -/
def codePoints : PathEncoding Char CodePoint where
  encode := fun c => [⟨c.toNat, toNat_lt_codePoints c⟩]
  encode_slash := rfl
  encode_dot := rfl
  nonempty := by simp
  noSlash := by
    intro c different member
    obtain same := Fin.mk.inj (List.mem_singleton.mp member)
    exact different (Char.toNat_inj.mp same.symm)
  noDot := by
    intro c different member
    obtain same := Fin.mk.inj (List.mem_singleton.mp member)
    exact different (Char.toNat_inj.mp same.symm)

/-- The two locations have the same normal form. -/
def SameLocation (bytes : Bytes) (points : List CodePoint) : Prop :=
  ∃ names : List (List Char), normalNames true bytes = names.map utf8.text ∧
    normalNames true points = names.map codePoints.text

section Locations

variable {α : Type} [DecidableEq α] [PathAlphabet α]

theorem CProvider.normalNames_resolvePath {root : CleanRoot UInt8} {path resolved : Bytes}
    {resolvedSize : Nat}
    (accepted : CProvider.resolvePath root.text path resolvedSize = some resolved) :
    normalNames true resolved = root.placedNames path := by
  have split := (CProvider.resolvePath_walked accepted).1
  rw [root.components_text] at split
  exact CleanRoot.normalNames_location split

theorem CProvider.placedNames_below {root : CleanRoot UInt8} {path resolved : Bytes}
    {resolvedSize : Nat}
    (accepted : CProvider.resolvePath root.text path resolvedSize = some resolved) :
    root.placedNames path = root.names ++ normalNames true path := by
  obtain ⟨_, _, walked⟩ := CProvider.resolvePath_walked accepted
  exact CleanRoot.placedNames_below walked

theorem GoProvider.normalNames_resolvePath {workingDir path resolved : List α}
    {root : CleanRoot α}
    (accepted : GoProvider.resolvePath workingDir root.text path = some resolved) :
    normalNames true resolved = root.names ++ normalNames true path := by
  rw [GoProvider.resolvePath_eq accepted, normalNames_absolute]
  exact List.forall_mem_append.mpr ⟨root.proper, normalNames_proper path⟩

theorem PythonProvider.normalNames_resolvePath {workingDir path resolved : List α}
    {root : CleanRoot α}
    (accepted : PythonProvider.resolvePath workingDir root.text path = some resolved) :
    normalNames true resolved = root.placedNames path :=
  normalNames_of_proper (root.placedNames_proper path)
    (PythonProvider.resolvePath_names accepted).1

end Locations

section Encoded

variable {root : CleanRoot Char} {path : List Char}

theorem c_location {resolvedSize : Nat} {resolved : Bytes}
    (accepted : CProvider.resolvePath (utf8.text root.text) (utf8.text path) resolvedSize =
      some resolved) :
    normalNames true resolved = (root.placedNames path).map utf8.text := by
  rw [← utf8.root_text] at accepted
  rw [CProvider.normalNames_resolvePath accepted, utf8.placedNames_text]

theorem go_location {workingDir resolved : Bytes}
    (accepted : GoProvider.resolvePath workingDir (utf8.text root.text) (utf8.text path) =
      some resolved) :
    normalNames true resolved = (root.names ++ normalNames true path).map utf8.text := by
  rw [← utf8.root_text] at accepted
  rw [GoProvider.normalNames_resolvePath accepted, utf8.normalNames_text, List.map_append]
  rfl

theorem python_location {workingDir resolved : List CodePoint}
    (accepted : PythonProvider.resolvePath workingDir (codePoints.text root.text)
      (codePoints.text path) = some resolved) :
    normalNames true resolved = (root.placedNames path).map codePoints.text := by
  rw [← codePoints.root_text] at accepted
  rw [PythonProvider.normalNames_resolvePath accepted, codePoints.placedNames_text]

/-- The Go provider stops `..` at the root of the path, the Python provider at the root
of the file system. -/
theorem sameLocation_iff {goDir go : Bytes} {pythonDir python : List CodePoint}
    (goAccepts : GoProvider.resolvePath goDir (utf8.text root.text) (utf8.text path) = some go)
    (pythonAccepts : PythonProvider.resolvePath pythonDir (codePoints.text root.text)
      (codePoints.text path) = some python) :
    SameLocation go python ↔ root.names = [] ∨ (walk [] (components path)).isSome := by
  rw [SameLocation, go_location goAccepts, python_location pythonAccepts,
    ← CleanRoot.length_placedNames_iff]
  constructor
  · rintro ⟨names, goNames, pythonNames⟩
    have goLength := congrArg List.length goNames
    have pythonLength := congrArg List.length pythonNames
    rw [List.length_map, List.length_map] at goLength pythonLength
    rw [pythonLength, goLength]
  · intro sameLength
    refine ⟨root.placedNames path, ?_, rfl⟩
    obtain atRoot | below := CleanRoot.length_placedNames_iff.mp sameLength
    · rw [CleanRoot.placedNames, atRoot, List.nil_append, normalNames_eq]
      rfl
    · obtain ⟨below, walked⟩ := Option.isSome_iff_exists.mp below
      rw [CleanRoot.placedNames_below walked]

end Encoded

/-- Two providers that accept a path agree on where it points, except the Go and the
Python provider on a path whose `..` lead above its own root. -/
theorem resolvers_agree :
    (∀ (root : CleanRoot UInt8) (path : Bytes) (resolvedSize : Nat) (goDir c go : Bytes),
      CProvider.resolvePath root.text path resolvedSize = some c →
      GoProvider.resolvePath goDir root.text path = some go →
      normalNames true c = normalNames true go) ∧
    (∀ (root : CleanRoot Char) (path : List Char) (resolvedSize : Nat) (c : Bytes)
        (pythonDir python : List CodePoint),
      CProvider.resolvePath (utf8.text root.text) (utf8.text path) resolvedSize = some c →
      PythonProvider.resolvePath pythonDir (codePoints.text root.text) (codePoints.text path) =
        some python →
      SameLocation c python) ∧
    (∀ (root : CleanRoot Char) (path : List Char) (goDir go : Bytes)
        (pythonDir python : List CodePoint),
      GoProvider.resolvePath goDir (utf8.text root.text) (utf8.text path) = some go →
      PythonProvider.resolvePath pythonDir (codePoints.text root.text) (codePoints.text path) =
        some python →
      (SameLocation go python ↔ root.names = [] ∨ (walk [] (components path)).isSome)) := by
  refine ⟨?_, ?_, ?_⟩
  · intro root path resolvedSize goDir c go cAccepts goAccepts
    rw [CProvider.normalNames_resolvePath cAccepts, CProvider.placedNames_below cAccepts,
      GoProvider.normalNames_resolvePath goAccepts]
  · intro root path resolvedSize c pythonDir python cAccepts pythonAccepts
    exact ⟨root.placedNames path, c_location cAccepts, python_location pythonAccepts⟩
  · intro root path goDir go pythonDir python goAccepts pythonAccepts
    exact sameLocation_iff goAccepts pythonAccepts

def dataRoot : CleanRoot Char where
  names := ["srv".toList, "data".toList]
  proper := by
    intro name member
    simp only [List.mem_cons, List.not_mem_nil, or_false] at member
    obtain rfl | rfl := member
    · exact ⟨by decide, by decide, by decide, by decide⟩
    · exact ⟨by decide, by decide, by decide, by decide⟩

theorem resolvers_agree_parent :
    SameLocation (ascii "/srv/data/a/..") (codePoints.text "/srv/data".toList) := by
  have cAccepts : CProvider.resolvePath (utf8.text dataRoot.text) (utf8.text "/a/..".toList)
      4096 = some (ascii "/srv/data/a/..") := by decide +kernel
  have pythonAccepts : PythonProvider.resolvePath [] (codePoints.text dataRoot.text)
      (codePoints.text "/a/..".toList) = some (codePoints.text "/srv/data".toList) := by
    decide +kernel
  exact resolvers_agree.2.1 dataRoot "/a/..".toList 4096 _ [] _ cAccepts pythonAccepts

/-- A path that leaves the root and comes back by the name of the root. -/
theorem resolvers_differ :
    GoProvider.resolvePath [] (utf8.text dataRoot.text) (utf8.text "/../data/x".toList) =
        some (ascii "/srv/data/data/x") ∧
      PythonProvider.resolvePath [] (codePoints.text dataRoot.text)
        (codePoints.text "/../data/x".toList) = some (codePoints.text "/srv/data/x".toList) ∧
      ¬ SameLocation (ascii "/srv/data/data/x") (codePoints.text "/srv/data/x".toList) := by
  refine ⟨by decide +kernel, by decide +kernel, ?_⟩
  rintro ⟨names, goNames, pythonNames⟩
  have goLength := congrArg List.length goNames
  have pythonLength := congrArg List.length pythonNames
  rw [List.length_map] at goLength pythonLength
  have same := goLength.trans pythonLength.symm
  exact absurd same (by decide +kernel)

end HttpFs
