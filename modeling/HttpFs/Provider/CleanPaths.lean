import HttpFs.Provider.ResolverAgreement

namespace HttpFs

open LexicalPath PathAlphabet

/-! What the three resolvers make of a path whose components all name directory
entries: the text of a clean root of its own, with a name at least. -/

section Lexical

variable {α : Type} [DecidableEq α] [PathAlphabet α] {root path : CleanRoot α}

theorem placedNames_clean : root.placedNames path.text = root.names ++ path.names := by
  rw [CleanRoot.placedNames, path.components_text, collapse_of_proper path.proper]
  simp

theorem normalNames_clean : normalNames true path.text = path.names :=
  normalNames_absolute path.proper

theorem text_eq_text {first second : CleanRoot α} :
    first.text = second.text ↔ first.names = second.names := by
  constructor
  · intro same
    rw [← first.components_text, same, second.components_text]
  · intro same
    rw [CleanRoot.text, same]
    rfl

theorem text_ne_slash (below : path.names ≠ []) : path.text ≠ [slash] := by
  intro same
  have nothing := path.components_text
  rw [same, components_cons_slash] at nothing
  exact below nothing.symm

omit [DecidableEq α] in
theorem proper_below (root path : CleanRoot α) :
    ∀ name ∈ root.names ++ path.names, Proper name :=
  List.forall_mem_append.mpr ⟨root.proper, path.proper⟩

omit [DecidableEq α] in
/-- The prefix that the Go provider compares with is the root with a separator, which is
two slashes for the root of the file system. -/
theorem separated_prefix_iff (below : path.names ≠ []) :
    root.text ++ [slash] <+: absolute (root.names ++ path.names) ↔ root.names ≠ [] := by
  constructor
  · intro isPrefix atRoot
    obtain ⟨rest, shape⟩ := isPrefix
    obtain ⟨first, others, names⟩ := List.exists_cons_of_ne_nil below
    have firstProper := path.proper first (by rw [names]; exact List.mem_cons_self ..)
    obtain ⟨head, tail, letters⟩ := List.exists_cons_of_ne_nil firstProper.ne_nil
    have joined : ∃ more, [slash].intercalate ((head :: tail) :: others) = head :: more := by
      cases others with
      | nil => exact ⟨tail, by simp⟩
      | cons next rest => exact ⟨_, List.intercalate_cons_cons⟩
    obtain ⟨more, joined⟩ := joined
    rw [CleanRoot.text, atRoot, names, letters, List.nil_append, absolute, absolute,
      joined] at shape
    have heads : slash = head := (List.cons.inj (List.cons.inj shape).2).1
    have free := firstProper.noSlash
    rw [letters, heads] at free
    exact free (List.mem_cons_self ..)
  · intro nonempty
    rw [absolute_append nonempty below]
    exact ⟨[slash].intercalate path.names, by simp [CleanRoot.text, absolute]⟩

theorem GoProvider.resolvePath_clean {workingDir : List α} (below : path.names ≠ []) :
    GoProvider.resolvePath workingDir root.text path.text =
      if root.names = [] then none else some (absolute (root.names ++ path.names)) := by
  have rooted : GoProvider.isAbs path.text = true := isAbs_absolute path.names
  have candidate : GoProvider.abs workingDir
      (GoProvider.join [root.text, GoProvider.clean path.text]) =
        absolute (root.names ++ path.names) := by
    rw [GoProvider.join_root root rooted, GoProvider.abs, if_pos (isAbs_absolute _),
      clean_of_isAbs (isAbs_absolute _), normalNames_clean,
      normalNames_absolute (proper_below root path)]
  have different : absolute (root.names ++ path.names) ≠ root.text := by
    intro same
    have names := (@text_eq_text _ _ _ ⟨_, proper_below root path⟩ root).mp same
    exact below (by simpa using names)
  simp only [GoProvider.resolvePath, rooted, Bool.not_true, Bool.false_eq_true, if_false,
    text_ne_slash below, candidate, different, ne_eq, not_false_eq_true, true_and,
    separated_prefix_iff below, Decidable.not_not]

omit [PathAlphabet α] in
theorem commonPrefix_append (names rest : List (List α)) :
    PythonProvider.commonPrefix names (names ++ rest) = names := by
  induction names with
  | nil => rfl
  | cons head tail induction =>
      rw [List.cons_append, PythonProvider.commonPrefix, if_pos rfl, induction]

theorem PythonProvider.resolvePath_clean {workingDir : List α} (below : path.names ≠ []) :
    ∃ resolved, PythonProvider.resolvePath workingDir root.text path.text = some resolved := by
  have rooted : PythonProvider.isAbs path.text = true := isAbs_absolute path.names
  have rootAbs : PythonProvider.isAbs root.text = true := isAbs_absolute root.names
  have joinedAbs := PythonProvider.isAbs_join root (PythonProvider.lstrip path.text)
  obtain ⟨candidateAbs, names⟩ := PythonProvider.components_normpath joinedAbs
  have joinedNames := PythonProvider.components_join root path.text
  rw [path.components_text] at joinedNames
  rw [normalNames_of_proper (proper_below root path) joinedNames] at names
  refine ⟨PythonProvider.normpath
    (PythonProvider.join root.text (PythonProvider.lstrip path.text)), ?_⟩
  have common : PythonProvider.commonpath root.text (PythonProvider.normpath
      (PythonProvider.join root.text (PythonProvider.lstrip path.text))) = some root.text := by
    simp only [PythonProvider.commonpath, rootAbs, candidateAbs, names, root.components_text,
      filter_curdir root.proper, filter_curdir (proper_below root path), commonPrefix_append,
      ne_eq, not_true_eq_false, if_false, if_true]
    rfl
  simp only [PythonProvider.resolvePath, rooted, Bool.not_true, Bool.false_eq_true, if_false,
    text_ne_slash below, PythonProvider.abspath, joinedAbs, if_true, common, ne_eq,
    not_true_eq_false]

end Lexical

theorem CProvider.resolvePath_clean {root path : CleanRoot UInt8} {resolvedSize : Nat}
    (below : path.names ≠ []) (fits : (root.text ++ path.text).length < resolvedSize) :
    CProvider.resolvePath root.text path.text resolvedSize = some (root.text ++ path.text) := by
  have split : ([slash].intercalate path.names).splitOn slash =
      path.names.dropLast ++ [path.names.getLast below] := by
    rw [List.splitOn_intercalate slash (fun name member => (path.proper name member).noSlash)
      below, List.dropLast_concat_getLast]
  have notRoot : [slash].intercalate path.names ≠ [] := by
    intro empty
    apply text_ne_slash below
    rw [CleanRoot.text, absolute, empty]
  have passed := mt (CProvider.resolvePath_none_iff split notRoot fits).mp (by
    have lastProper := path.proper _ (List.getLast_mem below)
    rintro (⟨name, member, bad⟩ | ⟨_, isDots⟩)
    · exact (path.proper name ((List.dropLast_sublist _).subset member)).not_isDotOrEmpty bad
    · exact lastProper.not_isDotOrEmpty (.inr isDots))
  obtain ⟨resolved, accepted⟩ := Option.ne_none_iff_exists'.mp passed
  obtain ⟨_, rfl, _⟩ := (CProvider.resolvePath_shape accepted).2.resolve_left
    fun isRoot => notRoot isRoot.2
  exact accepted

section Encoded

variable {γ : Type} [DecidableEq γ] [PathAlphabet γ] (bytes : PathEncoding γ UInt8)
  (points : PathEncoding γ CodePoint)

/-- All three providers accept the path and put it where its names, behind those of the
root, lead to. -/
def AcceptedAlike (root path : CleanRoot γ) (resolvedSize : Nat) (goDir : Bytes)
    (pythonDir : List CodePoint) : Prop :=
  ∃ c go python,
    CProvider.resolvePath (bytes.text root.text) (bytes.text path.text) resolvedSize = some c ∧
    GoProvider.resolvePath goDir (bytes.text root.text) (bytes.text path.text) = some go ∧
    PythonProvider.resolvePath pythonDir (points.text root.text) (points.text path.text) =
      some python ∧
    normalNames true c = (root.names ++ path.names).map bytes.text ∧
    normalNames true go = (root.names ++ path.names).map bytes.text ∧
    normalNames true python = (root.names ++ path.names).map points.text

/-- The Go provider takes the root of the file system for a directory that no path leads
into. -/
theorem cleanPath_accepted_iff {root path : CleanRoot γ} {resolvedSize : Nat}
    (below : path.names ≠ [])
    (fits : (bytes.text root.text ++ bytes.text path.text).length < resolvedSize)
    (goDir : Bytes) (pythonDir : List CodePoint) :
    AcceptedAlike bytes points root path resolvedSize goDir pythonDir ↔ root.names ≠ [] := by
  have byteBelow : (bytes.root path).names ≠ [] := by simpa [PathEncoding.root] using below
  have pointBelow : (points.root path).names ≠ [] := by simpa [PathEncoding.root] using below
  have goResult := @GoProvider.resolvePath_clean _ _ _ (bytes.root root) _ goDir byteBelow
  have sameRoot : (bytes.root root).names = [] ↔ root.names = [] := by
    simp [PathEncoding.root]
  rw [AcceptedAlike, ← bytes.root_text, ← bytes.root_text, ← points.root_text,
    ← points.root_text]
  rw [← bytes.root_text, ← bytes.root_text] at fits
  constructor
  · intro accepted atRoot
    obtain ⟨_, go, _, _, goAccepts, _⟩ := accepted
    rw [goResult, if_pos (sameRoot.mpr atRoot)] at goAccepts
    contradiction
  · intro notTop
    rw [if_neg (mt sameRoot.mp notTop)] at goResult
    have cResult := CProvider.resolvePath_clean byteBelow fits
    obtain ⟨python, pythonResult⟩ :=
      @PythonProvider.resolvePath_clean _ _ _ (points.root root) _ pythonDir pointBelow
    refine ⟨_, _, _, cResult, goResult, pythonResult, ?_, ?_, ?_⟩
    · rw [CProvider.normalNames_resolvePath cResult, placedNames_clean, List.map_append]
      rfl
    · rw [normalNames_absolute (proper_below _ _), List.map_append]
      rfl
    · rw [PythonProvider.normalNames_resolvePath pythonResult, placedNames_clean,
        List.map_append]
      rfl

end Encoded

def dottedPath : CleanRoot Char where
  names := ["..a".toList, ".b".toList]
  proper := by
    intro name member
    simp only [List.mem_cons, List.not_mem_nil, or_false] at member
    obtain rfl | rfl := member
    · exact ⟨by decide, by decide, by decide, by decide⟩
    · exact ⟨by decide, by decide, by decide, by decide⟩

theorem cleanPath_accepted_dotted :
    AcceptedAlike utf8 codePoints dataRoot dottedPath 4096 [] [] :=
  (cleanPath_accepted_iff utf8 codePoints (by decide) (by decide +kernel) [] []).mpr (by decide)

/-- With `/` for the root, the Go provider compares with `//`. -/
theorem cleanPath_refused :
    ¬ ∀ (root path : CleanRoot Char) (resolvedSize : Nat) (goDir : Bytes)
      (pythonDir : List CodePoint), path.names ≠ [] →
      (utf8.text root.text ++ utf8.text path.text).length < resolvedSize →
      AcceptedAlike utf8 codePoints root path resolvedSize goDir pythonDir := by
  intro accepted
  obtain ⟨_, go, _, _, goAccepts, _⟩ := accepted ⟨[], by simp⟩ dottedPath 4096 [] []
    (by decide) (by decide +kernel)
  have refused : GoProvider.resolvePath [] (utf8.text (CleanRoot.text ⟨[], by simp⟩))
      (utf8.text dottedPath.text) = none := by decide +kernel
  rw [refused] at goAccepts
  contradiction

end HttpFs
