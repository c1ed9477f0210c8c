import HttpFs.Provider.Containment

namespace HttpFs

open LexicalPath PathAlphabet

/-- The components of an absolute path, of which one trailing slash is ignored. -/
def pathNames (path : Bytes) : List Bytes :=
  let names := (path.drop 1).splitOn slash
  if names.getLast? = some [] then names.dropLast else names

/-- The location has the normal form of the root. -/
def DenotesRoot (rootDir location : Bytes) : Prop :=
  normalNames (GoProvider.isAbs rootDir) location =
    normalNames (GoProvider.isAbs rootDir) rootDir

/-- The filter of `resolve_path` finds every dot segment, and nothing that it lets through
leads back to the root. -/
structure FilterExact (rootDir path : Bytes) (resolvedSize : Nat) : Prop where
  rejects : CProvider.resolvePath rootDir path resolvedSize = none ↔
    ∃ name ∈ pathNames path, IsDotOrEmpty name
  notRoot : ∀ resolved, CProvider.resolvePath rootDir path resolvedSize = some resolved →
    path ≠ ascii "/" → ¬ DenotesRoot rootDir resolved

/-- The path ends in a dot segment behind ordinary names, of which there is at least
one. -/
def EndsInDots (path : Bytes) : Prop :=
  let names := (path.drop 1).splitOn slash
  names.dropLast ≠ [] ∧ (∀ name ∈ names.dropLast, ¬ IsDotOrEmpty name) ∧
    (names.getLast? = some curdir ∨ names.getLast? = some pardir)

instance (path : Bytes) : Decidable (EndsInDots path) :=
  inferInstanceAs (Decidable (_ ∧ _ ∧ _))

theorem endsInDots_iff {body last : Bytes} {names : List Bytes}
    (split : body.splitOn slash = names ++ [last]) :
    EndsInDots (slash :: body) ↔
      names ≠ [] ∧ (∀ name ∈ names, ¬ IsDotOrEmpty name) ∧ (last = curdir ∨ last = pardir) := by
  simp only [EndsInDots, List.drop_succ_cons, List.drop_zero, split, List.getLast?_concat,
    List.dropLast_concat, Option.some.injEq]

theorem pathNames_eq {body last : Bytes} {names : List Bytes}
    (split : body.splitOn slash = names ++ [last]) :
    pathNames (slash :: body) = if last = [] then names else names ++ [last] := by
  simp only [pathNames, List.drop_succ_cons, List.drop_zero, split, List.getLast?_concat,
    List.dropLast_concat, Option.some.injEq]

theorem filterExact_root {rootDir : Bytes} {resolvedSize : Nat}
    (fits : rootDir.length < resolvedSize) : FilterExact rootDir [slash] resolvedSize where
  rejects := by
    have accepted : CProvider.resolvePath rootDir [slash] resolvedSize = some rootDir := by
      have rooted : ([slash] : Bytes).head? = some (byte '/') := rfl
      have isSlash : ([slash] : Bytes) = ascii "/" := rfl
      rw [CProvider.resolvePath, if_neg (not_not_intro rooted), if_pos isSlash, if_pos fits]
    have nothing : pathNames [slash] = [] := by decide
    simp [accepted, nothing]
  notRoot := fun _ _ different => absurd rfl different

theorem not_denotesRoot {rootDir body : Bytes}
    (proper : ∀ name ∈ components body, Proper name) (some : components body ≠ []) :
    ¬ DenotesRoot rootDir (rootDir ++ slash :: body) := by
  rw [DenotesRoot, normalNames_append proper]
  intro same
  exact some (by simpa using same)

theorem components_ordinary {body last : Bytes} {names : List Bytes}
    (split : body.splitOn slash = names ++ [last]) (notRoot : body ≠ [])
    (ordinary : ∀ name ∈ names, ¬ IsDotOrEmpty name)
    (noDots : ¬ (last = curdir ∨ last = pardir)) :
    (∀ name ∈ components body, Proper name) ∧ components body ≠ [] := by
  have free : ∀ name ∈ names ++ [last], slash ∉ name := by
    intro name member
    exact slash_not_mem_of_mem_splitOn (by rwa [split])
  have namesProper : ∀ name ∈ names, Proper name := by
    intro name member
    exact proper_of_not_isDotOrEmpty (ordinary name member)
      (free name (List.mem_append_left _ member))
  rw [components_splitOn split namesProper]
  split
  · next empty =>
    refine ⟨namesProper, ?_⟩
    rintro rfl
    rw [empty] at split
    exact notRoot ((splitOn_eq_singleton_iff List.not_mem_nil).mp split)
  · next notEmpty =>
    have lastProper : Proper last :=
      proper_of_not_isDotOrEmpty (fun bad => bad.elim notEmpty noDots) (free last (by simp))
    refine ⟨?_, by simp⟩
    intro name member
    obtain inNames | isLast := List.mem_append.mp member
    · exact namesProper name inNames
    · rw [List.mem_singleton.mp isLast]
      exact lastProper

/-- Where a dot segment at the end has a name before it, the filter finds what a look at
all components finds. -/
theorem filter_finds {names : List Bytes} {last : Bytes}
    (noDots : ¬ (names ≠ [] ∧ (∀ name ∈ names, ¬ IsDotOrEmpty name) ∧
      (last = curdir ∨ last = pardir))) :
    (∃ name ∈ names, IsDotOrEmpty name) ∨ names = [] ∧ (last = curdir ∨ last = pardir) ↔
      ∃ name ∈ (if last = [] then names else names ++ [last]), IsDotOrEmpty name := by
  constructor
  · rintro (⟨name, member, bad⟩ | ⟨rfl, isDots⟩)
    · refine ⟨name, ?_, bad⟩
      split
      · exact member
      · exact List.mem_append_left _ member
    · have notEmpty : last ≠ [] := by
        rintro rfl
        exact isDots.elim (by decide) (by decide)
      exact ⟨last, by simp [notEmpty], .inr isDots⟩
  · rintro ⟨name, member, bad⟩
    by_cases found : ∃ earlier ∈ names, IsDotOrEmpty earlier
    · exact .inl found
    · have ordinary : ∀ earlier ∈ names, ¬ IsDotOrEmpty earlier :=
        fun earlier inNames isBad => found ⟨earlier, inNames, isBad⟩
      have isLast : name = last ∧ last ≠ [] := by
        split at member
        · exact absurd bad (ordinary name member)
        · next notEmpty =>
          obtain inNames | isLast := List.mem_append.mp member
          · exact absurd bad (ordinary name inNames)
          · exact ⟨List.mem_singleton.mp isLast, notEmpty⟩
      obtain ⟨rfl, notEmpty⟩ := isLast
      have isDots := bad.resolve_left notEmpty
      refine .inr ⟨?_, isDots⟩
      exact Decidable.of_not_not fun nonempty => noDots ⟨nonempty, ordinary, isDots⟩

theorem filterExact_below {rootDir body last : Bytes} {names : List Bytes}
    {resolvedSize : Nat} (split : body.splitOn slash = names ++ [last]) (notRoot : body ≠ [])
    (fits : (rootDir ++ slash :: body).length < resolvedSize)
    (noDots : ¬ (names ≠ [] ∧ (∀ name ∈ names, ¬ IsDotOrEmpty name) ∧
      (last = curdir ∨ last = pardir))) :
    FilterExact rootDir (slash :: body) resolvedSize := by
  have decision := CProvider.resolvePath_none_iff split notRoot fits
  constructor
  · rw [decision, pathNames_eq split]
    exact filter_finds noDots
  · intro resolved accepted _
    obtain ⟨_, rfl, _⟩ := (CProvider.resolvePath_shape accepted).2.resolve_left
      fun root => notRoot root.2
    have passed := mt decision.mpr (by rw [accepted]; exact Option.some_ne_none _)
    rw [not_or, not_exists, not_and] at passed
    have ordinary : ∀ name ∈ names, ¬ IsDotOrEmpty name :=
      fun name member bad => passed.1 name ⟨member, bad⟩
    have noDotsLast : ¬ (last = curdir ∨ last = pardir) := by
      intro isDots
      by_cases single : names = []
      · exact passed.2 single isDots
      · exact noDots ⟨single, ordinary, isDots⟩
    obtain ⟨proper, nonempty⟩ := components_ordinary split notRoot ordinary noDotsLast
    exact not_denotesRoot proper nonempty

/-- The five tests of `resolve_path` miss a dot segment at the end of a path, unless it is
the whole path. -/
theorem filterExact_iff {rootDir path : Bytes} {resolvedSize : Nat}
    (rooted : path.head? = some (byte '/'))
    (fits : (rootDir ++ path).length < resolvedSize) :
    FilterExact rootDir path resolvedSize ↔ ¬ EndsInDots path := by
  cases path with
  | nil => contradiction
  | cons head body =>
      obtain rfl : head = slash := Option.some.inj rooted
      obtain ⟨names, last, split⟩ := exists_last_component slash body
      rw [endsInDots_iff split]
      by_cases isRoot : body = []
      · subst isRoot
        have room : rootDir.length < resolvedSize := by
          rw [List.length_append] at fits
          omega
        have single : names = [] := by
          have lengths := congrArg List.length split
          rw [List.length_append] at lengths
          exact List.length_eq_zero_iff.mp (Nat.succ.inj lengths).symm
        exact iff_of_true (filterExact_root room) fun dots => dots.1 single
      · constructor
        · intro exact dots
          obtain ⟨nonempty, ordinary, isDots⟩ := dots
          have notEmpty : last ≠ [] := by
            rintro rfl
            exact isDots.elim (by decide) (by decide)
          have listed := pathNames_eq split
          rw [if_neg notEmpty] at listed
          have rejected := exact.rejects.mpr ⟨last, by simp [listed], .inr isDots⟩
          obtain ⟨name, member, bad⟩ | ⟨single, _⟩ :=
            (CProvider.resolvePath_none_iff split isRoot fits).mp rejected
          · exact ordinary name member bad
          · exact nonempty single
        · exact filterExact_below split isRoot fits

theorem filterExact_dottedNames :
    FilterExact (ascii "/srv") (ascii "/..a/b./.c") 4096 :=
  (filterExact_iff rfl (by decide)).mpr (by decide +kernel)

theorem filter_misses_parent :
    ¬ ∀ (rootDir path : Bytes) (resolvedSize : Nat), path.head? = some (byte '/') →
      (rootDir ++ path).length < resolvedSize → FilterExact rootDir path resolvedSize := by
  intro exact
  have found := (exact (ascii "/srv") (ascii "/a/..") 4096 rfl (by decide)).rejects.mpr
    ⟨pardir, by decide, by decide⟩
  exact absurd found (by decide +kernel)

end HttpFs
