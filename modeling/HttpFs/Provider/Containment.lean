import HttpFs.Provider.ResolvePath

namespace HttpFs

open LexicalPath PathAlphabet

section Lexical

variable {α : Type} [DecidableEq α] [PathAlphabet α]

private theorem components_normal_absolute (path : List α) :
    components (absolute (normalNames true path)) = normalNames true path :=
  components_absolute (normalNames_proper path)

theorem isAbs_absolute (names : List (List α)) :
    GoProvider.isAbs (absolute names) = true := by
  simp [GoProvider.isAbs, absolute]

theorem clean_of_isAbs {path : List α} (rooted : GoProvider.isAbs path = true) :
    GoProvider.clean path = absolute (normalNames true path) := by
  simp [GoProvider.clean, rooted]

private theorem clean_ne_nil (path : List α) : GoProvider.clean path ≠ [] := by
  unfold GoProvider.clean
  split
  · simp [absolute]
  · simp only
    split
    · simp [curdir]
    · assumption

theorem GoProvider.join_root (root : CleanRoot α) {path : List α}
    (rooted : GoProvider.isAbs path = true) :
    GoProvider.join [root.text, GoProvider.clean path] =
      absolute (root.names ++ normalNames true path) := by
  have rootKept : (root.text != []) = true := by simp [CleanRoot.text, absolute]
  have pathKept : (GoProvider.clean path != []) = true := by
    simpa using clean_ne_nil path
  have joined : GoProvider.join [root.text, GoProvider.clean path] =
      GoProvider.clean (root.text ++ slash :: GoProvider.clean path) := by
    simp [GoProvider.join, rootKept, pathKept]
  have joinedRooted : GoProvider.isAbs (root.text ++ slash :: GoProvider.clean path) = true := by
    simp [GoProvider.isAbs, CleanRoot.text, absolute]
  have names : components (root.text ++ slash :: GoProvider.clean path) =
      root.names ++ normalNames true path := by
    rw [components_append_slash, root.components_text, clean_of_isAbs rooted,
      components_normal_absolute]
  rw [joined, clean_of_isAbs joinedRooted, normalNames_of_proper _ names]
  exact List.forall_mem_append.mpr ⟨root.proper, normalNames_proper path⟩

/-- The Go provider puts the normal form of the path itself below the root. -/
theorem GoProvider.resolvePath_eq {workingDir path resolved : List α} {root : CleanRoot α}
    (accepted : GoProvider.resolvePath workingDir root.text path = some resolved) :
    resolved = absolute (root.names ++ normalNames true path) := by
  simp only [GoProvider.resolvePath] at accepted
  split at accepted
  · contradiction
  next notRelative =>
  have rooted : GoProvider.isAbs path = true := by simpa using notRelative
  split at accepted
  · next isRoot =>
    cases accepted
    have nothing : normalNames true ([slash] : List α) = [] := by
      rw [normalNames_eq, components_cons_slash]
      rfl
    rw [isRoot, nothing, List.append_nil]
    rfl
  · have proper := List.forall_mem_append.mpr ⟨root.proper, normalNames_proper path⟩
    rw [GoProvider.join_root root rooted, GoProvider.abs, if_pos (isAbs_absolute _),
      clean_of_isAbs (isAbs_absolute _), normalNames_absolute proper] at accepted
    split at accepted
    · contradiction
    · exact (Option.some.inj accepted).symm

theorem GoProvider.resolvePath_contained {workingDir path resolved : List α}
    {root : CleanRoot α}
    (accepted : GoProvider.resolvePath workingDir root.text path = some resolved) :
    Contained root.text resolved := by
  have proper := List.forall_mem_append.mpr ⟨root.proper, normalNames_proper path⟩
  rw [GoProvider.resolvePath_eq accepted]
  apply contained_of_proper _ (normalNames_proper path)
  rw [components_absolute proper, root.components_text]

omit [PathAlphabet α] in
private theorem commonPrefix_prefix (first second : List (List α)) :
    PythonProvider.commonPrefix first second <+: second := by
  induction first generalizing second with
  | nil => simp [PythonProvider.commonPrefix]
  | cons head tail induction =>
      cases second with
      | nil => simp [PythonProvider.commonPrefix]
      | cons other rest =>
          simp only [PythonProvider.commonPrefix]
          split
          · next same =>
            rw [same]
            exact List.cons_prefix_cons.mpr ⟨rfl, induction rest⟩
          · exact List.nil_prefix

theorem filter_curdir {names : List (List α)}
    (proper : ∀ name ∈ names, Proper name) :
    names.filter (fun component => component != curdir) = names :=
  List.filter_eq_self.mpr fun name member => by
    simpa using (proper name member).ne_curdir

/-- The common path of a clean root and a clean path is the root only when the
path starts with the names of the root. -/
private theorem root_names_prefix {root : CleanRoot α} {names : List (List α)}
    (proper : ∀ name ∈ names, Proper name)
    (common : slash :: [slash].intercalate
      (PythonProvider.commonPrefix root.names names) = root.text) :
    root.names <+: names := by
  have isPrefix := commonPrefix_prefix root.names names
  have sameNames := components_absolute fun name member =>
    proper name (isPrefix.subset member)
  rw [absolute, common, root.components_text] at sameNames
  rw [sameNames]
  exact isPrefix

theorem PythonProvider.components_normpath {path : List α}
    (rooted : PythonProvider.isAbs path = true) :
    PythonProvider.isAbs (PythonProvider.normpath path) = true ∧
      components (PythonProvider.normpath path) = normalNames true path := by
  have oneOrTwo : PythonProvider.initialSlashes path = 1 ∨
      PythonProvider.initialSlashes path = 2 := by
    unfold PythonProvider.initialSlashes
    simp only [rooted, Bool.not_true, Bool.false_eq_true, if_false]
    split
    · exact Or.inr rfl
    · exact Or.inl rfl
  have single := components_normal_absolute path
  rcases oneOrTwo with slashes | slashes
  · have shape : PythonProvider.normpath path = absolute (normalNames true path) := by
      simp [PythonProvider.normpath, slashes, absolute]
    rw [shape]
    exact ⟨isAbs_absolute _, single⟩
  · have shape : PythonProvider.normpath path =
        slash :: absolute (normalNames true path) := by
      simp [PythonProvider.normpath, slashes, absolute, List.replicate]
    rw [shape]
    refine ⟨by simp [PythonProvider.isAbs], ?_⟩
    rw [components_cons_slash, single]

theorem PythonProvider.isAbs_join (root : CleanRoot α) (second : List α) :
    PythonProvider.isAbs (PythonProvider.join root.text second) = true := by
  unfold PythonProvider.join
  split
  · assumption
  · split <;> simp [PythonProvider.isAbs, CleanRoot.text, absolute]

theorem PythonProvider.components_lstrip (path : List α) :
    components (PythonProvider.lstrip path) = components path := by
  induction path with
  | nil => rfl
  | cons c rest induction =>
      by_cases isSlash : c = slash
      · have stripped : PythonProvider.lstrip (c :: rest) = PythonProvider.lstrip rest :=
          List.dropWhile_cons_of_pos (by simp [isSlash])
        rw [stripped, induction, isSlash, components_cons_slash]
      · have kept : PythonProvider.lstrip (c :: rest) = c :: rest :=
          List.dropWhile_cons_of_neg (by simp [isSlash])
        rw [kept]

theorem PythonProvider.lstrip_relative (path : List α) :
    PythonProvider.isAbs (PythonProvider.lstrip path) = false := by
  induction path with
  | nil => rfl
  | cons c rest induction =>
      by_cases isSlash : c = slash
      · have stripped : PythonProvider.lstrip (c :: rest) = PythonProvider.lstrip rest :=
          List.dropWhile_cons_of_pos (by simp [isSlash])
        rw [stripped, induction]
      · have kept : PythonProvider.lstrip (c :: rest) = c :: rest :=
          List.dropWhile_cons_of_neg (by simp [isSlash])
        rw [kept]
        simpa [PythonProvider.isAbs] using isSlash

theorem PythonProvider.components_join (root : CleanRoot α) (path : List α) :
    components (PythonProvider.join root.text (PythonProvider.lstrip path)) =
      root.names ++ components path := by
  rw [PythonProvider.join, PythonProvider.lstrip_relative, if_neg (by decide)]
  split
  · next closed =>
    have nonempty : root.text ≠ [] := by simp [CleanRoot.text, absolute]
    obtain ⟨before, shape⟩ := List.getLast?_eq_some_iff.mp (closed.resolve_left nonempty)
    have rootNames := root.components_text
    rw [shape, components_append_slash before []] at rootNames
    rw [shape, List.append_assoc, List.singleton_append, components_append_slash,
      PythonProvider.components_lstrip, ← rootNames]
    simp [components, List.splitOn_nil]
  · rw [components_append_slash, root.components_text, PythonProvider.components_lstrip]

theorem PythonProvider.resolvePath_names {workingDir path resolved : List α}
    {root : CleanRoot α}
    (accepted : PythonProvider.resolvePath workingDir root.text path = some resolved) :
    components resolved = root.placedNames path ∧ root.names <+: root.placedNames path := by
  simp only [PythonProvider.resolvePath] at accepted
  split at accepted
  · contradiction
  split at accepted
  · next isRoot =>
    cases accepted
    have here : root.placedNames path = root.names := by
      have nothing : components path = [] := by
        rw [isRoot]
        exact components_cons_slash []
      rw [CleanRoot.placedNames, nothing]
      exact List.reverse_reverse root.names
    rw [here]
    exact ⟨root.components_text, List.prefix_rfl⟩
  split at accepted
  · contradiction
  · next common =>
    cases accepted
    have joinedAbs := PythonProvider.isAbs_join root
      (PythonProvider.lstrip path)
    simp only [PythonProvider.abspath, joinedAbs, if_true] at common ⊢
    obtain ⟨candidateAbs, names⟩ := PythonProvider.components_normpath joinedAbs
    have placed := CleanRoot.normalNames_location (PythonProvider.components_join root path)
    have proper := normalNames_proper
      (PythonProvider.join root.text (PythonProvider.lstrip path))
    have rootAbs : PythonProvider.isAbs root.text = true := isAbs_absolute root.names
    rw [Decidable.not_not] at common
    simp only [PythonProvider.commonpath, rootAbs, candidateAbs, ne_eq,
      not_true_eq_false, if_false, if_true, names, root.components_text,
      filter_curdir root.proper, filter_curdir proper, Option.some.injEq,
      List.singleton_append] at common
    rw [names, ← placed]
    exact ⟨rfl, root_names_prefix proper common⟩

theorem PythonProvider.resolvePath_contained {workingDir path resolved : List α}
    {root : CleanRoot α}
    (accepted : PythonProvider.resolvePath workingDir root.text path = some resolved) :
    Contained root.text resolved := by
  obtain ⟨names, rest, split⟩ := PythonProvider.resolvePath_names accepted
  have proper := root.placedNames_proper path
  have placed : components resolved = components root.text ++ rest := by
    rw [names, root.components_text, split]
  apply contained_of_proper placed
  · intro name member
    apply proper
    rw [← split]
    exact List.mem_append_right _ member

end Lexical

private theorem step_below (top last : Bytes) (parent : List Bytes) :
    ∃ below, step (top :: parent) last = some below := by
  unfold step
  split
  · exact ⟨_, rfl⟩
  split <;> exact ⟨_, rfl⟩

private theorem walk_of_last {names : List Bytes} {last : Bytes}
    (proper : ∀ name ∈ names, Proper name)
    (inside : names = [] → last ≠ pardir) :
    ∃ below, walk [] (names ++ [last]) = some below := by
  rw [walk_append_of (walk_of_proper proper [])]
  have reached : ∃ below, step (names.reverse ++ []) last = some below := by
    cases shape : names.reverse ++ [] with
    | nil =>
        have single : names = [] := by simpa using shape
        unfold step
        split
        · exact ⟨_, rfl⟩
        · simp [inside single]
    | cons top parent => exact step_below top last parent
  obtain ⟨below, result⟩ := reached
  exact ⟨below, by simp only [walk, result]⟩

/-- An accepted path is the root or is put behind the root as it is. -/
theorem CProvider.resolvePath_shape {rootDir body resolved : Bytes} {head : UInt8}
    {resolvedSize : Nat}
    (accepted : CProvider.resolvePath rootDir (head :: body) resolvedSize = some resolved) :
    head = slash ∧ (resolved = rootDir ∧ body = [] ∨ body ≠ [] ∧
      resolved = rootDir ++ slash :: body ∧
      (rootDir ++ slash :: body).length < resolvedSize) := by
  simp only [CProvider.resolvePath] at accepted
  split at accepted
  · contradiction
  next rooted =>
  obtain rfl : head = slash := Option.some.inj (Decidable.not_not.mp rooted)
  refine ⟨rfl, ?_⟩
  split at accepted
  · next isRoot =>
    split at accepted
    · exact .inl ⟨(Option.some.inj accepted).symm, (List.cons.inj isRoot).2⟩
    · contradiction
  next notRoot =>
  split at accepted
  · contradiction
  split at accepted
  · next fits =>
    refine .inr ⟨?_, (Option.some.inj accepted).symm, fits⟩
    rintro rfl
    exact notRoot rfl
  · contradiction

/-- The five tests of `resolve_path`, component by component. -/
theorem CProvider.resolvePath_none_iff {rootDir body last : Bytes} {names : List Bytes}
    {resolvedSize : Nat} (split : body.splitOn slash = names ++ [last])
    (notRoot : body ≠ []) (fits : (rootDir ++ slash :: body).length < resolvedSize) :
    CProvider.resolvePath rootDir (slash :: body) resolvedSize = none ↔
      (∃ name ∈ names, IsDotOrEmpty name) ∨
        names = [] ∧ (last = curdir ∨ last = pardir) := by
  have whole (component : Bytes) (free : slash ∉ component) :
      slash :: body = slash :: component ↔ names = [] ∧ last = component := by
    rw [List.cons_inj_right, ← splitOn_eq_singleton_iff free, split]
    constructor
    · intro single
      cases names with
      | nil => exact ⟨rfl, by simpa using single⟩
      | cons head tail => simp at single
    · rintro ⟨rfl, rfl⟩
      rfl
  have noPardir : (slash : UInt8) ∉ (pardir : Bytes) := by decide
  have noCurdir : (slash : UInt8) ∉ (curdir : Bytes) := by decide
  have pardirs := mem_names_iff split noPardir
  have curdirs := mem_names_iff split noCurdir
  have doubles := mem_names_iff split List.not_mem_nil
  have wholePardir := whole pardir noPardir
  have wholeCurdir := whole curdir noCurdir
  have rooted : (slash :: body).head? = some (byte '/') := rfl
  have notSlash : slash :: body ≠ ascii "/" := by
    intro same
    exact notRoot (List.cons.inj same).2
  rw [CProvider.resolvePath, if_neg (not_not_intro rooted), if_neg notSlash]
  have tests : (CProvider.containsText (ascii "/../") (slash :: body) ||
      CProvider.containsText (ascii "/./") (slash :: body) ||
      CProvider.containsText (ascii "//") (slash :: body) ||
      slash :: body == ascii "/.." || slash :: body == ascii "/.") = true ↔
      (∃ name ∈ names, IsDotOrEmpty name) ∨
        names = [] ∧ (last = curdir ∨ last = pardir) := by
    simp only [CProvider.containsText, Bool.or_eq_true, strstr_isSome_iff, beq_iff_eq]
    rw [show ascii "/../" = slash :: pardir ++ [slash] from rfl,
      show ascii "/./" = slash :: curdir ++ [slash] from rfl,
      show ascii "//" = slash :: ([] : Bytes) ++ [slash] from rfl,
      show ascii "/.." = slash :: pardir from rfl, show ascii "/." = slash :: curdir from rfl,
      ← pardirs, ← curdirs, ← doubles, wholePardir, wholeCurdir]
    constructor
    · rintro ((((member | member) | member) | alone) | alone)
      · exact .inl ⟨_, member, .inr (.inr rfl)⟩
      · exact .inl ⟨_, member, .inr (.inl rfl)⟩
      · exact .inl ⟨_, member, .inl rfl⟩
      · exact .inr ⟨alone.1, .inr alone.2⟩
      · exact .inr ⟨alone.1, .inl alone.2⟩
    · rintro (⟨name, member, rfl | rfl | rfl⟩ | ⟨single, isCurdir | isPardir⟩)
      · exact .inl (.inl (.inr member))
      · exact .inl (.inl (.inl (.inr member)))
      · exact .inl (.inl (.inl (.inl member)))
      · exact .inr ⟨single, isCurdir⟩
      · exact .inl (.inr ⟨single, isPardir⟩)
  rw [← tests]
  split
  · next rejected => simp [rejected]
  · next passed => simp [passed]

/-- The C provider accepts only paths that stay below the root, and puts their components
behind those of the root. -/
theorem CProvider.resolvePath_walked {path resolved : Bytes} {root : CleanRoot UInt8}
    {resolvedSize : Nat}
    (accepted : CProvider.resolvePath root.text path resolvedSize = some resolved) :
    components resolved = components root.text ++ components path ∧
      ∃ below, walk [] (components path) = some below := by
  cases path with
  | nil => contradiction
  | cons head body =>
      obtain ⟨rfl, located⟩ := CProvider.resolvePath_shape accepted
      rw [components_cons_slash]
      by_cases isRoot : body = []
      · obtain ⟨rfl, _⟩ := located.resolve_right fun below => below.1 isRoot
        have nothing : components body = [] := by
          rw [isRoot]
          decide
        rw [nothing, List.append_nil]
        exact ⟨rfl, [], rfl⟩
      · obtain ⟨_, rfl, fits⟩ := located.resolve_left fun root => isRoot root.2
        obtain ⟨names, last, split⟩ := exists_last_component slash body
        have passed := mt (CProvider.resolvePath_none_iff split isRoot fits).mpr
          (by rw [accepted]; exact Option.some_ne_none _)
        rw [not_or, not_exists, not_and] at passed
        have proper : ∀ name ∈ names, Proper name := by
          intro name member
          have free : slash ∉ name := slash_not_mem_of_mem_splitOn (by rw [split]; simp [member])
          exact proper_of_not_isDotOrEmpty (fun bad => passed.1 name ⟨member, bad⟩) free
        have inside : names = [] → last ≠ pardir := by
          intro single isPardir
          exact passed.2 single (.inr isPardir)
        refine ⟨components_append_slash root.text body, ?_⟩
        rw [components_splitOn split proper]
        split
        · exact ⟨_, walk_of_proper proper []⟩
        · exact walk_of_last proper inside

theorem CProvider.resolvePath_contained {path resolved : Bytes}
    {root : CleanRoot UInt8} {resolvedSize : Nat}
    (accepted : CProvider.resolvePath root.text path resolvedSize = some resolved) :
    Contained root.text resolved := by
  obtain ⟨split, below, walked⟩ := CProvider.resolvePath_walked accepted
  exact ⟨components path, below, split, walked⟩

/-- The texts of clean roots are exactly the absolute paths that `Clean` leaves
unchanged. -/
theorem cleanRoot_iff {path : Bytes} :
    (GoProvider.isAbs path = true ∧ GoProvider.clean path = path) ↔
      ∃ root : CleanRoot UInt8, root.text = path := by
  constructor
  · rintro ⟨rooted, clean⟩
    rw [clean_of_isAbs rooted] at clean
    exact ⟨⟨_, normalNames_proper path⟩, clean⟩
  · rintro ⟨root, rfl⟩
    have rooted : GoProvider.isAbs root.text = true := isAbs_absolute root.names
    refine ⟨rooted, ?_⟩
    rw [clean_of_isAbs rooted, CleanRoot.text, normalNames_absolute root.proper]

/-- No path makes a resolver of any of the three providers leave the backend
root. -/
theorem resolvers_contained :
    (∀ (root : CleanRoot UInt8) (path : Bytes) (resolvedSize : Nat),
      CProvider.resolvePath root.text path resolvedSize = none ∨
      ∃ location, CProvider.resolvePath root.text path resolvedSize = some location ∧
        Contained root.text location) ∧
    (∀ (root : CleanRoot UInt8) (workingDir path : Bytes),
      GoProvider.resolvePath workingDir root.text path = none ∨
      ∃ location, GoProvider.resolvePath workingDir root.text path = some location ∧
        Contained root.text location) ∧
    (∀ (root : CleanRoot CodePoint) (workingDir path : List CodePoint),
      PythonProvider.resolvePath workingDir root.text path = none ∨
      ∃ location, PythonProvider.resolvePath workingDir root.text path = some location ∧
        Contained root.text location) := by
  refine ⟨fun root path resolvedSize => ?_, fun root workingDir path => ?_,
    fun root workingDir path => ?_⟩
  · cases accepted : CProvider.resolvePath root.text path resolvedSize with
    | none => exact Or.inl rfl
    | some location => exact Or.inr ⟨_, rfl, CProvider.resolvePath_contained accepted⟩
  · cases accepted : GoProvider.resolvePath workingDir root.text path with
    | none => exact Or.inl rfl
    | some location => exact Or.inr ⟨_, rfl, GoProvider.resolvePath_contained accepted⟩
  · cases accepted : PythonProvider.resolvePath workingDir root.text path with
    | none => exact Or.inl rfl
    | some location =>
        exact Or.inr ⟨_, rfl, PythonProvider.resolvePath_contained accepted⟩

end HttpFs
