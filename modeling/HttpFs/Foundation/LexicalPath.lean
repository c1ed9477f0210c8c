namespace HttpFs.LexicalPath

/-- The two characters that lexical path processing looks at. -/
class PathAlphabet (α : Type) where
  slash : α
  dot : α
  slash_ne_dot : slash ≠ dot

open PathAlphabet

variable {α : Type} [DecidableEq α] [PathAlphabet α]

def curdir : List α := [dot]

def pardir : List α := [dot, dot]

/-- A component that names a directory entry. -/
structure Proper (component : List α) : Prop where
  ne_nil : component ≠ []
  ne_curdir : component ≠ curdir
  ne_pardir : component ≠ pardir
  noSlash : slash ∉ component

/-- A component that a filter of dot segments is there to find. -/
def IsDotOrEmpty (component : List α) : Prop :=
  component = [] ∨ component = curdir ∨ component = pardir

instance (component : List α) : Decidable (IsDotOrEmpty component) :=
  inferInstanceAs (Decidable (_ ∨ _ ∨ _))

def components (path : List α) : List (List α) :=
  (path.splitOn slash).filter (fun component => component != [])

/-- The rooted path with the given components. -/
def absolute (names : List (List α)) : List α :=
  slash :: [slash].intercalate names

/-- An absolute path without empty, `.` or `..` components and without a trailing
slash, unless it is the root itself. -/
structure CleanRoot (α : Type) [PathAlphabet α] where
  names : List (List α)
  proper : ∀ name ∈ names, Proper name

def CleanRoot.text (root : CleanRoot α) : List α := absolute root.names

/-- One component of a lexical walk. The stack holds the names below the
starting point, innermost first; `..` at the starting point leaves it. -/
def step (stack : List (List α)) (component : List α) :
    Option (List (List α)) :=
  if component = [] ∨ component = curdir then
    some stack
  else if component = pardir then
    match stack with
    | [] => none
    | _ :: parent => some parent
  else
    some (component :: stack)

def walk : List (List α) → List (List α) → Option (List (List α))
  | stack, [] => some stack
  | stack, component :: rest =>
      match step stack component with
      | none => none
      | some next => walk next rest

/-- `location` starts with the components of `root` and walks on from there
without ever leaving the tree below it. -/
def Contained (root location : List α) : Prop :=
  ∃ rest below, components location = components root ++ rest ∧
    walk [] rest = some below

/-- The pending components, innermost first, after dropping empty ones and `.`
and cancelling each `..` against the name before it. -/
def collapse (rooted : Bool) : List (List α) → List (List α) → List (List α)
  | stack, [] => stack
  | stack, component :: rest =>
      if component = [] ∨ component = curdir then
        collapse rooted stack rest
      else if component = pardir then
        match stack with
        | [] => collapse rooted (if rooted then [] else [pardir]) rest
        | top :: parent =>
            if top = pardir then
              collapse rooted (pardir :: top :: parent) rest
            else
              collapse rooted parent rest
      else
        collapse rooted (component :: stack) rest

/-- The components of the lexical normal form of a path. -/
def normalNames (rooted : Bool) (path : List α) : List (List α) :=
  (collapse rooted [] (path.splitOn slash)).reverse

theorem walk_append_of {stack middle first second : List (List α)}
    (start : walk stack first = some middle) :
    walk stack (first ++ second) = walk middle second := by
  induction first generalizing stack with
  | nil => cases start; rfl
  | cons head tail induction =>
      simp only [walk, List.cons_append] at start ⊢
      cases next : step stack head with
      | none => simp [next] at start
      | some reached =>
          simp only [next] at start ⊢
          exact induction start

theorem step_of_proper {stack : List (List α)} {component : List α}
    (proper : Proper component) : step stack component = some (component :: stack) := by
  simp [step, proper.ne_nil, proper.ne_curdir, proper.ne_pardir]

theorem walk_of_proper {names : List (List α)}
    (proper : ∀ name ∈ names, Proper name) (stack : List (List α)) :
    walk stack names = some (names.reverse ++ stack) := by
  induction names generalizing stack with
  | nil => rfl
  | cons head tail induction =>
      simp only [walk, step_of_proper (proper head (by simp))]
      rw [induction fun name member => proper name (by simp [member])]
      simp

theorem slash_not_mem_of_mem_splitOn {path component : List α}
    (member : component ∈ path.splitOn slash) : slash ∉ component := by
  induction path generalizing component with
  | nil => simp [List.splitOn_nil] at member; simp [member]
  | cons head tail induction =>
      rw [List.splitOn_cons_eq_if_modifyHead] at member
      split at member
      · rcases List.mem_cons.mp member with rfl | inTail
        · simp
        · exact induction inTail
      · next different =>
        cases shape : tail.splitOn slash with
        | nil => exact absurd shape (List.splitOn_ne_nil _ _)
        | cons first others =>
            rw [shape, List.modifyHead_cons] at member
            rcases List.mem_cons.mp member with rfl | inOthers
            · have firstFree : slash ∉ first := induction (by simp [shape])
              simp only [List.mem_cons, not_or]
              exact ⟨fun same => different (by simp [same]), firstFree⟩
            · exact induction (by simp [shape, inOthers])

theorem components_append_slash (before after : List α) :
    components (before ++ slash :: after) = components before ++ components after := by
  simp only [components, List.splitOn_append_cons_self, List.filter_append]

theorem components_cons_slash (path : List α) :
    components (slash :: path) = components path := by
  have split := components_append_slash ([] : List α) path
  simpa [components, List.splitOn_nil] using split

theorem components_absolute {names : List (List α)}
    (proper : ∀ name ∈ names, Proper name) : components (absolute names) = names := by
  rw [absolute, components_cons_slash]
  cases names with
  | nil => simp [components, List.splitOn_nil]
  | cons head tail =>
      rw [components, List.splitOn_intercalate slash
        (fun name member => (proper name member).noSlash) (by simp)]
      refine List.filter_eq_self.mpr fun name member => ?_
      simpa using (proper name member).ne_nil

theorem CleanRoot.components_text (root : CleanRoot α) :
    components root.text = root.names :=
  components_absolute root.proper

theorem collapse_rooted_proper {stack rest : List (List α)}
    (stackProper : ∀ name ∈ stack, Proper name)
    (noSlash : ∀ component ∈ rest, slash ∉ component) :
    ∀ name ∈ collapse true stack rest, Proper name := by
  induction rest generalizing stack with
  | nil => exact stackProper
  | cons head tail induction =>
      have tailFree : ∀ component ∈ tail, slash ∉ component :=
        fun component member => noSlash component (by simp [member])
      simp only [collapse]
      split
      · exact induction stackProper tailFree
      · next kept =>
        obtain ⟨nonempty, notCurdir⟩ := not_or.mp kept
        split
        · cases stack with
          | nil => exact induction (by simp) tailFree
          | cons top parent =>
              have topName : top ≠ pardir := (stackProper top (by simp)).ne_pardir
              simp only [topName, if_false]
              exact induction
                (fun name member => stackProper name (by simp [member])) tailFree
        · next notPardir =>
          refine induction (fun name member => ?_) tailFree
          rcases List.mem_cons.mp member with rfl | inStack
          · exact ⟨nonempty, notCurdir, notPardir, noSlash name (by simp)⟩
          · exact stackProper name inStack

theorem normalNames_proper (path : List α) :
    ∀ name ∈ normalNames true path, Proper name := by
  intro name member
  exact collapse_rooted_proper (by simp)
    (fun component inSplit => slash_not_mem_of_mem_splitOn inSplit)
    name (List.mem_reverse.mp member)

theorem collapse_of_proper {rooted : Bool} {names : List (List α)}
    (proper : ∀ name ∈ names, Proper name) (stack : List (List α)) :
    collapse rooted stack names = names.reverse ++ stack := by
  induction names generalizing stack with
  | nil => rfl
  | cons head tail induction =>
      have headProper := proper head (by simp)
      simp only [collapse, headProper.ne_nil, headProper.ne_curdir, headProper.ne_pardir,
        or_self, if_false]
      rw [induction fun name member => proper name (by simp [member])]
      simp

theorem collapse_filter (rooted : Bool) (stack rest : List (List α)) :
    collapse rooted stack (rest.filter (fun component => component != [])) =
      collapse rooted stack rest := by
  induction rest generalizing stack with
  | nil => rfl
  | cons head tail induction =>
      by_cases empty : head = []
      · simp [empty, collapse, induction]
      · simp only [List.filter_cons, bne_iff_ne, ne_eq, empty, not_false_eq_true,
          if_true, collapse, induction]

theorem collapse_append (rooted : Bool) (stack first second : List (List α)) :
    collapse rooted stack (first ++ second) =
      collapse rooted (collapse rooted stack first) second := by
  induction first generalizing stack with
  | nil => rfl
  | cons head tail induction =>
      simp only [List.cons_append, collapse]
      split
      · exact induction stack
      · split
        · cases stack with
          | nil => exact induction _
          | cons top parent =>
              simp only
              split
              · exact induction _
              · exact induction _
        · exact induction _

theorem normalNames_eq (path : List α) :
    normalNames true path = (collapse true [] (components path)).reverse := by
  rw [normalNames, components, collapse_filter]

/-- Names come first, so `..` behind them cancels them before it reaches the root. -/
theorem normalNames_below {names : List (List α)} (proper : ∀ name ∈ names, Proper name)
    {path : List α} {rest : List (List α)} (split : components path = names ++ rest) :
    normalNames true path = (collapse true names.reverse rest).reverse := by
  rw [normalNames_eq, split, collapse_append, collapse_of_proper proper, List.append_nil]

theorem normalNames_of_proper {names : List (List α)} (proper : ∀ name ∈ names, Proper name)
    {path : List α} (split : components path = names) : normalNames true path = names := by
  rw [normalNames_eq, split, collapse_of_proper proper, List.append_nil, List.reverse_reverse]

theorem normalNames_absolute {names : List (List α)}
    (proper : ∀ name ∈ names, Proper name) :
    normalNames true (absolute names) = names :=
  normalNames_of_proper proper (components_absolute proper)

/-- A walk that stays below its starting point collapses to what it leads to, wherever
it starts. -/
theorem collapse_of_walk {rooted : Bool} {stack below rest : List (List α)}
    (names : ∀ name ∈ stack, name ≠ pardir) (walked : walk stack rest = some below)
    (base : List (List α)) : collapse rooted (stack ++ base) rest = below ++ base := by
  induction rest generalizing stack with
  | nil => cases walked; rfl
  | cons head tail induction =>
      simp only [walk, step] at walked
      simp only [collapse]
      split
      · next skipped =>
        rw [if_pos skipped] at walked
        exact induction names walked
      · next kept =>
        rw [if_neg kept] at walked
        split
        · next isPardir =>
          rw [if_pos isPardir] at walked
          cases stack with
          | nil => contradiction
          | cons top parent =>
              have topName : top ≠ pardir := names top (by simp)
              simp only [List.cons_append, topName, if_false]
              exact induction (fun name member => names name (by simp [member])) walked
        · next isName =>
          rw [if_neg isName] at walked
          exact induction (List.forall_mem_cons.mpr ⟨isName, names⟩) walked

/-- Collapsing above a base keeps what it would leave without one and a part of the base,
which is all of the base only if the walk never goes above its starting point. -/
theorem collapse_above {stack base : List (List α)} (rest : List (List α))
    (names : ∀ name ∈ stack, name ≠ pardir) (baseNames : ∀ name ∈ base, name ≠ pardir) :
    ∃ kept, collapse true (stack ++ base) rest = collapse true stack rest ++ kept ∧
      kept <:+ base ∧ (walk stack rest = none → base ≠ [] → kept.length < base.length) := by
  induction rest generalizing stack base with
  | nil => exact ⟨base, rfl, List.suffix_rfl, by simp [walk]⟩
  | cons head tail induction =>
      simp only [collapse, walk, step]
      split
      · exact induction names baseNames
      · split
        · cases stack with
          | cons top parent =>
              have topName : top ≠ pardir := names top (by simp)
              simp only [List.cons_append, topName, if_false]
              exact induction (fun name member => names name (by simp [member])) baseNames
          | nil =>
              simp only [List.nil_append, if_true]
              cases base with
              | nil =>
                  obtain ⟨kept, collapsed, suffix, _⟩ := @induction [] [] (by simp) (by simp)
                  exact ⟨kept, collapsed, suffix, by simp⟩
              | cons top parent =>
                  have topName : top ≠ pardir := baseNames top (by simp)
                  simp only [topName, if_false]
                  obtain ⟨kept, collapsed, suffix, _⟩ := @induction [] parent (by simp)
                    fun name member => baseNames name (by simp [member])
                  refine ⟨kept, collapsed, suffix.trans (List.suffix_cons top parent), ?_⟩
                  intro _ _
                  have bound := suffix.length_le
                  simp only [List.length_cons]
                  omega
        · next isName =>
          exact induction (List.forall_mem_cons.mpr ⟨isName, names⟩) baseNames

def CleanRoot.placedNames (root : CleanRoot α) (path : List α) : List (List α) :=
  (collapse true root.names.reverse (components path)).reverse

namespace CleanRoot

variable {root : CleanRoot α} {path location : List α}

theorem normalNames_location (split : components location = root.names ++ components path) :
    normalNames true location = root.placedNames path :=
  normalNames_below root.proper split

theorem placedNames_proper (root : CleanRoot α) (path : List α) :
    ∀ name ∈ root.placedNames path, Proper name := by
  intro name member
  have isName : name ∈ collapse true root.names.reverse (components path) :=
    List.mem_reverse.mp member
  refine collapse_rooted_proper ?_ ?_ name isName
  · exact fun name isName => root.proper name (List.mem_reverse.mp isName)
  · exact fun component isComponent =>
      slash_not_mem_of_mem_splitOn (List.mem_filter.mp isComponent).1

theorem placedNames_below {below : List (List α)}
    (walked : walk [] (components path) = some below) :
    root.placedNames path = root.names ++ normalNames true path := by
  have placed : collapse true root.names.reverse (components path) =
      below ++ root.names.reverse :=
    collapse_of_walk (by simp) walked root.names.reverse
  have own : collapse true [] (components path) = below ++ [] :=
    collapse_of_walk (by simp) walked []
  rw [placedNames, placed, normalNames_eq, own]
  simp

theorem length_placedNames_iff :
    (root.placedNames path).length = (root.names ++ normalNames true path).length ↔
      root.names = [] ∨ (walk [] (components path)).isSome := by
  cases walked : walk [] (components path) with
  | some below => simp [placedNames_below walked]
  | none =>
      have names : ∀ name ∈ root.names.reverse, name ≠ pardir :=
        fun name member => (root.proper name (List.mem_reverse.mp member)).ne_pardir
      obtain ⟨kept, placed, suffix, shorter⟩ :=
        collapse_above (components path) (List.forall_mem_nil _) names
      rw [List.nil_append] at placed
      rw [placedNames, placed, normalNames_eq]
      simp only [List.length_reverse, List.length_append, Option.isSome_none,
        Bool.false_eq_true, or_false]
      constructor
      · intro same
        apply Classical.byContradiction
        intro nonempty
        have bound := shorter walked (by simpa using nonempty)
        rw [List.length_reverse] at bound
        omega
      · intro empty
        have bound := suffix.length_le
        rw [empty] at bound ⊢
        simp only [List.reverse_nil, List.length_nil] at bound ⊢
        omega

end CleanRoot

theorem contained_of_proper {root location : List α} {rest : List (List α)}
    (split : components location = components root ++ rest)
    (proper : ∀ name ∈ rest, Proper name) : Contained root location :=
  ⟨rest, _, split, walk_of_proper proper []⟩

omit [DecidableEq α] in
private theorem cons_intercalate_slash {names : List (List α)} (nonempty : names ≠ []) :
    slash :: [slash].intercalate names =
      names.flatMap (fun name => slash :: name) := by
  induction names with
  | nil => exact absurd rfl nonempty
  | cons head tail induction =>
      cases tail with
      | nil => simp
      | cons next rest =>
          rw [List.intercalate_cons_cons, List.flatMap_cons, ← induction (by simp)]
          simp

omit [DecidableEq α] in
theorem absolute_append {first second : List (List α)} (left : first ≠ [])
    (right : second ≠ []) : absolute (first ++ second) = absolute first ++ absolute second := by
  simp only [absolute]
  rw [cons_intercalate_slash left, cons_intercalate_slash right,
    cons_intercalate_slash (List.append_ne_nil_of_left_ne_nil left second),
    List.flatMap_append]

theorem between_slashes {path : List α} {before after : List (List α)}
    {component next : List α}
    (split : path.splitOn slash = before ++ component :: next :: after) :
    slash :: component ++ [slash] <:+: slash :: path := by
  have joined : slash :: path =
      (before ++ component :: next :: after).flatMap (fun name => slash :: name) := by
    rw [← cons_intercalate_slash (by simp), ← split, List.intercalate_splitOn]
  refine ⟨before.flatMap (fun name => slash :: name),
    next ++ after.flatMap (fun name => slash :: name), ?_⟩
  rw [joined]
  simp

omit [DecidableEq α] in
theorem Proper.not_isDotOrEmpty {component : List α} (proper : Proper component) :
    ¬ IsDotOrEmpty component := by
  intro bad
  obtain empty | single | double := bad
  · exact proper.ne_nil empty
  · exact proper.ne_curdir single
  · exact proper.ne_pardir double

omit [DecidableEq α] in
theorem proper_of_not_isDotOrEmpty {component : List α} (ordinary : ¬ IsDotOrEmpty component)
    (free : slash ∉ component) : Proper component where
  ne_nil := fun empty => ordinary (.inl empty)
  ne_curdir := fun single => ordinary (.inr (.inl single))
  ne_pardir := fun double => ordinary (.inr (.inr double))
  noSlash := free

omit [PathAlphabet α] in
theorem exists_last_component (separator : α) (path : List α) :
    ∃ names last, path.splitOn separator = names ++ [last] :=
  ⟨_, _, (List.dropLast_concat_getLast (List.splitOn_ne_nil separator path)).symm⟩

/-- The components before the last are those that stand between two slashes. -/
theorem mem_names_iff {path component last : List α} {names : List (List α)}
    (split : path.splitOn slash = names ++ [last]) (free : slash ∉ component) :
    component ∈ names ↔ slash :: component ++ [slash] <:+: slash :: path := by
  constructor
  · intro member
    obtain ⟨before, after, rfl⟩ := List.append_of_mem member
    cases after with
    | nil => exact between_slashes (by simpa using split)
    | cons next others => exact between_slashes (by simpa using split)
  · intro occurs
    obtain ⟨before, after, shape⟩ := occurs
    have splits : ∃ earlier, path.splitOn slash = earlier ++ component :: after.splitOn slash := by
      cases before with
      | nil =>
          have same : path = component ++ slash :: after := by simpa using shape.symm
          refine ⟨[], ?_⟩
          rw [same, List.splitOn_append_cons_self_of_not_mem free, List.nil_append]
      | cons head front =>
          have same : path = front ++ slash :: (component ++ slash :: after) := by
            have tails := (List.cons.inj (by simpa using shape)).2
            exact tails.symm
          refine ⟨front.splitOn slash, ?_⟩
          rw [same, List.splitOn_append_cons_self,
            List.splitOn_append_cons_self_of_not_mem free]
    obtain ⟨earlier, isSplit⟩ := splits
    obtain ⟨others, final, ending⟩ := exists_last_component slash after
    rw [split, ending, ← List.cons_append, ← List.append_assoc] at isSplit
    have names := (List.append_inj' isSplit rfl).1
    rw [names]
    exact List.mem_append_right _ (List.mem_cons_self ..)

theorem splitOn_eq_singleton_iff {path component : List α} (free : slash ∉ component) :
    path.splitOn slash = [component] ↔ path = component := by
  constructor
  · intro split
    have whole : [slash].intercalate (path.splitOn slash) = path := List.intercalate_splitOn slash
    rw [split] at whole
    simpa using whole.symm
  · rintro rfl
    exact List.splitOn_eq_singleton free

theorem components_splitOn {path last : List α} {names : List (List α)}
    (split : path.splitOn slash = names ++ [last])
    (proper : ∀ name ∈ names, Proper name) :
    components path = if last = [] then names else names ++ [last] := by
  have kept : names.filter (fun component => component != []) = names :=
    List.filter_eq_self.mpr fun name member => by simpa using (proper name member).ne_nil
  by_cases empty : last = [] <;> simp [components, split, kept, empty]

/-- Names behind a slash are added to what the path before it comes to. -/
theorem normalNames_append {rooted : Bool} {before after : List α}
    (proper : ∀ name ∈ components after, Proper name) :
    normalNames rooted (before ++ slash :: after) =
      normalNames rooted before ++ components after := by
  have own : normalNames rooted before = (collapse rooted [] (components before)).reverse := by
    rw [normalNames, components, collapse_filter]
  rw [own, normalNames, ← collapse_filter]
  change (collapse rooted [] (components (before ++ slash :: after))).reverse = _
  rw [components_append_slash, collapse_append, collapse_of_proper proper,
    List.reverse_append, List.reverse_reverse]

end HttpFs.LexicalPath
