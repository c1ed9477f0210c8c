import HttpFs.Foundation.LexicalPath

namespace HttpFs.LexicalPath

open PathAlphabet

/-- A way to write the characters of one alphabet in another one that leaves slashes and
dots as they are and writes nothing else with them. -/
structure PathEncoding (α β : Type) [PathAlphabet α] [PathAlphabet β] where
  encode : α → List β
  encode_slash : encode slash = [slash]
  encode_dot : encode dot = [dot]
  nonempty : ∀ c, encode c ≠ []
  noSlash : ∀ c, c ≠ slash → slash ∉ encode c
  noDot : ∀ c, c ≠ dot → dot ∉ encode c

theorem splitOn_ordinary {α : Type} [DecidableEq α] {separator : α} {before : List α}
    (absent : separator ∉ before) (rest : List α) :
    (before ++ rest).splitOn separator =
      (rest.splitOn separator).modifyHead (before ++ ·) := by
  induction before with
  | nil =>
      obtain ⟨first, others, shape⟩ :=
        List.exists_cons_of_ne_nil (List.splitOn_ne_nil separator rest)
      simp [shape]
  | cons head tail induction =>
      simp only [List.mem_cons, not_or] at absent
      rw [List.cons_append, List.splitOn_cons_eq_if_modifyHead,
        if_neg (by simpa using Ne.symm absent.1), induction absent.2,
        List.modifyHead_modifyHead]
      rfl

namespace PathEncoding

variable {α β : Type} [DecidableEq α] [PathAlphabet α] [DecidableEq β] [PathAlphabet β]
  (encoding : PathEncoding α β)

def text (path : List α) : List β := path.flatMap encoding.encode

omit [DecidableEq α] [DecidableEq β] in
theorem text_eq_nil {path : List α} : encoding.text path = [] ↔ path = [] := by
  cases path with
  | nil => simp [text]
  | cons c rest => simp [text, encoding.nonempty c]

omit [DecidableEq β] in
theorem text_eq_dot {path : List α} {rest : List β} :
    encoding.text path = dot :: rest ↔
      ∃ others, path = dot :: others ∧ encoding.text others = rest := by
  cases path with
  | nil => simp [text]
  | cons c others =>
      by_cases isDot : c = dot
      · simp [text, isDot, encoding.encode_dot]
      · simp only [text, List.flatMap_cons, List.cons.injEq, isDot, false_and, exists_false,
          iff_false]
        intro same
        cases shape : encoding.encode c with
        | nil => exact encoding.nonempty c shape
        | cons head tail =>
            rw [shape, List.cons_append, List.cons.injEq] at same
            apply encoding.noDot c isDot
            rw [shape, same.1]
            simp

omit [DecidableEq β] in
theorem text_eq_curdir {path : List α} : encoding.text path = curdir ↔ path = curdir := by
  simp [curdir, text_eq_dot, text_eq_nil]

omit [DecidableEq β] in
theorem text_eq_pardir {path : List α} : encoding.text path = pardir ↔ path = pardir := by
  simp [pardir, text_eq_dot, text_eq_nil]

theorem splitOn_text (path : List α) :
    (encoding.text path).splitOn slash = (path.splitOn slash).map encoding.text := by
  induction path with
  | nil => simp [text, List.splitOn_nil]
  | cons c rest induction =>
      have shape : encoding.text (c :: rest) = encoding.encode c ++ encoding.text rest := rfl
      obtain ⟨first, others, split⟩ :=
        List.exists_cons_of_ne_nil (List.splitOn_ne_nil slash rest)
      rw [split, List.map_cons] at induction
      by_cases isSlash : c = slash
      · rw [shape, isSlash, encoding.encode_slash, List.singleton_append,
          List.splitOn_cons_eq_if_modifyHead, if_pos (beq_self_eq_true _), induction,
          List.splitOn_cons_eq_if_modifyHead, if_pos (beq_self_eq_true _), split]
        rfl
      · rw [shape, splitOn_ordinary (encoding.noSlash c isSlash), induction,
          List.splitOn_cons_eq_if_modifyHead, if_neg (by simpa using isSlash), split]
        rfl

theorem components_text (path : List α) :
    components (encoding.text path) = (components path).map encoding.text := by
  rw [components, components, splitOn_text, List.filter_map]
  congr 1
  apply List.filter_congr
  intro component _
  rw [Function.comp_apply, Bool.eq_iff_iff, bne_iff_ne, bne_iff_ne, Ne, Ne,
    encoding.text_eq_nil]

theorem collapse_text (rooted : Bool) (stack rest : List (List α)) :
    collapse rooted (stack.map encoding.text) (rest.map encoding.text) =
      (collapse rooted stack rest).map encoding.text := by
  have parents : encoding.text pardir = pardir := encoding.text_eq_pardir.mpr rfl
  induction rest generalizing stack with
  | nil => rfl
  | cons head tail induction =>
      simp only [List.map_cons, collapse, text_eq_nil, text_eq_curdir, text_eq_pardir]
      split
      · exact induction stack
      · split
        · cases stack with
          | nil =>
              have start : (if rooted = true then [] else [pardir]) =
                  (if rooted = true then [] else [pardir] : List (List α)).map
                    encoding.text := by
                split <;> simp [parents]
              simp only [List.map_nil]
              rw [start]
              exact induction _
          | cons top parent =>
              simp only [List.map_cons, text_eq_pardir]
              split
              · have longer := induction (pardir :: top :: parent)
                rw [List.map_cons, parents] at longer
                exact longer
              · exact induction parent
        · exact induction (head :: stack)

theorem normalNames_text (rooted : Bool) (path : List α) :
    normalNames rooted (encoding.text path) = (normalNames rooted path).map encoding.text := by
  have collapsed := encoding.collapse_text rooted [] (path.splitOn slash)
  rw [List.map_nil] at collapsed
  rw [normalNames, splitOn_text, collapsed, normalNames, List.map_reverse]

omit [DecidableEq β] in
theorem proper_text {name : List α} (proper : Proper name) : Proper (encoding.text name) where
  ne_nil := fun empty => proper.ne_nil (encoding.text_eq_nil.mp empty)
  ne_curdir := fun same => proper.ne_curdir (encoding.text_eq_curdir.mp same)
  ne_pardir := fun same => proper.ne_pardir (encoding.text_eq_pardir.mp same)
  noSlash := by
    simp only [text, List.mem_flatMap, not_exists, not_and]
    intro c member
    apply encoding.noSlash c
    rintro rfl
    exact proper.noSlash member

def root (root : CleanRoot α) : CleanRoot β where
  names := root.names.map encoding.text
  proper := by
    intro name member
    obtain ⟨original, isName, rfl⟩ := List.mem_map.mp member
    exact encoding.proper_text (root.proper original isName)

omit [DecidableEq β] in
theorem root_text (root : CleanRoot α) :
    (encoding.root root).text = encoding.text root.text := by
  have joined : ∀ names : List (List α), [slash].intercalate (names.map encoding.text) =
      encoding.text ([slash].intercalate names) := by
    intro names
    induction names with
    | nil => rfl
    | cons head tail induction =>
        cases tail with
        | nil => simp
        | cons next rest =>
            rw [List.map_cons, List.map_cons, List.intercalate_cons_cons, ← List.map_cons,
              induction, List.intercalate_cons_cons]
            simp [text, encoding.encode_slash]
  simp only [CleanRoot.text, absolute]
  rw [show (encoding.root root).names = root.names.map encoding.text from rfl, joined]
  simp [text, encoding.encode_slash]

theorem placedNames_text (root : CleanRoot α) (path : List α) :
    (encoding.root root).placedNames (encoding.text path) =
      (root.placedNames path).map encoding.text := by
  rw [CleanRoot.placedNames, components_text,
    show (encoding.root root).names = root.names.map encoding.text from rfl,
    ← List.map_reverse, collapse_text, CleanRoot.placedNames, List.map_reverse]

end PathEncoding

end HttpFs.LexicalPath
