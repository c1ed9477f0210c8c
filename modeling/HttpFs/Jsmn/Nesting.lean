import HttpFs.Jsmn.Openings

namespace HttpFs

/-! How the tokens of a text lie in each other, whatever the text is. -/

/-- The tokens start one after the other, each inside its parent, and those between the
parent and the token end before the token starts. -/
structure Nested (tokens : List JsmnToken) : Prop where
  increasing : ∀ (i j : Nat) (first second : JsmnToken), i < j → tokens[i]? = some first →
    tokens[j]? = some second → first.start < second.start
  inParent : ∀ (j p : Nat) (token : JsmnToken), tokens[j]? = some token →
    token.parent = some p → ∃ container, p < j ∧ tokens[p]? = some container ∧
      container.type ≠ .string ∧ ∀ stop, container.stop = some stop → token.start < stop
  passed : ∀ (i j : Nat) (first second : JsmnToken), i < j → tokens[i]? = some first →
    tokens[j]? = some second → (∀ p, second.parent = some p → p < i) →
    ∃ stop, first.stop = some stop ∧ stop ≤ second.start

/-- The same while the text is read up to `bound`: the superior token is the innermost
open one, and only containers inside open containers are open. -/
structure Nesting (parser : JsmnParser) (bound : Nat) : Prop where
  nested : Nested parser.tokens
  superior : parser.toksuper = (innermostOpen parser.tokens).map Prod.fst
  starts : ∀ token ∈ parser.tokens, token.start < bound
  stops : ∀ token ∈ parser.tokens, ∀ stop, token.stop = some stop → stop ≤ bound
  containers : ∀ token ∈ parser.tokens, token.stop = none → token.type ≠ .string
  openParent : ∀ (j p : Nat) (token container : JsmnToken), parser.tokens[j]? = some token →
    token.stop = none → token.parent = some p → parser.tokens[p]? = some container →
    container.stop = none

theorem innermostOpen_at {tokens : List JsmnToken} {index : Nat} {token : JsmnToken}
    (found : tokens[index]? = some token) (isOpen : token.stop = none)
    (closed : ∀ (j : Nat) (later : JsmnToken), index < j → tokens[j]? = some later →
      later.stop ≠ none) :
    innermostOpen tokens = some (index, token) := by
  obtain ⟨inside, isToken⟩ := List.getElem?_eq_some_iff.mp found
  have split : tokens = tokens.take index ++ token :: tokens.drop (index + 1) := by
    rw [← isToken, ← List.drop_eq_getElem_cons inside, List.take_append_drop]
  have length : (tokens.take index).length = index := List.length_take_of_le (by omega)
  have after : ∀ later ∈ tokens.drop (index + 1), later.stop ≠ none := by
    intro later member
    obtain ⟨place, isLater⟩ := List.mem_iff_getElem?.mp member
    rw [List.getElem?_drop] at isLater
    exact closed _ later (by omega) isLater
  have innermost := @innermostOpen_append (tokens.take index) _ token isOpen after
  rw [← split, length] at innermost
  exact innermost

theorem innermostOpen_getElem? {tokens : List JsmnToken} {index : Nat} {token : JsmnToken}
    (innermost : innermostOpen tokens = some (index, token)) :
    tokens[index]? = some token ∧ token.stop = none ∧
      ∀ (j : Nat) (later : JsmnToken), index < j → tokens[j]? = some later →
        later.stop ≠ none := by
  obtain ⟨before, after, split, length, isOpen, closed⟩ := innermostOpen_split innermost
  refine ⟨by rw [split, ← length]; simp, isOpen, ?_⟩
  intro j later behind found
  rw [split, List.getElem?_append_right (by omega), length,
    List.getElem?_cons, if_neg (by omega)] at found
  exact closed later (List.mem_of_getElem? found)

theorem getElem?_concat_eq_some {tokens : List JsmnToken} {token found : JsmnToken} {i : Nat} :
    (tokens ++ [token])[i]? = some found ↔
      tokens[i]? = some found ∨ i = tokens.length ∧ found = token := by
  obtain inside | beyond := Nat.lt_or_ge i tokens.length
  · rw [List.getElem?_append_left inside]
    constructor
    · exact .inl
    · rintro (old | ⟨last, _⟩)
      · exact old
      · omega
  · rw [List.getElem?_append_right beyond, List.getElem?_eq_none beyond]
    constructor
    · intro new
      obtain ⟨inside, isFound⟩ := List.getElem?_eq_some_iff.mp new
      rw [List.length_singleton] at inside
      exact .inr ⟨by omega, by rw [← isFound]; exact List.getElem_singleton ..⟩
    · rintro (old | ⟨rfl, rfl⟩)
      · contradiction
      · simp

namespace Nesting

variable {parser : JsmnParser} {bound : Nat}

theorem later (nesting : Nesting parser bound) {bound' pos : Nat} (le : bound ≤ bound') :
    Nesting { parser with pos } bound' where
  nested := nesting.nested
  superior := nesting.superior
  starts := fun token member => Nat.lt_of_lt_of_le (nesting.starts token member) le
  stops := fun token member stop isStop =>
    Nat.le_trans (nesting.stops token member stop isStop) le
  containers := nesting.containers
  openParent := nesting.openParent

theorem nested_append (nesting : Nesting parser bound) {token : JsmnToken}
    (parent : token.parent = parser.toksuper) (start : bound ≤ token.start) :
    Nested (parser.tokens ++ [token]) := by
  constructor
  · intro i j first second before isFirst isSecond
    obtain oldSecond | ⟨last, rfl⟩ := getElem?_concat_eq_some.mp isSecond
    · obtain ⟨inside, _⟩ := List.getElem?_eq_some_iff.mp oldSecond
      obtain oldFirst | ⟨last, _⟩ := getElem?_concat_eq_some.mp isFirst
      · exact nesting.nested.increasing i j first second before oldFirst oldSecond
      · omega
    · obtain oldFirst | ⟨same, _⟩ := getElem?_concat_eq_some.mp isFirst
      · exact Nat.lt_of_lt_of_le (nesting.starts first (List.mem_of_getElem? oldFirst)) start
      · omega
  · intro j p child isChild isParent
    obtain old | ⟨last, rfl⟩ := getElem?_concat_eq_some.mp isChild
    · obtain ⟨container, before, found, notString, early⟩ :=
        nesting.nested.inParent j p child old isParent
      exact ⟨container, before, getElem?_concat_eq_some.mpr (.inl found), notString, early⟩
    · rw [parent, nesting.superior, Option.map_eq_some_iff] at isParent
      obtain ⟨⟨_, container⟩, innermost, rfl⟩ := isParent
      obtain ⟨found, isOpen, _⟩ := innermostOpen_getElem? innermost
      obtain ⟨inside, _⟩ := List.getElem?_eq_some_iff.mp found
      refine ⟨container, by omega, getElem?_concat_eq_some.mpr (.inl found),
        nesting.containers container (List.mem_of_getElem? found) isOpen, ?_⟩
      intro stop isStop
      simp [isOpen] at isStop
  · intro i j first second before isFirst isSecond above
    obtain oldFirst | ⟨same, _⟩ := getElem?_concat_eq_some.mp isFirst
    · obtain oldSecond | ⟨last, rfl⟩ := getElem?_concat_eq_some.mp isSecond
      · exact nesting.nested.passed i j first second before oldFirst oldSecond above
      · have member := List.mem_of_getElem? oldFirst
        have closed : first.stop ≠ none := by
          cases innermost : innermostOpen parser.tokens with
          | none => exact innermostOpen_eq_none.mp innermost first member
          | some result =>
              obtain ⟨index, container⟩ := result
              apply (innermostOpen_getElem? innermost).2.2 i first _ oldFirst
              apply above
              rw [parent, nesting.superior, innermost]
              rfl
        obtain ⟨stop, isStop⟩ := Option.ne_none_iff_exists'.mp closed
        exact ⟨stop, isStop, Nat.le_trans (nesting.stops first member stop isStop) start⟩
    · obtain ⟨inside, _⟩ := List.getElem?_eq_some_iff.mp isSecond
      simp only [List.length_append, List.length_singleton] at inside
      omega

theorem store (nesting : Nesting parser bound) {token : JsmnToken} {stop bound' pos : Nat}
    (parent : token.parent = parser.toksuper) (isStop : token.stop = some stop)
    (start : bound ≤ token.start) (early : token.start < bound') (ends : stop ≤ bound') :
    Nesting { parser with tokens := parser.tokens ++ [token], pos } bound' := by
  have closedLast : ∀ tokens : List JsmnToken,
      innermostOpen (tokens ++ [token]) = innermostOpen tokens := by
    intro tokens
    induction tokens with
    | nil => simp [innermostOpen, isStop]
    | cons head tail induction => simp only [List.cons_append, innermostOpen, induction]
  constructor
  · exact nesting.nested_append parent start
  · rw [closedLast]
    exact nesting.superior
  · intro found member
    obtain old | new := List.mem_append.mp member
    · have bound := nesting.starts found old
      omega
    · obtain rfl := List.mem_singleton.mp new
      exact early
  · intro found member stop' isStop'
    obtain old | new := List.mem_append.mp member
    · have bound := nesting.stops found old stop' isStop'
      omega
    · obtain rfl := List.mem_singleton.mp new
      obtain rfl := Option.some.inj (isStop.symm.trans isStop')
      exact ends
  · intro found member isOpen
    obtain old | new := List.mem_append.mp member
    · exact nesting.containers found old isOpen
    · obtain rfl := List.mem_singleton.mp new
      simp [isStop] at isOpen
  · intro j p child container isChild isOpen isParent isContainer
    obtain old | ⟨_, rfl⟩ := getElem?_concat_eq_some.mp isChild
    · obtain ⟨_, before, found, _⟩ := nesting.nested.inParent j p child old isParent
      obtain rfl := Option.some.inj
        ((getElem?_concat_eq_some.mpr (.inl found)).symm.trans isContainer)
      exact nesting.openParent j p child _ old isOpen isParent found
    · simp [isStop] at isOpen

theorem opened (nesting : Nesting parser bound) {token : JsmnToken} {bound' pos : Nat}
    (parent : token.parent = parser.toksuper) (isOpen : token.stop = none)
    (notString : token.type ≠ .string) (start : bound ≤ token.start)
    (early : token.start < bound') :
    Nesting ⟨pos, parser.tokens ++ [token], some parser.tokens.length⟩ bound' := by
  constructor
  · exact nesting.nested_append parent start
  · rw [@innermostOpen_append parser.tokens [] token isOpen (by simp)]
    rfl
  · intro found member
    obtain old | new := List.mem_append.mp member
    · have bound := nesting.starts found old
      omega
    · obtain rfl := List.mem_singleton.mp new
      exact early
  · intro found member stop isStop
    obtain old | new := List.mem_append.mp member
    · have bound := nesting.stops found old stop isStop
      omega
    · obtain rfl := List.mem_singleton.mp new
      simp [isOpen] at isStop
  · intro found member foundOpen
    obtain old | new := List.mem_append.mp member
    · exact nesting.containers found old foundOpen
    · obtain rfl := List.mem_singleton.mp new
      exact notString
  · intro j p child container isChild childOpen isParent isContainer
    obtain old | ⟨_, rfl⟩ := getElem?_concat_eq_some.mp isChild
    · obtain ⟨_, before, found, _⟩ := nesting.nested.inParent j p child old isParent
      obtain rfl := Option.some.inj
        ((getElem?_concat_eq_some.mpr (.inl found)).symm.trans isContainer)
      exact nesting.openParent j p child _ old childOpen isParent found
    · rw [parent, nesting.superior, Option.map_eq_some_iff] at isParent
      obtain ⟨⟨_, innermost⟩, isInnermost, rfl⟩ := isParent
      obtain ⟨found, stillOpen, _⟩ := innermostOpen_getElem? isInnermost
      obtain rfl := Option.some.inj
        ((getElem?_concat_eq_some.mpr (.inl found)).symm.trans isContainer)
      exact stillOpen

theorem closed (nesting : Nesting parser bound) {index : Nat} {token : JsmnToken}
    (innermost : innermostOpen parser.tokens = some (index, token)) {pos : Nat} :
    Nesting ⟨pos, parser.tokens.set index { token with stop := some (bound + 1) },
      token.parent⟩ (bound + 1) := by
  obtain ⟨isToken, isOpen, laterClosed⟩ := innermostOpen_getElem? innermost
  obtain ⟨inside, _⟩ := List.getElem?_eq_some_iff.mp isToken
  -- A token of the new list stands where one with the same start, type and parent stood.
  have before {i : Nat} {found : JsmnToken}
      (isFound : (parser.tokens.set index { token with stop := some (bound + 1) })[i]? =
        some found) :
      i ≠ index ∧ parser.tokens[i]? = some found ∨
        i = index ∧ found = { token with stop := some (bound + 1) } := by
    by_cases same : index = i
    · subst same
      rw [List.getElem?_set_self inside, Option.some.injEq] at isFound
      exact .inr ⟨rfl, isFound.symm⟩
    · rw [List.getElem?_set_ne same] at isFound
      exact .inl ⟨Ne.symm same, isFound⟩
  have original {i : Nat} {found : JsmnToken}
      (isFound : (parser.tokens.set index { token with stop := some (bound + 1) })[i]? =
        some found) :
      ∃ old, parser.tokens[i]? = some old ∧ old.start = found.start ∧
        old.type = found.type ∧ old.parent = found.parent := by
    obtain ⟨_, old⟩ | ⟨rfl, rfl⟩ := before isFound
    · exact ⟨found, old, rfl, rfl, rfl⟩
    · exact ⟨token, isToken, rfl, rfl, rfl⟩
  constructor
  · constructor
    · intro i j first second lt isFirst isSecond
      obtain ⟨oldFirst, foundFirst, startFirst, _⟩ := original isFirst
      obtain ⟨oldSecond, foundSecond, startSecond, _⟩ := original isSecond
      rw [← startFirst, ← startSecond]
      exact nesting.nested.increasing i j oldFirst oldSecond lt foundFirst foundSecond
    · intro j p child isChild isParent
      obtain ⟨oldChild, foundChild, sameStart, _, sameParent⟩ := original isChild
      obtain ⟨container, lt, found, notString, early⟩ :=
        nesting.nested.inParent j p oldChild foundChild (sameParent.trans isParent)
      by_cases same : index = p
      · subst same
        obtain rfl := Option.some.inj (isToken.symm.trans found)
        refine ⟨_, lt, List.getElem?_set_self inside, notString, ?_⟩
        intro stop isStop
        have bounded := nesting.starts oldChild (List.mem_of_getElem? foundChild)
        obtain rfl := Option.some.inj isStop
        omega
      · refine ⟨container, lt, by rw [List.getElem?_set_ne same, found], notString, ?_⟩
        rw [← sameStart]
        exact early
    · intro i j first second lt isFirst isSecond above
      obtain ⟨oldSecond, foundSecond, startSecond, _, sameParent⟩ := original isSecond
      rw [← sameParent] at above
      obtain ⟨_, oldFirst⟩ | ⟨rfl, rfl⟩ := before isFirst
      · obtain ⟨stop, isStop, ends⟩ :=
          nesting.nested.passed i j first oldSecond lt oldFirst foundSecond above
        exact ⟨stop, isStop, startSecond ▸ ends⟩
      · obtain ⟨stop, isStop, _⟩ :=
          nesting.nested.passed i j token oldSecond lt isToken foundSecond above
        simp [isOpen] at isStop
  · -- What was open around the token is innermost now.
    obtain isParent | ⟨p, isParent⟩ := Option.eq_none_or_eq_some token.parent
    · have allClosed : innermostOpen
          (parser.tokens.set index { token with stop := some (bound + 1) }) = none := by
        rw [innermostOpen_eq_none]
        intro found member
        obtain ⟨i, isFound⟩ := List.mem_iff_getElem?.mp member
        obtain ⟨different, old⟩ | ⟨_, rfl⟩ := before isFound
        · obtain earlier | later := Nat.lt_or_gt_of_ne different
          · obtain ⟨stop, isStop, _⟩ := nesting.nested.passed i index found token earlier
              old isToken (by simp [isParent])
            simp [isStop]
          · exact laterClosed i found later old
        · simp
      rw [allClosed]
      exact isParent
    · obtain ⟨container, lt, found, _⟩ := nesting.nested.inParent index p token isToken isParent
      have stillOpen := nesting.openParent index p token container isToken isOpen isParent found
      have isContainer : (parser.tokens.set index
          { token with stop := some (bound + 1) })[p]? = some container := by
        rw [List.getElem?_set_ne (by omega), found]
      have around : innermostOpen (parser.tokens.set index
          { token with stop := some (bound + 1) }) = some (p, container) := by
        apply innermostOpen_at isContainer stillOpen
        intro i later behind isLater
        obtain ⟨different, old⟩ | ⟨_, rfl⟩ := before isLater
        · obtain earlier | beyond := Nat.lt_or_gt_of_ne different
          · obtain ⟨stop, isStop, _⟩ := nesting.nested.passed i index later token earlier
              old isToken (by
                intro q isQ
                rw [isParent, Option.some.injEq] at isQ
                omega)
            simp [isStop]
          · exact laterClosed i later beyond old
        · simp
      rw [around]
      exact isParent
  · intro found member
    obtain ⟨i, isFound⟩ := List.mem_iff_getElem?.mp member
    obtain ⟨old, isOld, sameStart, _⟩ := original isFound
    have bounded := nesting.starts old (List.mem_of_getElem? isOld)
    omega
  · intro found member stop isStop
    obtain ⟨i, isFound⟩ := List.mem_iff_getElem?.mp member
    obtain ⟨_, old⟩ | ⟨_, rfl⟩ := before isFound
    · have bounded := nesting.stops found (List.mem_of_getElem? old) stop isStop
      omega
    · obtain rfl := Option.some.inj isStop
      exact Nat.le_refl _
  · intro found member foundOpen
    obtain ⟨i, isFound⟩ := List.mem_iff_getElem?.mp member
    obtain ⟨_, old⟩ | ⟨_, rfl⟩ := before isFound
    · exact nesting.containers found (List.mem_of_getElem? old) foundOpen
    · simp at foundOpen
  · intro j p child container isChild childOpen isParent isContainer
    obtain ⟨different, oldChild⟩ | ⟨_, rfl⟩ := before isChild
    · obtain ⟨_, lt, found, _⟩ := nesting.nested.inParent j p child oldChild isParent
      have parentOpen := nesting.openParent j p child _ oldChild childOpen isParent found
      obtain ⟨_, oldContainer⟩ | ⟨rfl, _⟩ := before isContainer
      · obtain rfl := Option.some.inj (found.symm.trans oldContainer)
        exact parentOpen
      · exact absurd childOpen (laterClosed j child lt oldChild)
    · simp at childOpen

theorem step (nesting : Nesting parser parser.pos) {numTokens skip : Nat} {next : JsmnParser}
    {c : UInt8} {rest : Bytes}
    (stepped : jsmnStep numTokens parser c rest = .ok (next, skip)) :
    Nesting { next with pos := parser.pos + 1 } (parser.pos + 1 + skip) := by
  have allocated {token : JsmnToken} {result : JsmnParser → JsmnParser × Nat}
      (mapped : (jsmnAllocToken numTokens parser token).map result = .ok (next, skip)) :
      result { parser with tokens := parser.tokens ++ [token] } = (next, skip) := by
    simp only [jsmnAllocToken] at mapped
    split at mapped
    · simp [Except.map] at mapped
    · simpa [Except.map] using mapped
  simp only [jsmnStep] at stepped
  split at stepped
  · next type isOpening =>
    obtain ⟨rfl, rfl⟩ := Prod.mk.inj (allocated stepped)
    have notString : type ≠ .string := by
      rintro rfl
      simp only [opens] at isOpening
      split at isOpening
      · contradiction
      · split at isOpening <;> contradiction
    simp only [List.length_append, List.length_singleton, Nat.add_sub_cancel]
    exact nesting.opened rfl rfl notString (Nat.le_refl _) (Nat.lt_succ_self _)
  · split at stepped
    · contradiction
    · next index token innermost =>
      split at stepped
      · cases stepped
        exact nesting.closed innermost
      · contradiction
  · split at stepped
    · simp only [jsmnParseString] at stepped
      split at stepped
      · contradiction
      · next length _ =>
        obtain ⟨rfl, rfl⟩ := Prod.mk.inj (allocated stepped)
        exact nesting.store rfl rfl (Nat.le_succ _) (by simp only; omega) (by omega)
    · split at stepped
      · cases stepped
        exact nesting.later (by omega)
      · simp only [jsmnParsePrimitive] at stepped
        split at stepped
        · contradiction
        · next length _ =>
          obtain ⟨rfl, rfl⟩ := Prod.mk.inj (allocated stepped)
          exact nesting.store rfl rfl (Nat.le_refl _) (by simp only; omega) (by omega)

theorem loop {numTokens : Nat} (text : Bytes) (skip : Nat) {parser : JsmnParser}
    (nesting : Nesting parser (parser.pos + skip)) :
    Nested (jsmnLoop numTokens text skip parser).parser.tokens := by
  induction text generalizing skip parser with
  | nil => exact nesting.nested
  | cons c rest induction =>
      cases skip with
      | succ skip =>
          apply induction skip
          exact nesting.later (by simp only; omega)
      | zero =>
          simp only [jsmnLoop]
          cases stepped : jsmnStep numTokens parser c rest with
          | error error => exact nesting.nested
          | ok result => exact induction result.2 (nesting.step stepped)

end Nesting

end HttpFs
