import HttpFs.Foundation.Region
import Mathlib.Data.List.Induction
import Mathlib.Logic.Function.Basic

namespace HttpFs

/-! Contents on which many have written, each from an offset of its own. -/

namespace Region

variable {α ι : Type} {blank : α} {origin contents other : List α} {offset : ι → Nat}
  {written : ι → List α}

def Covers (offset : ι → Nat) (written : ι → List α) (who : ι) (i : Nat) : Prop :=
  offset who ≤ i ∧ i < offset who + (written who).length

/-- No element belongs to two of them. -/
def Apart (offset : ι → Nat) (written : ι → List α) : Prop :=
  ∀ first second i, Covers offset written first i → Covers offset written second i →
    first = second

theorem Apart.of_prefix {whole : ι → List α} (apart : Apart offset whole)
    (part : ∀ who, written who <+: whole who) : Apart offset written := by
  intro first second i inFirst inSecond
  refine apart first second i ⟨inFirst.1, ?_⟩ ⟨inSecond.1, ?_⟩
  · exact Nat.lt_of_lt_of_le inFirst.2 (Nat.add_le_add_left (part first).length_le _)
  · exact Nat.lt_of_lt_of_le inSecond.2 (Nat.add_le_add_left (part second).length_le _)

/-- The contents that come of `origin` when each has written what is `written` by it. -/
structure Patched (blank : α) (origin contents : List α) (offset : ι → Nat)
    (written : ι → List α) : Prop where
  inside : ∀ who i, i < (written who).length → contents[offset who + i]? = (written who)[i]?
  outside : ∀ i, i < contents.length → (∀ who, ¬ Covers offset written who i) →
    contents[i]? = some (origin[i]?.getD blank)
  longer : origin.length ≤ contents.length
  reach : contents.length = origin.length ∨
    ∃ who, written who ≠ [] ∧ contents.length = offset who + (written who).length

namespace Patched

theorem start : Patched blank origin origin offset fun _ => [] where
  inside := fun _ _ impossible => absurd impossible (Nat.not_lt_zero _)
  outside := fun i inside _ => by rw [List.getElem?_eq_getElem inside]; rfl
  longer := Nat.le_refl _
  reach := .inl rfl

theorem covered_lt (patched : Patched blank origin contents offset written) {who : ι} {i : Nat}
    (covers : Covers offset written who i) : i < contents.length := by
  obtain ⟨lower, upper⟩ := covers
  have own : i - offset who < (written who).length := by omega
  have inside := patched.inside who (i - offset who) own
  rw [Nat.add_sub_cancel' lower, List.getElem?_eq_getElem own] at inside
  exact (List.getElem?_eq_some_iff.mp inside).1

theorem stop_le (patched : Patched blank origin contents offset written) {who : ι}
    (something : written who ≠ []) : offset who + (written who).length ≤ contents.length := by
  have positive := List.length_pos_iff.mpr something
  have last : Covers offset written who (offset who + (written who).length - 1) :=
    ⟨by omega, by omega⟩
  have inside := patched.covered_lt last
  omega

theorem slice_own (patched : Patched blank origin contents offset written) (who : ι)
    {start size : Nat} (within : start + size ≤ (written who).length) :
    slice contents (offset who + start) size = slice (written who) start size := by
  apply List.ext_getElem?
  intro i
  simp only [slice, List.getElem?_take, List.getElem?_drop]
  split
  · next inside => rw [Nat.add_assoc, patched.inside who (start + i) (by omega)]
  · rfl

theorem length_le (first : Patched blank origin contents offset written)
    (second : Patched blank origin other offset written) : contents.length ≤ other.length := by
  obtain same | ⟨who, something, same⟩ := first.reach
  · rw [same]
    exact second.longer
  · rw [same]
    exact second.stop_le something

/-- What has been written says what the contents are. -/
theorem unique (first : Patched blank origin contents offset written)
    (second : Patched blank origin other offset written) : contents = other := by
  have lengths : contents.length = other.length :=
    Nat.le_antisymm (first.length_le second) (second.length_le first)
  apply List.ext_getElem?
  intro i
  rcases Nat.lt_or_ge i contents.length with inside | beyond
  · by_cases covered : ∃ who, Covers offset written who i
    · obtain ⟨who, lower, upper⟩ := covered
      have fromFirst := first.inside who (i - offset who) (by omega)
      have fromSecond := second.inside who (i - offset who) (by omega)
      rw [Nat.add_sub_cancel' lower] at fromFirst fromSecond
      rw [fromFirst, fromSecond]
    · have free : ∀ who, ¬ Covers offset written who i := fun who covers =>
        covered ⟨who, covers⟩
      rw [first.outside i inside free, second.outside i (by omega) free]
  · rw [List.getElem?_eq_none beyond, List.getElem?_eq_none (by omega)]

variable [DecidableEq ι]

/-- One of them writes on behind what it has written. -/
theorem store (patched : Patched blank origin contents offset written) (who : ι)
    (more : List α)
    (apart : Apart offset (Function.update written who (written who ++ more))) :
    Patched blank origin
      (overwrite blank contents (offset who + (written who).length) more) offset
      (Function.update written who (written who ++ more)) := by
  by_cases nothing : more = []
  · subst nothing
    rw [overwrite_nil, List.append_nil, Function.update_eq_self]
    exact patched
  have positive := List.length_pos_iff.mpr nothing
  have length : (overwrite blank contents (offset who + (written who).length) more).length =
      max contents.length (offset who + (written who).length + more.length) :=
    length_overwrite nothing
  have ownCovers : ∀ i, offset who ≤ i → i < offset who + (written who ++ more).length →
      Covers offset (Function.update written who (written who ++ more)) who i := by
    intro i lower upper
    rw [Covers, Function.update_self]
    exact ⟨lower, upper⟩
  have otherCovers : ∀ another i, another ≠ who → Covers offset written another i →
      Covers offset (Function.update written who (written who ++ more)) another i := by
    intro another i different covers
    rw [Covers, Function.update_of_ne different]
    exact covers
  constructor
  · intro another i inside
    rw [getElem?_overwrite nothing]
    by_cases same : another = who
    · subst same
      rw [Function.update_self] at inside ⊢
      rw [List.length_append] at inside
      rcases Nat.lt_or_ge i (written another).length with old | new
      · rw [if_pos (by omega), patched.inside another i old, List.getElem?_append_left old,
          List.getElem?_eq_getElem old]
        rfl
      · rw [if_neg (by omega), if_pos (by omega), List.getElem?_append_right new]
        congr 1
        omega
    · rw [Function.update_of_ne same] at inside ⊢
      have covers : Covers offset written another (offset another + i) := ⟨by omega, by omega⟩
      have present := patched.covered_lt covers
      have here := patched.inside another i inside
      have outside : ¬ (offset who ≤ offset another + i ∧
          offset another + i < offset who + (written who ++ more).length) := by
        rintro ⟨lower, upper⟩
        exact same (apart another who _ (otherCovers another _ same covers)
          (ownCovers _ lower upper))
      rw [List.length_append] at outside
      split
      · rw [List.getElem?_eq_getElem present] at here ⊢
        exact here
      · next notBefore =>
        rw [if_neg (by omega)]
        exact here
  · intro i inside free
    have notOwn := free who
    rw [Covers, Function.update_self, List.length_append] at notOwn
    have old : ∀ another, ¬ Covers offset written another i := by
      intro another covers
      by_cases same : another = who
      · subst same
        obtain ⟨lower, upper⟩ := covers
        exact notOwn ⟨lower, by omega⟩
      · exact free another (otherCovers another i same covers)
    rw [getElem?_overwrite nothing]
    have gap : contents.length ≤ i → origin[i]?.getD blank = blank := by
      intro beyond
      have longer := patched.longer
      rw [List.getElem?_eq_none (by omega)]
      rfl
    split
    · next before =>
      rcases Nat.lt_or_ge i contents.length with present | beyond
      · rw [patched.outside i present old]
        rfl
      · rw [List.getElem?_eq_none beyond, gap beyond]
        rfl
    · next notBefore =>
      have behind : offset who + (written who).length + more.length ≤ i := by omega
      rw [if_neg (by omega)]
      exact patched.outside i (by rw [length] at inside; omega) old
  · exact Nat.le_trans patched.longer length_le_overwrite
  · rw [length]
    rcases Nat.le_total (offset who + (written who).length + more.length) contents.length with
      covered | beyond
    · rw [Nat.max_eq_left covered]
      obtain same | ⟨another, something, same⟩ := patched.reach
      · exact .inl same
      · by_cases isWho : another = who
        · subst isWho
          omega
        · exact .inr ⟨another, by rwa [Function.update_of_ne isWho],
            by rwa [Function.update_of_ne isWho]⟩
    · refine .inr ⟨who, ?_, ?_⟩
      · rw [Function.update_self]
        simp [nothing]
      · rw [Function.update_self, List.length_append]
        omega

/-- All of them write one after the other. -/
theorem serial {whole : ι → List α} (apart : Apart offset whole) {order : List ι}
    (once : order.Nodup) :
    Patched blank origin
      (order.foldl (fun contents who => overwrite blank contents (offset who) (whole who)) origin)
      offset fun who => if who ∈ order then whole who else [] := by
  induction order using List.reverseRecOn with
  | nil => exact Patched.start
  | append_singleton order who induction =>
      obtain ⟨onceBefore, _, notBefore⟩ := List.nodup_append.mp once
      have absent : who ∉ order := fun inside =>
        notBefore who inside who (List.mem_singleton_self who) rfl
      have grown : Function.update (fun who => if who ∈ order then whole who else []) who
          ((if who ∈ order then whole who else []) ++ whole who) =
            fun other => if other ∈ order ++ [who] then whole other else [] := by
        funext other
        by_cases same : other = who
        · subst same
          simp [absent]
        · rw [Function.update_of_ne same]
          simp [same]
      have stored := (induction onceBefore).store who (whole who) (by
        rw [grown]
        refine apart.of_prefix fun other => ?_
        split
        · exact List.prefix_rfl
        · exact List.nil_prefix)
      rw [grown, if_neg absent, List.length_nil, Nat.add_zero] at stored
      rw [List.foldl_append]
      exact stored

end Patched

end Region

end HttpFs
