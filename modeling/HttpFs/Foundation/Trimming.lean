import Mathlib.Data.List.DropRight

namespace HttpFs

/-! Lists without the elements at their end that a predicate holds of. -/

section Trailing

variable {α : Type} {p : α → Bool}

theorem rdropWhile_of_last {value : List α}
    (last : ∀ c, value.getLast? = some c → p c = false) : value.rdropWhile p = value := by
  rw [List.rdropWhile_eq_self_iff]
  intro nonempty holds
  have isLast := List.getLast?_eq_some_getLast nonempty
  rw [last _ isLast] at holds
  contradiction

theorem last_of_rdropWhile {value : List α} (same : value.rdropWhile p = value) {c : α}
    (isLast : value.getLast? = some c) : p c = false := by
  rw [List.rdropWhile_eq_self_iff] at same
  have nonempty : value ≠ [] := by
    rintro rfl
    contradiction
  have shape := List.getLast?_eq_some_getLast nonempty
  rw [isLast] at shape
  rw [Option.some.inj shape]
  simpa using same nonempty

theorem rdropWhile_append {front back : List α} (ends : ∀ c ∈ back, p c = true) :
    (front ++ back).rdropWhile p = front.rdropWhile p := by
  simp only [List.rdropWhile, List.reverse_append]
  rw [List.dropWhile_append_of_pos fun c member => ends c (List.mem_reverse.mp member)]

theorem prefix_rdropWhile {start value : List α} (isPrefix : start <+: value)
    (last : ∀ c, start.getLast? = some c → p c = false) : start <+: value.rdropWhile p := by
  obtain ⟨rest, rfl⟩ := isPrefix
  induction rest using List.reverseRecOn with
  | nil =>
      have same : (start ++ []).rdropWhile p = start := by
        rw [List.append_nil, rdropWhile_of_last last]
      exact same.symm ▸ List.prefix_rfl
  | append_singleton rest c induction =>
      rw [← List.append_assoc, List.rdropWhile_concat]
      split
      · exact induction
      · exact (List.prefix_append start rest).trans (List.prefix_append _ _)

end Trailing

section Suffix

variable {α : Type} [DecidableEq α] (p : α → Bool) (suffix : List α)

/-- The text without the elements that `p` holds of at its end, and then without one
`suffix` and such elements in front of it. -/
def withoutSuffix (text : List α) : List α :=
  let trimmed := text.rdropWhile p
  if suffix <:+ trimmed then (trimmed.rdrop suffix.length).rdropWhile p else trimmed

variable {p suffix} {text between behind : List α}

theorem withoutSuffix_plain (absent : ¬ suffix <:+ text.rdropWhile p) :
    withoutSuffix p suffix text = text.rdropWhile p := by
  rw [withoutSuffix, if_neg absent]

theorem withoutSuffix_append (last : ∀ c, suffix.getLast? = some c → p c = false)
    (nonempty : suffix ≠ []) (dropped : ∀ c ∈ between, p c = true)
    (trailing : ∀ c ∈ behind, p c = true) :
    withoutSuffix p suffix (text ++ between ++ suffix ++ behind) = text.rdropWhile p := by
  have trimmed : (text ++ between ++ suffix ++ behind).rdropWhile p =
      text ++ between ++ suffix := by
    rw [rdropWhile_append trailing]
    apply rdropWhile_of_last
    intro c isLast
    rw [List.getLast?_append_of_ne_nil _ nonempty] at isLast
    exact last c isLast
  rw [withoutSuffix, trimmed, if_pos (List.suffix_append _ _), List.rdrop_append_length,
    rdropWhile_append dropped]

end Suffix

end HttpFs
