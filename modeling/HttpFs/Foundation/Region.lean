namespace HttpFs

/-! Contents of a file as a list, read and written by ranges. -/

namespace Region

variable {α : Type} {blank : α} {contents data first second : List α}
  {offset size : Nat}

/-- At most `size` elements from `offset` on. -/
def slice (contents : List α) (offset size : Nat) : List α :=
  (contents.drop offset).take size

/-- The contents with `data` at `offset`; a gap in front of it is filled with blanks. -/
def overwrite (blank : α) (contents : List α) (offset : Nat) (data : List α) : List α :=
  if data = [] then
    contents
  else
    contents.take offset ++ List.replicate (offset - contents.length) blank ++
      (data ++ contents.drop (offset + data.length))

theorem length_slice : (slice contents offset size).length =
    min size (contents.length - offset) := by
  simp [slice]

theorem slice_zero : slice contents offset 0 = [] := by
  simp [slice]

theorem slice_within :
    slice contents offset (min size (contents.length - offset)) =
      slice contents offset size := by
  rw [slice, slice, ← List.take_take,
    List.take_of_length_le (Nat.le_of_eq List.length_drop)]

@[simp] theorem overwrite_nil : overwrite blank contents offset [] = contents := by
  simp [overwrite]

private theorem length_front :
    (contents.take offset ++ List.replicate (offset - contents.length) blank).length =
      offset := by
  simp
  omega

theorem length_overwrite (nonempty : data ≠ []) :
    (overwrite blank contents offset data).length =
      max contents.length (offset + data.length) := by
  rw [overwrite, if_neg nonempty, List.length_append, length_front]
  simp
  omega

theorem length_le_overwrite :
    contents.length ≤ (overwrite blank contents offset data).length := by
  by_cases empty : data = []
  · simp [empty]
  · rw [length_overwrite empty]
    omega

theorem slice_overwrite :
    slice (overwrite blank contents offset data) offset data.length = data := by
  by_cases empty : data = []
  · simp [empty, slice]
  · rw [overwrite, if_neg empty, slice, List.drop_left' length_front, List.take_left' rfl]

theorem getElem?_overwrite (nonempty : data ≠ []) (i : Nat) :
    (overwrite blank contents offset data)[i]? =
      if i < offset then some (contents[i]?.getD blank)
      else if i < offset + data.length then data[i - offset]?
      else contents[i]? := by
  rw [overwrite, if_neg nonempty]
  split
  · next before =>
    rw [List.getElem?_append_left (by rw [length_front]; exact before)]
    rcases Nat.lt_or_ge i contents.length with inside | outside
    · rw [List.getElem?_append_left (by simp; omega), List.getElem?_take_of_lt before,
        List.getElem?_eq_getElem inside]
      rfl
    · rw [List.getElem?_append_right (by simp; omega), List.getElem?_eq_none outside,
        List.getElem?_replicate_of_lt (by simp; omega)]
      rfl
  · next after =>
    rw [List.getElem?_append_right (by rw [length_front]; omega), length_front]
    split
    · rw [List.getElem?_append_left (by omega)]
    · rw [List.getElem?_append_right (by omega), List.getElem?_drop]
      congr 1
      omega

theorem overwrite_append :
    overwrite blank (overwrite blank contents offset first) (offset + first.length) second =
      overwrite blank contents offset (first ++ second) := by
  by_cases firstEmpty : first = []
  · simp [firstEmpty]
  · by_cases secondEmpty : second = []
    · simp [secondEmpty]
    · have bothNonempty : first ++ second ≠ [] := by simp [firstEmpty]
      apply List.ext_getElem?
      intro i
      rw [getElem?_overwrite secondEmpty, getElem?_overwrite firstEmpty,
        getElem?_overwrite bothNonempty, List.length_append]
      rcases Nat.lt_or_ge i offset with before | after
      · simp [before, show i < offset + first.length by omega]
      · rcases Nat.lt_or_ge i (offset + first.length) with inFirst | notFirst
        · simp only [inFirst, Nat.not_lt.mpr after, if_false, if_true,
            show i < offset + (first.length + second.length) by omega,
            List.getElem?_append_left (show i - offset < first.length by omega)]
          rw [List.getElem?_eq_getElem (by omega)]
          rfl
        · simp only [Nat.not_lt.mpr after, Nat.not_lt.mpr notFirst, if_false,
            List.getElem?_append_right (show first.length ≤ i - offset by omega),
            Nat.add_assoc, Nat.sub_sub]

theorem slice_append {more : Nat} :
    slice contents offset size ++ slice contents (offset + size) more =
      slice contents offset (size + more) := by
  simp [slice, List.take_add, List.drop_drop]

end Region

end HttpFs
