import Mathlib.Data.List.Perm.Basic
import Mathlib.Logic.Function.Basic

/-! Things that live, each in the hands of one holder. -/

namespace HttpFs

variable {Holder Item : Type}

/-- The lists `held` share out the things of `live`. -/
structure Custody (live : List Item) (held : Holder → List Item) : Prop where
  once : live.Nodup
  distinct : ∀ holder, (held holder).Nodup
  exclusive : ∀ {holder other item}, item ∈ held holder → item ∈ held other → holder = other
  live_iff : ∀ item, item ∈ live ↔ ∃ holder, item ∈ held holder

namespace Custody

variable {live : List Item} {held held' : Holder → List Item} {item : Item}

theorem uniqueHolder (custody : Custody live held) (isLive : item ∈ live) :
    ∃! holder, item ∈ held holder := by
  obtain ⟨holder, holds⟩ := (custody.live_iff item).mp isLive
  exact ⟨holder, holds, fun _ alsoHolds => custody.exclusive alsoHolds holds⟩

theorem empty (none : ∀ holder, held holder = []) : Custody ([] : List Item) held where
  once := List.nodup_nil
  distinct holder := by simp [none]
  exclusive holds := by simp [none] at holds
  live_iff item := by simp [none]

theorem rearrange (custody : Custody live held)
    (same : ∀ holder, (held' holder).Perm (held holder)) : Custody live held' where
  once := custody.once
  distinct holder := (same holder).nodup_iff.mpr (custody.distinct holder)
  exclusive holds alsoHolds :=
    custody.exclusive ((same _).mem_iff.mp holds) ((same _).mem_iff.mp alsoHolds)
  live_iff item := by
    rw [custody.live_iff]
    exact exists_congr fun holder => ((same holder).mem_iff).symm

theorem acquire (custody : Custody live held) (holder : Holder) (fresh : item ∉ live)
    (takes : (held' holder).Perm (item :: held holder))
    (others : ∀ other, other ≠ holder → held' other = held other) :
    Custody (item :: live) held' := by
  have notHeld (other : Holder) : item ∉ held other :=
    fun holds => fresh ((custody.live_iff item).mpr ⟨other, holds⟩)
  have mem_iff (other : Holder) (thing : Item) :
      thing ∈ held' other ↔ thing ∈ held other ∨ other = holder ∧ thing = item := by
    by_cases same : other = holder
    · subst same
      rw [takes.mem_iff]
      simp [or_comm]
    · simp [others other same, same]
  refine ⟨List.nodup_cons.mpr ⟨fresh, custody.once⟩, fun other => ?_, ?_, fun thing => ?_⟩
  · by_cases same : other = holder
    · subst same
      exact takes.nodup_iff.mpr (List.nodup_cons.mpr ⟨notHeld other, custody.distinct other⟩)
    · rw [others other same]
      exact custody.distinct other
  · intro first second thing holds alsoHolds
    rcases (mem_iff first thing).mp holds with holds | ⟨rfl, rfl⟩ <;>
      rcases (mem_iff second thing).mp alsoHolds with alsoHolds | ⟨rfl, isItem⟩
    · exact custody.exclusive holds alsoHolds
    · exact absurd (isItem ▸ holds) (notHeld first)
    · exact absurd alsoHolds (notHeld second)
    · rfl
  · rw [List.mem_cons, custody.live_iff]
    constructor
    · rintro (rfl | ⟨other, holds⟩)
      · exact ⟨holder, (mem_iff _ _).mpr (.inr ⟨rfl, rfl⟩)⟩
      · exact ⟨other, (mem_iff _ _).mpr (.inl holds)⟩
    · rintro ⟨other, holds⟩
      rcases (mem_iff _ _).mp holds with holds | ⟨_, rfl⟩
      · exact .inr ⟨other, holds⟩
      · exact .inl rfl

theorem release [DecidableEq Item] (custody : Custody live held) (holder : Holder)
    (gives : (held holder).Perm (item :: held' holder))
    (others : ∀ other, other ≠ holder → held' other = held other) :
    Custody (live.erase item) held' := by
  have given : item ∈ held holder := gives.mem_iff.mpr (List.mem_cons_self ..)
  have distinct : (item :: held' holder).Nodup :=
    gives.nodup_iff.mp (custody.distinct holder)
  have mem_iff (other : Holder) (thing : Item) :
      thing ∈ held' other ↔ thing ∈ held other ∧ thing ≠ item := by
    by_cases same : other = holder
    · subst same
      rw [gives.mem_iff, List.mem_cons]
      constructor
      · intro holds
        exact ⟨.inr holds, fun isItem => (List.nodup_cons.mp distinct).1 (isItem ▸ holds)⟩
      · rintro ⟨rfl | holds, different⟩
        · exact absurd rfl different
        · exact holds
    · rw [others other same]
      constructor
      · intro holds
        refine ⟨holds, ?_⟩
        rintro rfl
        exact same (custody.exclusive holds given)
      · exact And.left
  refine ⟨custody.once.erase item, fun other => ?_, ?_, fun thing => ?_⟩
  · by_cases same : other = holder
    · subst same
      exact (List.nodup_cons.mp distinct).2
    · rw [others other same]
      exact custody.distinct other
  · intro first second thing holds alsoHolds
    exact custody.exclusive ((mem_iff _ _).mp holds).1 ((mem_iff _ _).mp alsoHolds).1
  · rw [custody.once.mem_erase_iff, custody.live_iff]
    constructor
    · rintro ⟨different, other, holds⟩
      exact ⟨other, (mem_iff _ _).mpr ⟨holds, different⟩⟩
    · rintro ⟨other, holds⟩
      obtain ⟨holds, different⟩ := (mem_iff _ _).mp holds
      exact ⟨different, other, holds⟩

theorem transfer (custody : Custody live held) (holder taker : Holder) (different : holder ≠ taker)
    (gives : (held holder).Perm (item :: held' holder))
    (takes : (held' taker).Perm (item :: held taker))
    (others : ∀ other, other ≠ holder → other ≠ taker → held' other = held other) :
    Custody live held' := by
  classical
  have given : item ∈ live :=
    (custody.live_iff item).mpr ⟨holder, gives.mem_iff.mpr (List.mem_cons_self ..)⟩
  have released : Custody (live.erase item) (Function.update held holder (held' holder)) := by
    refine custody.release holder ?_ fun other notHolder => ?_
    · rwa [Function.update_self]
    · rw [Function.update_of_ne notHolder]
  have gone : item ∉ live.erase item := fun stays =>
    (custody.once.mem_erase_iff.mp stays).1 rfl
  have acquired : Custody (item :: live.erase item) held' := by
    refine released.acquire taker gone ?_ fun other notTaker => ?_
    · rwa [Function.update_of_ne (Ne.symm different)]
    · by_cases isHolder : other = holder
      · rw [isHolder, Function.update_self]
      · rw [Function.update_of_ne isHolder, others other isHolder notTaker]
  have same := List.perm_cons_erase given
  exact ⟨custody.once, acquired.distinct, acquired.exclusive, fun thing => by
    rw [same.mem_iff, acquired.live_iff]⟩

end Custody

end HttpFs
