import HttpFs.EndToEnd.Reads

namespace HttpFs

open Routine ClientM CProvider Region

section Totals

variable {length offset size k n total : Nat} {preads : List SysReturn}

theorem delivered_eq : delivered length offset size preads k =
    match preads[k]? with
    | none => .ok (chunkLimit length offset size k)
    | some (.count n) => .ok (min n (chunkLimit length offset size k))
    | some (.failed errnoValue) => .error errnoValue := by
  rw [delivered, ← List.head?_drop]
  cases preads.drop k with
  | nil => rfl
  | cons first rest => cases first <;> rfl

theorem delivered_le (isDelivered : delivered length offset size preads k = .ok n) :
    n ≤ chunkLimit length offset size k :=
  (once_eq _ _).2 n isDelivered

theorem FullBefore.reaches (full : FullBefore length offset size preads k)
    (inside : k * HTTPFS_READ_CHUNK_SIZE < size) :
    k = 0 ∨ offset + k * HTTPFS_READ_CHUNK_SIZE ≤ length := by
  cases k with
  | zero => exact .inl rfl
  | succ j =>
      have chunk := delivered_le (full j (by omega)).2
      rw [chunkLimit, chunkAt] at chunk
      have positive : 0 < HTTPFS_READ_CHUNK_SIZE := by decide
      generalize HTTPFS_READ_CHUNK_SIZE = chunkSize at *
      rw [Nat.add_mul] at *
      omega

theorem ReadTotal.whole (result : ReadTotal length offset size preads total)
    (unshort : ∀ k n, FullBefore length offset size preads k →
      delivered length offset size preads k = .ok n →
      n = chunkLimit length offset size k) :
    total = min size (length - offset) := by
  have positive : 0 < HTTPFS_READ_CHUNK_SIZE := by decide
  cases result with
  | complete full isTotal =>
      rcases Nat.eq_zero_or_pos size with nothing | something
      · omega
      · obtain ⟨last, inside, beyond⟩ : ∃ last, last * HTTPFS_READ_CHUNK_SIZE < size ∧
            size - last * HTTPFS_READ_CHUNK_SIZE ≤ HTTPFS_READ_CHUNK_SIZE := by
          refine ⟨(size - 1) / HTTPFS_READ_CHUNK_SIZE, ?_, ?_⟩
          · have below := Nat.div_mul_le_self (size - 1) HTTPFS_READ_CHUNK_SIZE
            omega
          · have above := Nat.lt_div_mul_add positive (a := size - 1)
            omega
        have chunk := delivered_le (full last inside)
        rw [chunkLimit, chunkAt] at chunk
        generalize HTTPFS_READ_CHUNK_SIZE = chunkSize at *
        omega
  | short k n full inside last isShort isTotal =>
      have isLimit := unshort k n full last
      have reaches := full.reaches inside
      rw [chunkLimit, chunkAt] at isLimit
      rw [chunkAt] at isShort
      generalize HTTPFS_READ_CHUNK_SIZE = chunkSize at *
      obtain rfl | within := reaches
      · simp only [Nat.zero_mul] at *
        omega
      · omega

/-- No call that the client comes to delivers less than the file has: before every
short one there is one that fails. -/
def NoShortRead (length offset size : Nat) (preads : List SysReturn) : Prop :=
  ∀ k n, preads[k]? = some (.count n) → n < chunkLimit length offset size k →
    ∃ j errnoValue, j < k ∧ preads[j]? = some (.failed errnoValue)

theorem FullBefore.not_failed (full : FullBefore length offset size preads k) {j : Nat}
    (before : j < k) (errnoValue : Int) : preads[j]? ≠ some (.failed errnoValue) := by
  intro failed
  have isDelivered := (full j before).2
  rw [delivered_eq, failed] at isDelivered
  contradiction

theorem NoShortRead.unshort (noShort : NoShortRead length offset size preads)
    (full : FullBefore length offset size preads k)
    (isDelivered : delivered length offset size preads k = .ok n) :
    n = chunkLimit length offset size k := by
  rw [delivered_eq] at isDelivered
  split at isDelivered
  · cases isDelivered
    rfl
  · next m isCount =>
    cases isDelivered
    rcases Nat.lt_or_ge m (chunkLimit length offset size k) with isShort | whole
    · obtain ⟨j, errnoValue, before, failed⟩ := noShort k m isCount isShort
      exact absurd failed (full.not_failed before errnoValue)
    · omega
  · contradiction

/-- The first call that delivers less than it could, if no call fails before it. -/
theorem first_short (isCount : preads[k]? = some (.count n))
    (isShort : n < chunkLimit length offset size k)
    (unfailed : ∀ j errnoValue, j < k → preads[j]? ≠ some (.failed errnoValue)) :
    ∃ first m, FullBefore length offset size preads first ∧
      first * HTTPFS_READ_CHUNK_SIZE < size ∧
      delivered length offset size preads first = .ok m ∧
      m < chunkLimit length offset size first := by
  induction k using Nat.strongRecOn generalizing n with
  | ind k induction =>
      by_cases earlier : ∃ j m, j < k ∧ preads[j]? = some (.count m) ∧
          m < chunkLimit length offset size j
      · obtain ⟨j, m, before, isEarlier, isEarlierShort⟩ := earlier
        exact induction j before isEarlier isEarlierShort fun i errnoValue inside =>
          unfailed i errnoValue (by omega)
      · have limit := isShort
        rw [chunkLimit, chunkAt] at limit
        refine ⟨k, n, ?_, ?_, ?_, isShort⟩
        · intro j before
          have bound : j * HTTPFS_READ_CHUNK_SIZE + HTTPFS_READ_CHUNK_SIZE ≤
              k * HTTPFS_READ_CHUNK_SIZE := by
            rw [← Nat.succ_mul]
            exact Nat.mul_le_mul_right _ before
          have isLimit : chunkLimit length offset size j = chunkAt size j := by
            rw [chunkLimit, chunkAt]
            generalize HTTPFS_READ_CHUNK_SIZE = chunkSize at *
            omega
          refine ⟨?_, ?_⟩
          · generalize HTTPFS_READ_CHUNK_SIZE = chunkSize at *
            omega
          · rw [delivered_eq, ← isLimit]
            split
            · rfl
            · next m isEarlier =>
              have whole : chunkLimit length offset size j ≤ m :=
                Nat.not_lt.mp fun isEarlierShort =>
                  earlier ⟨j, m, before, isEarlier, isEarlierShort⟩
              rw [Nat.min_eq_right whole]
            · next errnoValue failed => exact absurd failed (unfailed j errnoValue before)
        · generalize HTTPFS_READ_CHUNK_SIZE = chunkSize at *
          omega
        · rw [delivered_eq, isCount]
          exact congrArg Except.ok (Nat.min_eq_left (by omega))

theorem FullBefore.eq {k' : Nat} (full : FullBefore length offset size preads k)
    (full' : FullBefore length offset size preads k')
    (stop : delivered length offset size preads k ≠ .ok (chunkAt size k))
    (stop' : delivered length offset size preads k' ≠ .ok (chunkAt size k')) : k = k' := by
  rcases Nat.lt_trichotomy k k' with before | same | after
  · exact absurd (full' k before).2 stop
  · exact same
  · exact absurd (full k' after).2 stop'

theorem ReadTotal.lt_of_short (result : ReadTotal length offset size preads total)
    (full : FullBefore length offset size preads k)
    (inside : k * HTTPFS_READ_CHUNK_SIZE < size)
    (isDelivered : delivered length offset size preads k = .ok n)
    (isShort : n < chunkLimit length offset size k) : total < min size (length - offset) := by
  have belowChunk : n < chunkAt size k := by
    rw [chunkLimit] at isShort
    omega
  have stop : delivered length offset size preads k ≠ .ok (chunkAt size k) := by
    rw [isDelivered]
    intro same
    cases same
    omega
  cases result with
  | complete full' _ => exact absurd (full' k inside) stop
  | short k' n' full' inside' last isShort' isTotal =>
      have stop' : delivered length offset size preads k' ≠ .ok (chunkAt size k') := by
        rw [last]
        intro same
        cases same
        omega
      obtain rfl := full.eq full' stop stop'
      rw [isDelivered] at last
      cases last
      rw [chunkLimit, chunkAt] at isShort
      generalize HTTPFS_READ_CHUNK_SIZE = chunkSize at *
      omega

end Totals

variable {κ : Type}

/-- A read that returns 0 has read up to the end of the range or of the file exactly
when the provider's calls of `pread` are not short on the way there. -/
theorem httpfsReadFile_whole_iff {kernel : Kernel κ} {rootDir path : Bytes}
    {client : HttpfsClient} {curl : Curl (Host κ)} {offset : Int} {size file : Nat}
    (faithful : FaithfulTransport kernel rootDir client.baseUrl curl)
    {before : ClientState (Host κ)} (serves : Serves kernel rootDir path file before.host.names)
    (calm : before.host.mallocs = []) (fits : ReadFits client path offset size)
    (notNegative : 0 ≤ offset) (bound : offset + size ≤ longMax)
    (room : before.buffer.length = size) :
    (∀ after, httpfsReadFile curl client path offset size before = (some (), after) →
      after.transferred = min size ((before.host.contents file).length - offset.toNat)) ↔
    NoShortRead (before.host.contents file).length offset.toNat size before.host.preads := by
  have outcome := httpfsReadFile_served faithful serves calm fits notNegative bound room
    before rfl
  constructor
  · intro whole k n isCount isShort
    refine Classical.byContradiction fun unfailed => ?_
    obtain ⟨first, m, full, inside, isDelivered, isFirst⟩ := first_short isCount isShort
      fun j errnoValue earlier failed => unfailed ⟨j, errnoValue, earlier, failed⟩
    cases run : httpfsReadFile curl client path offset size before with
    | mk result after =>
        rw [run] at outcome
        cases result with
        | some =>
            have less := ReadTotal.lt_of_short outcome.total full inside isDelivered isFirst
            have all := whole after run
            omega
        | none =>
            obtain ⟨k', errnoValue, full', _, failed⟩ := outcome
            have stop : delivered (before.host.contents file).length offset.toNat size
                before.host.preads first ≠ .ok (chunkAt size first) := by
              rw [isDelivered]
              intro same
              cases same
              rw [chunkLimit] at isFirst
              omega
            obtain rfl := full.eq full' stop (by rw [failed]; simp)
            rw [isDelivered] at failed
            contradiction
  · intro noShort after run
    rw [run] at outcome
    exact ReadTotal.whole outcome.total fun k n full isDelivered =>
      noShort.unshort full isDelivered

/-- A read of the two bytes in `/a`, from a provider whose next `pread` delivers at most
`n` bytes. -/
def twoByteRead (n : Nat) : Option Unit × ClientState (Host Unit) :=
  httpfsReadFile localCurl localClient (ascii "/a") 0 2
    (.start { Host.calm (ascii "ab") with preads := [.count n] } [0, 0])

theorem short_pread_ends_read :
    ((twoByteRead 1).1, (twoByteRead 1).2.transferred) = (some (), 1) ∧
      1 ≠ min 2 ((ascii "ab").length - 0) := by
  decide +kernel

theorem readFits_local : ReadFits localClient (ascii "/a") 0 2 := by
  intro k inside
  have first : k = 0 := by
    have positive : 2 ≤ HTTPFS_READ_CHUNK_SIZE := by decide
    have multiple : k = 0 ∨ HTTPFS_READ_CHUNK_SIZE ≤ k * HTTPFS_READ_CHUNK_SIZE := by
      cases k with
      | zero => exact .inl rfl
      | succ j => exact .inr (Nat.le_mul_of_pos_left _ (by omega))
    omega
  subst first
  decide +kernel

theorem full_pread_ends_read :
    (twoByteRead 2).1 = some () ∧ (twoByteRead 2).2.transferred = 2 := by
  have noShort : NoShortRead 2 0 2 [.count 2] := by
    intro k n isCount isShort
    cases k with
    | zero =>
        cases isCount
        exact absurd isShort (by decide)
    | succ j => contradiction
  have returned : (twoByteRead 2).1 = some () := by decide +kernel
  have whole := (@httpfsReadFile_whole_iff Unit (.single (ascii "/srv/a")) (ascii "/srv")
    (ascii "/a") localClient localCurl 0 2 0 (faithful_directCurl _ _ _)
    (.start { Host.calm (ascii "ab") with preads := [.count 2] } [0, 0]) (serves_local ()) rfl
    readFits_local (by decide) (by decide) rfl).mpr noShort
  exact ⟨returned, whole (twoByteRead 2).2 (Prod.ext returned rfl)⟩

end HttpFs
