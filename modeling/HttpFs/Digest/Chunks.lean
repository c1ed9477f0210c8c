import HttpFs.Digest.Streaming

namespace HttpFs

open Rfc1321 BlockHash

/-! A message that comes in chunks. -/

/-- The loop of `md5_update` from the index `i` of its input on, and the index that it
ends with. -/
def md5BlocksFrom (input : Bytes) (state : Md5State) (i : Nat) : Md5State × Nat :=
  if i + 63 < input.length then
    md5BlocksFrom input (md5Transform state ((input.drop i).take 64)) (i + 64)
  else
    (state, i)
termination_by input.length - i

/-- `md5_update` with the two indices of the source, `index` into the buffer and `i` into the
input. -/
def md5UpdateIndexed (ctx : Md5Context) (input : Bytes) : Md5Context :=
  let index := ((ctx.bitCount >>> 3) &&& 0x3f).toNat
  let partLen := 64 - index
  let bitCount := ctx.bitCount + (UInt64.ofNat input.length <<< 3)
  let (state, buffer, index, i) :=
    if input.length ≥ partLen then
      let buffer := copyInto ctx.buffer index (input.take partLen)
      let (state, i) := md5BlocksFrom input (md5Transform ctx.state buffer) partLen
      (state, buffer, 0, i)
    else
      (ctx.state, ctx.buffer, index, 0)
  ⟨state, bitCount, copyInto buffer index ((input.drop i).take (input.length - i))⟩

theorem md5BlocksFrom_eq (input : Bytes) (state : Md5State) (i : Nat)
    (inside : i ≤ input.length) :
    md5BlocksFrom input state i =
      (absorb md5Transform 64 ((input.length - i) / 64) state (input.drop i),
        i + (input.length - i) / 64 * 64) := by
  induction state, i using md5BlocksFrom.induct input with
  | case1 state i more induction =>
      have count : (input.length - i) / 64 = (input.length - (i + 64)) / 64 + 1 := by
        omega
      rw [md5BlocksFrom, if_pos more, induction (by omega), count, absorb, List.drop_drop,
        Nat.succ_mul, ← Nat.add_assoc, Nat.add_right_comm]
  | case2 state i last =>
      have count : (input.length - i) / 64 = 0 := by
        omega
      rw [md5BlocksFrom, if_neg last, count, absorb, Nat.zero_mul, Nat.add_zero]

/-- The indices of the two paths meet. -/
theorem md5Update_eq_indexed : md5Update = md5UpdateIndexed := by
  funext ctx input
  have whole (i : Nat) : (input.drop i).take (input.length - i) = input.drop i :=
    List.take_of_length_le (List.length_drop ▸ Nat.le_refl _)
  simp only [md5Update, md5UpdateIndexed]
  split
  · next fills =>
    rw [md5BlocksFrom_eq _ _ _ fills, md5Blocks_eq, List.drop_drop, List.length_drop]
    simp only [whole]
  · simp only [List.drop_zero, Nat.sub_zero, List.take_length]

/-- What a context holds of the message that it was given: its length in bits, the state
after its whole blocks, and at the front of the buffer the rest, which no call of
`md5_transform` has processed. -/
structure Pending (message : Bytes) (ctx : Md5Context) : Prop where
  bitCount : ctx.bitCount.toNat = 8 * message.length
  state : ctx.state = absorb md5Transform 64 (message.length / 64) md5Init.state message
  tail : ctx.buffer.take (ctx.bitCount.toNat / 8 % 64) = message.drop (message.length / 64 * 64)

theorem Digesting.pending {message : Bytes} {ctx : Md5Context}
    (digesting : Digesting message ctx) (bound : message.length < 2 ^ 61) :
    Pending message ctx := by
  have bitCount : ctx.bitCount.toNat = 8 * message.length := by
    rw [digesting.bitCount, UInt64.toNat_ofNat', Nat.mod_eq_of_lt (by omega)]
  refine ⟨bitCount, digesting.buffered.state, ?_⟩
  rw [bitCount, Nat.mul_div_cancel_left _ (by decide)]
  exact digesting.buffered.front

theorem Digesting.md5Updates {message : Bytes} {ctx : Md5Context}
    (digesting : Digesting message ctx) (chunks : List Bytes) :
    Digesting (message ++ chunks.flatten) (chunks.foldl HttpFs.md5Update ctx) := by
  induction chunks generalizing message ctx with
  | nil => rwa [List.flatten_nil, List.append_nil]
  | cons chunk rest induction =>
      rw [List.flatten_cons, ← List.append_assoc, List.foldl_cons]
      exact induction (digesting.md5Update chunk)

/-- `md5_init`, `md5_update` on one chunk after the other and `md5_final`, in a context whose
buffer starts with what the stack held. -/
theorem md5_chunks {stale : Bytes} (size : stale.length = 64) (chunks : List Bytes)
    (bound : chunks.flatten.length < 2 ^ 61) :
    let ctx : Md5Context := { md5Init with buffer := stale }
    md5Final (chunks.foldl md5UpdateIndexed ctx) = md5 chunks.flatten ∧
      ∀ done, done <+: chunks → Pending done.flatten (done.foldl md5UpdateIndexed ctx) := by
  intro ctx
  have start : Digesting [] ctx := ⟨rfl, rfl, rfl, size⟩
  rw [← md5Update_eq_indexed]
  constructor
  · exact (start.md5Updates chunks).md5Final
  · intro done isPrefix
    obtain ⟨rest, rfl⟩ := isPrefix
    rw [List.flatten_append, List.length_append] at bound
    exact (start.md5Updates done).pending (by rw [List.nil_append]; omega)

/-- Chunks that are empty, short and longer than two blocks. -/
theorem md5_chunks_letters :
    md5Final ([[], List.replicate 3 (byte 'a'), List.replicate 150 (byte 'a')].foldl
        md5UpdateIndexed { md5Init with buffer := List.replicate 64 1 }) =
      [0x9e, 0x69, 0xc7, 0xa6, 0xc1, 0x86, 0x3f, 0xbb, 0xa2, 0x53,
        0x2f, 0x09, 0xba, 0x66, 0x5b, 0xde] := by
  have digest := (md5_chunks (List.length_replicate (n := 64) (a := 1))
    [[], List.replicate 3 (byte 'a'), List.replicate 150 (byte 'a')] (by simp)).1
  exact digest.trans (by decide +kernel)

end HttpFs
