import HttpFs.Foundation.Text

namespace HttpFs

/-! Hashes that take their input in blocks of `size` bytes, and buffer what is left
over until the next input. -/

namespace BlockHash

variable {σ : Type} (compress : σ → Bytes → σ) (size : Nat)

/-- The first `count` blocks of the input. -/
def absorb : Nat → σ → Bytes → σ
  | 0, state, _ => state
  | count + 1, state, input =>
      absorb count (compress state (input.take size)) (input.drop size)

variable {compress size} {start state : σ} {message buffer input first second : Bytes}
  {count : Nat}

theorem absorb_append {more : Nat} (whole : first.length = count * size) :
    absorb compress size (count + more) start (first ++ second) =
      absorb compress size more (absorb compress size count start first) second := by
  induction count generalizing start first with
  | zero =>
      have empty : first = [] := List.eq_nil_of_length_eq_zero (by omega)
      rw [empty, Nat.zero_add, List.nil_append]
      rfl
  | succ count induction =>
      rw [Nat.succ_mul] at whole
      have block : size ≤ first.length := by omega
      rw [Nat.succ_add, absorb, absorb, List.take_append_of_le_length block,
        List.drop_append_of_le_length block]
      apply induction
      rw [List.length_drop]
      omega

theorem absorb_start (whole : count * size ≤ first.length) :
    absorb compress size count start (first ++ second) =
      absorb compress size count start first := by
  induction count generalizing start first with
  | zero => rfl
  | succ count induction =>
      rw [Nat.succ_mul] at whole
      have block : size ≤ first.length := by omega
      rw [absorb, absorb, List.take_append_of_le_length block,
        List.drop_append_of_le_length block]
      apply induction
      rw [List.length_drop]
      omega

/-- The state of a hash that was given `message` so far: its whole blocks are
absorbed, and the rest is at the front of the buffer. -/
structure Buffered (compress : σ → Bytes → σ) (size : Nat) (start : σ) (message : Bytes)
    (state : σ) (buffer : Bytes) : Prop where
  state : state = absorb compress size (message.length / size) start message
  front : buffer.take (message.length % size) =
    message.drop (message.length / size * size)
  length : buffer.length = size

theorem Buffered.short (buffered : Buffered compress size start message state buffer)
    (fits : message.length % size + input.length < size) :
    Buffered compress size start (message ++ input) state
      (copyInto buffer (message.length % size) input) := by
  have positive : 0 < size := by omega
  have length : (message ++ input).length =
      size * (message.length / size) + (message.length % size + input.length) := by
    rw [List.length_append, ← Nat.add_assoc, Nat.div_add_mod]
  have blocks : (message ++ input).length / size = message.length / size := by
    rw [length, Nat.mul_add_div positive, Nat.div_eq_of_lt fits, Nat.add_zero]
  have rest : (message ++ input).length % size = message.length % size + input.length := by
    rw [length, Nat.mul_add_mod, Nat.mod_eq_of_lt fits]
  have inside : message.length / size * size ≤ message.length := Nat.div_mul_le_self _ _
  constructor
  · rw [blocks, absorb_start inside, ← buffered.state]
  · have room : message.length % size ≤ buffer.length := by
      rw [buffered.length]
      omega
    rw [blocks, rest, List.drop_append_of_le_length inside, ← buffered.front, copyInto,
      List.take_append_of_le_length, List.take_of_length_le]
    · simp only [List.length_append, List.length_take]
      omega
    · simp only [List.length_append, List.length_take]
      omega
  · have total := buffered.length
    rw [length_copyInto (by omega), total]

/-- An input that fills the buffer: the block in the buffer and the whole blocks
behind it are absorbed, and the rest is put at the front of the buffer. -/
theorem Buffered.full {part : Nat}
    (buffered : Buffered compress size start message state buffer)
    (isPart : part = size - message.length % size) (positive : 0 < size)
    (fills : part ≤ input.length) :
    let block := copyInto buffer (message.length % size) (input.take part)
    let blocks := (input.drop part).length / size
    Buffered compress size start (message ++ input)
      (absorb compress size blocks (compress state block) (input.drop part))
      (copyInto block 0 ((input.drop part).drop (blocks * size))) := by
  intro block blocks
  have below : message.length % size < size := Nat.mod_lt _ positive
  have inside : message.length / size * size ≤ message.length := Nat.div_mul_le_self _ _
  have whole := Nat.div_add_mod message.length size
  rw [Nat.mul_comm] at whole
  have isBlock : block = message.drop (message.length / size * size) ++ input.take part := by
    have filled : buffer.drop (message.length % size + (input.take part).length) = [] := by
      apply List.drop_of_length_le
      rw [buffered.length, List.length_take]
      omega
    change buffer.take (message.length % size) ++ input.take part ++ _ = _
    rw [filled, List.append_nil, buffered.front]
  have blockLength : block.length = size := by
    rw [isBlock, List.length_append, List.length_drop, List.length_take]
    omega
  have split : message ++ input =
      message.take (message.length / size * size) ++ (block ++ input.drop part) := by
    rw [isBlock, List.append_assoc, List.take_append_drop, ← List.append_assoc,
      List.take_append_drop]
  have frontLength : (message.take (message.length / size * size)).length =
      message.length / size * size := by
    rw [List.length_take]
    omega
  have length : (message ++ input).length =
      size * (message.length / size + 1) + (input.drop part).length := by
    rw [split, List.length_append, List.length_append, frontLength, blockLength, Nat.mul_succ,
      Nat.mul_comm size]
    omega
  have count : (message ++ input).length / size = message.length / size + (1 + blocks) := by
    rw [length, Nat.mul_add_div positive, Nat.add_assoc]
  have remainder : (message ++ input).length % size = (input.drop part).length % size := by
    rw [length, Nat.mul_add_mod]
  have behind : blocks * size ≤ (input.drop part).length := Nat.div_mul_le_self _ _
  have leftover : ((input.drop part).drop (blocks * size)).length =
      (input.drop part).length % size := by
    have parts := Nat.div_add_mod (input.drop part).length size
    rw [Nat.mul_comm] at parts
    rw [List.length_drop]
    change (input.drop part).length - (input.drop part).length / size * size = _
    omega
  constructor
  · have absorbed : state = absorb compress size (message.length / size) start
        (message.take (message.length / size * size)) := by
      have whole := @absorb_start _ compress size start
        (message.take (message.length / size * size))
        (message.drop (message.length / size * size)) (message.length / size) (by omega)
      rw [List.take_append_drop] at whole
      exact buffered.state.trans whole
    rw [count, split, absorb_append frontLength, ← absorbed, absorb_append (by omega)]
    have one : absorb compress size 1 state block = compress state block := by
      rw [absorb, absorb, List.take_of_length_le (by omega)]
    rw [one]
  · have isDrop : (message.length / size + (1 + blocks)) * size =
        (message.take (message.length / size * size)).length + (block.length + blocks * size) := by
      rw [frontLength, blockLength, Nat.add_mul, Nat.add_mul, Nat.one_mul]
    have small : (input.drop part).length % size < size := Nat.mod_lt _ positive
    have atFront := @take_copyInto block ((input.drop part).drop (blocks * size)) 0 (by omega)
    rw [Nat.zero_add, List.take_zero, List.nil_append] at atFront
    rw [remainder, ← leftover, atFront, count, split, isDrop,
      List.drop_length_add_append, List.drop_length_add_append]
  · have small : (input.drop part).length % size < size := Nat.mod_lt _ positive
    rw [length_copyInto (by omega), blockLength]

end BlockHash

end HttpFs
