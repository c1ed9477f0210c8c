import Mathlib.Tactic.IntervalCases
import HttpFs.Foundation.Rfc1321
import HttpFs.HashUtils

namespace HttpFs

open Rfc1321 BlockHash

/-! The functions of `hash_utils.c` compute the digest of all they were given. -/

def Md5State.registers (state : Md5State) : Registers := ⟨state.a, state.b, state.c, state.d⟩

theorem md5RotateLeft_eq (x : UInt32) {s : Nat} (positive : 0 < s) (below : s < 32) :
    md5RotateLeft x (UInt32.ofNat s) = rotateLeft x s := by
  interval_cases s <;> rfl

/-- Bytes that are shifted past each other are added. -/
theorem word_eq (b0 b1 b2 b3 : UInt8) :
    b0.toUInt32 ||| (b1.toUInt32 <<< 8) ||| (b2.toUInt32 <<< 16) ||| (b3.toUInt32 <<< 24) =
      word [b0, b1, b2, b3] := by
  have size0 := b0.toNat_lt
  have size1 := b1.toNat_lt
  have size2 := b2.toNat_lt
  have size3 := b3.toNat_lt
  have shift : ∀ (high low bits : Nat), low < 2 ^ bits →
      low ||| high <<< bits = high * 2 ^ bits + low := by
    intro high low bits bound
    rw [Nat.or_comm, ← Nat.shiftLeft_add_eq_or_of_lt bound, Nat.shiftLeft_eq]
  apply UInt32.toNat_inj.mp
  have fits : ∀ (b bits : Nat), b < 256 → bits ≤ 24 →
      b <<< bits % 4294967296 = b <<< bits := by
    intro b bits bound most
    have power : 2 ^ bits ≤ 2 ^ 24 := Nat.pow_le_pow_right (by decide) most
    rw [Nat.shiftLeft_eq, Nat.mod_eq_of_lt]
    exact Nat.lt_of_lt_of_le (Nat.mul_lt_mul_of_pos_right bound (Nat.two_pow_pos bits))
      (Nat.mul_le_mul_left 256 power)
  simp only [word, number, UInt32.toNat_or, UInt32.toNat_shiftLeft, UInt8.toNat_toUInt32,
    UInt32.toNat_ofNat']
  change b0.toNat ||| b1.toNat <<< 8 % 4294967296 ||| b2.toNat <<< 16 % 4294967296 |||
    b3.toNat <<< 24 % 4294967296 = _
  rw [fits _ 8 size1 (by decide), fits _ 16 size2 (by decide), fits _ 24 size3 (by decide),
    shift _ _ 8 size0, shift _ _ 16 (by omega), shift _ _ 24 (by omega)]
  omega

theorem md5Word_eq (block : Bytes) (length : block.length = 64) {j : Nat} (inside : j < 16) :
    md5Word block j = word ((block.drop (4 * j)).take 4) := by
  have bytes : (block.drop (4 * j)).take 4 = [block.getD (j * 4) 0, block.getD (j * 4 + 1) 0,
      block.getD (j * 4 + 2) 0, block.getD (j * 4 + 3) 0] := by
    apply List.ext_getElem?
    intro i
    rcases Nat.lt_or_ge i 4 with below | beyond
    · rw [List.getElem?_take_of_lt below, List.getElem?_drop]
      interval_cases i <;> simp [Nat.mul_comm, show j * 4 < block.length by omega,
        show j * 4 + 1 < block.length by omega, show j * 4 + 2 < block.length by omega,
        show j * 4 + 3 < block.length by omega]
    · rw [List.getElem?_eq_none (by simp; omega), List.getElem?_eq_none (by simp; omega)]
  rw [bytes, ← word_eq, md5Word]

def roundFunc (round : Nat) : Md5Func :=
  match round with
  | 0 => .f
  | 1 => .g
  | 2 => .h
  | _ => .i

/-- The steps of the source are the operations of the document. -/
def documentStep (n : Nat) : Md5Step :=
  ⟨roundFunc (n / 16), wordIndex (n / 16) (n % 16),
    UInt32.ofNat ((rotations (n / 16)).getD (n % 4) 0), sineTable.getD n 0⟩

theorem md5Steps_eq : md5Steps = (List.range 64).map documentStep := by
  rfl

theorem md5Step_eq (x : List UInt32) (state : Md5State) {n : Nat} (inside : n < 64) :
    (md5Step x state (documentStep n)).registers = operation x state.registers n := by
  have rounds : n / 16 < 4 := by omega
  have rotation : 0 < (rotations (n / 16)).getD (n % 4) 0 ∧
      (rotations (n / 16)).getD (n % 4) 0 < 32 := by
    have last : n % 4 < 4 := Nat.mod_lt _ (by decide)
    generalize n / 16 = round at rounds
    generalize n % 4 = place at last
    interval_cases round <;> interval_cases place <;> decide
  have func : ∀ x y z, (roundFunc (n / 16)).apply x y z = auxiliary (n / 16) x y z := by
    intro x y z
    generalize n / 16 = round at rounds
    interval_cases round <;> rfl
  simp only [md5Step, documentStep, operation, Md5State.registers, func,
    md5RotateLeft_eq _ rotation.1 rotation.2, Registers.mk.injEq, true_and, and_true]
  rw [UInt32.add_comm]
  simp only [UInt32.add_assoc]

theorem md5Transform_eq (state : Md5State) {block : Bytes} (length : block.length = 64) :
    (md5Transform state block).registers = processBlock state.registers block := by
  have words : (List.range 16).map (md5Word block) =
      (List.range 16).map fun j => word ((block.drop (4 * j)).take 4) := by
    apply List.map_congr_left
    intro j member
    exact md5Word_eq block length (List.mem_range.mp member)
  have steps : ∀ x (numbers : List Nat) (state : Md5State), (∀ n ∈ numbers, n < 64) →
      ((numbers.map documentStep).foldl (md5Step x) state).registers =
        numbers.foldl (operation x) state.registers := by
    intro x numbers
    induction numbers with
    | nil => intro state _; rfl
    | cons n rest induction =>
        intro state bounds
        rw [List.map_cons, List.foldl_cons, List.foldl_cons,
          induction _ fun m member => bounds m (by simp [member]),
          md5Step_eq x state (bounds n (by simp))]
  have result := steps ((List.range 16).map fun j => word ((block.drop (4 * j)).take 4))
    (List.range 64) state fun n member => List.mem_range.mp member
  rw [← md5Steps_eq] at result
  simp only [md5Transform, words, processBlock, ← result]
  rfl

theorem md5Blocks_eq (blocks : Nat) (state : Md5State) (input : Bytes) :
    md5Blocks blocks state input =
      (absorb md5Transform 64 blocks state input, input.drop (blocks * 64)) := by
  induction blocks generalizing state input with
  | zero => simp [md5Blocks, absorb]
  | succ blocks induction =>
      rw [md5Blocks, induction, absorb, List.drop_drop, Nat.succ_mul, Nat.add_comm 64]

structure Digesting (message : Bytes) (ctx : Md5Context) : Prop where
  bitCount : ctx.bitCount = UInt64.ofNat (8 * message.length)
  buffered : Buffered md5Transform 64 md5Init.state message ctx.state ctx.buffer

theorem digesting_md5Init : Digesting [] md5Init :=
  ⟨rfl, rfl, rfl, List.length_replicate⟩

theorem Digesting.index {message : Bytes} {ctx : Md5Context}
    (digesting : Digesting message ctx) :
    ((ctx.bitCount >>> 3) &&& 0x3f).toNat = message.length % 64 := by
  have mask : ∀ n : Nat, n &&& 63 = n % 64 := fun n => Nat.and_two_pow_sub_one_eq_mod n 6
  rw [digesting.bitCount]
  simp [mask, Nat.shiftRight_eq_div_pow]
  omega

theorem Digesting.md5Update {message : Bytes} {ctx : Md5Context}
    (digesting : Digesting message ctx) (input : Bytes) :
    Digesting (message ++ input) (md5Update ctx input) := by
  have bitCount : ctx.bitCount + (UInt64.ofNat input.length <<< 3) =
      UInt64.ofNat (8 * (message ++ input).length) := by
    rw [digesting.bitCount, List.length_append]
    apply UInt64.toNat_inj.mp
    simp [Nat.shiftLeft_eq]
    omega
  have below : message.length % 64 < 64 := Nat.mod_lt _ (by decide)
  simp only [HttpFs.md5Update, digesting.index, bitCount]
  split
  · next fills =>
    rw [md5Blocks_eq]
    exact ⟨rfl, digesting.buffered.full rfl (by decide) fills⟩
  · next short =>
    exact ⟨rfl, digesting.buffered.short (by omega)⟩

theorem absorb_registers (count : Nat) (state : Md5State) {input : Bytes}
    (whole : count * 64 ≤ input.length) :
    (absorb md5Transform 64 count state input).registers =
      absorb processBlock 64 count state.registers input := by
  induction count generalizing state input with
  | zero => rfl
  | succ count induction =>
      rw [Nat.succ_mul] at whole
      have block : (input.take 64).length = 64 := by
        rw [List.length_take]
        omega
      rw [absorb, absorb, ← md5Transform_eq state block]
      apply induction
      rw [List.length_drop]
      omega

theorem wordBytes_eq (w : UInt32) : wordBytes w = lowOrderFirst 4 w.toNat := by
  have mask : ∀ n : Nat, n &&& 255 = n % 256 := fun n => Nat.and_two_pow_sub_one_eq_mod n 8
  have digit : ∀ i, i < 4 → ((w >>> UInt32.ofNat (8 * i)) &&& 0xff).toUInt8 =
      UInt8.ofNat (w.toNat / 256 ^ i) := by
    intro i inside
    apply UInt8.toNat_inj.mp
    interval_cases i <;> simp [mask, Nat.shiftRight_eq_div_pow]
  have first := digit 0 (by decide)
  have second := digit 1 (by decide)
  have third := digit 2 (by decide)
  have fourth := digit 3 (by decide)
  simp only [lowOrderFirst, List.range, List.range.loop, List.map_cons, List.map_nil,
    ← first, ← second, ← third, ← fourth]
  simp [wordBytes]

theorem lengthBytes_eq (n : Nat) :
    ((List.range 8).map fun i =>
      ((UInt64.ofNat n >>> (UInt64.ofNat i * 8)) &&& 0xff).toUInt8) = lowOrderFirst 8 n := by
  have mask : ∀ n : Nat, n &&& 255 = n % 256 := fun n => Nat.and_two_pow_sub_one_eq_mod n 8
  apply List.map_congr_left
  intro i member
  have inside := List.mem_range.mp member
  apply UInt8.toNat_inj.mp
  interval_cases i <;> simp [mask, Nat.shiftRight_eq_div_pow] <;> omega

theorem padding_eq {index : Nat} (below : index < 64) :
    ((0x80 : UInt8) :: List.replicate 63 0).take (if index < 56 then 56 - index else 120 - index) =
      0x80 :: List.replicate ((119 - index) % 64) 0 := by
  have length : (if index < 56 then 56 - index else 120 - index) =
      (119 - index) % 64 + 1 := by
    split <;> omega
  have short : (119 - index) % 64 < 64 := Nat.mod_lt _ (by decide)
  rw [length, List.take_succ_cons, List.take_replicate, Nat.min_eq_left (by omega)]

theorem Digesting.md5Final {message : Bytes} {ctx : Md5Context}
    (digesting : Digesting message ctx) : md5Final ctx = md5 message := by
  have below : message.length % 64 < 64 := Nat.mod_lt _ (by decide)
  have padded := (digesting.md5Update
    (0x80 :: List.replicate ((119 - message.length % 64) % 64) 0)).md5Update
      (lowOrderFirst 8 (8 * message.length))
  have isPadded : message ++ 0x80 :: List.replicate ((119 - message.length % 64) % 64) 0 ++
      lowOrderFirst 8 (8 * message.length) = pad message := rfl
  rw [isPadded] at padded
  have blocks : (pad message).length / 64 * 64 ≤ (pad message).length :=
    Nat.div_mul_le_self _ _
  have final := absorb_registers ((pad message).length / 64) md5Init.state blocks
  rw [← padded.buffered.state] at final
  have start : md5Init.state.registers = initial := by decide
  simp only [HttpFs.md5Final, digesting.index]
  simp only [digesting.bitCount, lengthBytes_eq, padding_eq below, wordBytes_eq]
  rw [md5, ← start, ← final]
  simp [Registers.bytes, Md5State.registers]

end HttpFs
