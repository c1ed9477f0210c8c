import HttpFs.Digest.Streaming
import HttpFs.Foundation.Numeral

namespace HttpFs

open Rfc1321 BlockHash

/-- The bytes at positions divisible by 10, for data that starts at position `base`. -/
def sampled (base : Int) (data : Bytes) : Bytes :=
  (data.zipIdx.filter fun entry => (base + entry.2) % 10 == 0).map Prod.fst

def hexText (digest : Bytes) : Bytes :=
  digest.flatMap fun (b : UInt8) => [hexDigit (b >>> 4), hexDigit (b &&& 0x0f)]

namespace GoProvider

/-- The loop over `data`; `hex.EncodeToString` and `md5.Sum` are the library's. -/
def computeSparseMD5Hex (data : Bytes) (baseOffset : Int64) : Bytes :=
  let sampled := data.zipIdx.foldl (fun sampled entry =>
    if (baseOffset + Int64.ofNat entry.2) % 10 == 0 then sampled ++ [entry.1] else sampled) []
  hexText (md5 sampled)

end GoProvider

namespace PythonProvider

/-- The loop over `enumerate(data)`; `hashlib.md5` and `hexdigest` are the library's. -/
def computeSparseMd5Hex (data : Bytes) (baseOffset : Int) : Bytes :=
  let sampled := data.zipIdx.foldl (fun sampled entry =>
    if (baseOffset + entry.2) % 10 == 0 then sampled ++ [entry.1] else sampled) []
  hexText (md5 sampled)

end PythonProvider

theorem foldl_append_if {α β : Type} (keep : α → Bool) (value : α → β) (entries : List α)
    (start : List β) :
    entries.foldl (fun kept entry => if keep entry then kept ++ [value entry] else kept)
      start = start ++ (entries.filter keep).map value := by
  induction entries generalizing start with
  | nil => simp
  | cons head tail induction =>
      rw [List.foldl_cons, induction]
      by_cases kept : keep head <;> simp [kept]

theorem filter_zipIdx (base : Int) (data : Bytes) (n : Nat) :
    ((data.zipIdx n).filter fun entry => (base + entry.2) % 10 == 0).map Prod.fst =
      sampled (base + n) data := by
  rw [List.zipIdx_eq_map_add, List.filter_map, List.map_map, sampled]
  simp only [Function.comp_def, Int.natCast_add, Int.add_assoc]

theorem sampled_append (base : Int) (first second : Bytes) :
    sampled base (first ++ second) =
      sampled base first ++ sampled (base + first.length) second := by
  rw [sampled, List.zipIdx_append, List.filter_append, List.map_append,
    filter_zipIdx base second, Nat.zero_add]
  rfl

theorem sparseMd5Update_sampled {message : Bytes} {ctx : Md5Context}
    (digesting : Digesting message ctx) (position : Int) (data : Bytes) :
    Digesting (message ++ sampled position data) (sparseMd5Update ctx position data) := by
  induction data generalizing message ctx position with
  | nil => simpa [sampled, sparseMd5Update] using digesting
  | cons b rest induction =>
      have split := sampled_append position [b] rest
      have single : sampled position [b] = if position % 10 = 0 then [b] else [] := by
        simp only [sampled, List.zipIdx_cons, List.zipIdx_nil, List.filter_cons,
          List.filter_nil, Int.natCast_zero, Int.add_zero, beq_iff_eq]
        split <;> rfl
      rw [List.singleton_append, single] at split
      rw [split, ← List.append_assoc, sparseMd5Update]
      apply induction
      split
      · exact digesting.md5Update [b]
      · rwa [List.append_nil]

theorem sparseMd5_eq (data : Bytes) (baseOffset : Int) :
    sparseMd5 data baseOffset = hexText (md5 (sampled baseOffset data)) := by
  have digesting := sparseMd5Update_sampled digesting_md5Init baseOffset data
  rw [sparseMd5, digesting.md5Final, List.nil_append]
  rfl

/-- The sum of the Go provider does not overflow within a file. -/
theorem int64_position {baseOffset : Int} {index size : Nat} (inside : index < size)
    (notNegative : 0 ≤ baseOffset) (bound : baseOffset + size ≤ longMax) :
    ((Int64.ofInt baseOffset + Int64.ofNat index) % 10 == 0) =
      ((baseOffset + index) % 10 == 0) := by
  simp only [longMax] at bound
  have position : Int64.ofInt baseOffset + Int64.ofNat index =
      Int64.ofInt (baseOffset + index) := by
    rw [Int64.ofInt_add, Int64.ofInt_eq_ofNat]
  have remainder : (Int64.ofInt (baseOffset + index) % 10).toInt = (baseOffset + index) % 10 := by
    rw [Int64.toInt_mod, Int64.toInt_ofInt_of_le (by omega) (by omega)]
    exact Int.tmod_eq_emod_of_nonneg (by omega)
  rw [position, Bool.eq_iff_iff, beq_iff_eq, beq_iff_eq, ← remainder, ← Int64.toInt_inj]
  rfl

/-- Client and providers compute the digest of the same bytes, and data that is cut in
pieces is sampled piece by piece. -/
theorem sparseMd5_everywhere (data : Bytes) (baseOffset : Int) (notNegative : 0 ≤ baseOffset)
    (bound : baseOffset + data.length ≤ longMax) :
    let digest := hexText (md5 (sampled baseOffset data))
    httpfsSparseMd5Hex data baseOffset = some digest ∧
      digest.length = 32 ∧ digest.all isLowerHex = true ∧
      GoProvider.computeSparseMD5Hex data (.ofInt baseOffset) = digest ∧
      PythonProvider.computeSparseMd5Hex data baseOffset = digest ∧
      ∀ first second, data = first ++ second →
        sampled baseOffset data =
          sampled baseOffset first ++ sampled (baseOffset + first.length) second := by
  intro digest
  have isDigest : sparseMd5 data baseOffset = digest := sparseMd5_eq data baseOffset
  have valid := httpfsIsValidMd5Hex_sparseMd5 data baseOffset
  rw [isDigest, httpfsIsValidMd5Hex, Bool.and_eq_true, beq_iff_eq] at valid
  refine ⟨?_, valid.1, valid.2, ?_, ?_, ?_⟩
  · rw [httpfsSparseMd5Hex, if_neg (Int.not_lt.mpr notNegative), isDigest]
  · have same : (data.zipIdx.filter fun entry =>
        (Int64.ofInt baseOffset + Int64.ofNat entry.2) % 10 == 0) =
        data.zipIdx.filter fun entry => (baseOffset + entry.2) % 10 == 0 := by
      apply List.filter_congr
      intro entry member
      exact int64_position (List.snd_lt_of_mem_zipIdx member) notNegative bound
    rw [GoProvider.computeSparseMD5Hex, foldl_append_if (fun entry : UInt8 × Nat =>
      (Int64.ofInt baseOffset + Int64.ofNat entry.2) % 10 == 0), same]
    rfl
  · rw [PythonProvider.computeSparseMd5Hex, foldl_append_if (fun entry : UInt8 × Nat =>
      (baseOffset + entry.2) % 10 == 0)]
    rfl
  · rintro first second rfl
    exact sampled_append baseOffset first second

/-- The digest of the one sampled byte of three that start at position 8. -/
theorem sparseMd5_threeBytes :
    httpfsSparseMd5Hex (ascii "xya") 8 = some (ascii "0cc175b9c0f1b6a831c399e269772661") ∧
      sampled 8 (ascii "xya") = ascii "a" := by
  have everywhere := sparseMd5_everywhere (ascii "xya") 8 (by decide) (by decide)
  refine ⟨everywhere.1.trans ?_, by decide⟩
  decide +kernel

end HttpFs
