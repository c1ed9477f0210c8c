import HttpFs.EndToEnd.Listings
import HttpFs.EndToEnd.Metadata
import HttpFs.EndToEnd.Mirrors
import HttpFs.EndToEnd.RequestLines

namespace HttpFs

open Routine ClientM CProvider Json

variable {κ : Type}

/-! Calls that ask about a path of the mounted directory and change nothing. -/

namespace Direct

/-- The file of the machine that a path of the mounted directory stands for. -/
def resolve (rootDir path : Bytes) : Except Int Bytes :=
  match resolvePath rootDir path 4096 with
  | none => .error Errno.EINVAL
  | some localPath => .ok localPath

def lstat (kernel : Kernel κ) (rootDir path : Bytes) (host : Host κ) : Except Int Stat := do
  let localPath ← resolve rootDir path
  kernel.lstat host.names host.contents localPath

def opendir (kernel : Kernel κ) (rootDir path : Bytes) (host : Host κ) :
    Except Int (List Bytes) := do
  let localPath ← resolve rootDir path
  kernel.opendir host.names localPath

end Direct

section Provider

variable {kernel : Kernel κ} {rootDir path : Bytes} {client : HttpfsClient}
  {asked : PathRequest} {lines : List Bytes}

end Provider

section Attributes

variable {kernel : Kernel κ} {rootDir path : Bytes} {client : HttpfsClient}
  {curl : Curl (Host κ)} {host : Host κ} {before : ClientState (Host κ)}

/-- What a reply that carries a path must be for its metadata to come through. -/
def Carried (path : Bytes) (status : Stat) : Prop :=
  isStringBody .plain path = true ∧ status.nlink.toNat < 2 ^ 63

end Attributes

section Directories

variable {kernel : Kernel κ} {rootDir path : Bytes} {client : HttpfsClient}
  {curl : Curl (Host κ)} {host : Host κ} {before : ClientState (Host κ)}

/-- A name that a listing can carry as it is. -/
structure Listed (name : Bytes) : Prop where
  short : name.length ≤ 255
  noSlash : byte '/' ∉ name
  plain : ∀ ch ∈ name, ch ≠ 0 ∧ escapeByte ch = [ch]

namespace Listed

variable {name : Bytes} (listed : Listed name)
include listed

theorem noNul : 0 ∉ name := fun zero => (listed.plain 0 zero).1 rfl

theorem escapedText_eq : escapedText name = name := by
  have plain := listed.plain
  clear listed
  induction name with
  | nil => rfl
  | cons ch rest induction =>
      obtain ⟨⟨_, isPlain⟩, others⟩ := List.forall_mem_cons.mp plain
      change escapeByte ch ++ escapedText rest = ch :: rest
      rw [isPlain, induction others, List.singleton_append]

theorem jsonEscapeString_eq : jsonEscapeString name 512 = some name := by
  have same := listed.escapedText_eq
  have short := listed.short
  rw [jsonEscapeString, if_neg (by decide), cString_of_noNul listed.noNul, jsonEscapeLoop_fits]
  · exact congrArg some same
  · change 0 + (escapedText name).length + 2 ≤ 512
    rw [same]
    omega

end Listed

/-- A directory with names that a listing can carry, and few enough of them for the
client's tokens. -/
structure Listable (localPath : Bytes) (names : List Bytes) : Prop where
  listed : ∀ name ∈ names, Listed name
  short : localPath.length + 256 < 4096
  few : names.length ≤ 101

end Directories

end HttpFs
