import HttpFs.EndToEnd.FileSemantics
import HttpFs.EndToEnd.Lookups

namespace HttpFs

open Routine ClientM CProvider Region

variable {κ : Type}

/-! Reads and writes of a mounted file, against the same calls on the machine. -/

namespace Direct

def openFile (kernel : Kernel κ) (flags : OpenFlags) (rootDir path : Bytes) (host : Host κ) :
    Except Int Nat := do
  let localPath ← resolve rootDir path
  kernel.openFile host.names localPath flags

/-- A read of a file that is opened for it; nothing is opened for a read of nothing. -/
def pread (kernel : Kernel κ) (rootDir path : Bytes) (offset size : Nat) (host : Host κ) :
    Except Int Bytes :=
  if size = 0 then
    .ok []
  else
    (openFile kernel .readOnly rootDir path host).map fun file =>
      slice (host.contents file) offset size

def pwrite (kernel : Kernel κ) (rootDir path : Bytes) (offset : Nat) (buffer : Bytes)
    (host : Host κ) : Except Int Nat × Host κ :=
  if buffer = [] then
    (.ok 0, host)
  else
    match openFile kernel .readWrite rootDir path host with
    | .error errnoValue => (.error errnoValue, host)
    | .ok file =>
        (.ok buffer.length,
          host.setContents file (overwrite 0 (host.contents file) offset buffer))

variable {kernel : Kernel κ} {flags : OpenFlags} {rootDir path : Bytes} {host : Host κ}

end Direct

section Refusals

variable {kernel : Kernel κ} {rootDir path : Bytes} {client : HttpfsClient}
  {curl : Curl (Host κ)} {host : Host κ} {before : ClientState (Host κ)} {offset : Int}
  {errnoValue : Int}

end Refusals

section Mounted

variable {kernel : Kernel κ} {rootDir path : Bytes} {client : HttpfsClient}
  {curl : Curl (Host κ)} {host : Host κ} {offset : Int}

end Mounted

end HttpFs
