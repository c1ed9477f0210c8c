import HttpFs.EndToEnd.Lookups
import HttpFs.Foundation.Sessions
import HttpFs.Provider.CleanPaths
import HttpFs.Provider.SiblingHandlers

namespace HttpFs

open LexicalPath
open CProvider (Contents Host HttpReply Kernel RequestContext sendBinary sendErrorJson sendOk
  statToJson writtenPayload)
open Region

/-! One directory behind a C and a Go provider. -/

/-- A request about one file of the directory. -/
inductive FileRequest where
  | getMeta
  | readFile (offset : Int) (size : Nat)
  | writeFile (offset : Int) (contentMd5 body : Bytes)

/-- What the answer to a request says. -/
inductive FileOutcome where
  | error (errnoValue : Int)
  | metadata (path : Bytes) (status : Stat)
  | data (buffer contentMd5 : Bytes)
  | written (bytesWritten : Nat) (contentMd5 : Bytes)
  deriving DecidableEq

namespace FileRequest

variable {κ : Type}

def asked : FileRequest → PathRequest
  | .getMeta => .getMeta
  | .readFile offset size => .readFile offset size
  | .writeFile offset _ _ => .writeFile offset

/-- What a request is for, on the file that its path stands for. -/
def perform (kernel : Kernel κ) (path localPath : Bytes) (names : κ) (contents : Contents) :
    FileRequest → FileOutcome × Contents
  | .getMeta =>
      match kernel.lstat names contents localPath with
      | .error errnoValue => (.error errnoValue, contents)
      | .ok status => (.metadata path status, contents)
  | .readFile offset size =>
      match kernel.openFile names localPath .readOnly with
      | .error errnoValue => (.error errnoValue, contents)
      | .ok file =>
          let buffer := slice (contents file) offset.toNat size
          (.data buffer (sparseMd5 buffer offset), contents)
  | .writeFile offset contentMd5 body =>
      if !httpfsIsValidMd5Hex contentMd5 then
        (.error Errno.EINVAL, contents)
      else if sparseMd5 body offset ≠ contentMd5 then
        (.error Errno.EIO, contents)
      else
        match kernel.openFile names localPath .readWrite with
        | .error errnoValue => (.error errnoValue, contents)
        | .ok file =>
            (.written body.length contentMd5,
              fun other =>
                if other = file then overwrite 0 (contents file) offset.toNat body
                else contents other)

/-- The bytes that a request is about have positions in a file. -/
def InFile : FileRequest → Prop
  | .getMeta => True
  | .readFile offset size => offset + size ≤ longMax
  | .writeFile offset _ body => offset + body.length ≤ longMax

/-- The path stays below the root, and the buffers of the C provider have room for it. -/
structure Allowed (root path : CleanRoot UInt8) (request : FileRequest) : Prop where
  below : path.names ≠ []
  noNul : 0 ∉ root.text ++ path.text
  fits : (root.text ++ path.text).length < 4096
  short : (percentEncode path.text).length < 2048
  inRange : request.asked.InRange
  inFile : request.InFile

end FileRequest

namespace CProvider

variable {κ : Type}

def Reports (reply : HttpReply) : FileOutcome → Prop
  | .error errnoValue => ∃ message, reply = sendErrorJson errnoValue message
  | .metadata path status => reply = sendOk (statToJson path status (path.length + 256))
  | .data buffer contentMd5 => reply = sendBinary buffer contentMd5
  | .written bytesWritten contentMd5 => reply = sendOk (writtenPayload bytesWritten contentMd5)

end CProvider

namespace GoProvider

variable {κ : Type}

def Reports (reply : Reply) : FileOutcome → Prop
  | .error errnoValue => ∃ message, reply = .error errnoValue message
  | .metadata path status => reply = .metadata (metaFromInfo path status)
  | .data buffer contentMd5 => reply = .data buffer contentMd5
  | .written bytesWritten contentMd5 => reply = .written bytesWritten contentMd5

/-- What the library finds in a request. -/
def fileRequest (path : Bytes) : FileRequest → Request
  | .getMeta => ⟨some path, none, none, [], []⟩
  | .readFile offset size =>
      ⟨some path, some (signedDecimal offset), some (signedDecimal size), [], []⟩
  | .writeFile offset contentMd5 body =>
      ⟨some path, some (signedDecimal offset), none, contentMd5, body⟩

/-- All calls succeed in full, with so much in the file. -/
def FileAnswers.calm (size : Nat) : FileAnswers := ⟨none, true, .ok size, none, none, none⟩

end GoProvider

section Agreement

variable {κ : Type} {kernel : Kernel κ} {root path : CleanRoot UInt8} {request : FileRequest}
  {names : κ} {contents : Contents}

theorem GoProvider.computeSparseMD5Hex_eq {data : Bytes} {offset : Int} (notNegative : 0 ≤ offset)
    (bound : offset + data.length ≤ longMax) :
    GoProvider.computeSparseMD5Hex data (.ofInt offset) = sparseMd5 data offset := by
  have same : (data.zipIdx.filter fun entry =>
      (Int64.ofInt offset + Int64.ofNat entry.2) % 10 == 0) =
      data.zipIdx.filter fun entry => (offset + entry.2) % 10 == 0 := by
    apply List.filter_congr
    intro entry member
    exact int64_position (List.snd_lt_of_mem_zipIdx member) notNegative bound
  rw [sparseMd5_eq, GoProvider.computeSparseMD5Hex, foldl_append_if (fun entry : UInt8 × Nat =>
    (Int64.ofInt offset + Int64.ofNat entry.2) % 10 == 0), same]
  rfl

theorem GoProvider.verifyStored_calm {offset : Int} {contentMd5 body : Bytes} {file : Nat}
    (allowed : (FileRequest.writeFile offset contentMd5 body).Allowed root path)
    (same : sparseMd5 body offset = contentMd5) :
    GoProvider.Server.verifyStored (.calm 0)
        (GoProvider.fileRequest path.text (.writeFile offset contentMd5 body))
        (GoProvider.Server.store contents file offset.toNat body) file offset =
      .ok (.written body.length contentMd5) := by
  obtain ⟨offsetFrom, _⟩ := allowed.inRange (ascii "offset", offset) (.head _)
  have stored : slice (GoProvider.Server.store contents file offset.toNat body file)
      offset.toNat body.length = body := by
    rw [GoProvider.Server.store, if_pos rfl]
    exact slice_overwrite
  simp only [GoProvider.Server.verifyStored, GoProvider.FileAnswers.calm,
    GoProvider.fileRequest, stored, Nat.lt_irrefl, if_false,
    GoProvider.computeSparseMD5Hex_eq offsetFrom allowed.inFile, same, ne_eq,
    not_true_eq_false]

end Agreement

/-! Requests that go to one or the other provider of the directory. -/

inductive Provider where
  | c
  | go
  deriving DecidableEq

/-- A request about a path of the directory, and the provider that it goes to. -/
structure SentRequest where
  provider : Provider
  path : CleanRoot UInt8
  request : FileRequest

inductive ProviderReply where
  | c (reply : HttpReply)
  | go (reply : GoProvider.Reply)

def ProviderReply.Reports : ProviderReply → FileOutcome → Prop
  | .c reply, outcome => CProvider.Reports reply outcome
  | .go reply, outcome => GoProvider.Reports reply outcome

namespace SentRequest

variable {κ : Type} (kernel : Kernel κ) (names : κ)

def asked (sent : SentRequest) : CleanRoot UInt8 × FileRequest := (sent.path, sent.request)

end SentRequest

section Interchange

variable {κ : Type} {kernel : Kernel κ} {names : κ} {root : CleanRoot UInt8}
  {server : GoProvider.Server} {sent : SentRequest}

end Interchange

end HttpFs
