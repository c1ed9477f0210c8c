import HttpFs.Digest.Sampling
import HttpFs.Provider.GuardedWrite
import HttpFs.Provider.NumericParameters

namespace HttpFs.GoProvider

open CProvider (Contents ExactWrite Kernel isDirectory)
open Region

/-! The handlers of the Go provider that look up, read and write one file. -/

/-- An `error`, by what `writeMappedError` finds in it. -/
inductive Failure where
  | errno (errnoValue : Int)
  | invalid (message : Bytes)
  | other (message : Bytes)
  deriving Repr, DecidableEq

/-- What a reply says; a handler that panics has its connection closed. -/
inductive Reply where
  | error (errnoValue : Int) (message : Bytes)
  | metadata (object : HttpfsMeta)
  | data (buffer contentMd5 : Bytes)
  | written (bytesWritten : Nat) (contentMd5 : Bytes)
  | dropped
  deriving DecidableEq

/-- What the library has decoded; a parameter or a header that is missing is an empty text
to the handlers. -/
structure Request where
  path : Option Bytes
  offset : Option Bytes
  size : Option Bytes
  contentMd5 : Bytes
  body : Bytes

/-- How the calls on an open file end. A `Read` is given so many bytes at most; a `Write`
that fails has stored so many. -/
structure FileAnswers where
  seek : Option Failure
  allocates : Bool
  read : Except Failure Nat
  write : Option (Nat × Failure)
  seekBack : Option Failure
  readBack : Option Failure

/-- The process, with the texts that its library has for the errors of the system. -/
structure Server where
  workingDir : Bytes
  rootDir : Bytes
  errnoText : Int → Bytes

def validateContentMD5 (value : Bytes) : Bool :=
  value.length == 32 && value.all fun ch =>
    !((ch < byte '0' || ch > byte '9') && (ch < byte 'a' || ch > byte 'f'))

def typeFromMode (status : Stat) : Bytes :=
  if isDirectory status then ascii "dir" else ascii "file"

def metaFromInfo (path : Bytes) (status : Stat) : HttpfsMeta :=
  ⟨path, typeFromMode status, status.mode, status.size, status.uid, status.gid, status.nlink,
    status.atime, status.mtime, status.ctime⟩

variable {κ : Type}

namespace Server

variable (server : Server) (kernel : Kernel κ) (answers : FileAnswers)

def writeMappedError : Failure → Reply
  | .errno errnoValue => .error errnoValue (server.errnoText errnoValue)
  | .invalid message => .error Errno.EINVAL message
  | .other message => .error Errno.EIO message

def resolve (path : Bytes) : Except Failure Bytes :=
  match resolvePath server.workingDir server.rootDir path with
  | some localPath => .ok localPath
  | none =>
      .error (.invalid (if isAbs path then ascii "path escapes backend root"
        else ascii "path must start with '/'"))

/-- A call on a path; one with a NUL is not passed on to the system. -/
def onPath {α : Type} (localPath : Bytes) (call : Bytes → Except Int α) : Except Failure α :=
  if 0 ∈ localPath then .error (.errno Errno.EINVAL) else (call localPath).mapError .errno

def handleMeta (request : Request) (names : κ) (contents : Contents) : Except Failure Reply :=
  let path := request.path.getD []
  match server.resolve path with
  | .error failure => .error failure
  | .ok localPath =>
      (onPath localPath (kernel.lstat names contents)).map fun status =>
        .metadata (metaFromInfo path status)

/-- The numbers of a read, or what their parser reports. -/
def readNumbers (request : Request) : Except Failure (Int × Int) :=
  (GoProvider.readNumbers request.offset request.size).mapError fun error =>
    .invalid error.message

def handleRead (request : Request) (names : κ) (contents : Contents) : Except Failure Reply :=
  match readNumbers request with
  | .error failure => .error failure
  | .ok (offset, size) =>
      match server.resolve (request.path.getD []) with
      | .error failure => .error failure
      | .ok localPath =>
          match onPath localPath fun localPath => kernel.openFile names localPath .readOnly,
            answers.seek with
          | .error failure, _ => .error failure
          | .ok _, some failure => .error failure
          | .ok file, none =>
              if answers.allocates then
                answers.read.map fun bytesRead =>
                  let buffer := slice (contents file) offset.toNat (min bytesRead size.toNat)
                  .data buffer (computeSparseMD5Hex buffer (.ofInt offset))
              else
                .ok .dropped

def writeNumber (request : Request) : Except Failure Int :=
  (GoProvider.writeNumber request.offset).mapError fun error => .invalid error.message

/-- The checks of `handleWrite` before it opens the file. -/
def writeTarget (request : Request) : Except Failure (Int × Bytes) :=
  match writeNumber request with
  | .error failure => .error failure
  | .ok offset =>
      if !validateContentMD5 request.contentMd5 then
        .error (.invalid (ascii "missing or invalid content md5"))
      else
        match server.resolve (request.path.getD []) with
        | .error failure => .error failure
        | .ok localPath =>
            if computeSparseMD5Hex request.body (.ofInt offset) ≠ request.contentMd5 then
              .error (.other (ascii "write content md5 verification failed"))
            else
              .ok (offset, localPath)

def store (contents : Contents) (file offset : Nat) (data : Bytes) : Contents :=
  fun other => if other = file then overwrite 0 (contents file) offset data else contents other

/-- `handleWrite` behind `Write`. -/
def verifyStored (request : Request) (contents : Contents) (file : Nat) (offset : Int) :
    Except Failure Reply :=
  match answers.seekBack, answers.readBack with
  | some failure, _ => .error failure
  | none, some failure => .error failure
  | none, none =>
      let stored := slice (contents file) offset.toNat request.body.length
      if stored.length < request.body.length then
        .error (.other (if stored = [] then ascii "EOF" else ascii "unexpected EOF"))
      else
        let actualMD5 := computeSparseMD5Hex stored (.ofInt offset)
        if actualMD5 ≠ request.contentMd5 then
          .error (.other (ascii "stored content md5 verification failed"))
        else
          .ok (.written request.body.length actualMD5)

def handleWrite (request : Request) (names : κ) (contents : Contents) :
    Except Failure Reply × Contents :=
  match server.writeTarget request with
  | .error failure => (.error failure, contents)
  | .ok (offset, localPath) =>
      match onPath localPath fun localPath => kernel.openFile names localPath .readWrite,
        answers.seek with
      | .error failure, _ => (.error failure, contents)
      | .ok _, some failure => (.error failure, contents)
      | .ok file, none =>
          match answers.write with
          | some (moved, failure) =>
              (.error failure, store contents file offset.toNat (request.body.take moved))
          | none =>
              let contents := store contents file offset.toNat request.body
              (verifyStored answers request contents file offset, contents)

/-- What `wrapGET` and `wrapPOST` make of the result of a handler. -/
def reply : Except Failure Reply → Reply
  | .ok reply => reply
  | .error failure => server.writeMappedError failure

/-- The digest that a request brings is one, of its body at its offset. -/
def DigestMatches (request : Request) (offset : Int) : Prop :=
  GoProvider.writeNumber request.offset = .ok offset ∧
    validateContentMD5 request.contentMd5 = true ∧
    computeSparseMD5Hex request.body (.ofInt offset) = request.contentMd5

variable {server kernel answers} {request : Request} {names : κ} {contents : Contents}

theorem mapError_ok {ε ε' α : Type} {f : ε → ε'} {result : Except ε α} {value : α} :
    result.mapError f = .ok value ↔ result = .ok value := by
  cases result <;> simp [Except.mapError]

theorem resolve_ok {path localPath : Bytes} :
    server.resolve path = .ok localPath ↔
      resolvePath server.workingDir server.rootDir path = some localPath := by
  rw [resolve]
  split <;> simp_all

theorem onPath_ok {α : Type} {localPath : Bytes} {call : Bytes → Except Int α} {value : α} :
    onPath localPath call = .ok value ↔ 0 ∉ localPath ∧ call localPath = .ok value := by
  rw [onPath]
  split
  · next hasNul => simp [hasNul]
  · next noNul => simp [noNul, mapError_ok]

theorem writeTarget_ok {offset : Int} {localPath : Bytes} :
    server.writeTarget request = .ok (offset, localPath) ↔
      resolvePath server.workingDir server.rootDir (request.path.getD []) = some localPath ∧
      DigestMatches request offset := by
  rw [DigestMatches, ← resolve_ok, writeTarget, writeNumber]
  cases GoProvider.writeNumber request.offset with
  | error error => simp [Except.mapError]
  | ok found =>
      simp only [Except.mapError]
      cases validateContentMD5 request.contentMd5 with
      | false => simp
      | true =>
          cases server.resolve (request.path.getD []) with
          | error failure => simp
          | ok resolved =>
              simp only [Bool.not_true, Bool.false_eq_true, if_false, true_and]
              constructor
              · intro passed
                split at passed
                · contradiction
                next same =>
                cases passed
                exact ⟨rfl, rfl, Decidable.not_not.mp same⟩
              · rintro ⟨isResolved, isOffset, same⟩
                cases isResolved
                cases isOffset
                exact if_neg (not_not_intro same)

theorem exactWrite_store (contents : Contents) (file offset : Nat) (data : Bytes) :
    ExactWrite contents (store contents file offset data) file offset data :=
  CProvider.exactWrite_overwrite (⟨(), contents, [], [], []⟩ : CProvider.Host Unit) file offset data

theorem verifyStored_ok {file : Nat} {offset : Int} {reply : Reply}
    (verified : verifyStored answers request contents file offset = .ok reply) :
    reply = .written request.body.length request.contentMd5 := by
  unfold verifyStored at verified
  split at verified
  · contradiction
  · contradiction
  dsimp only at verified
  split at verified
  · contradiction
  split at verified
  · contradiction
  next same =>
  rw [Decidable.not_not.mp same] at verified
  exact (Except.ok.inj verified).symm

/-- The file of the request has been written with the data, at the offset of the request. -/
def Stores (server : Server) (kernel : Kernel κ) (request : Request) (names : κ)
    (before after : Contents) (data : Bytes) : Prop :=
  ∃ offset localPath file, DigestMatches request offset ∧
    resolvePath server.workingDir server.rootDir (request.path.getD []) = some localPath ∧
    kernel.openFile names localPath .readWrite = .ok file ∧
    ExactWrite before after file offset.toNat data

/-- However the calls on the file end, `handleWrite` stores nothing but the beginning of a
body whose digest is the one of the request, and reports success for the whole of it. -/
theorem handleWrite_checked (server : Server) (kernel : Kernel κ) (answers : FileAnswers)
    (request : Request) (names : κ) (contents : Contents) :
    let (result, after) := server.handleWrite kernel answers request names contents
    (after = contents ∨
      ∃ moved, Stores server kernel request names contents after (request.body.take moved)) ∧
    ∀ reply, result = .ok reply →
      reply = .written request.body.length request.contentMd5 ∧
        Stores server kernel request names contents after request.body := by
  have refused : ∀ failure : Failure, (contents = contents ∨
        ∃ moved, Stores server kernel request names contents contents
          (request.body.take moved)) ∧
      ∀ reply, (.error failure : Except Failure Reply) = .ok reply →
        reply = .written request.body.length request.contentMd5 ∧
          Stores server kernel request names contents contents request.body :=
    fun _ => ⟨.inl rfl, fun _ impossible => by contradiction⟩
  unfold handleWrite
  cases checked : server.writeTarget request with
  | error failure => exact refused failure
  | ok target =>
      obtain ⟨offset, localPath⟩ := target
      obtain ⟨resolved, digest⟩ := writeTarget_ok.mp checked
      dsimp only
      cases opened : onPath localPath fun localPath =>
          kernel.openFile names localPath .readWrite with
      | error failure => exact refused failure
      | ok file =>
          have stores : ∀ data, Stores server kernel request names contents
              (store contents file offset.toNat data) data := fun data =>
            ⟨offset, localPath, file, digest, resolved, (onPath_ok.mp opened).2,
              exactWrite_store _ _ _ _⟩
          cases answers.seek with
          | some failure => exact refused failure
          | none =>
              dsimp only
              cases answers.write with
              | some failed =>
                  exact ⟨.inr ⟨failed.1, stores _⟩, fun _ impossible => by contradiction⟩
              | none =>
                  refine ⟨.inr ⟨request.body.length, ?_⟩, fun reply verified => ?_⟩
                  · rw [List.take_length]
                    exact stores _
                  · exact ⟨verifyStored_ok verified, stores _⟩

end Server

end HttpFs.GoProvider
