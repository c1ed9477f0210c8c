import Mathlib.Algebra.Order.BigOperators.Group.List
import Mathlib.Algebra.Order.Group.Nat
import HttpFs.EndToEnd.Serving
import HttpFs.Client.Transfer
import HttpFs.Provider.Segmentation
import HttpFs.Provider.Wire

namespace HttpFs

open CProvider HttpMessage

variable {κ : Type}

/-! Requests and replies on the network between the client's library and the provider. -/

section Requests

variable {method target body : Bytes} {lines : List Bytes}

theorem requestMessage_split (method target : Bytes) (lines : List Bytes) (body : Bytes) :
    requestMessage method target lines body =
      requestMessage method target lines [] ++ body := by
  simp [requestMessage]

theorem message_head (method target : Bytes) (lines : List Bytes) :
    requestMessage method target lines [] =
      method ++ ascii " " ++ target ++ ascii " HTTP/1.1" ++
        (crlf ++ ((lines.map fun line => line ++ crlf).flatten ++ crlf)) := by
  simp [requestMessage]

theorem isHead_message (isMethod : Word 7 method) (isTarget : Word 2047 target)
    (plain : ∀ line ∈ lines, PlainLine line) :
    IsHead (requestMessage method target lines []) := by
  rw [message_head]
  obtain ⟨line, isLine⟩ : ∃ line, line = method ++ ascii " " ++ target ++ ascii " HTTP/1.1" :=
    ⟨_, rfl⟩
  have blank : ∀ word : Bytes, (∀ c ∈ word, isSpace c = false) → byte '\r' ∉ word :=
    fun word noSpace member => absurd (noSpace _ member) (by decide)
  have noCr : byte '\r' ∉ line := by
    simp only [isLine, List.mem_append, not_or]
    exact ⟨⟨⟨blank _ isMethod.noSpace, by decide⟩, blank _ isTarget.noSpace⟩, by decide⟩
  have noNul : 0 ∉ line := by
    simp only [isLine, List.mem_append, not_or]
    exact ⟨⟨⟨isMethod.noNul, by decide⟩, isTarget.noNul⟩, by decide⟩
  have reframed : line ++ (crlf ++ ((lines.map fun line => line ++ crlf).flatten ++ crlf)) =
      line ++ (lines.map fun line => crlf ++ line).flatten ++ headEnd := by
    rw [← List.append_assoc crlf, crlf_flatten]
    simp [headEnd, crlf, ascii]
  rw [← isLine]
  constructor
  · simp only [List.mem_append, List.mem_flatten, List.mem_map, not_or]
    refine ⟨noNul, by decide, ?_, by decide⟩
    rintro ⟨_, ⟨other, member, rfl⟩, inside⟩
    obtain inLine | inEnd := List.mem_append.mp inside
    · exact (plain other member).noNul inLine
    · exact absurd inEnd (by decide)
  · rw [reframed, strstr_append (avoids_headEnd noCr plain),
      strstr_leading (List.prefix_refl headEnd)]

theorem declaredLength_message (noColon : byte ':' ∉ method ++ target)
    (declared : DeclaresLength lines body) (bound : (body.length : Int) ≤ longMax) :
    declaredLength (requestMessage method target lines []) = body.length := by
  rw [declaredLength, message_head]
  obtain ⟨line, isLine⟩ : ∃ line, line = method ++ ascii " " ++ target ++ ascii " HTTP/1.1" :=
    ⟨_, rfl⟩
  have colon : byte ':' ∈ contentLengthName := by decide
  have absent : ¬ contentLengthName <:+: line := by
    intro inside
    have member := inside.subset colon
    simp only [List.mem_append, not_or] at noColon
    simp only [isLine, List.mem_append] at member
    obtain ((inMethod | inBlank) | inTarget) | inVersion := member
    · exact noColon.1 inMethod
    · exact absurd inBlank (by decide)
    · exact noColon.2 inTarget
    · exact absurd inVersion (by decide)
  have inLine (rest : Bytes) : Avoids contentLengthName line (crlf ++ rest) :=
    avoids_of_not_infix (show byte '\r' ∉ contentLengthName by decide) absent
  have inEnd (rest : Bytes) : Avoids contentLengthName crlf rest :=
    avoids_of_not_mem (by decide)
  rw [← isLine]
  obtain single | ⟨none, rfl⟩ := declared
  · obtain ⟨front, back, rfl, others, _, _⟩ := List.filter_eq_cons_iff.mp single
    have text : line ++ (crlf ++ (((front ++ (contentLengthName ++ ascii " " ++
        decimal body.length) :: back).map fun line => line ++ crlf).flatten ++ crlf)) =
          line ++ (crlf ++ ((front.map fun line => line ++ crlf).flatten ++
            (contentLengthName ++ (byte ' ' :: (decimal body.length ++ (crlf ++
              ((back.map fun line => line ++ crlf).flatten ++ crlf))))))) := by
      simp [ascii]
    have found : strstr contentLengthName (line ++ (crlf ++ ((front.map fun line =>
        line ++ crlf).flatten ++ (contentLengthName ++ (byte ' ' :: (decimal body.length ++
          (crlf ++ ((back.map fun line => line ++ crlf).flatten ++ crlf)))))))) =
            some (contentLengthName ++ (byte ' ' :: (decimal body.length ++
              (crlf ++ ((back.map fun line => line ++ crlf).flatten ++ crlf))))) := by
      rw [strstr_append (inLine _), strstr_append (inEnd _),
        strstr_append (avoids_contentLength (by simpa using others)),
        strstr_leading (List.prefix_append _ _)]
    have ends : EndsNumeral (crlf ++ ((back.map fun line => line ++ crlf).flatten ++ crlf)) := by
      intro b first
      obtain rfl : byte '\r' = b := by simpa [crlf, ascii] using first
      decide
    have isLength := strtol_decimal bound ends
    have nameLength : contentLengthName.length = 15 := rfl
    have endLength : headEnd.length = 4 := rfl
    rw [text, headLength, found]
    simp only [List.drop_left]
    rw [if_pos, strtol_blank (by decide), isLength]
    simp only [List.length_append, List.length_cons, nameLength, endLength]
    omega
  · have others : ∀ other ∈ lines, containsText contentLengthName other = false := by
      simpa using none
    have nowhere : strstr contentLengthName crlf = Option.none := by decide
    simp only [headLength, strstr_append (inLine _), strstr_append (inEnd _),
      strstr_append (avoids_contentLength others), nowhere]
    rfl

end Requests

/-- The requests that the client makes: a short target, a few short header lines, and a
body of one chunk at most. -/
def isModest (baseUrl : Bytes) (request : HttpRequest) : Bool :=
  let endpoint := request.url.drop baseUrl.length
  endpoint ≠ [] && endpoint.all isTargetByte && endpoint.length < 1024 &&
    request.headers.length ≤ 3 && request.headers.all (fun line => line.length < 128) &&
    request.body.length ≤ HTTPFS_WRITE_CHUNK_SIZE

/-- What lies between the two: how a request arrives at the provider, how the calls of
`send` for its reply end, and what the library makes of all that it receives. -/
structure Network (κ : Type) where
  turns : HttpRequest → Host κ → List Turn
  sends : HttpRequest → Host κ → List SysReturn
  receive : Bytes → PerformOutcome

/-- A connection of its own for one request, up to its end. -/
def exchange (kernel : Kernel κ) (rootDir : Bytes) (network : Network κ)
    (request : HttpRequest) (host : Host κ) : PerformOutcome × Host κ :=
  let sends := network.sends request host
  match serveConnection .start (network.turns request host) with
  | .dispatched conn =>
      let (reply, after) := processRequestBuffer kernel rootDir conn.buffer host
      (network.receive (reply.sent sends), after)
  | .refused reply => (network.receive (reply.sent sends), host)
  | .waiting _ | .closed => (network.receive [], host)

def wireCurl (kernel : Kernel κ) (rootDir : Bytes) (network : Network κ) : Curl (Host κ) where
  easyInit := fun host => (true, host)
  malloc := fun _ host => (true, host)
  easyEscape := fun text host => (some (percentEncode text), host)
  easyPerform := exchange kernel rootDir network

section Exchanges

variable {kernel : Kernel κ} {rootDir baseUrl endpoint : Bytes} {network : Network κ}
  {request : HttpRequest}

theorem word_method (request : HttpRequest) : Word 7 request.method := by
  unfold HttpRequest.method
  split <;> exact ⟨by decide, by decide, by decide, by decide⟩

theorem isRequest_modest {lines : List Bytes} (isUrl : request.url = baseUrl ++ endpoint)
    (modest : isModest baseUrl request = true) (carries : Carries request lines)
    (room : (lines.map fun line => line ++ crlf).flatten.length ≤ 65536) :
    IsRequest (requestMessage request.method endpoint lines []) request.body := by
  simp only [isModest, isUrl, List.drop_left, Bool.and_eq_true, decide_eq_true_eq] at modest
  obtain ⟨⟨⟨⟨⟨nonempty, bytes⟩, short⟩, _⟩, _⟩, bodyShort⟩ := modest
  have isMethod := word_method request
  have methodLength := isMethod.fits
  have noColon : byte ':' ∉ request.method ++ endpoint := by
    simp only [List.mem_append, not_or]
    constructor
    · unfold HttpRequest.method
      split <;> decide
    · intro member
      exact absurd (List.all_eq_true.mp bytes _ member) (by decide)
  have small : (request.body.length : Int) ≤ longMax := by
    simp only [HTTPFS_WRITE_CHUNK_SIZE] at bodyShort
    simp only [longMax]
    omega
  refine ⟨isHead_message isMethod (word_of_target nonempty bytes short) carries.plain,
    declaredLength_message noColon carries.length small, ?_⟩
  have blank : (ascii " ").length = 1 := rfl
  have version : (ascii " HTTP/1.1").length = 9 := rfl
  have lineEnd : crlf.length = 2 := rfl
  rw [message_head]
  simp only [List.length_append, blank, version, lineEnd]
  simp only [HTTPFS_WRITE_CHUNK_SIZE] at bodyShort
  simp only [SERVER_MAX_REQUEST_SIZE]
  omega

end Exchanges

/-! A network that carries single bytes, and a library that reads messages. -/

theorem arrived_bytes (text : Bytes) : arrived (text.map fun b => .bringing [b]) = text := by
  induction text with
  | nil => rfl
  | cons b text induction =>
      simp only [arrived, List.map_cons, List.flatten_cons] at induction ⊢
      rw [induction]
      rfl

def replyStatus (lines : List Bytes) : Int :=
  (strtol ((lines.headD []).drop (ascii "HTTP/1.1 ").length)).value

/-- What a library makes of all that it receives before a connection is closed. -/
def readMessage (text : Bytes) : PerformOutcome :=
  match HttpMessage.read text with
  | .incomplete => .failed (ascii "Server returned nothing (no headers, no data)")
  | .cut _ _ _ => .failed (ascii "transfer closed with outstanding read data remaining")
  | .undeclared lines body | .whole lines body =>
      .received (replyStatus lines) ((lines ++ [[]]).map fun line => line ++ crlf) [body]

theorem receives_readMessage (reply : HttpReply) (framed : Framed reply) :
    ∃ chunks, chunks.flatten = reply.body ∧
      readMessage (reply.headers.flatten ++ reply.body) =
        .received 200 reply.headers chunks := by
  obtain ⟨lines, isHead, isHeaders, isStatus, areLines, declares⟩ := framed.message
  have whole := read_whole areLines declares []
  rw [List.append_nil] at whole
  have status : replyStatus lines = 200 := by
    rw [replyStatus, List.headD_eq_head?_getD, isStatus]
    decide
  refine ⟨[reply.body], List.flatten_singleton, ?_⟩
  rw [isHead, readMessage, whole, isHeaders]
  simp only [status]

theorem directLines_short {baseUrl : Bytes} {request : HttpRequest}
    (modest : isModest baseUrl request = true) :
    ((directLines request).map fun line => line ++ crlf).flatten.length ≤ 65536 := by
  simp only [isModest, Bool.and_eq_true, decide_eq_true_eq, List.all_eq_true] at modest
  obtain ⟨⟨⟨_, count⟩, short⟩, bodyShort⟩ := modest
  have lineEnd : crlf.length = 2 := rfl
  have each : ∀ line ∈ directLines request, (line ++ crlf).length ≤ 130 := by
    intro line member
    simp only [directLines, List.mem_append, List.mem_singleton] at member
    rw [List.length_append, lineEnd]
    obtain (rfl | inside) | last := member
    · decide
    · have shorter := short line (List.mem_filter.mp inside).1
      omega
    · split at last
      · cases last
      · next post isPost =>
        obtain rfl := List.mem_singleton.mp last
        have isBody : request.body = post.fields := by
          simp only [HttpRequest.body, isPost]
        have bound : post.fields.length < 10 ^ 7 := by
          rw [← isBody]
          simp only [HTTPFS_WRITE_CHUNK_SIZE] at bodyShort
          omega
        have digits := length_decimal_le bound (by decide)
        have name : (contentLengthName ++ ascii " ").length = 16 := rfl
        rw [List.length_append, name]
        omega
  have lines : (directLines request).length ≤ 5 := by
    have kept := List.length_filter_le (fun line => line != ascii "Expect:") request.headers
    simp only [directLines, List.length_append, List.length_singleton]
    split <;> simp <;> omega
  rw [List.length_flatten, List.map_map]
  have total : ((directLines request).map (List.length ∘ fun line => line ++ crlf)).sum ≤
      (directLines request).length * 130 := by
    have most := List.sum_le_card_nsmul
      ((directLines request).map (List.length ∘ fun line => line ++ crlf)) 130 (by
        intro length member
        obtain ⟨line, inside, rfl⟩ := List.mem_map.mp member
        exact each line inside)
    simpa using most
  omega

end HttpFs
