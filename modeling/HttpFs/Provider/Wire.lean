import HttpFs.Provider.ReplyShapes
import HttpFs.Provider.Requests

namespace HttpFs.CProvider

open HttpMessage Region

variable {κ : Type}

/-! Replies as bytes on a connection. -/

/-- `send_all`: what the calls of `send` take, up to one that fails or takes nothing. -/
def sendAll (data : Bytes) (sends : List SysReturn) : Bytes × List SysReturn :=
  let outcome := FullTransfer.run (fun _ => false) data.length (fun sent => data.length - sent)
    (fun sent n wire => wire ++ slice data sent n) sends 0 []
  (outcome.state, outcome.returns)

/-- The two calls of `send_all` for a reply: the second is made however the first ended. -/
def HttpReply.sent (reply : HttpReply) (sends : List SysReturn) : Bytes :=
  let (head, rest) := sendAll reply.headers.flatten sends
  head ++ (sendAll reply.body rest).1

theorem sendAll_prefix (data : Bytes) (sends : List SysReturn) :
    (sendAll data sends).1 <+: data := by
  obtain ⟨sent, ⟨within, isSent⟩, _⟩ :=
    @FullTransfer.run_invariant _ _ (fun _ => false) data.length
      (fun sent => data.length - sent) (fun sent n wire => wire ++ slice data sent n) sends 0 []
      (fun sent wire => sent ≤ data.length ∧ wire = data.take sent)
      (by
        rintro sent n wire more fits ⟨within, rfl⟩
        exact ⟨by omega, by rw [List.take_add, slice]⟩)
      ⟨Nat.zero_le _, rfl⟩
  change (sendAll data sends).1 = data.take sent at isSent
  rw [isSent]
  exact List.take_prefix sent data

/-- On every connection, what goes out is a part of the head and a part of the body. -/
theorem HttpReply.sent_parts (reply : HttpReply) (sends : List SysReturn) :
    ∃ head body, head <+: reply.headers.flatten ∧ body <+: reply.body ∧
      reply.sent sends = head ++ body :=
  ⟨_, _, sendAll_prefix _ sends, sendAll_prefix _ _, rfl⟩

/-- A reply whose head tells where its body ends. -/
structure Framed (reply : HttpReply) : Prop where
  ok : reply.statusCode = 200
  framed : ∃ lines, reply.headers = headerLines 200 lines ∧
    (∀ line ∈ lines, IsLine line) ∧ lines.findSome? lineLength = some reply.body.length

def statusLine : Bytes := ascii "HTTP/1.1 200 OK"

theorem statusLine_eq : ascii "HTTP/1.1 " ++ signedDecimal 200 ++ ascii " OK" = statusLine := by
  decide

theorem isLine_statusLine : IsLine statusLine := ⟨by decide, by decide, by decide⟩

theorem isLine_close : IsLine (ascii "Connection: close") := ⟨by decide, by decide, by decide⟩

/-- The head of a framed reply is one of a message. -/
theorem Framed.message {reply : HttpReply} (framed : Framed reply) :
    ∃ lines, reply.headers.flatten = headText lines ∧
      reply.headers = (lines ++ [[]]).map (fun line => line ++ crlf) ∧
      lines.head? = some statusLine ∧ (∀ line ∈ lines, IsLine line) ∧
      Declares lines reply.body := by
  obtain ⟨lines, isHead, areLines, declared⟩ := framed.framed
  refine ⟨statusLine :: (lines ++ [ascii "Connection: close"]), ?_, ?_, rfl, ?_, ?_⟩
  · rw [isHead, headerLines, statusLine_eq]
    simp [headText, crlf, lineEnd]
  · rw [isHead, headerLines, statusLine_eq]
    simp
  · intro line member
    simp only [List.mem_cons, List.mem_append, List.not_mem_nil, or_false] at member
    obtain rfl | inside | rfl := member
    · exact isLine_statusLine
    · exact areLines line inside
    · exact isLine_close
  · have notStatus : lineLength statusLine = none := by decide
    rw [Declares, List.findSome?_cons, notStatus]
    simp only [List.findSome?_append, declared, Option.some_or]

theorem isLine_length (n : Nat) : IsLine (ascii "Content-Length: " ++ decimal n) := by
  have digit : ∀ c ∈ decimal n, isDigit c = true := fun c => isDigit_of_mem_decimal
  refine ⟨by simp [ascii], ?_, ?_⟩
  all_goals
    simp only [List.mem_append, not_or]
    exact ⟨by decide, fun member => absurd (digit _ member) (by decide)⟩

theorem lineLength_length (n : Nat) :
    lineLength (ascii "Content-Length: " ++ decimal n) = some n := lineLength_decimal n

theorem framed_sendJson (body : Bytes) : Framed (sendJson 200 body) := by
  refine ⟨rfl, [ascii "Content-Type: application/json; charset=utf-8",
    ascii "Content-Length: " ++ decimal body.length], rfl, ?_, ?_⟩
  · intro line member
    simp only [List.mem_cons, List.not_mem_nil, or_false] at member
    obtain rfl | rfl := member
    · exact ⟨by decide, by decide, by decide⟩
    · exact isLine_length body.length
  · have notType : lineLength (ascii "Content-Type: application/json; charset=utf-8") = none := by
      decide
    simp only [List.findSome?_cons, notType, lineLength_length]
    rfl

theorem framed_sendBinary {body digest : Bytes} (valid : httpfsIsValidMd5Hex digest = true) :
    Framed (sendBinary body digest) := by
  have ordinary : ∀ c ∈ digest, c ≠ byte '\r' ∧ c ≠ byte '\n' := by
    simp only [httpfsIsValidMd5Hex, Bool.and_eq_true, List.all_eq_true] at valid
    intro c member
    have row := of_table (p := fun c => !isLowerHex c || (c != byte '\r' && c != byte '\n'))
      (by decide +kernel) c
    simpa [valid.2 c member] using row
  refine ⟨rfl, [ascii "Content-Type: application/octet-stream",
    ascii "X-HTTPFS-Content-MD5: " ++ digest,
    ascii "Content-Length: " ++ decimal body.length], rfl, ?_, ?_⟩
  · intro line member
    simp only [List.mem_cons, List.not_mem_nil, or_false] at member
    obtain rfl | rfl | rfl := member
    · exact ⟨by decide, by decide, by decide⟩
    · refine ⟨by simp [ascii], ?_, ?_⟩
      · simp only [List.mem_append, not_or]
        exact ⟨by decide, fun inside => (ordinary _ inside).1 rfl⟩
      · simp only [List.mem_append, not_or]
        exact ⟨by decide, fun inside => (ordinary _ inside).2 rfl⟩
    · exact isLine_length body.length
  · have notType : lineLength (ascii "Content-Type: application/octet-stream") = none := by
      decide
    have notMd5 : lineLength (ascii "X-HTTPFS-Content-MD5: " ++ digest) = none := by
      rw [lineLength, if_neg]
      intro isPrefix
      have first : [byte 'C'] <+: ascii "X-HTTPFS-Content-MD5: " ++ digest :=
        (show [byte 'C'] <+: lengthName by decide).trans isPrefix
      exact absurd first (by simp [ascii, byte])
    simp only [List.findSome?_cons, notType, notMd5, lineLength_length]
    rfl

theorem Shape.framed {kernel : Kernel κ} {request : RequestContext} {host : Host κ}
    {reply : HttpReply} (shape : Shape kernel request host reply) : Framed reply := by
  cases shape with
  | failed | described | listed | written | changed => exact framed_sendJson _
  | read buffer notNegative =>
      exact framed_sendBinary (httpfsIsValidMd5Hex_sparseMd5 _ _)

/-- Whatever arrives on a connection, the reply to it frames itself. -/
theorem framed_processRequestBuffer (kernel : Kernel κ) (rootDir buffer : Bytes)
    (host : Host κ) : Framed (processRequestBuffer kernel rootDir buffer host).1 := by
  unfold processRequestBuffer
  split
  · exact framed_sendJson _
  · exact dispatchRequest_shape.framed

end HttpFs.CProvider
