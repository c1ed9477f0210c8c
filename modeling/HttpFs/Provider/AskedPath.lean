import HttpFs.Provider.GuardedWrite
import HttpFs.Provider.Requests
import Mathlib.Tactic.NthRewrite

namespace HttpFs

def isParameter (key segment : Bytes) : Bool := (key ++ [byte '=']).isPrefixOf segment

/-- The value of the first parameter of a query with the name `key`, as it is encoded. -/
def parameter (key query : Bytes) : Option Bytes :=
  ((query.splitOn (byte '&')).find? (isParameter key)).map fun segment =>
    segment.drop (key.length + 1)

namespace CProvider

inductive CarriesQuery (request : RequestContext) : Prop where
  | getMeta (isGet : request.method = ascii "GET") (isPath : request.path = ascii "/v1/meta")
  | list (isGet : request.method = ascii "GET") (isPath : request.path = ascii "/v1/list")
  | read (isGet : request.method = ascii "GET") (isPath : request.path = ascii "/v1/read")
  | write (isPost : request.method = ascii "POST") (isPath : request.path = ascii "/v1/write")

section Handlers

variable {κ : Type} {request : RequestContext}

theorem CarriesQuery.short (carries : CarriesQuery request) : request.method.length < 7 := by
  cases carries with
  | getMeta isGet | list isGet | read isGet =>
      rw [isGet]
      decide
  | write isPost =>
      rw [isPost]
      decide

variable {kernel other : Kernel κ} {localPath : Bytes}

end Handlers

end CProvider

end HttpFs
