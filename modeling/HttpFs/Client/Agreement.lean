import HttpFs.Client.Transfer

namespace HttpFs

open Routine ClientM

variable {σ : Type}

/-! Libraries that treat the requests of a client alike. -/

/-- Every request of a call is among those. -/
def AllWithin (asked : HttpRequest → Prop) (client : HttpfsClient) (method : HttpMethod)
    (endpoint : Bytes) (body contentType contentMd5 : Option Bytes) : Prop :=
  ∀ request, requestFor client method endpoint body contentType contentMd5 = .ok request →
    asked request

section Calls

variable {asked : HttpRequest → Prop} {first second : Curl σ} {client : HttpfsClient}
  {method : HttpMethod} {endpoint : Bytes} {body contentType contentMd5 : Option Bytes}

end Calls

end HttpFs
