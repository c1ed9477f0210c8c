import HttpFs.Client.OkOperations
import HttpFs.Jsmn.Openings

namespace HttpFs

open Routine ClientM

variable {σ : Type}

/-- A body that came with status 200, as the C string the tokenizer gets. -/
def AcceptedBody (state : ClientState σ) (json : Bytes) : Prop :=
  ∃ exchange ∈ state.exchanges, ∃ reply, exchange.outcome.reply = some reply ∧
    reply.statusCode = 200 ∧ json = cString reply.response

/-- The runs of the tokenizer are those on the accepted bodies, the empty one left
aside. -/
structure Tokenised (declared : Nat) (state : ClientState σ) : Prop where
  sound : ∀ run ∈ state.tokenRuns, run.declared = declared ∧
    ∃ json, AcceptedBody state json ∧
      run.stored = (jsmnParse OK_RESPONSE_TOKENS json).parser.tokens.length
  complete : ∀ json, AcceptedBody state json → json = [] ∨
    ∃ run ∈ state.tokenRuns,
      run.stored = (jsmnParse OK_RESPONSE_TOKENS json).parser.tokens.length

theorem acceptedBody_append {state : ClientState σ} {added : List Exchange}
    {json : Bytes} :
    AcceptedBody { state with exchanges := state.exchanges ++ added } json ↔
      AcceptedBody state json ∨ ∃ exchange ∈ added, ∃ reply,
        exchange.outcome.reply = some reply ∧ reply.statusCode = 200 ∧
          json = cString reply.response := by
  constructor
  · intro accepted
    obtain ⟨exchange, member, rest⟩ := accepted
    obtain old | new := List.mem_append.mp member
    · exact .inl ⟨exchange, old, rest⟩
    · exact .inr ⟨exchange, new, rest⟩
  · intro accepted
    obtain ⟨exchange, member, rest⟩ | ⟨exchange, member, rest⟩ := accepted
    · exact ⟨exchange, List.mem_append_left _ member, rest⟩
    · exact ⟨exchange, List.mem_append_right _ member, rest⟩

theorem Tokenised.congr {declared : Nat} {before after : ClientState σ}
    (tokenised : Tokenised declared before) (exchanges : after.exchanges = before.exchanges)
    (tokenRuns : after.tokenRuns = before.tokenRuns) : Tokenised declared after := by
  have same : ∀ json, AcceptedBody after json ↔ AcceptedBody before json := by
    intro json
    simp [AcceptedBody, exchanges]
  constructor
  · intro run member
    obtain ⟨isDeclared, json, accepted, stored⟩ :=
      tokenised.sound run (tokenRuns ▸ member)
    exact ⟨isDeclared, json, (same json).mpr accepted, stored⟩
  · intro json accepted
    rw [tokenRuns]
    exact tokenised.complete json ((same json).mp accepted)

theorem Tokenised.gaveUp {declared : Nat} {before after : ClientState σ}
    (tokenised : Tokenised declared before) (gaveUp : GaveUp Unparsed before after) :
    Tokenised declared after := by
  obtain ⟨errnoValue, message, added, _, _, unparsed, host, rfl⟩ := gaveUp
  have extended : Tokenised declared
      { before with exchanges := before.exchanges ++ added } := by
    constructor
    · intro run member
      obtain ⟨isDeclared, json, accepted, stored⟩ := tokenised.sound run member
      exact ⟨isDeclared, json, acceptedBody_append.mpr (.inl accepted), stored⟩
    · intro json accepted
      obtain old | ⟨exchange, member, reply, outcome, isOk, rfl⟩ :=
        acceptedBody_append.mp accepted
      · exact tokenised.complete json old
      · obtain notOk | silent := unparsed exchange member reply outcome
        · exact absurd isOk notOk
        · exact .inl (by simp [silent, cString])
  exact extended.congr rfl rfl

theorem Tokenised.parsed {declared : Nat} {before after : ClientState σ} {json : Bytes}
    (tokenised : Tokenised declared before) (parsed : Parsed declared before json after) :
    Tokenised declared after := by
  obtain ⟨exchange, reply, outcome, isOk, rfl, host, rfl⟩ := parsed
  have extended : Tokenised declared
      { before with
        exchanges := before.exchanges ++ [exchange]
        tokenRuns := before.tokenRuns ++
          [⟨declared, (jsmnParse OK_RESPONSE_TOKENS
            (cString reply.response)).parser.tokens.length⟩] } := by
    constructor
    · intro run member
      obtain old | new := List.mem_append.mp member
      · obtain ⟨isDeclared, found, accepted, stored⟩ := tokenised.sound run old
        exact ⟨isDeclared, found, acceptedBody_append.mpr (.inl accepted), stored⟩
      · obtain rfl := List.mem_singleton.mp new
        exact ⟨rfl, _, acceptedBody_append.mpr
          (.inr ⟨exchange, by simp, reply, outcome, isOk, rfl⟩), rfl⟩
    · intro found accepted
      obtain old | ⟨other, member, reply', outcome', _, rfl⟩ :=
        acceptedBody_append.mp accepted
      · obtain empty | ⟨run, member, stored⟩ := tokenised.complete found old
        · exact .inl empty
        · exact .inr ⟨run, List.mem_append_left _ member, stored⟩
      · obtain rfl := List.mem_singleton.mp member
        obtain rfl : reply = reply' := Option.some.inj (outcome.symm.trans outcome')
        exact .inr ⟨_, List.mem_append_right _ (List.mem_singleton_self _), rfl⟩
  exact extended.congr rfl rfl

end HttpFs
