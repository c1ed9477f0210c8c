import HttpFs.Jsmn.Openings

namespace HttpFs

/-! What the tokenizer leaves alone: a token that is stored stays, and so does its end
once it is known. -/

structure JsmnToken.Becomes (token later : JsmnToken) : Prop where
  type : later.type = token.type
  start : later.start = token.start
  parent : later.parent = token.parent
  stop : ∀ stop, token.stop = some stop → later.stop = some stop

theorem JsmnToken.Becomes.refl (token : JsmnToken) : token.Becomes token :=
  ⟨rfl, rfl, rfl, fun _ stop => stop⟩

theorem JsmnToken.Becomes.trans {first second third : JsmnToken}
    (becomes : first.Becomes second) (next : second.Becomes third) : first.Becomes third :=
  ⟨next.type.trans becomes.type, next.start.trans becomes.start,
    next.parent.trans becomes.parent, fun stop ends => next.stop stop (becomes.stop stop ends)⟩

theorem JsmnToken.Becomes.closed {token later : JsmnToken} (becomes : token.Becomes later)
    {stop : Nat} (closed : token.stop = some stop) : later = token := by
  obtain ⟨type, start, isStop, parent⟩ := later
  cases becomes.type
  cases becomes.start
  cases becomes.parent
  obtain rfl : isStop = some stop := becomes.stop stop closed
  rw [← closed]

def Grows (tokens later : List JsmnToken) : Prop :=
  ∀ (index : Nat) (token : JsmnToken), tokens[index]? = some token →
    ∃ kept, later[index]? = some kept ∧ token.Becomes kept

namespace Grows

variable {tokens later : List JsmnToken}

theorem refl (tokens : List JsmnToken) : Grows tokens tokens :=
  fun _ token found => ⟨token, found, .refl token⟩

theorem trans {latest : List JsmnToken} (grows : Grows tokens later)
    (next : Grows later latest) : Grows tokens latest := by
  intro index token found
  obtain ⟨kept, keptFound, becomes⟩ := grows index token found
  obtain ⟨last, lastFound, becomesLast⟩ := next index kept keptFound
  exact ⟨last, lastFound, becomes.trans becomesLast⟩

theorem append (tokens added : List JsmnToken) : Grows tokens (tokens ++ added) := by
  intro index token found
  obtain ⟨inside, _⟩ := List.getElem?_eq_some_iff.mp found
  exact ⟨token, by rw [List.getElem?_append_left inside, found], .refl token⟩

theorem set {index : Nat} {token changed : JsmnToken} (found : tokens[index]? = some token)
    (becomes : token.Becomes changed) : Grows tokens (tokens.set index changed) := by
  intro other kept keptFound
  by_cases same : index = other
  · subst same
    rw [found, Option.some.injEq] at keptFound
    subst keptFound
    obtain ⟨inside, _⟩ := List.getElem?_eq_some_iff.mp found
    exact ⟨changed, by simp [inside], becomes⟩
  · exact ⟨kept, by rw [List.getElem?_set_ne same, keptFound], .refl kept⟩

theorem cons {token : JsmnToken} (grows : Grows (token :: tokens) later) :
    ∃ kept rest, later = kept :: rest ∧ token.Becomes kept ∧ Grows tokens rest := by
  obtain ⟨kept, found, becomes⟩ := grows 0 token rfl
  cases later with
  | nil => contradiction
  | cons head rest =>
      obtain rfl : head = kept := Option.some.inj found
      exact ⟨head, rest, rfl, becomes, fun index token found => grows (index + 1) token found⟩

end Grows

theorem jsmnAllocToken_grows {numTokens : Nat} {parser next : JsmnParser} {token : JsmnToken}
    (allocated : jsmnAllocToken numTokens parser token = .ok next) :
    Grows parser.tokens next.tokens := by
  simp only [jsmnAllocToken] at allocated
  split at allocated
  · contradiction
  · cases allocated
    exact .append _ _

theorem jsmnStep_grows {numTokens skip : Nat} {parser next : JsmnParser} {c : UInt8}
    {rest : Bytes} (stepped : jsmnStep numTokens parser c rest = .ok (next, skip)) :
    Grows parser.tokens next.tokens := by
  have ofAlloc {token : JsmnToken} {result : JsmnParser → JsmnParser × Nat}
      (same : ∀ allocated, (result allocated).1.tokens = allocated.tokens)
      (mapped : (jsmnAllocToken numTokens parser token).map result = .ok (next, skip)) :
      Grows parser.tokens next.tokens := by
    cases allocated : jsmnAllocToken numTokens parser token with
    | error error => simp [allocated, Except.map] at mapped
    | ok grown =>
        simp only [allocated, Except.map, Except.ok.injEq] at mapped
        have isNext := same grown
        rw [mapped] at isNext
        exact isNext ▸ jsmnAllocToken_grows allocated
  simp only [jsmnStep] at stepped
  split at stepped
  · exact ofAlloc (fun _ => rfl) stepped
  · split at stepped
    · contradiction
    · next index token found =>
      split at stepped
      · cases stepped
        obtain ⟨before, after, split, length, isOpen, _⟩ := innermostOpen_split found
        have isFound : parser.tokens[index]? = some token := by
          rw [split, ← length]
          simp
        refine .set isFound ⟨rfl, rfl, rfl, ?_⟩
        intro stop closed
        simp [isOpen] at closed
      · contradiction
  · split at stepped
    · simp only [jsmnParseString] at stepped
      split at stepped
      · contradiction
      · exact ofAlloc (fun _ => rfl) stepped
    · split at stepped
      · cases stepped
        exact .refl _
      · simp only [jsmnParsePrimitive] at stepped
        split at stepped
        · contradiction
        · exact ofAlloc (fun _ => rfl) stepped

theorem jsmnLoop_grows {numTokens : Nat} (text : Bytes) (skip : Nat) (parser : JsmnParser) :
    Grows parser.tokens (jsmnLoop numTokens text skip parser).parser.tokens := by
  induction text generalizing skip parser with
  | nil => exact .refl _
  | cons c rest induction =>
      cases skip with
      | succ skip => exact induction skip { parser with pos := parser.pos + 1 }
      | zero =>
          simp only [jsmnLoop]
          cases stepped : jsmnStep numTokens parser c rest with
          | error error => exact .refl _
          | ok result =>
              exact (jsmnStep_grows stepped).trans
                (induction result.2 { result.1 with pos := parser.pos + 1 })

theorem jsmnLoop_closed {numTokens : Nat} {text : Bytes} {skip : Nat} {parser : JsmnParser}
    (noError : (jsmnLoop numTokens text skip parser).error = none) :
    ∀ token ∈ (jsmnLoop numTokens text skip parser).parser.tokens, token.stop ≠ none := by
  induction text generalizing skip parser with
  | nil =>
      simp only [jsmnLoop] at noError ⊢
      cases innermost : innermostOpen parser.tokens with
      | none => exact innermostOpen_eq_none.mp innermost
      | some found => simp [innermost] at noError
  | cons c rest induction =>
      cases skip with
      | succ skip => exact induction noError
      | zero =>
          obtain ⟨next, skip, _, continues⟩ := jsmnLoop_stepped noError
          rw [continues] at noError ⊢
          exact induction noError

end HttpFs
