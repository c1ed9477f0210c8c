import HttpFs.Jsmn.Tokenizer

namespace HttpFs

theorem innermostOpen_eq_none {tokens : List JsmnToken} :
    innermostOpen tokens = none ↔ ∀ token ∈ tokens, token.stop ≠ none := by
  induction tokens with
  | nil => simp [innermostOpen]
  | cons head tail induction =>
      cases found : innermostOpen tail with
      | some result =>
          have someOpen : ¬ ∀ token ∈ tail, token.stop ≠ none := by
            rw [← induction, found]
            simp
          simp only [innermostOpen, found, List.mem_cons, forall_eq_or_imp, reduceCtorEq,
            false_iff, not_and]
          exact fun _ => someOpen
      | none =>
          have allClosed := induction.mp found
          simp only [innermostOpen, found, List.mem_cons, forall_eq_or_imp]
          by_cases headOpen : head.stop = none
          · simp [headOpen]
          · simp only [headOpen, if_false, true_iff, ne_eq, not_false_eq_true, true_and]
            exact allClosed

theorem innermostOpen_append {before after : List JsmnToken} {token : JsmnToken}
    (tokenOpen : token.stop = none) (afterClosed : ∀ t ∈ after, t.stop ≠ none) :
    innermostOpen (before ++ token :: after) = some (before.length, token) := by
  induction before with
  | nil => simp [innermostOpen, innermostOpen_eq_none.mpr afterClosed, tokenOpen]
  | cons head tail induction => simp [innermostOpen, induction]

theorem innermostOpen_split {tokens : List JsmnToken} {index : Nat} {token : JsmnToken}
    (found : innermostOpen tokens = some (index, token)) :
    ∃ before after, tokens = before ++ token :: after ∧ before.length = index ∧
      token.stop = none ∧ ∀ t ∈ after, t.stop ≠ none := by
  induction tokens generalizing index with
  | nil => simp [innermostOpen] at found
  | cons head tail induction =>
      cases inTail : innermostOpen tail with
      | some result =>
          simp only [innermostOpen, inTail, Option.some.injEq, Prod.mk.injEq] at found
          obtain ⟨indexEq, tokenEq⟩ := found
          obtain ⟨before, after, split, length, tokenOpen, closed⟩ :=
            induction (inTail.trans (congrArg some (Prod.ext rfl tokenEq)))
          refine ⟨head :: before, after, ?_, ?_, tokenOpen, closed⟩
          · rw [split, List.cons_append]
          · rw [List.length_cons, length, indexEq]
      | none =>
          simp only [innermostOpen, inTail] at found
          split at found
          · next headOpen =>
            cases found
            exact ⟨[], tail, rfl, rfl, headOpen, innermostOpen_eq_none.mp inTail⟩
          · contradiction

def openBrackets (tokens : List JsmnToken) : List JsmnType :=
  ((tokens.filter fun token => token.stop == none).map fun token => token.type).reverse

@[simp] theorem openBrackets_append_open (tokens : List JsmnToken)
    (type : JsmnType) (start : Nat) (parent : Option Nat) :
    openBrackets (tokens ++ [⟨type, start, none, parent⟩]) = type :: openBrackets tokens := by
  simp [openBrackets, List.filter_append]

@[simp] theorem openBrackets_append_closed (tokens : List JsmnToken)
    (type : JsmnType) (start stop : Nat) (parent : Option Nat) :
    openBrackets (tokens ++ [⟨type, start, some stop, parent⟩]) = openBrackets tokens := by
  simp [openBrackets, List.filter_append]

theorem openBrackets_innermost {before after : List JsmnToken} {token : JsmnToken}
    (tokenOpen : token.stop = none) (afterClosed : ∀ t ∈ after, t.stop ≠ none) :
    openBrackets (before ++ token :: after) = token.type :: openBrackets before := by
  simpa [openBrackets, List.filter_append, tokenOpen] using afterClosed

theorem openBrackets_close {before after : List JsmnToken} {token : JsmnToken}
    (tokenClosed : token.stop ≠ none) (afterClosed : ∀ t ∈ after, t.stop ≠ none) :
    openBrackets (before ++ token :: after) = openBrackets before := by
  simpa [openBrackets, List.filter_append, tokenClosed] using afterClosed

theorem openBrackets_eq_nil {tokens : List JsmnToken}
    (closed : innermostOpen tokens = none) : openBrackets tokens = [] := by
  simpa [openBrackets] using innermostOpen_eq_none.mp closed

/-- How many tokens a text opens inside the given open brackets: every bracket,
string literal and primitive counts, up to the end of the text or the first byte
at which it is malformed (a closing bracket that does not match the innermost open
one, an unterminated or ill-escaped string, a primitive with a byte that is not
printable ASCII). -/
def openings : List JsmnType → Nat → Bytes → Nat
  | _, _, [] => 0
  | brackets, skip + 1, _ :: rest => openings brackets skip rest
  | brackets, 0, c :: rest =>
      match opens c, closes c with
      | some type, _ => 1 + openings (type :: brackets) 0 rest
      | none, some type =>
          if brackets.head? = some type then openings brackets.tail 0 rest else 0
      | none, none =>
          if c = byte '"' then
            match stringLength .plain rest with
            | .error _ => 0
            | .ok length => 1 + openings brackets (length + 1) rest
          else if isSeparator c then
            openings brackets 0 rest
          else
            match primitiveLength (c :: rest) with
            | none => 0
            | some length => 1 + openings brackets (length - 1) rest

/-- What one turn of the loop adds, against what the text opens at that byte. -/
private theorem stored_after_alloc {numTokens stored more total : Nat}
    (room : stored ≤ numTokens)
    (full : numTokens ≤ stored → total = stored)
    (grown : stored < numTokens → total = min numTokens (stored + 1 + more)) :
    total = min numTokens (stored + (1 + more)) := by
  rcases Nat.lt_or_ge stored numTokens with notFull | isFull
  · rw [grown notFull]
    omega
  · rw [full isFull]
    omega

/-- The tokenizer stores one token for each opening of the text, until its array
is full. -/
theorem jsmnLoop_stored {numTokens : Nat} (text : Bytes) (skip : Nat)
    (parser : JsmnParser) (room : parser.tokens.length ≤ numTokens) :
    (jsmnLoop numTokens text skip parser).parser.tokens.length =
      min numTokens
        (parser.tokens.length + openings (openBrackets parser.tokens) skip text) := by
  induction text generalizing skip parser with
  | nil => simp [jsmnLoop, openings, Nat.min_eq_right room]
  | cons c rest induction =>
      cases skip with
      | succ skip =>
          simp only [jsmnLoop, openings]
          exact induction skip { parser with pos := parser.pos + 1 } room
      | zero =>
          simp only [jsmnLoop, jsmnStep, openings]
          cases opened : opens c with
          | some type =>
              apply stored_after_alloc room
              · intro full
                simp only [jsmnAllocToken_full full, Except.map]
              · intro notFull
                simp only [jsmnAllocToken_room notFull, Except.map]
                rw [induction _ _ (by simpa using Nat.succ_le_of_lt notFull)]
                simp
          | none =>
              cases closed : closes c with
              | some type =>
                  cases found : innermostOpen parser.tokens with
                  | none => simp [openBrackets_eq_nil found, Nat.min_eq_right room]
                  | some result =>
                      obtain ⟨index, token⟩ := result
                      obtain ⟨before, after, split, length, tokenOpen, afterClosed⟩ :=
                        innermostOpen_split found
                      have brackets : openBrackets parser.tokens =
                          token.type :: openBrackets before := by
                        rw [split, openBrackets_innermost tokenOpen afterClosed]
                      have replaced : parser.tokens.set index
                          { token with stop := some (parser.pos + 1) } =
                          before ++ { token with stop := some (parser.pos + 1) } :: after := by
                        rw [split, ← length]
                        simp
                      by_cases same : token.type = type
                      · simp only [same, if_true, brackets, List.head?_cons, List.tail_cons]
                        rw [induction _ _ (by simpa using room)]
                        simp only [← same, replaced]
                        rw [openBrackets_close (by simp) afterClosed, split]
                        simp
                      · simp [same, brackets, Nat.min_eq_right room]
              | none =>
                  by_cases quoted : c = byte '"'
                  · simp only [quoted, if_true, jsmnParseString]
                    cases scanned : stringLength .plain rest with
                    | error error => simp [Nat.min_eq_right room]
                    | ok length =>
                        apply stored_after_alloc room
                        · intro full
                          simp only [jsmnAllocToken_full full, Except.map]
                        · intro notFull
                          simp only [jsmnAllocToken_room notFull, Except.map]
                          rw [induction _ _ (by simpa using Nat.succ_le_of_lt notFull)]
                          simp
                  · simp only [quoted, if_false]
                    cases separator : isSeparator c with
                    | true => exact induction 0 { parser with pos := parser.pos + 1 } room
                    | false =>
                        simp only [jsmnParsePrimitive, Bool.false_eq_true, if_false]
                        cases scanned : primitiveLength (c :: rest) with
                        | none => simp [Nat.min_eq_right room]
                        | some length =>
                            apply stored_after_alloc room
                            · intro full
                              simp only [jsmnAllocToken_full full, Except.map]
                            · intro notFull
                              simp only [jsmnAllocToken_room notFull, Except.map]
                              rw [induction _ _ (by simpa using Nat.succ_le_of_lt notFull)]
                              simp

theorem jsmnParse_stored (numTokens : Nat) (text : Bytes) :
    (jsmnParse numTokens text).parser.tokens.length =
      min numTokens (openings [] 0 text) := by
  rw [jsmnParse, jsmnLoop_stored text 0 jsmnInit (Nat.zero_le _)]
  simp [jsmnInit, openBrackets]

end HttpFs
