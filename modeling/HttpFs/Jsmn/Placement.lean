import HttpFs.Client.Tokens
import HttpFs.Jsmn.Documents

namespace HttpFs

open Json

namespace Json

def Value.root (pos : Nat) (parent : Option Nat) : Value → JsmnToken
  | .string raw => ⟨.string, pos + 1, some (pos + 1 + raw.length), parent⟩
  | .primitive raw => ⟨.primitive, pos, some (pos + raw.length), parent⟩
  | .array items => ⟨.array, pos, some (pos + (items.text.length + 2)), parent⟩
  | .object members => ⟨.object, pos, some (pos + (members.text.length + 2)), parent⟩

def Value.inner (pos index : Nat) : Value → List JsmnToken
  | .string _ => []
  | .primitive _ => []
  | .array items => items.tokens (pos + 1) (index + 1) (some index)
  | .object members => members.tokens (pos + 1) (index + 1) (some index)

theorem Value.tokens_eq (value : Value) (pos index : Nat) (parent : Option Nat) :
    value.tokens pos index parent = value.root pos parent :: value.inner pos index := by
  cases value <;> simp [Value.tokens, Value.root, Value.inner]

theorem Value.length_inner (value : Value) (pos index : Nat) :
    (value.inner pos index).length + 1 = value.count := by
  rw [← value.length_tokens pos index none, value.tokens_eq, List.length_cons]

theorem Value.root_stop (value : Value) (pos : Nat) (parent : Option Nat) :
    ∃ stop, (value.root pos parent).stop = some stop ∧
      stop ≤ pos + value.text.length := by
  cases value <;> simp [Value.root, Value.text, quoted] <;> omega

mutual
theorem Value.tokens_within {value : Value} (scannable : Scannable value)
    (pos index : Nat) (parent : Option Nat) :
    ∀ token ∈ value.tokens pos index parent,
      token.start < pos + value.text.length := by
  cases value with
  | string raw => simp [Value.tokens, Value.text, quoted]
  | primitive raw =>
      cases raw with
      | nil => simp [Scannable, Value.Lexical, isPrimitiveBody] at scannable
      | cons c tail => simp [Value.tokens, Value.text]
  | array items =>
      simp only [Value.tokens, Value.text, List.mem_cons, List.length_cons,
        List.length_append, List.length_nil]
      intro token member
      obtain rfl | inside := member
      · simp
      · have within := Items.tokens_within scannable _ _ _ token inside
        omega
  | object members =>
      simp only [Value.tokens, Value.text, List.mem_cons, List.length_cons,
        List.length_append, List.length_nil]
      intro token member
      obtain rfl | inside := member
      · simp
      · have within := Members.tokens_within scannable _ _ _ token inside
        omega

theorem Items.tokens_within {items : Items}
    (scannable : items.Lexical (isStringBody .plain) isPrimitiveBody)
    (pos index : Nat) (parent : Option Nat) :
    ∀ token ∈ items.tokens pos index parent,
      token.start < pos + items.text.length := by
  cases items with
  | nil gap => simp [Items.tokens]
  | cons before value after rest =>
      obtain ⟨_, valueScannable, _, restScannable⟩ := scannable
      simp only [Items.tokens, Items.text, List.mem_append, List.length_append]
      intro token member
      obtain inValue | inRest := member
      · have within := Value.tokens_within valueScannable _ _ _ token inValue
        omega
      · have within := Items.tokens_within restScannable _ _ _ token inRest
        omega

theorem Members.tokens_within {members : Members}
    (scannable : members.Lexical (isStringBody .plain) isPrimitiveBody)
    (pos index : Nat) (parent : Option Nat) :
    ∀ token ∈ members.tokens pos index parent,
      token.start < pos + members.text.length := by
  cases members with
  | nil gap => simp [Members.tokens]
  | cons before key keyGap valueGap value after rest =>
      obtain ⟨_, _, _, _, valueScannable, _, restScannable⟩ := scannable
      simp only [Members.tokens, Members.text, quoted, List.mem_cons, List.mem_append,
        List.length_append, List.length_cons, List.length_nil]
      intro token member
      obtain rfl | inValue | inRest := member
      · dsimp only
        omega
      · have within := Value.tokens_within valueScannable _ _ _ token inValue
        omega
      · have within := Members.tokens_within restScannable _ _ _ token inRest
        omega
end

end Json

/-- The index of the value of the first member with the given key text, when the token
of the first key has the index `index`. -/
def Json.Members.locate (key : Bytes) (index : Nat) : Members → Option Nat
  | .nil _ => none
  | .cons _ name _ _ value _ rest =>
      if name = key then some (index + 1) else rest.locate key (index + 1 + value.count)

/-- The tokens from `index` on begin with those of a value whose text stands in the
reply where these tokens say; the token after them starts behind that text. -/
def Placed (json : Bytes) (tokens : List JsmnToken) (value : Value) (index : Nat) : Prop :=
  ∃ before after earlier later parent,
    json = before ++ (value.text ++ after) ∧
    tokens = earlier ++ (value.tokens before.length index parent ++ later) ∧
    earlier.length = index ∧
    ∀ token ∈ later.head?, before.length + value.text.length ≤ token.start

theorem Placed.getElem? {json : Bytes} {tokens : List JsmnToken} {value : Value}
    {index : Nat} (placed : Placed json tokens value index) :
    ∃ before after parent, json = before ++ (value.text ++ after) ∧
      tokens[index]? = some (value.root before.length parent) := by
  obtain ⟨before, after, earlier, later, parent, text, split, length, _⟩ := placed
  refine ⟨before, after, parent, text, ?_⟩
  rw [split, value.tokens_eq, ← length]
  simp

theorem takeWhile_startsBefore {stop : Nat} {inside later : List JsmnToken}
    (within : ∀ token ∈ inside, token.start < stop)
    (beyond : ∀ token ∈ later.head?, stop ≤ token.start) :
    (inside ++ later).takeWhile (startsBefore (some stop)) = inside := by
  rw [List.takeWhile_append_of_pos (by simpa [startsBefore] using within)]
  cases later with
  | nil => simp
  | cons head tail =>
      have notBefore : startsBefore (some stop) head = false := by
        simpa [startsBefore] using beyond head (by simp)
      simp [notBefore]

theorem Json.Value.inner_within {value : Value} (scannable : Scannable value)
    {pos index stop : Nat} {parent : Option Nat}
    (stops : (value.root pos parent).stop = some stop) :
    ∀ token ∈ value.inner pos index, token.start < stop := by
  cases value with
  | string raw => simp [Value.inner]
  | primitive raw => simp [Value.inner]
  | array items =>
      intro token member
      have within := Items.tokens_within scannable _ _ _ token member
      simp only [Value.root, Option.some.injEq] at stops
      omega
  | object members =>
      intro token member
      have within := Members.tokens_within scannable _ _ _ token member
      simp only [Value.root, Option.some.injEq] at stops
      omega

theorem nextTokenIndex_placed {json : Bytes} {tokens : List JsmnToken} {value : Value}
    {index : Nat} (placed : Placed json tokens value index)
    (scannable : Scannable value) :
    nextTokenIndex tokens index = index + value.count := by
  obtain ⟨before, after, earlier, later, parent, _, split, length, beyond⟩ := placed
  obtain ⟨stop, stops, bound⟩ := value.root_stop before.length parent
  have found : tokens[index]? = some (value.root before.length parent) := by
    rw [split, value.tokens_eq, ← length]
    simp
  have remaining : tokens.drop (index + 1) = value.inner before.length index ++ later := by
    rw [split, value.tokens_eq, ← length]
    simp
  have counted := value.length_inner before.length index
  simp only [nextTokenIndex, found, Option.bind_some, stops, remaining]
  rw [takeWhile_startsBefore (value.inner_within scannable stops)
    fun token member => Nat.le_trans bound (beyond token member)]
  omega

theorem findObjectValueLoop_skip (json : Bytes) (tokens : List JsmnToken)
    (objectIndex : Nat) (stop : Option Nat) (key : Bytes) (remaining : List JsmnToken)
    (skip i : Nat) :
    findObjectValueLoop json tokens objectIndex stop key remaining skip i =
      findObjectValueLoop json tokens objectIndex stop key (remaining.drop skip) 0
        (i + skip) := by
  induction remaining generalizing skip i with
  | nil => simp [findObjectValueLoop]
  | cons head tail induction =>
      cases skip with
      | zero => rfl
      | succ skip =>
          rw [findObjectValueLoop, induction, List.drop_succ_cons, Nat.add_right_comm,
            Nat.add_assoc]

theorem tokenText_slice {before raw after : Bytes} {type : JsmnType}
    {parent : Option Nat} :
    tokenText (before ++ (raw ++ after))
      ⟨type, before.length, some (before.length + raw.length), parent⟩ = some raw := by
  simp [tokenText]

theorem head?_append_beyond {bound : Nat} {first second : List JsmnToken}
    (inFirst : ∀ token ∈ first.head?, bound ≤ token.start)
    (inSecond : ∀ token ∈ second.head?, bound ≤ token.start) :
    ∀ token ∈ (first ++ second).head?, bound ≤ token.start := by
  cases first with
  | nil => exact inSecond
  | cons head tail => simpa using inFirst

theorem Json.Value.root_start (value : Value) (pos : Nat) (parent : Option Nat) :
    pos ≤ (value.root pos parent).start := by
  cases value <;> simp [Value.root]

theorem Json.Members.tokens_head (members : Members) (pos index : Nat)
    (parent : Option Nat) :
    ∀ token ∈ (members.tokens pos index parent).head?, pos ≤ token.start := by
  cases members with
  | nil gap => simp [Members.tokens]
  | cons before key keyGap valueGap value after rest =>
      simp [Members.tokens]
      omega

theorem Json.Items.tokens_head (items : Items) (pos index : Nat)
    (parent : Option Nat) :
    ∀ token ∈ (items.tokens pos index parent).head?, pos ≤ token.start := by
  cases items with
  | nil gap => simp [Items.tokens]
  | cons before value after rest =>
      have start := value.root_start (pos + before.length) parent
      simp only [Items.tokens, value.tokens_eq, List.cons_append, List.head?_cons,
        Option.mem_some_iff, forall_eq']
      omega

theorem drop_tokens {tokens earlier later : List JsmnToken} {value : Value}
    {pos index : Nat} {parent : Option Nat}
    (split : tokens = earlier ++ (value.tokens pos index parent ++ later))
    (length : earlier.length = index) :
    tokens.drop index =
      value.root pos parent :: (value.inner pos index ++ tokens.drop (index + value.count)) := by
  have behind : tokens.drop (index + value.count) = later := by
    rw [split, ← length, List.drop_append, List.drop_of_length_le (by omega),
      List.nil_append, Nat.add_sub_cancel_left,
      ← value.length_tokens pos earlier.length parent, List.drop_left]
  rw [behind, split, ← length, List.drop_left, value.tokens_eq, List.cons_append]

section Contents

variable {json : Bytes} {tokens : List JsmnToken} {index stop container : Nat}

/-- The elements of an array whose text ends at `stop`, from the one on whose first token
has the index `index`. -/
def ItemsPlaced (json : Bytes) (tokens : List JsmnToken) (items : Items)
    (index container stop : Nat) : Prop :=
  ∃ before after earlier later,
    json = before ++ (items.text ++ after) ∧
    tokens = earlier ++ (items.tokens before.length index (some container) ++ later) ∧
    earlier.length = index ∧ before.length + items.text.length < stop ∧
    ∀ token ∈ later.head?, stop ≤ token.start

def MembersPlaced (json : Bytes) (tokens : List JsmnToken) (members : Members)
    (index container stop : Nat) : Prop :=
  ∃ before after earlier later,
    json = before ++ (members.text ++ after) ∧
    tokens = earlier ++ (members.tokens before.length index (some container) ++ later) ∧
    earlier.length = index ∧ before.length + members.text.length < stop ∧
    ∀ token ∈ later.head?, stop ≤ token.start

theorem Placed.items {items : Items} (placed : Placed json tokens (.array items) index) :
    ∃ pos stop parent, tokens[index]? = some ⟨.array, pos, some stop, parent⟩ ∧
      ItemsPlaced json tokens items (index + 1) index stop := by
  obtain ⟨before, after, earlier, later, parent, text, split, length, beyond⟩ := placed
  have textLength : (Value.array items).text.length = items.text.length + 2 := by
    simp [Value.text]
  rw [Value.tokens_eq, Value.root, Value.inner] at split
  refine ⟨before.length, before.length + (items.text.length + 2), parent, ?_,
    before ++ [byte '['], byte ']' :: after,
    earlier ++ [(Value.array items).root before.length parent], later, ?_, ?_, ?_, ?_, ?_⟩
  · rw [split, ← length]
    simp
  · simp [text, Value.text]
  · simp [split, Value.root]
  · simp [length]
  · simp only [List.length_append, List.length_singleton]
    omega
  · rw [← textLength]
    exact beyond

theorem Placed.members {members : Members}
    (placed : Placed json tokens (.object members) index) :
    ∃ pos stop parent, tokens[index]? = some ⟨.object, pos, some stop, parent⟩ ∧
      MembersPlaced json tokens members (index + 1) index stop := by
  obtain ⟨before, after, earlier, later, parent, text, split, length, beyond⟩ := placed
  have textLength : (Value.object members).text.length = members.text.length + 2 := by
    simp [Value.text]
  rw [Value.tokens_eq, Value.root, Value.inner] at split
  refine ⟨before.length, before.length + (members.text.length + 2), parent, ?_,
    before ++ [byte '{'], byte '}' :: after,
    earlier ++ [(Value.object members).root before.length parent], later, ?_, ?_, ?_, ?_, ?_⟩
  · rw [split, ← length]
    simp
  · simp [text, Value.text]
  · simp [split, Value.root]
  · simp [length]
  · simp only [List.length_append, List.length_singleton]
    omega
  · rw [← textLength]
    exact beyond

theorem ItemsPlaced.stops {gap : Bytes}
    (placed : ItemsPlaced json tokens (.nil gap) index container stop) :
    ∀ token ∈ (tokens.drop index).head?, stop ≤ token.start := by
  obtain ⟨_, _, earlier, later, _, split, length, _, beyond⟩ := placed
  rw [split, ← length, List.drop_left]
  exact beyond

theorem MembersPlaced.stops {gap : Bytes}
    (placed : MembersPlaced json tokens (.nil gap) index container stop) :
    ∀ token ∈ (tokens.drop index).head?, stop ≤ token.start := by
  obtain ⟨_, _, earlier, later, _, split, length, _, beyond⟩ := placed
  rw [split, ← length, List.drop_left]
  exact beyond

section FirstItem

variable {gap trail : Bytes} {value : Value} {rest : Items}

theorem ItemsPlaced.first
    (placed : ItemsPlaced json tokens (.cons gap value trail rest) index container stop) :
    Placed json tokens value index := by
  obtain ⟨before, after, earlier, later, text, split, length, inside, beyond⟩ := placed
  simp only [Items.text, List.length_append] at inside
  refine ⟨before ++ gap, trail ++ (rest.separator ++ (rest.text ++ after)), earlier,
    rest.tokens (before.length + gap.length + value.text.length + trail.length +
      rest.separator.length) (index + value.count) (some container) ++ later,
    some container, ?_, ?_, length, ?_⟩
  · simp [text, Items.text]
  · rw [split, Items.tokens]
    simp only [List.append_assoc, List.length_append]
  · rw [List.length_append]
    apply head?_append_beyond
    · intro token member
      have start := rest.tokens_head _ _ _ token member
      omega
    · intro token member
      have start := beyond token member
      omega

theorem ItemsPlaced.others
    (placed : ItemsPlaced json tokens (.cons gap value trail rest) index container stop) :
    ItemsPlaced json tokens rest (index + value.count) container stop := by
  obtain ⟨before, after, earlier, later, text, split, length, inside, beyond⟩ := placed
  have prior : (before ++ gap ++ value.text ++ trail ++ rest.separator).length =
      before.length + gap.length + value.text.length + trail.length +
        rest.separator.length := by
    simp only [List.length_append]
  simp only [Items.text, List.length_append] at inside
  refine ⟨before ++ gap ++ value.text ++ trail ++ rest.separator, after,
    earlier ++ value.tokens (before.length + gap.length) index (some container), later,
    ?_, ?_, ?_, ?_, beyond⟩
  · simp [text, Items.text]
  · rw [split, Items.tokens, prior]
    simp only [List.append_assoc]
  · rw [List.length_append, value.length_tokens, length]
  · omega

theorem ItemsPlaced.drop
    (placed : ItemsPlaced json tokens (.cons gap value trail rest) index container stop)
    (scannable : Scannable value) :
    ∃ pos, tokens.drop index = value.root pos (some container) ::
        (value.inner pos index ++ tokens.drop (index + value.count)) ∧
      startsBefore (some stop) (value.root pos (some container)) = true := by
  obtain ⟨before, after, earlier, later, text, split, length, inside, _⟩ := placed
  rw [Items.tokens, List.append_assoc] at split
  refine ⟨before.length + gap.length, drop_tokens split length, ?_⟩
  have start := value.tokens_within scannable (before.length + gap.length) index
    (some container) (value.root (before.length + gap.length) (some container))
    (by simp [value.tokens_eq])
  simp only [Items.text, List.length_append] at inside
  simp only [startsBefore, decide_eq_true_eq]
  omega

end FirstItem

section FirstMember

variable {gap name nameGap valueGap trail : Bytes} {value : Value} {rest : Members}

theorem MembersPlaced.first
    (placed : MembersPlaced json tokens
      (.cons gap name nameGap valueGap value trail rest) index container stop) :
    Placed json tokens value (index + 1) := by
  obtain ⟨before, after, earlier, later, text, split, length, inside, beyond⟩ := placed
  let prior := before ++ gap ++ quoted name ++ nameGap ++ [byte ':'] ++ valueGap
  have priorLength : prior.length = before.length + gap.length + (name.length + 2) +
      nameGap.length + 1 + valueGap.length := by
    simp [prior, quoted]
    omega
  simp only [Members.text, quoted, List.length_append, List.length_cons, List.length_nil]
    at inside
  refine ⟨prior, trail ++ (rest.separator ++ (rest.text ++ after)),
    earlier ++ [⟨.string, before.length + gap.length + 1,
      some (before.length + gap.length + 1 + name.length), some container⟩],
    rest.tokens (prior.length + value.text.length + trail.length + rest.separator.length)
      (index + 1 + value.count) (some container) ++ later, some container, ?_, ?_, ?_, ?_⟩
  · simp [text, Members.text, prior]
  · rw [split, Members.tokens, priorLength]
    simp only [List.append_assoc, List.cons_append, List.nil_append]
  · simp [length]
  · apply head?_append_beyond
    · intro token member
      have start := rest.tokens_head _ _ _ token member
      omega
    · intro token member
      have start := beyond token member
      omega

theorem MembersPlaced.others
    (placed : MembersPlaced json tokens
      (.cons gap name nameGap valueGap value trail rest) index container stop) :
    MembersPlaced json tokens rest (index + 1 + value.count) container stop := by
  obtain ⟨before, after, earlier, later, text, split, length, inside, beyond⟩ := placed
  let prior := before ++ gap ++ quoted name ++ nameGap ++ [byte ':'] ++ valueGap
  have priorLength : prior.length = before.length + gap.length + (name.length + 2) +
      nameGap.length + 1 + valueGap.length := by
    simp [prior, quoted]
    omega
  have passed : (prior ++ value.text ++ trail ++ rest.separator).length =
      before.length + gap.length + (name.length + 2) + nameGap.length + 1 +
        valueGap.length + value.text.length + trail.length + rest.separator.length := by
    simp only [List.length_append, priorLength]
  simp only [Members.text, quoted, List.length_append, List.length_cons, List.length_nil]
    at inside
  refine ⟨prior ++ value.text ++ trail ++ rest.separator, after,
    earlier ++ (⟨.string, before.length + gap.length + 1,
      some (before.length + gap.length + 1 + name.length), some container⟩ ::
        value.tokens prior.length (index + 1) (some container)), later, ?_, ?_, ?_, ?_, beyond⟩
  · simp [text, Members.text, prior]
  · rw [split, Members.tokens, passed, priorLength]
    simp only [List.append_assoc, List.cons_append]
  · simp only [List.length_append, List.length_cons, value.length_tokens, length]
    omega
  · omega

theorem MembersPlaced.key
    (placed : MembersPlaced json tokens
      (.cons gap name nameGap valueGap value trail rest) index container stop) :
    ∃ token, tokens.drop index = token :: tokens.drop (index + 1) ∧
      token.parent = some container ∧ token.type = .string ∧
      tokenText json token = some name ∧ startsBefore (some stop) token = true := by
  obtain ⟨before, after, earlier, later, text, split, length, inside, _⟩ := placed
  simp only [Members.text, quoted, List.length_append, List.length_cons, List.length_nil]
    at inside
  refine ⟨⟨.string, before.length + gap.length + 1,
    some (before.length + gap.length + 1 + name.length), some container⟩, ?_, rfl, rfl, ?_, ?_⟩
  · rw [split, Members.tokens, ← length, List.drop_left, List.cons_append,
      List.drop_append, List.drop_of_length_le (by omega), Nat.add_sub_cancel_left]
    rfl
  · have shape : json = (before ++ gap ++ [byte '"']) ++ (name ++ (byte '"' ::
        (nameGap ++ byte ':' :: (valueGap ++ (value.text ++
          (trail ++ (rest.separator ++ (rest.text ++ after)))))))) := by
      simp [text, Members.text, quoted]
    have position : before.length + gap.length + 1 =
        (before ++ gap ++ [byte '"']).length := by
      simp [Nat.add_assoc]
    rw [shape, position]
    exact tokenText_slice
  · simp only [startsBefore, decide_eq_true_eq]
    omega

end FirstMember

theorem findObjectValueLoop_members {members : Members}
    (scannable : members.Lexical (isStringBody .plain) isPrimitiveBody) (key : Bytes)
    {index stop objectIndex : Nat}
    (placed : MembersPlaced json tokens members index objectIndex stop) :
    (members.find key = none ∧ members.locate key index = none ∧
      findObjectValueLoop json tokens objectIndex (some stop) key (tokens.drop index) 0
        index = none) ∨
    ∃ value i, members.find key = some value ∧ Scannable value ∧
      members.locate key index = some i ∧
      findObjectValueLoop json tokens objectIndex (some stop) key (tokens.drop index) 0
        index = some i ∧ Placed json tokens value i := by
  cases members with
  | nil gap =>
      left
      refine ⟨rfl, rfl, ?_⟩
      have beyond := placed.stops
      cases later : tokens.drop index with
      | nil => rfl
      | cons token others =>
          have notBefore : startsBefore (some stop) token = false := by
            simpa [startsBefore, later] using beyond
          simp [findObjectValueLoop, notBefore]
  | cons gap name nameGap valueGap value trail rest =>
      obtain ⟨_, _, _, _, valueScannable, _, restScannable⟩ := scannable
      obtain ⟨nameToken, drop, child, isString, named, early⟩ := placed.key
      have valuePlaced := placed.first
      rw [drop, findObjectValueLoop, early]
      simp only [Bool.not_true, Bool.false_eq_true, if_false, child, isString, and_self,
        if_true, tokenEquals, named]
      by_cases same : name = key
      · right
        refine ⟨value, index + 1, by simp [Members.find, same], valueScannable,
          by simp [Members.locate, same], ?_, valuePlaced⟩
        obtain ⟨_, _, _, _, found⟩ := valuePlaced.getElem?
        obtain ⟨inRange, _⟩ := List.getElem?_eq_some_iff.mp found
        simp [same, inRange]
      · have skip : nextTokenIndex tokens (index + 1) - (index + 1) = value.count := by
          rw [nextTokenIndex_placed valuePlaced valueScannable, Nat.add_sub_cancel_left]
        have different : ¬ (some name == some key) = true := by simpa using same
        rw [if_neg different, skip, findObjectValueLoop_skip, List.drop_drop]
        simp only [Members.find, Members.locate, same, if_false]
        exact findObjectValueLoop_members restScannable key placed.others

end Contents

theorem findObjectValue_located {json : Bytes} {tokens : List JsmnToken}
    {members : Members} {index : Nat} (key : Bytes)
    (placed : Placed json tokens (.object members) index)
    (scannable : Scannable (.object members)) :
    (members.find key = none ∧ members.locate key (index + 1) = none ∧
      findObjectValue json tokens index key = none) ∨
    ∃ value i, members.find key = some value ∧ Scannable value ∧
      members.locate key (index + 1) = some i ∧
      findObjectValue json tokens index key = some i ∧ Placed json tokens value i := by
  obtain ⟨_, _, _, found, inside⟩ := placed.members
  simp only [findObjectValue, found, Option.bind_some]
  exact findObjectValueLoop_members scannable key inside

theorem findObjectValue_placed {json : Bytes} {tokens : List JsmnToken}
    {members : Members} {index : Nat} (key : Bytes)
    (placed : Placed json tokens (.object members) index)
    (scannable : Scannable (.object members)) :
    (members.find key = none ∧ findObjectValue json tokens index key = none) ∨
    ∃ value i, members.find key = some value ∧ Scannable value ∧
      findObjectValue json tokens index key = some i ∧ Placed json tokens value i := by
  obtain ⟨absent, _, missing⟩ | ⟨value, i, found, valueScannable, _, indexed, valuePlaced⟩ :=
    findObjectValue_located key placed scannable
  · exact .inl ⟨absent, missing⟩
  · exact .inr ⟨value, i, found, valueScannable, indexed, valuePlaced⟩

/-- What the token of a value spans: a string without its quotes, anything else
whole. -/
def Json.Value.content : Value → Bytes
  | .string raw => raw
  | value => value.text

theorem tokenText_root (value : Value) (before after : Bytes) (parent : Option Nat) :
    tokenText (before ++ (value.text ++ after)) (value.root before.length parent) =
      some value.content := by
  cases value with
  | string raw =>
      have shape : before ++ ((Value.string raw).text ++ after) =
          (before ++ [byte '"']) ++ (raw ++ (byte '"' :: after)) := by
        simp [Value.text, quoted]
      have position : (Value.string raw).root before.length parent =
          ⟨.string, (before ++ [byte '"']).length,
            some ((before ++ [byte '"']).length + raw.length), parent⟩ := by
        simp [Value.root]
      rw [shape, position]
      exact tokenText_slice
  | primitive raw => exact tokenText_slice
  | array items =>
      have length : (Value.array items).text.length = items.text.length + 2 := by
        simp [Value.text]
      simp only [Value.root, ← length]
      exact tokenText_slice
  | object members =>
      have length : (Value.object members).text.length = members.text.length + 2 := by
        simp [Value.text]
      simp only [Value.root, ← length]
      exact tokenText_slice

theorem findToken_none {json : Bytes} {tokens : List JsmnToken} {members : Members}
    {index : Nat} {key : Bytes} (placed : Placed json tokens (.object members) index)
    (scannable : Scannable (.object members)) (absent : members.find key = none) :
    findToken json tokens index key = none := by
  obtain ⟨_, missing⟩ | ⟨value, i, found, _⟩ := findObjectValue_placed key placed scannable
  · simp [findToken, missing]
  · simp [absent] at found

theorem findToken_some {json : Bytes} {tokens : List JsmnToken} {members : Members}
    {index : Nat} {key : Bytes} {value : Value}
    (placed : Placed json tokens (.object members) index)
    (scannable : Scannable (.object members)) (present : members.find key = some value) :
    ∃ token, findToken json tokens index key = some token ∧
      tokenText json token = some value.content := by
  obtain ⟨absent, _⟩ | ⟨value', i, found, _, indexed, valuePlaced⟩ :=
    findObjectValue_placed key placed scannable
  · simp [absent] at present
  · obtain rfl : value' = value := by simpa [found] using present
    obtain ⟨before, after, parent, text, token⟩ := valuePlaced.getElem?
    refine ⟨value'.root before.length parent, ?_, ?_⟩
    · simp [findToken, indexed, token]
    · rw [text, tokenText_root]

theorem present_of_findToken {json : Bytes} {tokens : List JsmnToken} {members : Members}
    {index : Nat} {key : Bytes} {token : JsmnToken}
    (placed : Placed json tokens (.object members) index)
    (scannable : Scannable (.object members))
    (found : findToken json tokens index key = some token) :
    ∃ value, members.find key = some value ∧ tokenText json token = some value.content := by
  cases present : members.find key with
  | none =>
      rw [findToken_none placed scannable present] at found
      contradiction
  | some value =>
      obtain ⟨other, isOther, isText⟩ := findToken_some placed scannable present
      obtain rfl : other = token := Option.some.inj (isOther.symm.trans found)
      exact ⟨value, rfl, isText⟩

theorem placed_document {numTokens : Nat} {value : Value}
    (scannable : Scannable value) {before after : Bytes} (beforeGap : isGap before = true)
    (afterGap : isGap after = true) (room : value.count ≤ numTokens) :
    ∃ run, jsmnParse numTokens (before ++ (value.text ++ after)) = run ∧
      run.error = none ∧
      run.parser.tokens.head? = some (value.root before.length none) ∧
      Placed (before ++ (value.text ++ after)) run.parser.tokens value 0 := by
  refine ⟨_, jsmnParse_document scannable beforeGap afterGap room, rfl, ?_,
    before, after, [], [], none, rfl, by simp, rfl, by simp⟩
  simp [value.tokens_eq]

end HttpFs
