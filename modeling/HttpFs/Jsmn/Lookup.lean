import HttpFs.Jsmn.Placement

namespace HttpFs

open Json

/-! The values of a document, each with the index of its token. -/

namespace Json

mutual
def Value.nodes (index : Nat) : Value → List (Nat × Value)
  | .string raw => [(index, .string raw)]
  | .primitive raw => [(index, .primitive raw)]
  | .array items => (index, .array items) :: items.nodes (index + 1)
  | .object members => (index, .object members) :: members.nodes (index + 1)

def Items.nodes (index : Nat) : Items → List (Nat × Value)
  | .nil _ => []
  | .cons _ value _ rest => value.nodes index ++ rest.nodes (index + value.count)

def Members.nodes (index : Nat) : Members → List (Nat × Value)
  | .nil _ => []
  | .cons _ _ _ _ value _ rest =>
      value.nodes (index + 1) ++ rest.nodes (index + 1 + value.count)
end

end Json

variable {json : Bytes} {tokens : List JsmnToken}

mutual
theorem Json.Value.nodes_placed {value : Value} (scannable : Scannable value) {index : Nat}
    (placed : Placed json tokens value index) :
    ∀ node ∈ value.nodes index, Scannable node.2 ∧ Placed json tokens node.2 node.1 := by
  intro node member
  cases value with
  | string raw =>
      obtain rfl := List.mem_singleton.mp member
      exact ⟨scannable, placed⟩
  | primitive raw =>
      obtain rfl := List.mem_singleton.mp member
      exact ⟨scannable, placed⟩
  | array items =>
      obtain rfl | inside := List.mem_cons.mp member
      · exact ⟨scannable, placed⟩
      · obtain ⟨_, _, _, _, itemsPlaced⟩ := placed.items
        exact Items.nodes_placed scannable itemsPlaced node inside
  | object members =>
      obtain rfl | inside := List.mem_cons.mp member
      · exact ⟨scannable, placed⟩
      · obtain ⟨_, _, _, _, membersPlaced⟩ := placed.members
        exact Members.nodes_placed scannable membersPlaced node inside

theorem Json.Items.nodes_placed {items : Items}
    (scannable : items.Lexical (isStringBody .plain) isPrimitiveBody)
    {index container stop : Nat}
    (placed : ItemsPlaced json tokens items index container stop) :
    ∀ node ∈ items.nodes index, Scannable node.2 ∧ Placed json tokens node.2 node.1 := by
  intro node member
  cases items with
  | nil gap => contradiction
  | cons gap value trail rest =>
      obtain ⟨_, valueScannable, _, restScannable⟩ := scannable
      obtain inValue | inRest := List.mem_append.mp member
      · exact Value.nodes_placed valueScannable placed.first node inValue
      · exact Items.nodes_placed restScannable placed.others node inRest

theorem Json.Members.nodes_placed {members : Members}
    (scannable : members.Lexical (isStringBody .plain) isPrimitiveBody)
    {index container stop : Nat}
    (placed : MembersPlaced json tokens members index container stop) :
    ∀ node ∈ members.nodes index, Scannable node.2 ∧ Placed json tokens node.2 node.1 := by
  intro node member
  cases members with
  | nil gap => contradiction
  | cons gap name nameGap valueGap value trail rest =>
      obtain ⟨_, _, _, _, valueScannable, _, restScannable⟩ := scannable
      obtain inValue | inRest := List.mem_append.mp member
      · exact Value.nodes_placed valueScannable placed.first node inValue
      · exact Members.nodes_placed restScannable placed.others node inRest
end

theorem Json.Members.locate_node {members : Members} {key : Bytes} {index i : Nat}
    (located : members.locate key index = some i) :
    ∃ value, members.find key = some value ∧ (i, value) ∈ members.nodes index := by
  cases members with
  | nil gap => contradiction
  | cons gap name nameGap valueGap value trail rest =>
      simp only [Members.locate] at located
      simp only [Members.find, Members.nodes, List.mem_append]
      by_cases same : name = key
      · rw [if_pos same, Option.some.injEq] at located
        rw [if_pos same]
        refine ⟨value, rfl, .inl ?_⟩
        rw [← located]
        cases value <;> simp [Value.nodes]
      · rw [if_neg same] at located
        rw [if_neg same]
        obtain ⟨found, isFound, node⟩ := locate_node located
        exact ⟨found, isFound, .inr node⟩

end HttpFs
