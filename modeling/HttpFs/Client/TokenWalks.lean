import HttpFs.Client.Listings
import HttpFs.Foundation.Logged
import HttpFs.Jsmn.Nesting
import HttpFs.Jsmn.Persistence

namespace HttpFs

open Logged

/-! The indices of the tokens that the walks of the client read. -/

/-- The loop of `next_token_index` at index `i`, on the tokens from there on. -/
def nextTokenLoopLogged (stop : Option Nat) : List JsmnToken → Nat → Logged Nat Nat
  | [], i => return i
  | token :: rest, i => do
      note i
      if startsBefore stop token then nextTokenLoopLogged stop rest (i + 1) else return i

def nextTokenIndexLogged (tokens : List JsmnToken) (index : Nat) : Logged Nat Nat := do
  note index
  nextTokenLoopLogged (tokens[index]?.bind fun token => token.stop)
    (tokens.drop (index + 1)) (index + 1)

def findObjectValueLoopLogged (json : Bytes) (tokens : List JsmnToken) (objectIndex : Nat)
    (stop : Option Nat) (key : Bytes) :
    List JsmnToken → Nat → Nat → Logged Nat (Option Nat)
  | [], _, _ => return none
  | _ :: rest, skip + 1, i =>
      findObjectValueLoopLogged json tokens objectIndex stop key rest skip (i + 1)
  | token :: rest, 0, i => do
      note i
      if !startsBefore stop token then
        return none
      else if token.parent = some objectIndex ∧ token.type = .string then
        if tokenEquals json token key then
          return if i + 1 < tokens.length then some (i + 1) else none
        else
          let next ← nextTokenIndexLogged tokens (i + 1)
          findObjectValueLoopLogged json tokens objectIndex stop key rest (next - (i + 1)) (i + 1)
      else
        findObjectValueLoopLogged json tokens objectIndex stop key rest 0 (i + 1)

def findObjectValueLogged (json : Bytes) (tokens : List JsmnToken) (objectIndex : Nat)
    (key : Bytes) : Logged Nat (Option Nat) := do
  note objectIndex
  findObjectValueLoopLogged json tokens objectIndex
    (tokens[objectIndex]?.bind fun token => token.stop) key
    (tokens.drop (objectIndex + 1)) 0 (objectIndex + 1)

/-- The part of the entry loop between its two uses of `i`; both values are looked for
before either is tested. -/
def dirEntryLogged (json : Bytes) (tokens : List JsmnToken) (i : Nat) :
    Logged Nat (Option HttpfsDirEntry) := do
  let nameIndex ← findObjectValueLogged json tokens i (ascii "name")
  let typeIndex ← findObjectValueLogged json tokens i (ascii "type")
  match nameIndex, typeIndex with
  | some nameIndex, some typeIndex =>
      note nameIndex
      match tokens[nameIndex]?.bind fun token => tokenToString json token 256 with
      | none => return none
      | some name =>
          note typeIndex
          return (tokens[typeIndex]?.bind fun token => tokenToString json token 8).map
            fun type => ⟨name, type⟩
  | _, _ => return none

def listEntriesLogged (json : Bytes) (tokens : List JsmnToken) (entriesIndex : Nat)
    (arrayEnd : Option Nat) (maxEntries : Nat) :
    List JsmnToken → Nat → Nat → List HttpfsDirEntry →
      Logged Nat (Except HttpfsError (List HttpfsDirEntry))
  | [], _, _, entries => return .ok entries
  | _ :: rest, skip + 1, i, entries =>
      listEntriesLogged json tokens entriesIndex arrayEnd maxEntries rest skip (i + 1) entries
  | token :: rest, 0, i, entries => do
      note i
      if !startsBefore arrayEnd token then
        return .ok entries
      else if token.parent ≠ some entriesIndex ∨ token.type ≠ .object then
        listEntriesLogged json tokens entriesIndex arrayEnd maxEntries rest 0 (i + 1) entries
      else if entries.length ≥ maxEntries then
        return .error ⟨Errno.ENOBUFS, ascii "Directory entry buffer is too small"⟩
      else
        match ← dirEntryLogged json tokens i with
        | none => return .error ⟨Errno.EIO, ascii "Failed to parse directory entry"⟩
        | some entry =>
            let next ← nextTokenIndexLogged tokens i
            listEntriesLogged json tokens entriesIndex arrayEnd maxEntries rest
              (next - (i + 1)) (i + 1) (entries ++ [entry])

/-! The walks with a record return what the walks without one return. -/

theorem nextTokenLoopLogged_value (stop : Option Nat) (remaining : List JsmnToken) (i : Nat) :
    (nextTokenLoopLogged stop remaining i).value =
      i + (remaining.takeWhile (startsBefore stop)).length := by
  induction remaining generalizing i with
  | nil => rfl
  | cons token rest induction =>
      rw [nextTokenLoopLogged, value_bind]
      by_cases before : startsBefore stop token = true
      · rw [if_pos before, induction, List.takeWhile_cons_of_pos before, List.length_cons]
        omega
      · rw [if_neg before, List.takeWhile_cons_of_neg before]
        rfl

theorem nextTokenIndexLogged_value (tokens : List JsmnToken) (index : Nat) :
    (nextTokenIndexLogged tokens index).value = nextTokenIndex tokens index := by
  rw [nextTokenIndexLogged, value_bind, nextTokenLoopLogged_value]
  rfl

theorem findObjectValueLoopLogged_value (json : Bytes) (tokens : List JsmnToken)
    (objectIndex : Nat) (stop : Option Nat) (key : Bytes) (remaining : List JsmnToken)
    (skip i : Nat) :
    (findObjectValueLoopLogged json tokens objectIndex stop key remaining skip i).value =
      findObjectValueLoop json tokens objectIndex stop key remaining skip i := by
  induction remaining generalizing skip i with
  | nil => rfl
  | cons token rest induction =>
      cases skip with
      | succ skip => exact induction skip (i + 1)
      | zero =>
          rw [findObjectValueLoopLogged, value_bind, findObjectValueLoop]
          split
          · rfl
          · split
            · split
              · rfl
              · rw [value_bind, nextTokenIndexLogged_value]
                exact induction _ _
            · exact induction 0 (i + 1)

theorem findObjectValueLogged_value (json : Bytes) (tokens : List JsmnToken)
    (objectIndex : Nat) (key : Bytes) :
    (findObjectValueLogged json tokens objectIndex key).value =
      findObjectValue json tokens objectIndex key := by
  rw [findObjectValueLogged, value_bind, findObjectValueLoopLogged_value]
  rfl

theorem dirEntryLogged_value (json : Bytes) (tokens : List JsmnToken) (i : Nat) :
    (dirEntryLogged json tokens i).value = dirEntry json tokens i := by
  simp only [dirEntryLogged, value_bind, findObjectValueLogged_value, dirEntry, findToken,
    Option.bind_eq_bind]
  cases findObjectValue json tokens i (ascii "name") with
  | none => rfl
  | some nameIndex =>
      cases findObjectValue json tokens i (ascii "type") with
      | none =>
          simp only [Option.bind_some]
          cases tokens[nameIndex]? <;> rfl
      | some typeIndex =>
          simp only [value_bind, Option.bind_some]
          cases tokens[nameIndex]? with
          | none => rfl
          | some nameToken =>
              simp only [Option.bind_some]
              cases tokenToString json nameToken 256 with
              | none => cases tokens[typeIndex]? <;> rfl
              | some name =>
                  cases tokens[typeIndex]? with
                  | none => rfl
                  | some typeToken =>
                      simp only [value_bind, value_pure, Option.bind_some]
                      cases tokenToString json typeToken 8 <;> rfl

theorem listEntriesLogged_value (json : Bytes) (tokens : List JsmnToken) (entriesIndex : Nat)
    (arrayEnd : Option Nat) (maxEntries : Nat) (remaining : List JsmnToken) (skip i : Nat)
    (entries : List HttpfsDirEntry) :
    (listEntriesLogged json tokens entriesIndex arrayEnd maxEntries remaining skip i
      entries).value =
      listEntries json tokens entriesIndex arrayEnd maxEntries remaining skip i entries := by
  induction remaining generalizing skip i entries with
  | nil => rfl
  | cons token rest induction =>
      cases skip with
      | succ skip => exact induction skip (i + 1) entries
      | zero =>
          rw [listEntriesLogged, value_bind, listEntries]
          split
          · rfl
          · split
            · exact induction 0 (i + 1) entries
            · split
              · rfl
              · rw [value_bind, dirEntryLogged_value]
                cases dirEntry json tokens i with
                | none => rfl
                | some entry =>
                    simp only [value_bind, nextTokenIndexLogged_value]
                    exact induction _ _ _

/-! What a walk through nested tokens comes to. -/

namespace Nested

variable {tokens : List JsmnToken}

end Nested

section Keys

variable {json key : Bytes} {child : JsmnToken} {rest : List JsmnToken}

end Keys

section Children

variable {tokens : List JsmnToken} {index : Nat} {token : JsmnToken}

end Children

section Walk

variable {json : Bytes} {tokens : List JsmnToken} {objectIndex : Nat} {container : JsmnToken}
  {key : Bytes}

end Walk

section Entries

variable {json : Bytes} {tokens : List JsmnToken} {arrayIndex i : Nat}

end Entries

end HttpFs
