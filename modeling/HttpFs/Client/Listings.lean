import Mathlib.Data.List.Forall2
import HttpFs.Client.OkDocuments
import HttpFs.Client.Operations
import HttpFs.Foundation.JsonStrings

namespace HttpFs

open Json

/-! Directory listings as the client reads them. -/

theorem isStringBody_of_denotes {raw text : Bytes} (denotes : Denotes raw text) :
    isStringBody .plain raw = true := by
  have four {digits rest : Bytes} {value : Nat} (coded : codeUnit digits = some value) :
      isStringBody (.unicode 3) (digits ++ rest) = isStringBody .plain rest := by
    obtain ⟨_, _, _, _, rfl⟩ := codeUnit_digits coded
    rfl
  have unicode (rest : Bytes) : isStringBody .plain (byte '\\' :: byte 'u' :: rest) =
      isStringBody (.unicode 3) rest :=
    rfl
  induction denotes with
  | nil => rfl
  | plain _ notQuote notEscape _ induction =>
      rw [isStringBody, if_neg notQuote, if_neg notEscape]
      exact induction
  | @escape letter _ _ _ escaped _ induction =>
      have simple := of_table (p := fun c => !(escapeValue c).isSome || isSimpleEscape c)
        (by decide +kernel) letter
      rw [escaped, Option.isSome_some, Bool.not_true, Bool.false_or] at simple
      rw [isStringBody, if_neg (by decide), if_pos rfl, isStringBody, if_pos simple]
      exact induction
  | unicode coded _ induction => rw [unicode, four coded, induction]
  | surrogates highCoded lowCoded _ _ _ _ induction =>
      rw [unicode, four highCoded, unicode, four lowCoded, induction]

/-- A value that carries the fields of an entry as they stand between the quotes. -/
def IsEntry (value : Value) (entry : HttpfsDirEntry) : Prop :=
  ∃ members, value = .object members ∧
    members.find (ascii "name") = some (.string entry.name) ∧
    members.find (ascii "type") = some (.string entry.type)

def EntryFits (entry : HttpfsDirEntry) : Prop :=
  entry.name.length < 256 ∧ entry.type.length < 8

instance (entry : HttpfsDirEntry) : Decidable (EntryFits entry) :=
  inferInstanceAs (Decidable (_ ∧ _))

theorem tokenToString_eq_of_text {json text : Bytes} {token : JsmnToken} {outputSize : Nat}
    (isText : tokenText json token = some text) :
    tokenToString json token outputSize =
      if text.length < outputSize then some text else none := by
  by_cases fits : text.length < outputSize
  · rw [tokenToString_of_text isText fits, if_pos fits]
  · simp only [tokenToString, isText]
    rw [if_pos (by omega), if_neg fits]

theorem dirEntry_placed {json : Bytes} {tokens : List JsmnToken} {value : Value}
    {entry : HttpfsDirEntry} {i : Nat} (placed : Placed json tokens value i)
    (scannable : Scannable value) (isEntry : IsEntry value entry) :
    dirEntry json tokens i = if EntryFits entry then some entry else none := by
  obtain ⟨members, rfl, name, type⟩ := isEntry
  obtain ⟨nameToken, nameFound, nameText⟩ := findToken_some placed scannable name
  obtain ⟨typeToken, typeFound, typeText⟩ := findToken_some placed scannable type
  change tokenText json nameToken = some entry.name at nameText
  change tokenText json typeToken = some entry.type at typeText
  simp only [dirEntry, nameFound, typeFound, Option.bind_eq_bind, Option.bind_some,
    tokenToString_eq_of_text nameText, tokenToString_eq_of_text typeText]
  by_cases shortName : entry.name.length < 256
  · by_cases shortType : entry.type.length < 8
    · rw [if_pos shortName, if_pos shortType, if_pos ⟨shortName, shortType⟩]
      rfl
    · rw [if_pos shortName, if_neg shortType, if_neg fun both : EntryFits entry => shortType both.2]
      rfl
  · rw [if_neg shortName, if_neg fun both : EntryFits entry => shortName both.1]
    rfl

theorem listEntries_skip (json : Bytes) (tokens : List JsmnToken) (entriesIndex : Nat)
    (arrayEnd : Option Nat) (maxEntries : Nat) (remaining : List JsmnToken) (skip i : Nat)
    (stored : List HttpfsDirEntry) :
    listEntries json tokens entriesIndex arrayEnd maxEntries remaining skip i stored =
      listEntries json tokens entriesIndex arrayEnd maxEntries (remaining.drop skip) 0
        (i + skip) stored := by
  induction remaining generalizing skip i with
  | nil => simp [listEntries]
  | cons head tail induction =>
      cases skip with
      | zero => rfl
      | succ skip =>
          rw [listEntries, induction, List.drop_succ_cons, Nat.add_right_comm, Nat.add_assoc]

def storeEntries (maxEntries : Nat) : List HttpfsDirEntry → List HttpfsDirEntry →
    Except HttpfsError (List HttpfsDirEntry)
  | stored, [] => .ok stored
  | stored, entry :: listing =>
      if stored.length ≥ maxEntries then
        .error ⟨Errno.ENOBUFS, ascii "Directory entry buffer is too small"⟩
      else if EntryFits entry then
        storeEntries maxEntries (stored ++ [entry]) listing
      else
        .error ⟨Errno.EIO, ascii "Failed to parse directory entry"⟩

theorem storeEntries_fitting {maxEntries : Nat} {stored listing : List HttpfsDirEntry}
    (within : stored.length ≤ maxEntries) (fit : ∀ entry ∈ listing, EntryFits entry) :
    storeEntries maxEntries stored listing =
      if stored.length + listing.length ≤ maxEntries then .ok (stored ++ listing)
      else .error ⟨Errno.ENOBUFS, ascii "Directory entry buffer is too small"⟩ := by
  induction listing generalizing stored with
  | nil => simp [storeEntries, within]
  | cons entry listing induction =>
      rw [storeEntries]
      by_cases full : stored.length ≥ maxEntries
      · rw [if_pos full, if_neg (by simp only [List.length_cons]; omega)]
      · rw [if_neg full, if_pos (fit entry (by simp)),
          induction (by simp only [List.length_append, List.length_singleton]; omega)
            fun other member => fit other (by simp [member])]
        simp [Nat.add_assoc, Nat.add_comm 1]

theorem storeEntries_ok {maxEntries : Nat} {stored listing entries : List HttpfsDirEntry}
    (accepted : storeEntries maxEntries stored listing = .ok entries) :
    ∀ entry ∈ listing, EntryFits entry := by
  induction listing generalizing stored with
  | nil => simp
  | cons entry listing induction =>
      rw [storeEntries] at accepted
      split at accepted
      · contradiction
      · split at accepted
        · next fits =>
          intro other member
          obtain rfl | later := List.mem_cons.mp member
          · exact fits
          · exact induction accepted other later
        · contradiction

theorem listEntries_items {json : Bytes} {tokens : List JsmnToken} {items : Items}
    (scannable : items.Lexical (isStringBody .plain) isPrimitiveBody)
    {index stop entriesIndex maxEntries : Nat} {listing stored : List HttpfsDirEntry}
    (placed : ItemsPlaced json tokens items index entriesIndex stop)
    (isListing : List.Forall₂ IsEntry items.toList listing) :
    listEntries json tokens entriesIndex (some stop) maxEntries (tokens.drop index) 0 index
        stored = storeEntries maxEntries stored listing := by
  cases items with
  | nil gap =>
      obtain rfl : listing = [] := by cases isListing; rfl
      have beyond := placed.stops
      cases later : tokens.drop index with
      | nil => rfl
      | cons token others =>
          have notBefore : startsBefore (some stop) token = false := by
            simpa [startsBefore, later] using beyond
          simp [listEntries, notBefore, storeEntries]
  | cons gap value trail rest =>
      obtain ⟨_, valueScannable, _, restScannable⟩ := scannable
      obtain ⟨entry, listing, isEntry, isRest, rfl⟩ : ∃ entry others,
          IsEntry value entry ∧ List.Forall₂ IsEntry rest.toList others ∧
            listing = entry :: others := by
        simp only [Items.toList] at isListing
        cases isListing with
        | cons head tail => exact ⟨_, _, head, tail, rfl⟩
      obtain ⟨pos, drop, early⟩ := placed.drop valueScannable
      have isObject : (value.root pos (some entriesIndex)).parent = some entriesIndex ∧
          (value.root pos (some entriesIndex)).type = .object := by
        obtain ⟨_, rfl, _⟩ := isEntry
        exact ⟨rfl, rfl⟩
      have counted := value.length_inner pos index
      have skip : nextTokenIndex tokens index - (index + 1) =
          (value.inner pos index).length := by
        rw [nextTokenIndex_placed placed.first valueScannable]
        omega
      have next : index + 1 + (value.inner pos index).length = index + value.count := by
        omega
      rw [drop, listEntries, early, storeEntries]
      simp only [isObject, Bool.not_true, Bool.false_eq_true, if_false, ne_eq, not_true,
        or_self]
      by_cases full : stored.length ≥ maxEntries
      · rw [if_pos full, if_pos full]
      · rw [if_neg full, if_neg full, dirEntry_placed placed.first valueScannable isEntry]
        by_cases fits : EntryFits entry
        · simp only [if_pos fits]
          rw [listEntries_skip, skip, List.drop_left, next]
          exact listEntries_items restScannable placed.others isRest
        · simp only [if_neg fits]

theorem parseEntries_placed {json : Bytes} {tokens : List JsmnToken} {members : Members}
    {items : Items} {listing : List HttpfsDirEntry}
    (placed : Placed json tokens (.object members) 0)
    (scannable : Scannable (.object members))
    (entries : members.find (ascii "entries") = some (.array items))
    (isListing : List.Forall₂ IsEntry items.toList listing) (maxEntries : Nat) :
    parseEntries json tokens maxEntries = storeEntries maxEntries [] listing := by
  obtain ⟨absent, _⟩ | ⟨value, index, found, isScannable, indexed, arrayPlaced⟩ :=
    findObjectValue_placed (ascii "entries") placed scannable
  · rw [entries] at absent
    contradiction
  · obtain rfl : Value.array items = value := by simpa [entries] using found
    obtain ⟨_, _, _, array, inside⟩ := arrayPlaced.items
    simp only [parseEntries, indexed, array, ne_eq, not_true, if_false]
    exact listEntries_items isScannable inside isListing

end HttpFs
