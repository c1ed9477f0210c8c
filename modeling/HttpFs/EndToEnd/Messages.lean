import HttpFs.Client.Bodies
import HttpFs.Provider.Handlers

namespace HttpFs

open CProvider

/-! The texts that are formatted without a look at what `snprintf` returns. -/

/-- `stat_to_json` for the array that `handle_meta` allocates. -/
def statCall (path : Bytes) (status : Stat) : FormatCall where
  size := path.length + 256
  pieces := [.literal "\x7b\"status\":\"ok\",\"meta\":\x7b\"path\":\"", .string path,
    .literal "\",\"type\":\"",
    .string (if isDirectory status then ascii "dir" else ascii "file"),
    .literal "\",\"mode\":", .word status.mode, .literal ",\"size\":", .long status.size,
    .literal ",\"uid\":", .word status.uid, .literal ",\"gid\":", .word status.gid,
    .literal ",\"nlink\":", .unsignedLong status.nlink,
    .literal ",\"atime\":", .long status.atime, .literal ",\"mtime\":", .long status.mtime,
    .literal ",\"ctime\":", .long status.ctime, .literal "\x7d\x7d"]

theorem statToJson_stored (path : Bytes) (status : Stat) :
    statToJson path status (path.length + 256) = (statCall path status).stored := by
  simp [statToJson, statCall, FormatCall.stored, FormatCall.whole, Piece.print]

theorem statCall_fits (path : Bytes) (status : Stat) : (statCall path status).Fits := by
  have size : (statCall path status).size = path.length + 256 := rfl
  have fixed : (statCall path status).fixedRoom = 240 := by
    simp [statCall, FormatCall.fixedRoom, Piece.fixedRoom, ascii]
  have type : (if isDirectory status then ascii "dir" else ascii "file").length ≤ 4 := by
    split <;> decide
  have strings : (statCall path status).stringsLength =
      path.length + (if isDirectory status then ascii "dir" else ascii "file").length := by
    simp [statCall, FormatCall.stringsLength, Piece.stringLength]
  exact FormatCall.fits_of_room (by omega)

/-- A text with the arguments of the function that formats it; a mode of `post_path_only` is
a `long`. -/
inductive FormattedMessage where
  | stat (path : Bytes) (status : Stat)
  | pathOnly (path : Bytes)
  | pathMode (path : Bytes) (mode : Int64)
  | rename (oldPath newPath : Bytes)
  | truncate (path : Bytes) (size : Int64)
  | times (path : Bytes) (atime mtime : Timespec)
  deriving DecidableEq

namespace FormattedMessage

/-- There is no call when `json_escape_string` refuses a path. -/
def call : FormattedMessage → Option FormatCall
  | stat path status => some (statCall path status)
  | pathOnly path => (escapePath path).map pathCall
  | pathMode path mode => (escapePath path).map (pathModeCall · mode)
  | rename oldPath newPath =>
      (escapePath oldPath).bind fun escapedOld => (escapePath newPath).map (renameCall escapedOld)
  | truncate path size => (escapePath path).map (truncateCall · size)
  | times path atime mtime => (escapePath path).map (utimensCall · atime mtime)

/-- What the provider answers with, or what the client posts, is this text. -/
def Carries (text : Bytes) : FormattedMessage → Prop
  | stat path status => statToJson path status (path.length + 256) = text
  | pathOnly path => ∀ {σ : Type} (curl : Curl σ) client endpoint,
      postPathOnly curl client endpoint path none =
        postBody curl client endpoint text (ascii "Request returned a non-200 status")
  | pathMode path mode => ∀ {σ : Type} (curl : Curl σ) client endpoint,
      postPathOnly curl client endpoint path (some mode.toInt) =
        postBody curl client endpoint text (ascii "Request returned a non-200 status")
  | rename oldPath newPath => ∀ {σ : Type} (curl : Curl σ) client,
      httpfsRenamePath curl client oldPath newPath =
        postBody curl client (ascii "/v1/rename") text
          (ascii "Rename request returned a non-200 status")
  | truncate path size => ∀ {σ : Type} (curl : Curl σ) client,
      httpfsTruncateFile curl client path size =
        postBody curl client (ascii "/v1/truncate") text
          (ascii "Truncate request returned a non-200 status")
  | times path atime mtime => ∀ {σ : Type} (curl : Curl σ) client,
      httpfsUpdateTimes curl client path (some (atime, mtime)) =
        postBody curl client (ascii "/v1/utimens") text
          (ascii "Utimens request returned a non-200 status")

end FormattedMessage

/-- Every text and its NUL fit in the array, and so it is carried whole. -/
theorem formattedMessage_whole {message : FormattedMessage} {call : FormatCall}
    (isCall : message.call = some call) :
    call.returned + 1 ≤ call.size ∧ message.Carries call.whole := by
  cases message with
  | stat path status =>
      obtain rfl := Option.some.inj isCall
      have fits := statCall_fits path status
      exact ⟨fits, (statToJson_stored path status).trans fits.stored_eq⟩
  | pathOnly path =>
      obtain ⟨escapedPath, isEscaped, rfl⟩ := escaped_of_map isCall
      have fits := pathCall_fits isEscaped
      refine ⟨fits, ?_⟩
      intro σ curl client endpoint
      rw [← fits.stored_eq, ← pathBody_stored]
      simp only [postPathOnly, isEscaped]
      rfl
  | pathMode path mode =>
      obtain ⟨escapedPath, isEscaped, rfl⟩ := escaped_of_map isCall
      have fits := pathModeCall_fits isEscaped mode
      refine ⟨fits, ?_⟩
      intro σ curl client endpoint
      rw [← fits.stored_eq, ← pathModeBody_stored]
      simp only [postPathOnly, isEscaped]
      rfl
  | rename oldPath newPath =>
      obtain ⟨escapedOld, isOld, rest⟩ := Option.bind_eq_some_iff.mp isCall
      obtain ⟨escapedNew, isNew, rfl⟩ := escaped_of_map rest
      have fits := renameCall_fits isOld isNew
      refine ⟨fits, ?_⟩
      intro σ curl client
      rw [← fits.stored_eq, ← renameBody_stored]
      simp only [httpfsRenamePath, isOld, isNew]
      rfl
  | truncate path size =>
      obtain ⟨escapedPath, isEscaped, rfl⟩ := escaped_of_map isCall
      have fits := truncateCall_fits isEscaped size
      refine ⟨fits, ?_⟩
      intro σ curl client
      rw [← fits.stored_eq, ← truncateBody_stored]
      simp only [httpfsTruncateFile, isEscaped]
      rfl
  | times path atime mtime =>
      obtain ⟨escapedPath, isEscaped, rfl⟩ := escaped_of_map isCall
      have fits := utimensCall_fits isEscaped atime mtime
      refine ⟨fits, ?_⟩
      intro σ curl client
      rw [← fits.stored_eq, ← utimensBody_stored]
      simp only [httpfsUpdateTimes, isEscaped]
      rfl

/-- The record with the longest numbers; its text leaves 11 bytes of the array unused. -/
def widestStat : Stat :=
  ⟨0xffffffff, 0xffffffffffffffff, .minValue, 0xffffffff, 0xffffffff, .minValue, .minValue,
    .minValue⟩

theorem formattedMessage_whole_widest :
    (statCall (ascii "/a") widestStat).returned = 246 ∧
      (statCall (ascii "/a") widestStat).returned + 1 ≤ 258 ∧
      statToJson (ascii "/a") widestStat 258 = (statCall (ascii "/a") widestStat).whole := by
  have whole := @formattedMessage_whole (.stat (ascii "/a") widestStat) _ rfl
  refine ⟨?_, whole⟩
  decide +kernel

end HttpFs
