import HttpFs.Client.Operations
import HttpFs.Foundation.Formats

namespace HttpFs

/-! The bodies that the client posts, as calls of `snprintf`. -/

def pathCall (escapedPath : Bytes) : FormatCall where
  size := HTTPFS_MAX_PATH * 2 + 64
  pieces := [.literal "\x7b\"path\":\"", .string escapedPath, .literal "\"\x7d"]

def pathModeCall (escapedPath : Bytes) (mode : Int64) : FormatCall where
  size := HTTPFS_MAX_PATH * 2 + 64
  pieces := [.literal "\x7b\"path\":\"", .string escapedPath, .literal "\",\"mode\":", .long mode,
    .literal "\x7d"]

def renameCall (escapedOld escapedNew : Bytes) : FormatCall where
  size := HTTPFS_MAX_PATH * 4 + 64
  pieces := [.literal "\x7b\"old_path\":\"", .string escapedOld, .literal "\",\"new_path\":\"",
    .string escapedNew, .literal "\"\x7d"]

def truncateCall (escapedPath : Bytes) (size : Int64) : FormatCall where
  size := HTTPFS_MAX_PATH * 2 + 64
  pieces := [.literal "\x7b\"path\":\"", .string escapedPath, .literal "\",\"size\":", .long size,
    .literal "\x7d"]

def utimensCall (escapedPath : Bytes) (atime mtime : Timespec) : FormatCall where
  size := HTTPFS_MAX_PATH * 2 + 256
  pieces := [.literal "\x7b\"path\":\"", .string escapedPath,
    .literal "\",\"atime_sec\":", .long atime.tvSec, .literal ",\"atime_nsec\":",
    .long atime.tvNsec, .literal ",\"mtime_sec\":", .long mtime.tvSec,
    .literal ",\"mtime_nsec\":", .long mtime.tvNsec, .literal "\x7d"]

section Stored

variable (escapedPath : Bytes)

theorem pathBody_stored : pathBody escapedPath = (pathCall escapedPath).stored := by
  simp [pathBody, pathCall, FormatCall.stored, FormatCall.whole, Piece.print]

theorem pathModeBody_stored (mode : Int64) :
    pathModeBody escapedPath mode.toInt = (pathModeCall escapedPath mode).stored := by
  simp [pathModeBody, pathModeCall, FormatCall.stored, FormatCall.whole, Piece.print]

theorem renameBody_stored (escapedNew : Bytes) :
    renameBody escapedPath escapedNew = (renameCall escapedPath escapedNew).stored := by
  simp [renameBody, renameCall, FormatCall.stored, FormatCall.whole, Piece.print]

theorem truncateBody_stored (size : Int64) :
    truncateBody escapedPath size = (truncateCall escapedPath size).stored := by
  simp [truncateBody, truncateCall, FormatCall.stored, FormatCall.whole, Piece.print]

theorem utimensBody_stored (atime mtime : Timespec) :
    utimensBody escapedPath atime mtime = (utimensCall escapedPath atime mtime).stored := by
  simp [utimensBody, utimensCall, FormatCall.stored, FormatCall.whole, Piece.print]

end Stored

theorem length_escapePath {path escapedPath : Bytes}
    (built : escapePath path = some escapedPath) : escapedPath.length < 8192 :=
  jsonEscapeString_length built

theorem escaped_of_map {α : Type} {path : Bytes} {format : Bytes → α} {made : α}
    (mapped : (escapePath path).map format = some made) :
    ∃ escapedPath, escapePath path = some escapedPath ∧ made = format escapedPath := by
  obtain ⟨escapedPath, isEscaped, equal⟩ := Option.map_eq_some_iff.mp mapped
  exact ⟨escapedPath, isEscaped, equal.symm⟩

section Fits

variable {path escapedPath : Bytes}

/-- A body with one path fits when the longest escaped path does. -/
theorem fits_of_path {call : FormatCall} {room : Nat}
    (built : escapePath path = some escapedPath) (fixed : call.fixedRoom = room)
    (strings : call.stringsLength = escapedPath.length) (roomy : room + 8191 < call.size) :
    call.Fits := by
  have short := length_escapePath built
  exact FormatCall.fits_of_room (by omega)

theorem pathCall_fits (built : escapePath path = some escapedPath) :
    (pathCall escapedPath).Fits := by
  have fixed : (pathCall escapedPath).fixedRoom = 11 := by
    simp [pathCall, FormatCall.fixedRoom, Piece.fixedRoom, ascii]
  have strings : (pathCall escapedPath).stringsLength = escapedPath.length := by
    simp [pathCall, FormatCall.stringsLength, Piece.stringLength]
  exact fits_of_path built fixed strings (by simp [pathCall, HTTPFS_MAX_PATH])

theorem pathModeCall_fits (built : escapePath path = some escapedPath) (mode : Int64) :
    (pathModeCall escapedPath mode).Fits := by
  have fixed : (pathModeCall escapedPath mode).fixedRoom = 39 := by
    simp [pathModeCall, FormatCall.fixedRoom, Piece.fixedRoom, ascii]
  have strings : (pathModeCall escapedPath mode).stringsLength = escapedPath.length := by
    simp [pathModeCall, FormatCall.stringsLength, Piece.stringLength]
  exact fits_of_path built fixed strings (by simp [pathModeCall, HTTPFS_MAX_PATH])

theorem truncateCall_fits (built : escapePath path = some escapedPath) (size : Int64) :
    (truncateCall escapedPath size).Fits := by
  have fixed : (truncateCall escapedPath size).fixedRoom = 39 := by
    simp [truncateCall, FormatCall.fixedRoom, Piece.fixedRoom, ascii]
  have strings : (truncateCall escapedPath size).stringsLength = escapedPath.length := by
    simp [truncateCall, FormatCall.stringsLength, Piece.stringLength]
  exact fits_of_path built fixed strings (by simp [truncateCall, HTTPFS_MAX_PATH])

theorem utimensCall_fits (built : escapePath path = some escapedPath) (atime mtime : Timespec) :
    (utimensCall escapedPath atime mtime).Fits := by
  have fixed : (utimensCall escapedPath atime mtime).fixedRoom = 145 := by
    simp [utimensCall, FormatCall.fixedRoom, Piece.fixedRoom, ascii]
  have strings : (utimensCall escapedPath atime mtime).stringsLength = escapedPath.length := by
    simp [utimensCall, FormatCall.stringsLength, Piece.stringLength]
  exact fits_of_path built fixed strings (by simp [utimensCall, HTTPFS_MAX_PATH])

theorem renameCall_fits {newPath escapedNew : Bytes} (built : escapePath path = some escapedPath)
    (builtNew : escapePath newPath = some escapedNew) :
    (renameCall escapedPath escapedNew).Fits := by
  have size : (renameCall escapedPath escapedNew).size = 16448 := rfl
  have fixed : (renameCall escapedPath escapedNew).fixedRoom = 29 := by
    simp [renameCall, FormatCall.fixedRoom, Piece.fixedRoom, ascii]
  have strings : (renameCall escapedPath escapedNew).stringsLength =
      escapedPath.length + escapedNew.length := by
    simp [renameCall, FormatCall.stringsLength, Piece.stringLength]
  have short := length_escapePath built
  have shortNew := length_escapePath builtNew
  exact FormatCall.fits_of_room (by omega)

end Fits

end HttpFs
